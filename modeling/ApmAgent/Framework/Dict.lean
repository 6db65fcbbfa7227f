import Mathlib.Data.List.Nodup

/-! # Dictionaries

  A dictionary that enumerates its entries in the order their keys were first
  set. Setting a key that is there replaces its value in place.

  The second half compares dictionaries that have the same keys in the same
  order and differ only in values a relation lets differ.
-/

universe u v w

/-! ### Lists of entries -/

namespace Entries

variable {κ : Type u} {ν : Type v}

/-- The keys in enumeration order. -/
def keys (es : List (κ × ν)) : List κ := es.map Prod.fst

section
variable [DecidableEq κ]

/-- The entries after `k` has been set to `v`. -/
def set (k : κ) (v : ν) : List (κ × ν) → List (κ × ν)
  | [] => [(k, v)]
  | e :: es => if e.1 = k then (k, v) :: es else e :: set k v es

theorem set_of_not_mem {k : κ} {es : List (κ × ν)} (h : k ∉ keys es) (v : ν) :
    set k v es = es ++ [(k, v)] := by
  induction es with
  | nil => rfl
  | cons e es ih =>
    simp only [keys, List.map_cons, List.mem_cons, not_or] at h
    rw [set, if_neg (Ne.symm h.1), ih h.2, List.cons_append]

theorem keys_set (k : κ) (v : ν) (es : List (κ × ν)) :
    keys (set k v es) = if k ∈ keys es then keys es else keys es ++ [k] := by
  by_cases hmem : k ∈ keys es
  · rw [if_pos hmem]
    induction es with
    | nil => simp [keys] at hmem
    | cons e es ih =>
      by_cases hk : e.1 = k
      · simp [set, keys, hk]
      · have hrest : k ∈ keys es := by
          simpa [keys, Ne.symm hk] using hmem
        rw [set, if_neg hk]
        simpa [keys] using ih hrest
  · rw [if_neg hmem, set_of_not_mem hmem]
    simp [keys]

theorem nodup_keys_set {es : List (κ × ν)} (h : (keys es).Nodup) (k : κ) (v : ν) :
    (keys (set k v es)).Nodup := by
  rw [keys_set]
  split_ifs with hmem
  · exact h
  · -- The key that is appended was not there.
    exact List.nodup_append.mpr ⟨h, List.nodup_singleton k, by
      rintro a ha b hb rfl
      rw [List.mem_singleton] at hb
      exact hmem (hb ▸ ha)⟩

theorem lookup_cons (e : κ × ν) (es : List (κ × ν)) (k : κ) :
    (e :: es).lookup k = if k = e.1 then some e.2 else es.lookup k := by
  rw [List.lookup_cons]
  by_cases hk : k = e.1
  · rw [if_pos hk, hk, beq_self_eq_true]
  · rw [if_neg hk, beq_false_of_ne hk]

theorem lookup_set (k k' : κ) (v : ν) (es : List (κ × ν)) :
    (set k v es).lookup k' = if k' = k then some v else es.lookup k' := by
  induction es with
  | nil => exact lookup_cons (k, v) [] k'
  | cons e es ih =>
    unfold set
    by_cases he : e.1 = k
    · -- The entry is replaced in place.
      rw [if_pos he, lookup_cons, lookup_cons, he]
      by_cases hk : k' = k
      · rw [if_pos hk, if_pos hk]
      · rw [if_neg hk, if_neg hk, if_neg hk]
    · rw [if_neg he, lookup_cons, lookup_cons, ih]
      by_cases hk : k' = e.1
      · rw [if_pos hk, if_neg (hk ▸ he), if_pos hk]
      · rw [if_neg hk, if_neg hk]

theorem lookup_filter_ne (k k' : κ) (es : List (κ × ν)) :
    (es.filter fun e => e.1 ≠ k).lookup k' = if k' = k then none else es.lookup k' := by
  induction es with
  | nil => exact (ite_self none).symm
  | cons e es ih =>
    by_cases he : e.1 = k
    · rw [List.filter_cons_of_neg (by simpa using he), ih, lookup_cons, he]
      by_cases hk : k' = k
      · rw [if_pos hk, if_pos hk]
      · rw [if_neg hk, if_neg hk, if_neg hk]
    · rw [List.filter_cons_of_pos (by simpa using he), lookup_cons, lookup_cons, ih]
      by_cases hk : k' = e.1
      · rw [if_pos hk, if_neg (hk ▸ he), if_pos hk]
      · rw [if_neg hk, if_neg hk]

theorem lookup_eq_some_iff {es : List (κ × ν)} (h : (keys es).Nodup) {k : κ} {v : ν} :
    es.lookup k = some v ↔ (k, v) ∈ es := by
  induction es with
  | nil => simp
  | cons e es ih =>
    obtain ⟨hnew, hes⟩ := List.nodup_cons.mp h
    rw [lookup_cons, List.mem_cons]
    by_cases hk : k = e.1
    · -- No other entry has this key.
      have hnone : (k, v) ∉ es := fun hmem => hnew (hk ▸ List.mem_map_of_mem hmem)
      rw [if_pos hk, or_iff_left hnone, Option.some.injEq]
      constructor
      · rintro rfl
        rw [hk]
      · rintro rfl
        rfl
    · rw [if_neg hk, ih hes, or_iff_right fun heq => hk (congrArg Prod.fst heq)]

/-- Values that are converted one by one are looked up and then converted. -/
theorem lookup_map {β : Type w} (f : ν → β) (es : List (κ × ν)) (k : κ) :
    (es.map fun e => (e.1, f e.2)).lookup k = (es.lookup k).map f := by
  induction es with
  | nil => rfl
  | cons e es ih =>
    rw [List.map_cons, lookup_cons, lookup_cons, ih]
    split_ifs
    · rfl
    · rfl

end

/-! ### Agreement up to some values -/

/-- The same keys in the same order, and under each key equal values or two values that `R` lets
    differ there. -/
def EqualUpTo (R : κ → ν → ν → Prop) : List (κ × ν) → List (κ × ν) → Prop :=
  List.Forall₂ fun e e' => e.1 = e'.1 ∧ (e.2 = e'.2 ∨ R e.1 e.2 e'.2)

variable {R : κ → ν → ν → Prop} {es es' : List (κ × ν)}

/-- What is computed from the entries one by one, without telling apart the values that `R` lets
    differ, comes out the same. -/
theorem EqualUpTo.map_eq {β : Type w} (h : EqualUpTo R es es') {f : κ × ν → β}
    (hf : ∀ k v v', R k v v' → f (k, v) = f (k, v')) : es.map f = es'.map f := by
  induction h with
  | nil => rfl
  | @cons e e' es es' hhead _ ih =>
    obtain ⟨k, v⟩ := e
    obtain ⟨k', v'⟩ := e'
    obtain ⟨rfl, hval⟩ := hhead
    simp only [List.map_cons, ih, List.cons.injEq, and_true]
    rcases hval with heq | hR
    · rw [show v = v' from heq]
    · exact hf k v v' hR

/-- What is computed from the entries one by one and does tell values apart comes out the same
    only if the entries are the same. -/
theorem EqualUpTo.eq_of_map_eq {β : Type w} (h : EqualUpTo R es es') {f : κ × ν → β}
    (hf : ∀ k v v', f (k, v) = f (k, v') → v = v') (hmap : es.map f = es'.map f) : es = es' := by
  induction h with
  | nil => rfl
  | @cons e e' es es' hhead _ ih =>
    obtain ⟨k, v⟩ := e
    obtain ⟨k', v'⟩ := e'
    obtain ⟨rfl, -⟩ := hhead
    simp only [List.map_cons, List.cons.injEq] at hmap
    rw [ih hmap.2, hf k v v' hmap.1]

end Entries

/-! ### Agreement of optional values -/

section
variable {α : Type u} {β : Type v} {γ : Type w} {δ : Type*} {r : α → β → Prop}
  {a : Option α} {b : Option β}

theorem optionRel_map {s : γ → δ → Prop} {f : α → γ} {g : β → δ}
    (hfg : ∀ x y, r x y → s (f x) (g y)) (h : Option.Rel r a b) :
    Option.Rel s (a.map f) (b.map g) := by
  cases h with
  | some hxy => exact .some (hfg _ _ hxy)
  | none => exact .none

theorem optionRel_map_eq {f : α → γ} {g : β → γ} (hfg : ∀ x y, r x y → f x = g y)
    (h : Option.Rel r a b) : a.map f = b.map g := by
  cases h with
  | some hxy => exact congrArg some (hfg _ _ hxy)
  | none => rfl

end

/-! ### Dictionaries -/

/-- `Dictionary<κ, ν>`. -/
structure Dict (κ : Type u) (ν : Type v) where
  entries : List (κ × ν)
  /-- A key has one entry. -/
  nodup : (Entries.keys entries).Nodup
  deriving DecidableEq

namespace Dict

variable {κ : Type u} {ν : Type v}

def empty : Dict κ ν := ⟨[], List.nodup_nil⟩

/-- The dictionary with one entry. -/
def singleton (k : κ) (v : ν) : Dict κ ν := ⟨[(k, v)], List.nodup_singleton k⟩

def count (d : Dict κ ν) : Nat := d.entries.length

theorem ext {d d' : Dict κ ν} (h : d.entries = d'.entries) : d = d' := by
  obtain ⟨entries, _⟩ := d
  obtain ⟨entries', _⟩ := d'
  cases h
  rfl

section
variable [DecidableEq κ]

/-- `d[k] = v`. -/
def set (d : Dict κ ν) (k : κ) (v : ν) : Dict κ ν :=
  ⟨Entries.set k v d.entries, Entries.nodup_keys_set d.nodup k v⟩

/-- `foreach (var item in es) d[item.Key] = item.Value;` -/
def setAll (d : Dict κ ν) (es : List (κ × ν)) : Dict κ ν :=
  es.foldl (fun d e => d.set e.1 e.2) d

/-- Entries with new keys go behind those that are there. -/
theorem setAll_entries {d : Dict κ ν} {es : List (κ × ν)}
    (h : (Entries.keys (d.entries ++ es)).Nodup) :
    (d.setAll es).entries = d.entries ++ es := by
  -- The dictionary grows, so the hypothesis is about all entries, set and to be set.
  induction es generalizing d with
  | nil => simp [setAll]
  | cons e es ih =>
    have hnew : e.1 ∉ Entries.keys d.entries := by
      simp only [Entries.keys, List.map_append, List.map_cons] at h
      exact fun hmem => (List.disjoint_of_nodup_append h) hmem List.mem_cons_self
    have hset : (d.set e.1 e.2).entries = d.entries ++ [e] := Entries.set_of_not_mem hnew e.2
    have hall := ih (d := d.set e.1 e.2) (by rw [hset]; simpa using h)
    rw [hset] at hall
    simpa [setAll] using hall

/-- A dictionary filled with the entries of another one, in their order, has the same entries. -/
theorem setAll_empty (d : Dict κ ν) : empty.setAll d.entries = d := by
  refine ext ?_
  rw [setAll_entries (by simpa [empty] using d.nodup)]
  rfl

theorem mem_keys_setAll {d : Dict κ ν} {es : List (κ × ν)} {k : κ} :
    k ∈ Entries.keys (d.setAll es).entries ↔ k ∈ Entries.keys d.entries ∨ k ∈ Entries.keys es := by
  induction es generalizing d with
  | nil => simp [setAll, Entries.keys]
  | cons e es ih =>
    show k ∈ Entries.keys ((d.set e.1 e.2).setAll es).entries ↔ _
    have hkeys : k ∈ Entries.keys (d.set e.1 e.2).entries ↔
        k ∈ Entries.keys d.entries ∨ k = e.1 := by
      show k ∈ Entries.keys (Entries.set e.1 e.2 d.entries) ↔ _
      rw [Entries.keys_set]
      split_ifs with hmem
      · exact ⟨Or.inl, fun h => h.elim id fun heq => heq ▸ hmem⟩
      · rw [List.mem_append, List.mem_singleton]
    have hcons : k ∈ Entries.keys (e :: es) ↔ k = e.1 ∨ k ∈ Entries.keys es := List.mem_cons
    rw [ih, hkeys, hcons, or_assoc]

/-! ### Looking keys up -/

/-- `TryGetValue`. -/
def lookup (d : Dict κ ν) (k : κ) : Option ν := d.entries.lookup k

/-- `Remove(k)`. What is asked of a dictionary after a removal does not depend on the place that
    the next new key takes. -/
def remove (d : Dict κ ν) (k : κ) : Dict κ ν :=
  ⟨d.entries.filter fun e => e.1 ≠ k, (List.filter_sublist.map Prod.fst).nodup d.nodup⟩

/-- `Add(k, v)`; null if the key is there. -/
def add? (d : Dict κ ν) (k : κ) (v : ν) : Option (Dict κ ν) :=
  if d.lookup k = none then some (d.set k v) else none

theorem lookup_set (d : Dict κ ν) (k k' : κ) (v : ν) :
    (d.set k v).lookup k' = if k' = k then some v else d.lookup k' :=
  Entries.lookup_set k k' v d.entries

theorem lookup_remove (d : Dict κ ν) (k k' : κ) :
    (d.remove k).lookup k' = if k' = k then none else d.lookup k' :=
  Entries.lookup_filter_ne k k' d.entries

theorem lookup_eq_some_iff {d : Dict κ ν} {k : κ} {v : ν} :
    d.lookup k = some v ↔ (k, v) ∈ d.entries :=
  Entries.lookup_eq_some_iff d.nodup

/-- Entries with pairwise different keys win over those that were there. -/
theorem lookup_setAll (d : Dict κ ν) {es : List (κ × ν)} (h : (Entries.keys es).Nodup) (k : κ) :
    (d.setAll es).lookup k = (es.lookup k).or (d.lookup k) := by
  induction es generalizing d with
  | nil => rfl
  | cons e es ih =>
    obtain ⟨hnew, hes⟩ := List.nodup_cons.mp h
    have hrest := ih (d.set e.1 e.2) hes
    rw [lookup_set] at hrest
    show ((d.set e.1 e.2).setAll es).lookup k = _
    rw [hrest, Entries.lookup_cons]
    by_cases hk : k = e.1
    · -- No later entry has this key.
      have hnone : es.lookup k = none := by
        rw [List.lookup_eq_none_iff]
        intro e' he'
        rw [bne_iff_ne, hk]
        rintro heq
        exact hnew (heq ▸ List.mem_map_of_mem he')
      rw [if_pos hk, if_pos hk, hnone]
      rfl
    · rw [if_neg hk, if_neg hk]

end

end Dict
