import ApmAgent.Report.PayloadItemSerializer
import Mathlib.Data.List.Induction

/-! # The labels of a transaction or span

  `SetLabel` writes into one dictionary, the obsolete property `Labels` is
  another one, and reading `MergedDictionary` copies the second into the first.
  A removal from `Labels` does not see what was copied before.

  * `serialized_labels`: the labels that are sent have for a key the string it
    has in `Labels`, and otherwise what `SetLabel` gave it last, whatever was
    written, removed and read in between, unless the key was removed after a
    read had copied it.
-/

namespace ApmAgent

open Api

/-! ### Operations -/

inductive LabelOperation where
  /-- `SetLabel`; the overloads convert their value to a `Label`. -/
  | setLabel (key : String) (value : Label)
  /-- `Labels[key] = value`. -/
  | setItem (key : String) (value : Option String)
  /-- `Labels.Remove(key)`. -/
  | remove (key : String)
  /-- `MergedDictionary` is read. -/
  | readMerged
  deriving DecidableEq

namespace LabelOperation

def apply (labels : LabelsDictionary) : LabelOperation → LabelsDictionary
  | setLabel key value => { labels with innerDictionary := labels.innerDictionary.set key value }
  | setItem key value => { labels with base := labels.base.set key value }
  | remove key => { labels with base := labels.base.remove key }
  -- The getter merges into `InnerDictionary` and returns it.
  | readMerged => { labels with innerDictionary := labels.mergedDictionary }

end LabelOperation

namespace Api.LabelsDictionary

/-- The labels after the operations, in their order. -/
def after (ops : List LabelOperation) : LabelsDictionary := ops.foldl LabelOperation.apply empty

theorem after_concat (ops : List LabelOperation) (op : LabelOperation) :
    after (ops ++ [op]) = op.apply (after ops) :=
  List.foldl_concat ..

/-- An entry of the old interface wins over a label. -/
theorem lookup_mergedDictionary (labels : LabelsDictionary) (key : String) :
    labels.mergedDictionary.lookup key =
      ((labels.base.lookup key).map Label.ofString).or (labels.innerDictionary.lookup key) := by
  have hkeys :
      (Entries.keys (labels.base.entries.map fun e => (e.1, Label.ofString e.2))).Nodup := by
    simpa [Entries.keys, Function.comp_def] using labels.base.nodup
  unfold mergedDictionary
  rw [Dict.lookup_setAll _ hkeys, Entries.lookup_map]
  rfl

end Api.LabelsDictionary

/-! ### What the operations say about a key -/

namespace LabelOperation

variable (key : String)

/-- What the operation leaves of the string `key` has in `Labels`. -/
def item (before : Option (Option String)) : LabelOperation → Option (Option String)
  | setItem k value => if key = k then some value else before
  | remove k => if key = k then none else before
  | setLabel _ _ | readMerged => before

/-- The string that was last assigned to `Labels[key]` and not removed since. -/
def lastItem (ops : List LabelOperation) : Option (Option String) := ops.foldl (item key) none

/-- What the operation leaves of the label that `SetLabel` gave `key`. -/
def label (before : Option Label) : LabelOperation → Option Label
  | setLabel k value => if key = k then some value else before
  | setItem _ _ | remove _ | readMerged => before

/-- What `SetLabel` gave `key` last. -/
def lastLabel (ops : List LabelOperation) : Option Label := ops.foldl (label key) none

/-- What the operation leaves of the last write to `key`. -/
def write (before : Option Label) : LabelOperation → Option Label
  | setLabel k value => if key = k then some value else before
  | setItem k value => if key = k then some (.ofString value) else before
  | remove k => if key = k then none else before
  | readMerged => before

/-- The value of the last operation on `key`, if that was not a removal. -/
def lastWrite (ops : List LabelOperation) : Option Label := ops.foldl (write key) none

/-- A read found `key` in `Labels`, and `SetLabel` has not given it a label since. -/
def Copied (ops : List LabelOperation) : Prop :=
  ∃ before after, ops = before ++ readMerged :: after ∧ (lastItem key before).isSome ∧
    ∀ value, setLabel key value ∉ after

/-- `key` was removed from `Labels` after a read. -/
def RemovedAfterRead (ops : List LabelOperation) : Prop :=
  Copied key ops ∧ lastItem key ops = none

variable {key}

theorem Copied.concat {ops : List LabelOperation} (h : Copied key ops) {op : LabelOperation}
    (hop : ∀ value, op ≠ setLabel key value) : Copied key (ops ++ [op]) := by
  obtain ⟨before, after, rfl, hitem, hafter⟩ := h
  refine ⟨before, after ++ [op], by simp, hitem, fun value hmem => ?_⟩
  rcases List.mem_append.mp hmem with hmem | hmem
  · exact hafter value hmem
  · exact hop value (List.mem_singleton.mp hmem).symm

end LabelOperation

/-! ### The two dictionaries -/

namespace Api.LabelsDictionary

open LabelOperation

variable (key : String)

/-- `Labels` has what was last assigned and not removed. -/
theorem lookup_base (ops : List LabelOperation) :
    (after ops).base.lookup key = lastItem key ops := by
  induction ops using List.reverseRecOn with
  | nil => rfl
  | append_singleton ops op ih =>
    have hlast : lastItem key (ops ++ [op]) = item key (lastItem key ops) op :=
      List.foldl_concat ..
    rw [after_concat, hlast, ← ih]
    cases op with
    | setLabel k value => rfl
    | setItem k value => exact Dict.lookup_set ..
    | remove k => exact Dict.lookup_remove ..
    | readMerged => rfl

/-- A key has in `InnerDictionary` what `SetLabel` gave it last, unless a read copied an entry of
    `Labels` over it. -/
theorem lookup_innerDictionary (ops : List LabelOperation) :
    (after ops).innerDictionary.lookup key = lastLabel key ops ∨ Copied key ops := by
  induction ops using List.reverseRecOn with
  | nil => exact Or.inl rfl
  | append_singleton ops op ih =>
    have hlast : lastLabel key (ops ++ [op]) = label key (lastLabel key ops) op :=
      List.foldl_concat ..
    rw [after_concat, hlast]
    cases op with
    | setLabel k value =>
      show ((after ops).innerDictionary.set k value).lookup key =
        (if key = k then some value else lastLabel key ops) ∨ _
      rw [Dict.lookup_set]
      by_cases hk : key = k
      · rw [if_pos hk, if_pos hk]
        exact Or.inl rfl
      · rw [if_neg hk, if_neg hk]
        refine ih.imp id fun hcopied => hcopied.concat fun value' heq => hk ?_
        cases heq
        rfl
    | setItem k value => exact ih.imp id fun hcopied => hcopied.concat (by simp)
    | remove k => exact ih.imp id fun hcopied => hcopied.concat (by simp)
    | readMerged =>
      show (after ops).mergedDictionary.lookup key = lastLabel key ops ∨ _
      rw [lookup_mergedDictionary, lookup_base]
      cases hitem : lastItem key ops with
      | none => exact ih.imp id fun hcopied => hcopied.concat (by simp)
      | some value =>
        exact Or.inr ⟨ops, [], rfl, by rw [hitem]; rfl, fun _ => List.not_mem_nil⟩

/-- The labels that are sent: for a key that was not removed from `Labels` after a read, the string
    it has there, and otherwise what `SetLabel` gave it last. -/
theorem serialized_labels (ops : List LabelOperation) :
    labelsJsonConverter (after ops) = .object ((after ops).mergedDictionary.entries.map fun e =>
        (replaceReserved (truncate e.1 propertyMaxLength), writeLabel e.2)) ∧
      ∀ key, ¬RemovedAfterRead key ops →
        (after ops).mergedDictionary.lookup key =
          ((lastItem key ops).map Label.ofString).or (lastLabel key ops) := by
  refine ⟨rfl, fun key hremoved => ?_⟩
  rw [lookup_mergedDictionary, lookup_base]
  cases hitem : lastItem key ops with
  | some value => rfl
  | none =>
    -- Nothing in `Labels`, so a copy would be one that was removed.
    rcases lookup_innerDictionary key ops with hlabel | hcopied
    · exact hlabel
    · exact absurd ⟨hcopied, hitem⟩ hremoved

/-- A label and a string under one key, with a read in between: the string is sent. -/
theorem serialized_labels_item :
    (after [.setLabel "k" ⟨some (.bool true)⟩, .readMerged,
        .setItem "k" (some "a")]).mergedDictionary.lookup "k" = some (.ofString (some "a")) := by
  have hlast : lastItem "k" [.setLabel "k" ⟨some (.bool true)⟩, .readMerged,
      .setItem "k" (some "a")] = some (some "a") := by decide
  have hpresent : ¬RemovedAfterRead "k" [.setLabel "k" ⟨some (.bool true)⟩, .readMerged,
      .setItem "k" (some "a")] := by
    rintro ⟨-, hnone⟩
    rw [hlast] at hnone
    exact Option.some_ne_none _ hnone
  rw [(serialized_labels _).2 "k" hpresent, hlast]
  rfl

/-- A label that is set after the string of the same key is not sent. -/
theorem serialized_labels_counterexample :
    (after [.setItem "k" (some "a"), .setLabel "k" ⟨some (.bool true)⟩]).mergedDictionary.lookup "k" ≠
      lastWrite "k" [.setItem "k" (some "a"), .setLabel "k" ⟨some (.bool true)⟩] := by
  decide

end Api.LabelsDictionary

end ApmAgent
