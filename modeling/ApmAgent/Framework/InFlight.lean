import ApmAgent.Framework.LTS
import Mathlib.Data.Set.Insert
import Mathlib.Logic.Function.Basic

/-! # Resources in flight

  A component opens a resource for a key when something starts, and closes it
  when that stops; in between it finds the resource in a table. The table
  tracks the resources if it holds exactly those that are open, each under one
  key.

  * `tracks_step_iff`: the only step that breaks this is one that opens a
    resource and does not put it into the table;
  * `exists_start_of_run`: what is in the table at the end of a run was put
    there by a start that no stop follows.
-/

universe u v w

/-- The table, and the resources that were opened and not closed. -/
@[ext]
structure InFlight (κ : Type u) (ρ : Type v) where
  table : κ → Option ρ
  opened : Set ρ

namespace InFlight

variable {κ : Type u} {ρ : Type v}

/-- The values of the table are exactly the open resources, each under one key. -/
structure Tracks (s : InFlight κ ρ) : Prop where
  values : ∀ r, r ∈ s.opened ↔ ∃ key, s.table key = some r
  unique : ∀ key key' r, s.table key = some r → s.table key' = some r → key = key'

/-- What can happen to the table and the resources. -/
inductive Action (κ : Type u) (ρ : Type v) where
  | idle
  /-- A resource is opened and put into the table. -/
  | put (key : κ) (r : ρ)
  /-- A resource is opened, and the table stays as it is. -/
  | lose (r : ρ)
  /-- The resource of a key is closed and removed from the table. -/
  | remove (key : κ) (r : ρ)

/-- A resource that is neither open nor in the table. -/
def Fresh (s : InFlight κ ρ) (r : ρ) : Prop := r ∉ s.opened ∧ ∀ key, s.table key ≠ some r

variable [DecidableEq κ]

/-- The state after an action, where it is possible. -/
inductive Step (s : InFlight κ ρ) : Action κ ρ → InFlight κ ρ → Prop where
  | idle : Step s .idle s
  | put {key : κ} {r : ρ} (hfresh : s.Fresh r) (hfree : s.table key = none) :
      Step s (.put key r) ⟨Function.update s.table key (some r), insert r s.opened⟩
  | lose {r : ρ} (hfresh : s.Fresh r) : Step s (.lose r) ⟨s.table, insert r s.opened⟩
  | remove {key : κ} {r : ρ} (hkey : s.table key = some r) :
      Step s (.remove key r) ⟨Function.update s.table key none, s.opened \ {r}⟩

theorem update_eq_some_iff {table : κ → Option ρ} {key key' : κ} {v : Option ρ}
    {r : ρ} :
    Function.update table key v key' = some r ↔
      (key' = key ∧ v = some r) ∨ (key' ≠ key ∧ table key' = some r) := by
  by_cases hsame : key' = key
  · subst hsame
    simp
  · rw [Function.update_of_ne hsame]
    simp [hsame]

theorem Tracks.put {s : InFlight κ ρ} (h : s.Tracks) {key : κ} {r : ρ} (hfresh : s.Fresh r)
    (hfree : s.table key = none) :
    Tracks ⟨Function.update s.table key (some r), insert r s.opened⟩ := by
  constructor
  · intro r'
    simp only [Set.mem_insert_iff, h.values r', update_eq_some_iff]
    constructor
    · rintro (rfl | ⟨key', hkey'⟩)
      · exact ⟨key, .inl ⟨rfl, rfl⟩⟩
      · refine ⟨key', .inr ⟨?_, hkey'⟩⟩
        rintro rfl
        rw [hfree] at hkey'
        cases hkey'
    · rintro ⟨key', ⟨_, ⟨rfl⟩⟩ | ⟨_, hkey'⟩⟩
      · exact .inl rfl
      · exact .inr ⟨key', hkey'⟩
  · intro key₁ key₂ r' h₁ h₂
    obtain ⟨rfl, ⟨rfl⟩⟩ | ⟨_, hold₁⟩ := update_eq_some_iff.mp h₁
    · obtain ⟨rfl, _⟩ | ⟨_, hold₂⟩ := update_eq_some_iff.mp h₂
      · rfl
      · exact absurd hold₂ (hfresh.2 key₂)
    · obtain ⟨rfl, ⟨rfl⟩⟩ | ⟨_, hold₂⟩ := update_eq_some_iff.mp h₂
      · exact absurd hold₁ (hfresh.2 key₁)
      · exact h.unique key₁ key₂ r' hold₁ hold₂

theorem Tracks.remove {s : InFlight κ ρ} (h : s.Tracks) {key : κ} {r : ρ}
    (hkey : s.table key = some r) :
    Tracks ⟨Function.update s.table key none, s.opened \ {r}⟩ := by
  have hothers (key' : κ) (r' : ρ) :
      Function.update s.table key none key' = some r' ↔ key' ≠ key ∧ s.table key' = some r' := by
    simp [update_eq_some_iff]
  constructor
  · intro r'
    simp only [Set.mem_sdiff, Set.mem_singleton_iff, h.values r', hothers]
    constructor
    · rintro ⟨⟨key', hkey'⟩, hne⟩
      refine ⟨key', ?_, hkey'⟩
      rintro rfl
      exact hne (Option.some.inj (hkey'.symm.trans hkey))
    · rintro ⟨key', hne, hkey'⟩
      refine ⟨⟨key', hkey'⟩, ?_⟩
      rintro rfl
      exact hne (h.unique key' key r' hkey' hkey)
  · intro key₁ key₂ r' h₁ h₂
    exact h.unique key₁ key₂ r' ((hothers key₁ r').mp h₁).2 ((hothers key₂ r').mp h₂).2

omit [DecidableEq κ] in
/-- An open resource that is not put into the table is lost for good. -/
theorem not_tracks_lose {s : InFlight κ ρ} {r : ρ} (hfresh : s.Fresh r) :
    ¬Tracks ⟨s.table, insert r s.opened⟩ := by
  intro h
  obtain ⟨key, hkey⟩ := (h.values r).mp (Set.mem_insert r s.opened)
  exact hfresh.2 key hkey

/-- Only a resource that is not put into the table breaks the tracking. -/
theorem tracks_step_iff {s s' : InFlight κ ρ} {a : Action κ ρ} (h : s.Tracks)
    (hstep : Step s a s') : s'.Tracks ↔ ∀ r, a ≠ .lose r := by
  cases hstep with
  | idle => exact ⟨fun _ => nofun, fun _ => h⟩
  | put hfresh hfree => exact ⟨fun _ => nofun, fun _ => h.put hfresh hfree⟩
  | lose hfresh =>
    exact ⟨fun htracks => absurd htracks (not_tracks_lose hfresh), fun hne => absurd rfl (hne _)⟩
  | remove hkey => exact ⟨fun _ => nofun, fun _ => h.remove hkey⟩

omit [DecidableEq κ] in
/-- What the table has for a key after a run was there before it, or was put there by a start;
    and no stop of the key has followed. -/
theorem exists_start_of_run {State : Type u} {Label : Type w} {sys : LTS.System State Label}
    {I : State → Prop} {g : State → Label → Prop} (entry : State → Option ρ)
    (isStart isStop : Label → Prop)
    (hinv : ∀ s l s', I s → sys.step s l = some s' → I s')
    (hstart : ∀ s l s', I s → sys.step s l = some s' → entry s = none → entry s' ≠ none →
      isStart l)
    (hstop : ∀ s l s', g s l → isStop l → sys.step s l = some s' → entry s' = none)
    {s s' : State} {ls : List Label} (hI : I s) (hg : sys.Along g s ls) (hrun : sys.run s ls = some s')
    (hkey : entry s' ≠ none) :
    (entry s ≠ none ∧ ∀ l ∈ ls, ¬isStop l) ∨
      ∃ before l after, ls = before ++ l :: after ∧ isStart l ∧ ∀ m ∈ after, ¬isStop m := by
  induction ls generalizing s with
  | nil =>
    cases hrun
    exact .inl ⟨hkey, nofun⟩
  | cons l ls ih =>
    obtain ⟨t, hstep, hrest⟩ := LTS.System.run_cons_eq_some.mp hrun
    obtain ⟨hl, hls⟩ := hg t hstep
    obtain ⟨hthere, hnone⟩ | ⟨before, m, after, rfl, hm, hafter⟩ := ih (hinv s l t hI hstep) hls hrest
    · by_cases hs : entry s = none
      · exact .inr ⟨[], l, ls, rfl, hstart s l t hI hstep hs hthere, hnone⟩
      · refine .inl ⟨hs, ?_⟩
        rintro m hm hstopped
        obtain rfl | hm := List.mem_cons.mp hm
        · exact hthere (hstop s m t hl hstopped hstep)
        · exact hnone m hm hstopped
    · exact .inr ⟨l :: before, m, after, rfl, hm, hafter⟩

end InFlight
