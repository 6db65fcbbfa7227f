import ApmAgent.Framework.LTS
import Mathlib.Logic.Function.Basic
import Mathlib.Logic.Relation

/-! # Components and lineages

  Components of one kind that take their steps one at a time, each on its own
  state, and items that appear in the course of a run, each as an origin or as
  the child of an item that is there already.

  * `family_always`: an invariant of the components and of the whole;
  * `Descends.exists_eq`: what children share with their parents, every item
    shares with its origin.
-/

universe u v w

namespace LTS

/-! ### Components -/

section Family

variable {ι : Type w} {State : Type u} {Label : Type v} [DecidableEq ι]

/-- Any number of components, one of which takes a step at a time. -/
def System.family (sys : ι → System State Label) : System (ι → State) (ι × Label) where
  init s := ∀ i, (sys i).init (s i)
  step s l := ((sys l.1).step (s l.1) l.2).map (Function.update s l.1)

variable {sys : ι → System State Label} {s s' : ι → State} {i : ι} {l : Label}

theorem System.family_step_eq_some :
    (family sys).step s (i, l) = some s' ↔
      ∃ t, (sys i).step (s i) l = some t ∧ s' = Function.update s i t := by
  simp only [family, Option.map_eq_some_iff, eq_comm]

/-- An invariant `P` of the components, and an invariant `Q` of the whole that may rely on it. -/
theorem System.family_always {P : State → Prop} {Q : (ι → State) → Prop}
    {g : (ι → State) → ι × Label → Prop}
    (hP : ∀ s i l t, (∀ j, P (s j)) → Q s → g s (i, l) → (sys i).step (s i) l = some t → P t)
    (hQ : ∀ s i l t, (∀ j, P (s j)) → Q s → g s (i, l) → (sys i).step (s i) l = some t →
      Q (Function.update s i t))
    (hs : ∀ j, P (s j)) (hQs : Q s) {ls : List (ι × Label)} (hg : (family sys).Along g s ls) :
    (family sys).Always (fun s => (∀ j, P (s j)) ∧ Q s) s ls := by
  refine always_of_along ?_ ⟨hs, hQs⟩ hg
  rintro s ⟨i, l⟩ s' ⟨hs, hQs⟩ hl hstep
  obtain ⟨t, ht, rfl⟩ := family_step_eq_some.mp hstep
  refine ⟨?_, hQ s i l t hs hQs hl ht⟩
  rw [Function.forall_update_iff s fun _ => P]
  exact ⟨hP s i l t hs hQs hl ht, fun j _ => hs j⟩

end Family

end LTS

/-! ### Lineages -/

section Lineage

variable {α : Type u} {β : Type v} {origin origin' : α → Prop} {parent parent' : α → α → Prop}
  {a b : α}

/-- From parent to parent, an origin is reached. -/
def Descends (origin : α → Prop) (parent : α → α → Prop) (a : α) : Prop :=
  ∃ o, origin o ∧ Relation.ReflTransGen parent a o

namespace Descends

theorem of_origin (h : origin a) : Descends origin parent a := ⟨a, h, .refl⟩

theorem of_parent (hparent : parent a b) (h : Descends origin parent b) :
    Descends origin parent a := by
  obtain ⟨o, ho, hchain⟩ := h
  exact ⟨o, ho, .head hparent hchain⟩

/-- Origins and parents are for ever. -/
theorem mono (horigin : ∀ a, origin a → origin' a) (hparent : ∀ a b, parent a b → parent' a b)
    (h : Descends origin parent a) : Descends origin' parent' a := by
  obtain ⟨o, ho, hchain⟩ := h
  exact ⟨o, horigin o ho, Relation.ReflTransGen.mono hparent _ _ hchain⟩

/-- What children share with their parents they share with an origin. -/
theorem exists_eq (f : α → β) (hf : ∀ a b, parent a b → f a = f b)
    (h : Descends origin parent a) :
    ∃ o, origin o ∧ Relation.ReflTransGen parent a o ∧ f a = f o := by
  obtain ⟨o, ho, hchain⟩ := h
  refine ⟨o, ho, hchain, ?_⟩
  clear ho
  induction hchain with
  | refl => rfl
  | tail _ hstep ih => exact ih.trans (hf _ _ hstep)

/-- An item that is no origin has a parent. -/
theorem exists_parent (h : Descends origin parent a) (hne : ¬origin a) : ∃ b, parent a b := by
  obtain ⟨o, ho, hchain⟩ := h
  cases hchain.cases_head with
  | inl heq => exact absurd (heq ▸ ho) hne
  | inr h => exact ⟨_, h.choose_spec.1⟩

end Descends

end Lineage
