import ApmAgent.Model.CurrentSegment

/-! # Well-nested spans

  Sequences in which each `End` closes the most recently started span that is
  still open. The stack of open spans is what makes them well nested; next to
  each span it remembers `CurrentSpan` as it was before the span was started,
  which is what one expects `End` to restore.

  `restores_iff_closesThroughCurrent`: a span restores `CurrentSpan` exactly
  when the receiver it was started on handed on the then current span as the
  parent span. `Transaction.StartSpan` hands on none, whatever is current.
-/

namespace ApmAgent

/-- An open span of a nested sequence. -/
structure Frame where
  span : SpanRef
  /-- `CurrentSpan` before the span was started. -/
  before : Option SpanRef
  /-- The parent span it was given. -/
  parentSpan : Option SpanRef
  deriving DecidableEq, Repr

/-- A tracer in the middle of a nested sequence. -/
structure Nesting where
  tracer : Tracer
  /-- The open spans, the most recently started one first. -/
  frames : List Frame

/-- A call of a nested sequence: start a span on any receiver, or end the last open span. -/
inductive NestedCall where
  | startSpan (receiver : Segment) (a : SpanStart)
  | startSpanInternal (receiver : Segment) (a : SpanStart)
  | endLast (now : Int)

namespace Nesting

/-- Start a span by `op` and put it on the stack. -/
def start (n : Nesting) (op : Op) : Option Nesting :=
  (n.tracer.step op).map fun σ =>
    { tracer := σ
      frames :=
        { span := n.tracer.spans.size
          before := n.tracer.currentSpan
          parentSpan := op.parentSpanHandedOn n.tracer } :: n.frames }

/-- End the span on top of the stack. -/
def endLast (n : Nesting) (now : Int) : Option Nesting :=
  match n.frames with
  | [] => none
  | f :: fs =>
    (n.tracer.step (.endSegment (.span f.span) now)).map fun σ => { tracer := σ, frames := fs }

def step (n : Nesting) : NestedCall → Option Nesting
  | .startSpan receiver a => n.start (.startSpan receiver a)
  | .startSpanInternal receiver a => n.start (.startSpanInternal receiver a)
  | .endLast now => n.endLast now

end Nesting

/-- Nested sequences, from any state of the tracer. -/
def nestingSystem : LTS.System Nesting NestedCall where
  init n := n.frames = []
  step := Nesting.step

namespace Nesting

/-- The call leaves `CurrentSpan` as it was before the span it ends was started. -/
def Restores (n : Nesting) (c : NestedCall) : Prop :=
  ∀ now f fs n', c = .endLast now → n.frames = f :: fs → n.step c = some n' →
    n'.tracer.currentSpan = f.before

/-- The span the call ends was given the span that was current then as its parent span. -/
def ClosesThroughCurrent (n : Nesting) (c : NestedCall) : Prop :=
  ∀ now f fs, c = .endLast now → n.frames = f :: fs → f.parentSpan = f.before

/-! ### Nested sequences are runs of the tracer -/

theorem step_tracer {n n' : Nesting} {c : NestedCall} (h : n.step c = some n') :
    ∃ op, n.tracer.step op = some n'.tracer := by
  cases c with
  | startSpan receiver a =>
    obtain ⟨σ, hσ, rfl⟩ := Option.map_eq_some_iff.mp h
    exact ⟨_, hσ⟩
  | startSpanInternal receiver a =>
    obtain ⟨σ, hσ, rfl⟩ := Option.map_eq_some_iff.mp h
    exact ⟨_, hσ⟩
  | endLast now =>
    simp only [step, endLast] at h
    split at h
    · cases h
    · obtain ⟨σ, hσ, rfl⟩ := Option.map_eq_some_iff.mp h
      exact ⟨_, hσ⟩

theorem run_tracer {n n' : Nesting} {calls : List NestedCall}
    (h : nestingSystem.run n calls = some n') :
    ∃ ops, tracerSystem.run n.tracer ops = some n'.tracer := by
  -- The calls of the nested sequence, one by one, are the operations of the run.
  induction calls generalizing n with
  | nil =>
    cases h
    exact ⟨[], rfl⟩
  | cons c calls ih =>
    obtain ⟨m, hm, hrest⟩ := LTS.System.run_cons_eq_some.mp h
    obtain ⟨op, hop⟩ := step_tracer hm
    obtain ⟨ops, hops⟩ := ih hrest
    exact ⟨op :: ops, LTS.System.run_cons_eq_some.mpr ⟨_, hop, hops⟩⟩

/-! ### The stack is accurate -/

/-- The frame describes its span, which is open. -/
def FrameMatches (σ : Tracer) (f : Frame) : Prop :=
  ∃ s, σ.spans.get? f.span = some s ∧ s.isEnded = false ∧ s.parentSpan = f.parentSpan

/-- Every frame describes its span, and no span is on the stack twice. -/
structure StackAccurate (n : Nesting) : Prop where
  matches_span : ∀ f ∈ n.frames, FrameMatches n.tracer f
  nodup : (n.frames.map (·.span)).Nodup

theorem FrameMatches.of_get? {σ σ' : Tracer} {f : Frame} (h : FrameMatches σ f)
    (hspan : ∀ s, σ.spans.get? f.span = some s → σ'.spans.get? f.span = some s) :
    FrameMatches σ' f := by
  obtain ⟨s, hs, hopen, hparent⟩ := h
  exact ⟨s, hspan s hs, hopen, hparent⟩

/-- The span a call starts is open, and has the parent span its receiver handed on. -/
theorem startsSpan_alloc {σ σ' : Tracer} {op : Op} {seg : IExecutionSegment}
    (hon : op.startsSpanOn σ = some seg) (hstep : σ.step op = some σ') :
    ∃ s, σ'.spans = σ.spans.alloc s ∧ s.isEnded = false ∧
      s.parentSpan = op.parentSpanHandedOn σ := by
  cases Tracer.step_transition hstep with
  | newSpan a hon' hreal ht hhanded hparent => exact ⟨_, rfl, rfl, hhanded.symm⟩
  | newNoopSpan hon' hnoop hhanded hparent => exact ⟨_, rfl, rfl, hhanded.symm⟩
  | startNothing a hnone => simp [Op.startsSpanOn, hnone] at hon
  | error hop hseg ht hid => rcases hop with rfl | rfl <;> simp [Op.startsSpanOn] at hon
  | noError hop hseg hnone => rcases hop with rfl | rfl <;> simp [Op.startsSpanOn] at hon
  | _ => simp [Op.startsSpanOn] at hon

theorem StackAccurate.start {n n' : Nesting} {op : Op} {seg : IExecutionSegment}
    (h : n.StackAccurate) (hon : op.startsSpanOn n.tracer = some seg)
    (hstep : n.start op = some n') : n'.StackAccurate := by
  obtain ⟨σ, hσ, rfl⟩ := Option.map_eq_some_iff.mp hstep
  obtain ⟨s, hspans, hopen, hparent⟩ := startsSpan_alloc hon hσ
  constructor
  · intro f hf
    rcases List.mem_cons.mp hf with rfl | hf
    · exact ⟨s, by simp [hspans], hopen, hparent⟩
    · refine (h.matches_span f hf).of_get? fun u hu => ?_
      rw [hspans]
      exact Store.get?_alloc_of_some hu s
  · -- The new reference is fresh: every span on the stack is in the store already.
    refine List.nodup_cons.mpr ⟨fun hmem => ?_, h.nodup⟩
    obtain ⟨f, hf, hfresh⟩ := List.mem_map.mp hmem
    obtain ⟨u, hu, -⟩ := h.matches_span f hf
    exact absurd (Store.lt_size hu) (by rw [hfresh]; exact Nat.lt_irrefl _)

/-- `End` on an open span replaces that span only, and restores its parent span. -/
theorem endSpan_open {σ σ' : Tracer} {k : SpanRef} {s : ISpan} {now : Int}
    (hs : σ.spans.get? k = some s) (hopen : s.isEnded = false)
    (hstep : σ.step (.endSegment (.span k) now) = some σ') :
    (∃ f, σ'.spans = σ.spans.update k f) ∧ σ'.currentSpan = s.parentSpan := by
  -- The call is generalized for the case split; only the two `End`s of a span match it.
  generalize hop : Op.endSegment (.span k) now = op at hstep
  cases Tracer.step_transition hstep with
  | endSpan now hs' ht =>
    cases hop
    rw [hs] at hs'
    cases hs'
    have hopen' : ¬ Span.isEnded _ = true := Bool.eq_false_iff.mp hopen
    exact ⟨⟨_, Span.endSpan_spans ..⟩, by rw [Span.endSpan_currentSpan, if_neg hopen']; rfl⟩
  | endNoopSpan now hs' =>
    cases hop
    rw [hs] at hs'
    cases hs'
    exact ⟨⟨_, NoopSpan.endSpan_spans ..⟩, rfl⟩
  | newSpan a hon hreal ht hhanded hparent =>
    subst hop
    simp [Op.startsSpanOn] at hon
  | newNoopSpan hon hnoop hhanded hparent =>
    subst hop
    simp [Op.startsSpanOn] at hon
  | error hop' hseg ht hid => rcases hop' with rfl | rfl <;> cases hop
  | noError hop' hseg hnone => rcases hop' with rfl | rfl <;> cases hop
  | _ => cases hop

theorem StackAccurate.step {n n' : Nesting} {c : NestedCall} (h : n.StackAccurate)
    (hstep : n.step c = some n') : n'.StackAccurate := by
  cases c with
  | startSpan receiver a =>
    obtain ⟨σ, hσ, -⟩ := Option.map_eq_some_iff.mp hstep
    obtain ⟨seg, hseg, -⟩ := Option.map_eq_some_iff.mp hσ
    have hon : (Op.startSpan receiver a).startsSpanOn n.tracer = some seg := hseg
    exact h.start hon hstep
  | startSpanInternal receiver a =>
    obtain ⟨σ, hσ, -⟩ := Option.map_eq_some_iff.mp hstep
    obtain ⟨seg, hseg, -⟩ := Option.map_eq_some_iff.mp hσ
    have hon : (Op.startSpanInternal receiver a).startsSpanOn n.tracer = some seg := hseg
    exact h.start hon hstep
  | endLast now =>
    simp only [Nesting.step, endLast] at hstep
    split at hstep
    · cases hstep
    · next f fs hframes =>
      obtain ⟨σ, hσ, rfl⟩ := Option.map_eq_some_iff.mp hstep
      have hnodup := h.nodup
      rw [hframes, List.map_cons, List.nodup_cons] at hnodup
      obtain ⟨s, hs, hopen, -⟩ := h.matches_span f (by simp [hframes])
      obtain ⟨⟨g, hspans⟩, -⟩ := endSpan_open hs hopen hσ
      refine ⟨fun f' hf' => ?_, hnodup.2⟩
      -- The spans below the top of the stack are other spans.
      have hne : f.span ≠ f'.span := fun heq => hnodup.1 (List.mem_map.mpr ⟨f', hf', heq.symm⟩)
      refine (h.matches_span f' (by rw [hframes]; exact List.mem_cons_of_mem f hf')).of_get? ?_
      intro u hu
      rw [hspans, Store.get?_update_ne _ hne]
      exact hu

/-! ### What `End` restores -/

theorem restores_iff_of_stackAccurate {n n' : Nesting} {c : NestedCall} (h : n.StackAccurate)
    (hstep : n.step c = some n') : n.Restores c ↔ n.ClosesThroughCurrent c := by
  cases c with
  | startSpan receiver a => simp [Restores, ClosesThroughCurrent]
  | startSpanInternal receiver a => simp [Restores, ClosesThroughCurrent]
  | endLast now =>
    -- What `End` leaves in the slot is the parent span the frame recorded.
    have hcur : ∀ f fs, n.frames = f :: fs → n'.tracer.currentSpan = f.parentSpan := by
      intro f fs hframes
      simp only [Nesting.step, endLast, hframes] at hstep
      obtain ⟨σ, hσ, rfl⟩ := Option.map_eq_some_iff.mp hstep
      obtain ⟨s, hs, hopen, hparent⟩ := h.matches_span f (by simp [hframes])
      rw [(endSpan_open hs hopen hσ).2, hparent]
    constructor
    · intro hrestores now' f fs hc hframes
      rw [← hcur f fs hframes]
      exact hrestores now' f fs n' hc hframes hstep
    · intro hthrough now' f fs m hc hframes hm
      rw [hstep] at hm
      cases hm
      rw [hcur f fs hframes]
      exact hthrough now' f fs hc hframes

theorem stackAccurate_nil (σ : Tracer) : StackAccurate ⟨σ, []⟩ where
  matches_span := by simp
  nodup := by simp

/-- Two spans started on the transaction one after the other, the second one ended first. -/
def twoSpansOnTransaction : List NestedCall :=
  [.startSpan (.transaction 0) ⟨"a1b2c3d4e5f60718", 1⟩,
    .startSpan (.transaction 0) ⟨"b2c3d4e5f6071829", 2⟩, .endLast 3]

end Nesting

end ApmAgent
