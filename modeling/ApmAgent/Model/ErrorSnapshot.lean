import ApmAgent.Api.ContextCopy
import ApmAgent.Framework.LTS
import ApmAgent.Report.PayloadItemSerializer

/-! # The context of a captured error

  An error is captured from a transaction, and the program goes on to change
  the transaction's context: it creates objects, assigns members of what it
  finds through the context, and sets dictionary entries and labels. The error
  keeps the response, the service and the user of the context, so its context
  stays what it was as long as none of these is changed in place.
-/

namespace ApmAgent

open Api ObjectGraph

/-! ### The capture -/

/-- A transaction with its context, at a moment when no reference dangles. -/
structure TransactionContext where
  heap : Heap
  contextRef : ObjectRef
  context : ContextObject
  isSampled : Bool
  context_eq : heap.get? contextRef = some (.context context)
  noDangling : NoDangling ApiObject.members heap

/-- The heap after an error was captured. -/
structure ErrorCapture where
  heap : Heap
  /-- The context of the transaction. -/
  transactionContext : ObjectRef
  /-- The context of the error; an error of an unsampled transaction has none. -/
  errorContext : Option ObjectRef
  /-- The capture created the objects from here on, -/
  ownFrom : Nat
  /-- up to here. Only the error was given references to them. -/
  ownTo : Nat

namespace TransactionContext

/-- The constructor of `Error`. -/
def capture (t : TransactionContext) (labels : Option (Dict String Label)) : ErrorCapture :=
  if t.isSampled then
    { heap := (t.heap.errorContext t.context labels).1
      transactionContext := t.contextRef
      errorContext := some (t.heap.errorContext t.context labels).2
      ownFrom := t.heap.size
      ownTo := (t.heap.errorContext t.context labels).1.size }
  else
    { heap := t.heap
      transactionContext := t.contextRef
      errorContext := none
      ownFrom := t.heap.size
      ownTo := t.heap.size }

/-- The context at the moment of the capture. -/
def current (t : TransactionContext) : Context := t.heap.contextOf t.context

/-- The objects that a copy of the context shares with it: its response, service and user, and
    what belongs to them. -/
def Shared (t : TransactionContext) (r : ObjectRef) : Prop :=
  ∃ root, (root ∈ t.context.response ∨ root ∈ t.context.service ∨ root ∈ t.context.user) ∧
    Reaches ApiObject.members t.heap root r

end TransactionContext

/-! ### Changing the transaction's context -/

/-- What the program does after the capture. `path` leads from the transaction's context to the
    object: `[.request, .headers]` is `transaction.Context.Request.Headers`. -/
inductive Mutation where
  /-- Create an object. -/
  | create (a : ApiObject)
  /-- Assign members of an object; `a` is the object with its members assigned. -/
  | assign (path : List Member) (a : ApiObject)
  /-- `dictionary[key] = value` on headers or custom entries. -/
  | setEntry (path : List Member) (key : String) (value : Option String)
  /-- `Labels[key] = value`. -/
  | setLabelEntry (key : String) (value : Option String)
  /-- `SetLabel(key, value)`. -/
  | setLabel (key : String) (label : Label)

/-- Are two objects of one class? -/
def Api.ApiObject.sameClass : ApiObject → ApiObject → Bool
  | .context _, .context _ => true
  | .strings _, .strings _ => true
  | .labels _, .labels _ => true
  | .request _, .request _ => true
  | .response _, .response _ => true
  | .service _, .service _ => true
  | .user _, .user _ => true
  | .socket _, .socket _ => true
  | .url _, .url _ => true
  | .nameAndVersion _, .nameAndVersion _ => true
  | .language _, .language _ => true
  | .node _, .node _ => true
  | _, _ => false

/-- Follow a path. -/
def Api.Heap.resolve (h : Heap) : ObjectRef → List Member → Option ObjectRef
  | r, [] => some r
  | r, m :: path => ((h.get? r).bind (·.member m)).bind fun k => Heap.resolve h k path

/-- A path leads to what is reachable. -/
theorem Api.Heap.resolve_reaches {h : Heap} {root r k : ObjectRef} {path : List Member}
    (hr : Reaches ApiObject.members h root r) (hk : h.resolve r path = some k) :
    Reaches ApiObject.members h root k := by
  -- On the path; its first member leads from `r` to where the rest starts.
  induction path generalizing r with
  | nil =>
    cases hk
    exact hr
  | cons m path ih =>
    simp only [Heap.resolve, Option.bind_eq_some_iff] at hk
    obtain ⟨j, ⟨a, ha, hm⟩, hj⟩ := hk
    exact ih (.member hr ha (ApiObject.member_mem hm)) hj

namespace ErrorCapture

/-- The object the error alone refers to. -/
def Own (s : ErrorCapture) (r : ObjectRef) : Prop := s.ownFrom ≤ r ∧ r < s.ownTo

instance (s : ErrorCapture) (r : ObjectRef) : Decidable (s.Own r) :=
  inferInstanceAs (Decidable (_ ∧ _))

/-- The program has references to every object but those of the error. -/
def Holds (s : ErrorCapture) (a : ApiObject) : Prop :=
  ∀ k ∈ a.members, k < s.heap.size ∧ ¬ s.Own k

instance (s : ErrorCapture) (a : ApiObject) : Decidable (s.Holds a) :=
  inferInstanceAs (Decidable (∀ k ∈ _, _))

/-- The object a mutation writes, and what it writes. -/
def write? (s : ErrorCapture) : Mutation → Option (ObjectRef × ApiObject)
  | .create _ => none
  | .assign path a =>
    (s.heap.resolve s.transactionContext path).bind fun r =>
      -- An object never changes its class.
      (s.heap.get? r).bind fun old => if old.sameClass a then some (r, a) else none
  | .setEntry path key value =>
    (s.heap.resolve s.transactionContext path).bind fun r =>
      ((s.heap.get? r).bind ApiObject.strings?).map fun d => (r, .strings (d.set key value))
  | .setLabelEntry key value =>
    (s.heap.resolve s.transactionContext [.internalLabels]).bind fun r =>
      ((s.heap.get? r).bind ApiObject.labels?).map fun l =>
        (r, .labels { l with base := l.base.set key value })
  | .setLabel key label =>
    (s.heap.resolve s.transactionContext [.internalLabels]).bind fun r =>
      ((s.heap.get? r).bind ApiObject.labels?).map fun l =>
        (r, .labels { l with innerDictionary := l.innerDictionary.set key label })

/-- The state after a mutation, `none` if the program cannot do it. -/
def step (s : ErrorCapture) : Mutation → Option ErrorCapture
  | .create a => if s.Holds a then some { s with heap := s.heap.alloc a } else none
  | m =>
    (s.write? m).bind fun w =>
      if s.Holds w.2 then some { s with heap := s.heap.update w.1 fun _ => w.2 } else none

/-- The captures and what may follow. -/
def system : LTS.System ErrorCapture Mutation where
  init s := ∃ (t : TransactionContext) (labels : Option (Dict String Label)), s = t.capture labels
  step := step

/-- The context that the error has now. -/
def context (s : ErrorCapture) : Option Context := s.errorContext.bind s.heap.contextAt

/-! ### What a step does -/

section
variable {s s' : ErrorCapture} {m : Mutation}

/-- A mutation writes what is found through the transaction's context. -/
theorem write?_reaches {w : ObjectRef × ApiObject} (h : s.write? m = some w) :
    Reaches ApiObject.members s.heap s.transactionContext w.1 := by
  cases m with
  | create a => simp [write?] at h
  | assign path a =>
    simp only [write?, Option.bind_eq_some_iff, Option.ite_none_right_eq_some,
      Option.some.injEq] at h
    obtain ⟨r, hr, old, -, -, rfl⟩ := h
    exact Heap.resolve_reaches .root hr
  | setEntry path key value =>
    simp only [write?, Option.bind_eq_some_iff, Option.map_eq_some_iff] at h
    obtain ⟨r, hr, d, -, rfl⟩ := h
    exact Heap.resolve_reaches .root hr
  | setLabelEntry key value =>
    simp only [write?, Option.bind_eq_some_iff, Option.map_eq_some_iff] at h
    obtain ⟨r, hr, l, -, rfl⟩ := h
    exact Heap.resolve_reaches .root hr
  | setLabel key label =>
    simp only [write?, Option.bind_eq_some_iff, Option.map_eq_some_iff] at h
    obtain ⟨r, hr, l, -, rfl⟩ := h
    exact Heap.resolve_reaches .root hr

/-- A step creates an object or writes one, and refers to what the program holds. -/
theorem step_cases (h : s.step m = some s') :
    (∃ a, s.Holds a ∧ s' = { s with heap := s.heap.alloc a }) ∨
    ∃ w, s.write? m = some w ∧ s.Holds w.2 ∧
      s' = { s with heap := s.heap.update w.1 fun _ => w.2 } := by
  cases m with
  | create a =>
    simp only [step, Option.ite_none_right_eq_some, Option.some.injEq] at h
    exact .inl ⟨a, h.1, h.2.symm⟩
  | assign | setEntry | setLabelEntry | setLabel =>
    simp only [step, Option.bind_eq_some_iff, Option.ite_none_right_eq_some,
      Option.some.injEq] at h
    obtain ⟨w, hw, hholds, rfl⟩ := h
    exact .inr ⟨w, hw, hholds, rfl⟩

end

/-! ### The error's objects are out of reach -/

/-- Nothing but the error refers to the objects the capture created. -/
structure Separated (s : ErrorCapture) : Prop where
  context_not_own : ¬ s.Own s.transactionContext
  outside : Closed ApiObject.members (fun r => ¬ s.Own r) s.heap
  ownTo_le : s.ownTo ≤ s.heap.size

theorem Separated.step {s s' : ErrorCapture} {m : Mutation} (h : s.Separated)
    (hstep : s.step m = some s') : s'.Separated := by
  rcases step_cases hstep with ⟨a, hholds, rfl⟩ | ⟨w, -, hholds, rfl⟩
  · exact ⟨h.context_not_own, h.outside.alloc fun _ k hk => (hholds k hk).2,
      Nat.le_trans h.ownTo_le (Nat.le_of_lt (by simp))⟩
  · exact ⟨h.context_not_own, h.outside.assign fun _ k hk => (hholds k hk).2,
      by simpa using h.ownTo_le⟩

/-- So no mutation writes them. -/
theorem Separated.write?_not_own {s : ErrorCapture} {m : Mutation} {w : ObjectRef × ApiObject}
    (h : s.Separated) (hw : s.write? m = some w) : ¬ s.Own w.1 :=
  h.outside.reaches h.context_not_own (write?_reaches hw)

end ErrorCapture

/-! ### The state after the capture -/

namespace TransactionContext

variable (t : TransactionContext) (labels : Option (Dict String Label))

theorem members_lt : ∀ k ∈ (ApiObject.context t.context).members, k < t.heap.size :=
  t.noDangling _ _ t.context_eq

/-- What is shared was there before. -/
theorem Shared.lt_size {t : TransactionContext} {r : ObjectRef} (h : t.Shared r) :
    r < t.heap.size := by
  obtain ⟨root, hroot, hr⟩ := h
  have hmember : root ∈ (ApiObject.context t.context).members := by
    rcases hroot with h | h | h
    · exact ApiObject.member_mem (m := .response) h
    · exact ApiObject.member_mem (m := .service) h
    · exact ApiObject.member_mem (m := .user) h
  exact t.noDangling.closed.reaches (t.members_lt root hmember) hr

theorem closed_shared : Closed ApiObject.members t.Shared t.heap := by
  rintro r a ⟨root, hroot, hr⟩ ha k hk
  exact ⟨root, hroot, .member hr ha hk⟩

section
variable (hs : t.isSampled = true)
include hs

theorem capture_of_sampled :
    t.capture labels =
      { heap := (t.heap.errorContext t.context labels).1
        transactionContext := t.contextRef
        errorContext := some (t.heap.errorContext t.context labels).2
        ownFrom := t.heap.size
        ownTo := (t.heap.errorContext t.context labels).1.size } := by
  simp [capture, hs]

theorem own_le {r : ObjectRef} (h : (t.capture labels).Own r) : t.heap.size ≤ r := by
  rw [capture_of_sampled t labels hs] at h
  exact h.1

/-- What the error finds from its context is its own or shared. -/
theorem capture_closed :
    Closed ApiObject.members (fun r => (t.capture labels).Own r ∨ t.Shared r)
      (t.capture labels).heap := by
  have hgrows := Heap.contextDeepCopy_grows t.members_lt
  -- From a new object one comes to new ones or to shared ones, from a shared one to shared ones.
  have hnew : Closed ApiObject.members (fun r => t.heap.size ≤ r ∨ t.Shared r)
      (t.capture labels).heap := by
    rw [capture_of_sampled t labels hs]
    refine Heap.errorContext_closed labels (hgrows.closed ?_ ?_)
    · rintro k (hk | hk)
      · exact .inl hk
      · exact .inr ⟨k, hk, .root⟩
    · rintro r a (hr | hr) ha k hk
      · exact absurd (Store.lt_size ha) (Nat.not_lt.mpr hr)
      · exact .inr (t.closed_shared r a hr ha k hk)
  -- And nothing refers beyond the end of the heap.
  have hsize : Closed ApiObject.members (· < (t.heap.contextDeepCopy t.context).1.size)
      (t.capture labels).heap := by
    rw [capture_of_sampled t labels hs]
    exact Heap.errorContext_closed labels (hgrows.noDangling t.noDangling).closed
  rintro r a hr ha k hk
  have hlt : r < (t.heap.contextDeepCopy t.context).1.size := by
    have hr' := Store.lt_size ha
    rw [capture_of_sampled t labels hs] at hr'
    rwa [← Heap.errorContext_size labels]
  have hk' := hsize r a hlt ha k hk
  rcases hnew r a (hr.imp_left (own_le t labels hs)) ha k hk with hle | hshared
  · refine .inl ?_
    rw [capture_of_sampled t labels hs]
    exact ⟨hle, by rwa [← Heap.errorContext_size labels] at hk'⟩
  · exact .inr hshared

/-- What was there before is as it was. -/
theorem capture_get?_of_lt {r : ObjectRef} (hr : r < t.heap.size) :
    (t.capture labels).heap.get? r = t.heap.get? r := by
  rw [capture_of_sampled t labels hs]
  rw [Heap.errorContext_keeps labels (Nat.ne_of_lt (Nat.lt_succ_of_lt hr))]
  exact (Heap.contextDeepCopy_grows t.members_lt).get?_eq hr

end

/-- Nobody has been given references to the objects of the error. -/
theorem capture_separated : (t.capture labels).Separated := by
  have hcontext : t.contextRef < t.heap.size := Store.lt_size t.context_eq
  cases hs : t.isSampled with
  | false =>
    have hcapture : ∀ r, ¬ (t.capture labels).Own r := by
      simp [capture, hs, ErrorCapture.Own]
    exact ⟨hcapture _, fun r a _ _ k _ => hcapture k, by simp [capture, hs]⟩
  | true =>
    -- The objects that are not the error's are those that were there before.
    have hown : ∀ r, ¬ (t.capture labels).Own r →
        r < (t.capture labels).heap.size → r < t.heap.size := by
      rw [capture_of_sampled t labels hs]
      simp only [ErrorCapture.Own]
      intro r hr hlt
      exact Nat.lt_of_not_le fun hle => hr ⟨hle, hlt⟩
    have hold : ∀ r, r < t.heap.size → ¬ (t.capture labels).Own r := by
      rw [capture_of_sampled t labels hs]
      intro r hr hown
      exact absurd hr (Nat.not_lt.mpr hown.1)
    refine ⟨?_, fun r a hr ha k hk => ?_, ?_⟩
    · have hnot := hold t.contextRef hcontext
      rwa [capture_of_sampled t labels hs] at hnot ⊢
    · have hlt := hown r hr (Store.lt_size ha)
      rw [capture_get?_of_lt t labels hs hlt] at ha
      exact hold k (t.noDangling r a ha k hk)
    · rw [capture_of_sampled t labels hs]

/-- The error starts with the context of its transaction and the labels of the call. -/
theorem capture_context :
    (t.capture labels).context =
      if t.isSampled then some (t.current.withLabels labels) else none := by
  cases hs : t.isSampled with
  | false => simp [capture, hs, ErrorCapture.context]
  | true =>
    rw [capture_of_sampled t labels hs]
    exact Heap.errorContext_contextAt labels t.noDangling t.members_lt

end TransactionContext

namespace ErrorCapture

/-! ### What the error refers to is not written -/

variable {t : TransactionContext} {labels : Option (Dict String Label)}

/-- The mutation writes nothing that the error shares with the transaction. -/
def KeepsShared (t : TransactionContext) (s : ErrorCapture) (m : Mutation) : Prop :=
  ∀ w, s.write? m = some w → ¬ t.Shared w.1

/-- The objects of the error's context are what they were after the capture. -/
structure Frozen (t : TransactionContext) (labels : Option (Dict String Label))
    (s : ErrorCapture) : Prop where
  separated : s.Separated
  errorContext : s.errorContext = (t.capture labels).errorContext
  own : ∀ r, s.Own r ↔ (t.capture labels).Own r
  size_le : t.heap.size ≤ s.heap.size
  agree : ∀ r, s.Own r ∨ t.Shared r → s.heap.get? r = (t.capture labels).heap.get? r

theorem Frozen.step {s s' : ErrorCapture} {m : Mutation} (h : Frozen t labels s)
    (hkeeps : s.KeepsShared t m) (hstep : s.step m = some s') : Frozen t labels s' := by
  have hseparated := h.separated.step hstep
  rcases step_cases hstep with ⟨a, -, rfl⟩ | ⟨w, hw, -, rfl⟩
  · refine ⟨hseparated, h.errorContext, h.own, ?_, fun r hr => ?_⟩
    · exact Nat.le_trans h.size_le (Nat.le_of_lt (by simp))
    · -- The new object is neither the error's nor shared.
      have hlt : r < s.heap.size := by
        rcases hr with hown | hshared
        · exact Nat.lt_of_lt_of_le hown.2 h.separated.ownTo_le
        · exact Nat.lt_of_lt_of_le hshared.lt_size h.size_le
      rw [Store.get?_alloc, if_neg (Nat.ne_of_lt hlt)]
      exact h.agree r hr
  · refine ⟨hseparated, h.errorContext, h.own, by simpa using h.size_le, fun r hr => ?_⟩
    -- The object written is not the error's, by separation, nor shared, by the condition.
    have hne : w.1 ≠ r := by
      rintro rfl
      rcases hr with hown | hshared
      · exact h.separated.write?_not_own hw hown
      · exact hkeeps w hw hshared
    rw [Store.get?_update_ne _ hne]
    exact h.agree r hr

theorem frozen_capture (t : TransactionContext) (labels : Option (Dict String Label)) :
    Frozen t labels (t.capture labels) := by
  refine ⟨t.capture_separated labels, rfl, fun _ => Iff.rfl, ?_, fun _ _ => rfl⟩
  cases hs : t.isSampled with
  | false => simp [TransactionContext.capture, hs]
  | true =>
    rw [TransactionContext.capture_of_sampled t labels hs]
    rw [Heap.errorContext_size]
    exact (Heap.contextDeepCopy_grows t.members_lt).size_le

/-- An error whose objects are what they were has the context that it had. -/
theorem Frozen.context_eq {s : ErrorCapture} (h : Frozen t labels s) :
    s.context = if t.isSampled then some (t.current.withLabels labels) else none := by
  rw [← t.capture_context labels]
  cases hs : t.isSampled with
  | false =>
    have hnone : s.errorContext = none := by
      rw [h.errorContext]
      simp [TransactionContext.capture, hs]
    simp [context, hnone, TransactionContext.capture, hs]
  | true =>
    have hcapture := TransactionContext.capture_of_sampled t labels hs
    have hown : (t.capture labels).Own (t.heap.errorContext t.context labels).2 := by
      have hsize := Heap.contextDeepCopy_ref t.context (h := t.heap)
      have hlt := Store.lt_size (Heap.contextDeepCopy_get?_clone (h := t.heap) (o := t.context))
      rw [hcapture, Own, Heap.errorContext_ref, Heap.errorContext_size]
      exact ⟨Nat.le_trans (Nat.le_add_right _ 2) hsize, hlt⟩
    have hcontext : s.errorContext = some (t.heap.errorContext t.context labels).2 := by
      rw [h.errorContext, hcapture]
    have hcontext₀ : (t.capture labels).errorContext =
        some (t.heap.errorContext t.context labels).2 := by
      rw [hcapture]
    -- What is read at a reference depends on the closed part of the heap around it.
    rw [context, hcontext, context, hcontext₀]
    exact Heap.contextAt_congr (t.capture_closed labels hs)
      (fun r hr => h.agree r (hr.imp_left (h.own r).mpr)) (.inl hown)

/-! ### The error's context is a snapshot -/

section
variable [InvariantCulture] [JsonNet]

/-- What is serialised of the error's context is the context that its transaction had at the
    capture, with the labels of the call. -/
def Snapshot (t : TransactionContext) (labels : Option (Dict String Label))
    (s : ErrorCapture) : Prop :=
  ∀ sanitizeFieldNames,
    s.context.map (contextJson sanitizeFieldNames) =
      if t.isSampled then some (contextJson sanitizeFieldNames (t.current.withLabels labels))
      else none

theorem Frozen.snapshot {s : ErrorCapture} (h : Frozen t labels s) : Snapshot t labels s := by
  intro sanitizeFieldNames
  rw [h.context_eq]
  cases t.isSampled <;> rfl

/-- While no mutation writes what the error shares with the transaction, its context stays a
    snapshot. -/
theorem always_snapshot_of_keepsShared (t : TransactionContext)
    (labels : Option (Dict String Label)) {ms : List Mutation}
    (hms : system.Along (fun s m => s.KeepsShared t m) (t.capture labels) ms) :
    system.Always (Snapshot t labels) (t.capture labels) ms := by
  have hstep : ∀ s m s', Frozen t labels s → s.KeepsShared t m → system.step s m = some s' →
      Frozen t labels s' := by
    intro s m s' hfrozen hkeeps hstep
    exact hfrozen.step hkeeps hstep
  have hfrozen : system.Always (Frozen t labels) (t.capture labels) ms :=
    LTS.System.always_of_along hstep (frozen_capture t labels) hms
  exact hfrozen.mono fun s => Frozen.snapshot

end

/-! ### A response that is assigned later -/

/-- A request that was answered with 200: the context 0 with its dictionaries 1 and 2, the
    request 3 with the headers 4, the response 5. -/
def answered : TransactionContext where
  heap := ⟨[
    .context
      { custom := 1
        internalLabels := 2
        request := some 3
        response := some 5
        service := none
        user := none },
    .strings .empty,
    .labels .empty,
    .request
      { body := none
        headers := some 4
        httpVersion := none
        method := some "GET"
        socket := none
        url := none },
    .strings (.singleton "Accept" (some "*/*")),
    .response { finished := false, headers := none, statusCode := 200 }]⟩
  contextRef := 0
  context :=
    { custom := 1
      internalLabels := 2
      request := some 3
      response := some 5
      service := none
      user := none }
  isSampled := true
  context_eq := rfl
  noDangling := noDangling_of_forall (by decide)

/-- The response is all that is shared. -/
theorem eq_of_shared_answered {r : ObjectRef} (h : answered.Shared r) : r = 5 := by
  obtain ⟨root, hroot, hr⟩ := h
  have hroot5 : root = 5 := by
    simpa [answered, eq_comm] using hroot
  -- The response has no headers, so nothing is reached from it.
  have hclosed : Closed ApiObject.members (· = 5) answered.heap := by
    rintro r a rfl ha
    cases ha
    simp [ApiObject.members]
  exact hclosed.reaches hroot5 hr

theorem keepsShared_answered {s : ErrorCapture} {m : Mutation}
    (h : (s.write? m).all fun w => w.1 ≠ 5) : s.KeepsShared answered m := by
  intro w hw hshared
  rw [hw] at h
  simp [eq_of_shared_answered hshared] at h

/-- A header is removed, a new response is assigned, and the new one is changed. -/
def laterMutations : List Mutation :=
  [.setEntry [.request, .headers] "Accept" none,
    .create (.response { finished := true, headers := none, statusCode := 500 }),
    .assign [] (.context { answered.context with response := some 12 }),
    .assign [.response] (.response { finished := true, headers := none, statusCode := 404 })]

/-- Contexts that differ in the status code of their response are not sent alike. -/
theorem contextJson_ne_of_statusCode [InvariantCulture] [JsonNet]
    (sanitizeFieldNames : List WildcardMatcher) (c : Context) (response : Response) {code : Int}
    (hcode : NumberToken.ofInt code ≠ .ofInt response.statusCode) :
    contextJson sanitizeFieldNames
        { c with response := some { response with statusCode := code } } ≠
      contextJson sanitizeFieldNames { c with response := some response } := by
  intro h
  have hresponse :=
    (Json.ofPresent_eq_iff [("custom", _), ("tags", _), ("request", _)] _).mp h
  have hstatus :=
    (Json.ofPresent_eq_iff [("finished", _), ("headers", _)] []).mp (Option.some.inj hresponse)
  exact hcode (Json.number.inj (Option.some.inj hstatus))

section
attribute [local instance] InvariantCulture.ascii JsonNet.plain

theorem always_snapshot_laterMutations :
    system.Always (Snapshot answered none) (answered.capture none) laterMutations :=
  always_snapshot_of_keepsShared answered none
    ((LTS.System.along_cons_of_step rfl).mpr
      ⟨keepsShared_answered (by decide), (LTS.System.along_cons_of_step rfl).mpr
        ⟨keepsShared_answered (by decide), (LTS.System.along_cons_of_step rfl).mpr
          ⟨keepsShared_answered (by decide), (LTS.System.along_cons_of_step rfl).mpr
            ⟨keepsShared_answered (by decide), trivial⟩⟩⟩⟩)

/-- `transaction.Context.Response.StatusCode = 500` changes what the error is sent with. -/
theorem snapshot_statusCode_counterexample :
    ¬ ∀ (t : TransactionContext) (labels : Option (Dict String Label)) (ms : List Mutation),
      system.Always (Snapshot t labels) (t.capture labels) ms := by
  intro h
  have hlater := (h answered none
    [.assign [.response] (.response { finished := false, headers := none, statusCode := 500 })]).2
      _ rfl
  have hcode : NumberToken.ofInt 500 ≠ .ofInt 200 := by decide
  exact contextJson_ne_of_statusCode [] answered.current
    { finished := false, headers := none, statusCode := 200 } hcode
    (Option.some.inj (hlater []))

end

end ErrorCapture

end ApmAgent
