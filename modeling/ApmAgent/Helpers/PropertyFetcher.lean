import ApmAgent.Framework.LazyInit
import ApmAgent.Framework.LTS
import ApmAgent.Helpers.Numbers

/-! # PropertyFetcher

  A fetcher reads a property by its name from the objects it is given. It looks
  the property up in the type of the first object and keeps the accessor; what
  is given to it later goes through the same accessor, whatever its type.

  `fetch_isIndependent_iff` says for which sequences of objects each call
  returns what a fetcher that was not used before would return.
-/

namespace ApmAgent

/-- What the runtime knows of the types of a program: `T` are its types and `P` their properties,
    `Obj` the objects and `Val` the values of properties. A value may be null. -/
structure Reflection (T P Obj Val : Type) where
  /-- `obj.GetType()`. -/
  getType : Obj → T
  /-- Can the object be cast to the type? -/
  isInstanceOf : Obj → T → Bool
  name : P → String
  declaringType : P → T
  /-- `DeclaredProperties`, the inherited ones left out. -/
  declaredProperties : T → List P
  /-- `GetProperty`, which also finds inherited properties; it throws for an ambiguous name. -/
  getProperty : T → String → Except RuntimeException (Option P)
  /-- Creating the delegate for the getter throws where there is no getter for one object, as for
      a static property. -/
  createDelegate : P → Except RuntimeException Unit
  /-- The getter on an object of the declaring type. -/
  invoke : P → Obj → Except RuntimeException (Option Val)
  isInstanceOf_declared : ∀ obj, ∀ p ∈ declaredProperties (getType obj),
    isInstanceOf obj (declaringType p) = true
  isInstanceOf_inherited : ∀ obj propertyName p,
    getProperty (getType obj) propertyName = .ok (some p) →
      isInstanceOf obj (declaringType p) = true

/-- `PropertyFetch` and the class derived from it. -/
inductive PropertyFetch (P : Type) where
  /-- Returns null on any fetch. -/
  | nothing
  | typed (property : P)

/-- `PropertyFetcher`. -/
structure PropertyFetcher (P : Type) where
  propertyName : String
  innerFetcher : LazyInit (PropertyFetch P)

namespace PropertyFetcher

/-- A fetcher that was not used yet. -/
def fresh {P : Type} (propertyName : String) : PropertyFetcher P := ⟨propertyName, ⟨none⟩⟩

/-- The constructor. -/
def new {P : Type} (propertyName : String) : Except RuntimeException (PropertyFetcher P) :=
  if isNullOrWhiteSpace (some propertyName) then .error .argument else .ok (fresh propertyName)

variable {T P Obj Val : Type} (R : Reflection T P Obj Val)

/-- `FetcherForProperty`. -/
def fetcherForProperty : Option P → Except RuntimeException (PropertyFetch P)
  | none => .ok .nothing
  | some property => (R.createDelegate property).map fun _ => .typed property

/-- `Fetch` of the accessor. -/
def innerFetch : PropertyFetch P → Obj → Except RuntimeException (Option Val)
  | .nothing, _ => .ok none
  | .typed property, obj =>
    if R.isInstanceOf obj (R.declaringType property) then R.invoke property obj
    else .error (.other "InvalidCastException")

variable [InvariantCulture]

/-- The property of an object that has the name: one that its type declares itself, whatever the
    case of the letters, or else one that it inherits. -/
def property (propertyName : String) (obj : Obj) : Except RuntimeException (Option P) :=
  let type := R.getType obj
  match (R.declaredProperties type).find? fun p =>
      equalsOrdinalIgnoreCase (R.name p).toList propertyName.toList with
  | some p => .ok (some p)
  | none => R.getProperty type propertyName

/-- `Fetch`, with the fetcher as it leaves it. -/
def fetch (f : PropertyFetcher P) (obj : Obj) :
    Except RuntimeException (Option Val) × PropertyFetcher P :=
  match f.innerFetcher.value? with
  | some inner => (innerFetch R inner obj, f)
  | none =>
    match property R f.propertyName obj >>= fetcherForProperty R with
    | .error e => (.error e, f)
    | .ok inner => (innerFetch R inner obj, { f with innerFetcher := ⟨some inner⟩ })

/-- The calls of one fetcher. -/
def system : LTS.System (PropertyFetcher P) Obj where
  init f := ∃ propertyName, f = fresh propertyName
  step f obj := some (fetch R f obj).2

/-! ### The law -/

variable (propertyName : String)

/-- `value` is what the object's property of that name has as its value, or null if it has no
    such property. -/
def IsValue (obj : Obj) (value : Option Val) : Prop :=
  (property R propertyName obj = .ok none ∧ value = none) ∨
    ∃ p, property R propertyName obj = .ok (some p) ∧ R.createDelegate p = .ok () ∧
      R.invoke p obj = .ok value

/-- A call returns the value, and so would a fetcher that was not used before. -/
def IsIndependent (f : PropertyFetcher P) (obj : Obj) : Prop :=
  ∃ value, IsValue R f.propertyName obj value ∧ (fetch R f obj).1 = .ok value ∧
    (fetch R (fresh f.propertyName) obj).1 = .ok value

/-- The property of the object `first` gives `value` for `obj`, too. -/
def Serves (first obj : Obj) (value : Option Val) : Prop :=
  (property R propertyName first = .ok none ∧ value = none) ∨
    ∃ p, property R propertyName first = .ok (some p) ∧
      R.isInstanceOf obj (R.declaringType p) = true ∧ R.invoke p obj = .ok value

/-- Each object has a value, and the property of the first object gives it. -/
def FirstServesAll : List Obj → Prop
  | [] => True
  | first :: objs =>
    ∀ obj ∈ first :: objs, ∃ value, IsValue R propertyName obj value ∧
      Serves R propertyName first obj value

variable {R propertyName} {f : PropertyFetcher P} {obj : Obj} {value : Option Val}

/-- The property that is found for an object can be applied to it. -/
theorem isInstanceOf_property {p : P} (h : property R propertyName obj = .ok (some p)) :
    R.isInstanceOf obj (R.declaringType p) = true := by
  unfold property at h
  simp only at h
  split at h
  · rename_i q hfind
    cases h
    exact R.isInstanceOf_declared obj p (List.mem_of_find?_eq_some hfind)
  · exact R.isInstanceOf_inherited obj propertyName p h

/-- What the first call of a fetcher does, if it does not throw. -/
theorem fetch_fresh_eq_ok_iff :
    (fetch R (fresh propertyName) obj).1 = .ok value ↔ IsValue R propertyName obj value := by
  unfold fetch fresh IsValue
  simp only
  cases hproperty : property R propertyName obj with
  | error e => simp [bind, Except.bind]
  | ok found =>
    cases found with
    | none =>
      simp [bind, Except.bind, fetcherForProperty, innerFetch, eq_comm]
    | some p =>
      have hinstance := isInstanceOf_property hproperty
      cases hdelegate : R.createDelegate p with
      | error e => simp [bind, Except.bind, fetcherForProperty, hdelegate, Except.map]
      | ok u =>
        simp [bind, Except.bind, fetcherForProperty, hdelegate, Except.map, innerFetch, hinstance]

/-- It leaves the accessor of the property behind. -/
theorem fetch_fresh_snd (h : IsValue R propertyName obj value) :
    ∃ inner, (fetch R (fresh propertyName) obj).2 = ⟨propertyName, ⟨some inner⟩⟩ ∧
      ∀ other value', innerFetch R inner other = .ok value' ↔
        Serves R propertyName obj other value' := by
  unfold fetch fresh
  simp only
  rcases h with ⟨hnone, -⟩ | ⟨p, hp, hdelegate, -⟩
  · refine ⟨.nothing, ?_, fun other value' => ?_⟩
    · simp [hnone, bind, Except.bind, fetcherForProperty]
    · have hserves : Serves R propertyName obj other value' ↔ value' = none := by
        simp [Serves, hnone]
      rw [hserves, innerFetch, Except.ok.injEq]
      exact eq_comm
  · refine ⟨.typed p, ?_, fun other value' => ?_⟩
    · simp [hp, hdelegate, bind, Except.bind, fetcherForProperty, Except.map]
    · cases hinstance : R.isInstanceOf other (R.declaringType p) <;>
        simp [innerFetch, Serves, hp, hinstance]

/-- From then on the fetcher does not change. -/
theorem fetch_of_filled {inner : PropertyFetch P} :
    fetch R ⟨propertyName, ⟨some inner⟩⟩ obj =
      (innerFetch R inner obj, ⟨propertyName, ⟨some inner⟩⟩) := rfl

theorem isIndependent_of_filled_iff {inner : PropertyFetch P} :
    IsIndependent R ⟨propertyName, ⟨some inner⟩⟩ obj ↔
      ∃ value, IsValue R propertyName obj value ∧ innerFetch R inner obj = .ok value := by
  refine exists_congr fun value => ?_
  rw [fetch_of_filled, fetch_fresh_eq_ok_iff]
  constructor
  · rintro ⟨hvalue, hfetch, -⟩
    exact ⟨hvalue, hfetch⟩
  · rintro ⟨hvalue, hfetch⟩
    exact ⟨hvalue, hfetch, hvalue⟩

/-- A fetcher that is filled is asked about each object by itself. -/
theorem along_of_filled_iff {inner : PropertyFetch P} (objs : List Obj) :
    (system R).Along (IsIndependent R) ⟨propertyName, ⟨some inner⟩⟩ objs ↔
      ∀ obj ∈ objs, IsIndependent R ⟨propertyName, ⟨some inner⟩⟩ obj := by
  induction objs with
  | nil => exact iff_of_true trivial (List.forall_mem_nil _)
  | cons obj objs ih =>
    have hstep : (system R).step ⟨propertyName, ⟨some inner⟩⟩ obj =
        some ⟨propertyName, ⟨some inner⟩⟩ := rfl
    rw [LTS.System.along_cons_of_step hstep, ih, List.forall_mem_cons]

/-- The first object is served by its own property. -/
theorem IsValue.serves_self (h : IsValue R propertyName obj value) :
    Serves R propertyName obj obj value := by
  rcases h with hnone | ⟨p, hp, -, hinvoke⟩
  · exact .inl hnone
  · exact .inr ⟨p, hp, isInstanceOf_property hp, hinvoke⟩

/-- The first call fills the fetcher, and the later ones are served by what it has left. -/
theorem along_after_first_iff {first : Obj} {firstValue : Option Val}
    (h : IsValue R propertyName first firstValue) (objs : List Obj) :
    (system R).Along (IsIndependent R) (fetch R (fresh propertyName) first).2 objs ↔
      ∀ obj ∈ objs, ∃ value, IsValue R propertyName obj value ∧
        Serves R propertyName first obj value := by
  obtain ⟨inner, hfilled, hinner⟩ := fetch_fresh_snd h
  rw [hfilled, along_of_filled_iff]
  refine forall₂_congr fun obj _ => ?_
  rw [isIndependent_of_filled_iff]
  exact exists_congr fun value => and_congr_right fun _ => hinner obj value

/-- Every call of a fetcher returns what one that was not used before would return, the value of
    the object's property or null if it has none, if and only if the property of the first object
    gives the values of all of them. -/
theorem fetch_isIndependent_iff (R : Reflection T P Obj Val) (propertyName : String)
    (objs : List Obj) :
    (system R).Along (IsIndependent R) (fresh propertyName) objs ↔
      FirstServesAll R propertyName objs := by
  cases objs with
  | nil => exact Iff.rfl
  | cons first objs =>
    rw [LTS.System.along_cons_of_step rfl, FirstServesAll, List.forall_mem_cons]
    constructor
    · rintro ⟨⟨value, hvalue, -⟩, hrest⟩
      exact ⟨⟨value, hvalue, hvalue.serves_self⟩, (along_after_first_iff hvalue objs).mp hrest⟩
    · rintro ⟨⟨value, hvalue, -⟩, hrest⟩
      have hfetch := fetch_fresh_eq_ok_iff.mpr hvalue
      exact ⟨⟨value, hvalue, hfetch, hfetch⟩, (along_after_first_iff hvalue objs).mpr hrest⟩

/-- Objects that share one property meet the condition wherever the property can be read. -/
theorem firstServesAll_of_oneProperty {objs : List Obj} {found : Option P}
    (hfound : ∀ obj ∈ objs, property R propertyName obj = .ok found)
    (hvalue : ∀ obj ∈ objs, ∃ value, IsValue R propertyName obj value) :
    FirstServesAll R propertyName objs := by
  cases objs with
  | nil => trivial
  | cons first objs =>
    intro obj hobj
    obtain ⟨value, h⟩ := hvalue obj hobj
    have hsame : property R propertyName first = property R propertyName obj :=
      (hfound first List.mem_cons_self).trans (hfound obj hobj).symm
    refine ⟨value, h, ?_⟩
    rw [Serves, hsame]
    exact h.serves_self

/-- Those of one type do. -/
theorem firstServesAll_of_oneType {first : Obj} {objs : List Obj}
    (htype : ∀ obj ∈ first :: objs, R.getType obj = R.getType first)
    (hvalue : ∀ obj ∈ first :: objs, ∃ value, IsValue R propertyName obj value) :
    FirstServesAll R propertyName (first :: objs) := by
  obtain ⟨value, hfirst⟩ := hvalue first List.mem_cons_self
  have hfound : ∃ found, property R propertyName first = .ok found := by
    rcases hfirst with ⟨hnone, -⟩ | ⟨p, hp, -⟩
    · exact ⟨none, hnone⟩
    · exact ⟨some p, hp⟩
  obtain ⟨found, hfound⟩ := hfound
  have hall : ∀ obj ∈ first :: objs, property R propertyName obj = .ok found := by
    intro obj hobj
    rw [property, htype obj hobj]
    exact hfound
  exact firstServesAll_of_oneProperty hall hvalue

/-- No sequence meets it in which the first object has the property, and a later one is of a type
    that does not derive from the one that declares it. -/
theorem not_firstServesAll_of_unrelated {first : Obj} {objs : List Obj} {p : P}
    (hfirst : property R propertyName first = .ok (some p)) (hobj : obj ∈ objs)
    (h : R.isInstanceOf obj (R.declaringType p) = false) :
    ¬ FirstServesAll R propertyName (first :: objs) := by
  intro hall
  obtain ⟨value, -, hserves⟩ := hall obj (List.mem_cons_of_mem _ hobj)
  rcases hserves with ⟨hnone, -⟩ | ⟨q, hq, hinstance, -⟩
  · rw [hfirst] at hnone
    cases hnone
  · rw [hfirst] at hq
    cases hq
    rw [h] at hinstance
    cases hinstance

/-! ### Two events of one listener -/

/-- The types of two events with an exception: of a middleware, and of the host. -/
inductive EventType where
  | diagnosticsHandledException
  | hostingUnhandledException
  deriving DecidableEq, Repr

/-- Both are anonymous types that declare a property `httpContext`; the properties are named by
    the types here. -/
def eventReflection : Reflection EventType EventType EventType String where
  getType := id
  isInstanceOf obj type := obj = type
  name _ := "httpContext"
  declaringType := id
  declaredProperties type := [type]
  getProperty _ _ := .ok none
  createDelegate _ := .ok ()
  invoke _ _ := .ok (some "context")
  isInstanceOf_declared obj p hp := by
    rw [List.mem_singleton.mp hp]
    exact decide_eq_true rfl
  isInstanceOf_inherited _ _ _ h := by cases h

omit [InvariantCulture] in
/-- A fetcher that has seen an event of the one type throws for one of the other type. -/
theorem fetch_isIndependent_counterexample :
    ¬ ∀ (_ : InvariantCulture) (T P Obj Val : Type) (R : Reflection T P Obj Val)
      (propertyName : String) (objs : List Obj),
      (system R).Along (IsIndependent R) (fresh propertyName) objs := by
  intro h
  have halong := h .ascii _ _ _ _ eventReflection "HttpContext"
    [.diagnosticsHandledException, .hostingUnhandledException]
  obtain ⟨-, hrest⟩ := halong _ rfl
  obtain ⟨⟨value, -, hfetch, -⟩, -⟩ := hrest _ rfl
  have hthrows : (@fetch _ _ _ _ eventReflection .ascii
      (@fetch _ _ _ _ eventReflection .ascii (fresh "HttpContext")
        .diagnosticsHandledException).2 .hostingUnhandledException).1 =
      .error (.other "InvalidCastException") := by rfl
  rw [hthrows] at hfetch
  cases hfetch

end PropertyFetcher

end ApmAgent
