import ApmAgent.Api.Context
import ApmAgent.Framework.ObjectGraph

/-! # Contexts as objects

  The classes under `Elastic.Apm.Api` are mutable and refer to each other. Here
  a context is an object on a heap, and its request, response, service and user
  are other objects, which may be shared. `contextAt` is the context that a
  reader finds at a reference at one moment; it depends on a closed part of the
  heap only (`Heap.contextAt_congr`).
-/

namespace ApmAgent

namespace Api

open ObjectGraph

abbrev ObjectRef := Nat

/-! ### Objects -/

/-- A `Context`. Its own dictionaries are there from the start: one that was not created yet and
    one without entries are not told apart. -/
structure ContextObject where
  custom : ObjectRef
  internalLabels : ObjectRef
  request : Option ObjectRef
  response : Option ObjectRef
  service : Option ObjectRef
  user : Option ObjectRef
  deriving DecidableEq

structure RequestObject where
  body : Option Body
  headers : Option ObjectRef
  httpVersion : Option String
  method : Option String
  socket : Option ObjectRef
  url : Option ObjectRef
  deriving DecidableEq

structure ResponseObject where
  finished : Bool
  headers : Option ObjectRef
  statusCode : Int
  deriving DecidableEq

structure ServiceObject where
  agent : Option ObjectRef
  environment : Option String
  framework : Option ObjectRef
  language : Option ObjectRef
  name : Option String
  node : Option ObjectRef
  runtime : Option ObjectRef
  version : Option String
  deriving DecidableEq

inductive ApiObject where
  | context (o : ContextObject)
  | strings (d : StringDictionary)
  | labels (labels : LabelsDictionary)
  | request (o : RequestObject)
  | response (o : ResponseObject)
  | service (o : ServiceObject)
  | user (user : User)
  | socket (socket : Socket)
  | url (url : Url)
  | nameAndVersion (value : NameAndVersion)
  | language (language : Language)
  | node (node : Node)
  deriving DecidableEq

/-- The members that hold references. -/
inductive Member where
  | custom
  | internalLabels
  | request
  | response
  | service
  | user
  | headers
  | socket
  | url
  | agent
  | framework
  | language
  | node
  | runtime
  deriving DecidableEq

namespace ApiObject

/-- The reference a member holds. -/
def member : ApiObject → Member → Option ObjectRef
  | context o, .custom => some o.custom
  | context o, .internalLabels => some o.internalLabels
  | context o, .request => o.request
  | context o, .response => o.response
  | context o, .service => o.service
  | context o, .user => o.user
  | request o, .headers => o.headers
  | request o, .socket => o.socket
  | request o, .url => o.url
  | response o, .headers => o.headers
  | service o, .agent => o.agent
  | service o, .framework => o.framework
  | service o, .language => o.language
  | service o, .node => o.node
  | service o, .runtime => o.runtime
  | _, _ => none

/-- All references an object holds. -/
def members : ApiObject → List ObjectRef
  | context o =>
    o.custom :: o.internalLabels ::
      (o.request.toList ++ o.response.toList ++ o.service.toList ++ o.user.toList)
  | request o => o.headers.toList ++ o.socket.toList ++ o.url.toList
  | response o => o.headers.toList
  | service o =>
    o.agent.toList ++ o.framework.toList ++ o.language.toList ++ o.node.toList ++
      o.runtime.toList
  | _ => []

theorem member_mem {o : ApiObject} {m : Member} {r : ObjectRef} (h : o.member m = some r) :
    r ∈ o.members := by
  cases o <;> cases m <;> simp_all [member, members]

/-! ### Casts -/

def context? : ApiObject → Option ContextObject
  | context o => some o
  | _ => none

def strings? : ApiObject → Option StringDictionary
  | strings d => some d
  | _ => none

def labels? : ApiObject → Option LabelsDictionary
  | labels l => some l
  | _ => none

def request? : ApiObject → Option RequestObject
  | request o => some o
  | _ => none

def response? : ApiObject → Option ResponseObject
  | response o => some o
  | _ => none

def service? : ApiObject → Option ServiceObject
  | service o => some o
  | _ => none

def user? : ApiObject → Option User
  | user u => some u
  | _ => none

def socket? : ApiObject → Option Socket
  | socket s => some s
  | _ => none

def url? : ApiObject → Option Url
  | url u => some u
  | _ => none

def nameAndVersion? : ApiObject → Option NameAndVersion
  | nameAndVersion v => some v
  | _ => none

def language? : ApiObject → Option Language
  | language l => some l
  | _ => none

def node? : ApiObject → Option Node
  | node n => some n
  | _ => none

end ApiObject

/-! ### Reading a context -/

abbrev Heap := Store ApiObject

namespace Heap

/-- The object a reference names, if it is of the right class. -/
def read {β : Type} (h : Heap) (cast : ApiObject → Option β) (r : Option ObjectRef) : Option β :=
  (r.bind h.get?).bind cast

def requestOf (h : Heap) (o : RequestObject) : Request where
  body := o.body
  headers := h.read ApiObject.strings? o.headers
  httpVersion := o.httpVersion
  method := o.method
  socket := h.read ApiObject.socket? o.socket
  url := h.read ApiObject.url? o.url

def responseOf (h : Heap) (o : ResponseObject) : Response where
  finished := o.finished
  headers := h.read ApiObject.strings? o.headers
  statusCode := o.statusCode

def serviceOf (h : Heap) (o : ServiceObject) : Service where
  agent := h.read ApiObject.nameAndVersion? o.agent
  environment := o.environment
  framework := h.read ApiObject.nameAndVersion? o.framework
  language := h.read ApiObject.language? o.language
  name := o.name
  node := h.read ApiObject.node? o.node
  runtime := h.read ApiObject.nameAndVersion? o.runtime
  version := o.version

def requestAt (h : Heap) (r : Option ObjectRef) : Option Request :=
  (h.read ApiObject.request? r).map h.requestOf

def responseAt (h : Heap) (r : Option ObjectRef) : Option Response :=
  (h.read ApiObject.response? r).map h.responseOf

def serviceAt (h : Heap) (r : Option ObjectRef) : Option Service :=
  (h.read ApiObject.service? r).map h.serviceOf

def customAt (h : Heap) (r : ObjectRef) : StringDictionary :=
  (h.read ApiObject.strings? (some r)).getD .empty

def labelsAt (h : Heap) (r : ObjectRef) : LabelsDictionary :=
  (h.read ApiObject.labels? (some r)).getD .empty

def contextOf (h : Heap) (o : ContextObject) : Context where
  custom := h.customAt o.custom
  internalLabels := h.labelsAt o.internalLabels
  request := h.requestAt o.request
  response := h.responseAt o.response
  service := h.serviceAt o.service
  user := h.read ApiObject.user? o.user

/-- The context that is found at a reference. -/
def contextAt (h : Heap) (r : ObjectRef) : Option Context :=
  (h.read ApiObject.context? (some r)).map h.contextOf

end Heap

/-! ### A closed part of the heap decides what is read there -/

namespace Heap

section
variable {β γ : Type} {h h' : Heap} {P : ObjectRef → Prop}

theorem read_congr {cast : ApiObject → Option β} {r : Option ObjectRef}
    (hr : ∀ k ∈ r, h'.get? k = h.get? k) : h'.read cast r = h.read cast r := by
  cases r with
  | none => rfl
  | some k => simp [read, hr k rfl]

/-- The object that is read. -/
theorem read_eq_some {cast : ApiObject → Option β} {r : Option ObjectRef} {b : β} :
    h.read cast r = some b ↔ ∃ k a, r = some k ∧ h.get? k = some a ∧ cast a = some b := by
  cases r with
  | none => simp [read]
  | some k => simp [read, Option.bind_eq_some_iff]

/-- What is computed from the object that is read may depend on its members. -/
theorem map_read_congr {cast : ApiObject → Option β} {f f' : β → γ} {r : Option ObjectRef}
    (hclosed : Closed ApiObject.members P h) (hagree : ∀ r, P r → h'.get? r = h.get? r)
    (hr : ∀ k ∈ r, P k)
    (hf : ∀ a b, (∀ k ∈ a.members, P k) → cast a = some b → f' b = f b) :
    (h'.read cast r).map f' = (h.read cast r).map f := by
  rw [read_congr fun k hk => hagree k (hr k hk)]
  cases hread : h.read cast r with
  | none => rfl
  | some b =>
    -- The object is in the closed part, so what it refers to is as well.
    obtain ⟨k, a, hk, ha, hcast⟩ := read_eq_some.mp hread
    exact congrArg some (hf a b (hclosed k a (hr k hk) ha) hcast)

variable (hclosed : Closed ApiObject.members P h) (hagree : ∀ r, P r → h'.get? r = h.get? r)

section
include hagree

theorem requestOf_congr {o : RequestObject} (ho : ∀ k ∈ (ApiObject.request o).members, P k) :
    h'.requestOf o = h.requestOf o := by
  simp only [ApiObject.members, List.mem_append, Option.mem_toList] at ho
  unfold requestOf
  rw [read_congr fun k hk => hagree k (ho k (.inl (.inl hk))),
    read_congr fun k hk => hagree k (ho k (.inl (.inr hk))),
    read_congr fun k hk => hagree k (ho k (.inr hk))]

theorem responseOf_congr {o : ResponseObject}
    (ho : ∀ k ∈ (ApiObject.response o).members, P k) : h'.responseOf o = h.responseOf o := by
  simp only [ApiObject.members, Option.mem_toList] at ho
  unfold responseOf
  rw [read_congr fun k hk => hagree k (ho k hk)]

theorem serviceOf_congr {o : ServiceObject} (ho : ∀ k ∈ (ApiObject.service o).members, P k) :
    h'.serviceOf o = h.serviceOf o := by
  -- One fact for all five members.
  have hread {δ : Type} {cast : ApiObject → Option δ} (m : Member) {r : Option ObjectRef}
      (hm : (ApiObject.service o).member m = r) : h'.read cast r = h.read cast r :=
    read_congr fun k hk => hagree k (ho k (ApiObject.member_mem (hm.trans hk)))
  unfold serviceOf
  rw [hread (r := o.agent) .agent rfl, hread (r := o.framework) .framework rfl,
    hread (r := o.language) .language rfl, hread (r := o.node) .node rfl,
    hread (r := o.runtime) .runtime rfl]

end

include hclosed hagree

theorem requestAt_congr {r : Option ObjectRef} (hr : ∀ k ∈ r, P k) :
    h'.requestAt r = h.requestAt r := by
  refine map_read_congr hclosed hagree hr fun a o ha ho => ?_
  cases a <;> simp only [ApiObject.request?, Option.some.injEq, reduceCtorEq] at ho
  subst ho
  exact requestOf_congr hagree ha

theorem responseAt_congr {r : Option ObjectRef} (hr : ∀ k ∈ r, P k) :
    h'.responseAt r = h.responseAt r := by
  refine map_read_congr hclosed hagree hr fun a o ha ho => ?_
  cases a <;> simp only [ApiObject.response?, Option.some.injEq, reduceCtorEq] at ho
  subst ho
  exact responseOf_congr hagree ha

theorem serviceAt_congr {r : Option ObjectRef} (hr : ∀ k ∈ r, P k) :
    h'.serviceAt r = h.serviceAt r := by
  refine map_read_congr hclosed hagree hr fun a o ha ho => ?_
  cases a <;> simp only [ApiObject.service?, Option.some.injEq, reduceCtorEq] at ho
  subst ho
  exact serviceOf_congr hagree ha

theorem contextOf_congr {o : ContextObject} (ho : ∀ k ∈ (ApiObject.context o).members, P k) :
    h'.contextOf o = h.contextOf o := by
  have hm (m : Member) {r : Option ObjectRef} (hm : (ApiObject.context o).member m = r) :
      ∀ k ∈ r, P k :=
    fun k hk => ho k (ApiObject.member_mem (hm.trans hk))
  have hread {δ : Type} {cast : ApiObject → Option δ} {r : Option ObjectRef}
      (hr : ∀ k ∈ r, P k) : h'.read cast r = h.read cast r :=
    read_congr fun k hk => hagree k (hr k hk)
  unfold contextOf customAt labelsAt
  rw [hread (r := some o.custom) (hm .custom rfl),
    hread (r := some o.internalLabels) (hm .internalLabels rfl),
    hread (r := o.user) (hm .user rfl),
    requestAt_congr hclosed hagree (r := o.request) (hm .request rfl),
    responseAt_congr hclosed hagree (r := o.response) (hm .response rfl),
    serviceAt_congr hclosed hagree (r := o.service) (hm .service rfl)]

theorem contextAt_congr {r : ObjectRef} (hr : P r) : h'.contextAt r = h.contextAt r := by
  refine map_read_congr hclosed hagree (by simpa using hr) fun a o ha ho => ?_
  cases a <;> simp only [ApiObject.context?, Option.some.injEq, reduceCtorEq] at ho
  subst ho
  exact contextOf_congr hclosed hagree ha

end

end Heap

end Api

end ApmAgent
