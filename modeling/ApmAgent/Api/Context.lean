import ApmAgent.Framework.Dict
import ApmAgent.Framework.Json
import ApmAgent.Helpers.Text

/-! # The context of an event

  The public classes under `Elastic.Apm.Api` that a transaction's and an
  error's `Context` is made of, as the values a reader of the context sees.
  Members are in declaration order, which is the order they are sent in. A
  property that may be null is an `Option`.
-/

namespace ApmAgent

/-- `Consts.Redacted`. -/
def redacted : String := "[REDACTED]"

namespace Api

/-- `Dictionary<string, string>`; values may be null. -/
abbrev StringDictionary := Dict String (Option String)

/-! ### Request and response -/

structure Socket where
  encrypted : Bool
  remoteAddress : Option String
  deriving DecidableEq

structure Url where
  full : Option String
  hostName : Option String
  pathName : Option String
  protocol : Option String
  raw : Option String
  search : Option String
  deriving DecidableEq

/-- What `Request.Body` refers to: the constant `Consts.Redacted`, or a text that was read. The
    agent tells them apart by reference. -/
inductive Body where
  | redacted
  | text (s : String)
  deriving DecidableEq

/-- The text a body refers to. -/
def Body.content : Body → String
  | .redacted => ApmAgent.redacted
  | .text s => s

structure Request where
  body : Option Body
  headers : Option StringDictionary
  httpVersion : Option String
  method : Option String
  socket : Option Socket
  url : Option Url
  deriving DecidableEq

structure Response where
  finished : Bool
  headers : Option StringDictionary
  statusCode : Int
  deriving DecidableEq

/-! ### Service and user -/

/-- `Service.AgentC`, `Framework` and `Runtime`. -/
structure NameAndVersion where
  name : Option String
  version : Option String
  deriving DecidableEq

structure Language where
  name : Option String
  deriving DecidableEq

structure Node where
  configuredName : Option String
  deriving DecidableEq

structure Service where
  agent : Option NameAndVersion
  environment : Option String
  framework : Option NameAndVersion
  language : Option Language
  name : Option String
  node : Option Node
  runtime : Option NameAndVersion
  version : Option String
  deriving DecidableEq

structure User where
  email : Option String
  id : Option String
  userName : Option String
  deriving DecidableEq

/-! ### Labels -/

/-- The types a `Label` can be made of. -/
inductive LabelValue where
  | string (s : String)
  | bool (b : Bool)
  /-- `int`, `long`, `double` and `decimal`. -/
  | number (n : NumberToken)
  deriving DecidableEq

/-- `Label`; its value may be null. -/
structure Label where
  value : Option LabelValue
  deriving DecidableEq

/-- The implicit conversion from `string`. -/
def Label.ofString (s : Option String) : Label := ⟨s.map .string⟩

/-- `LabelsDictionary`: the dictionary it is, for the old interface, and the one it has. -/
structure LabelsDictionary where
  base : StringDictionary
  innerDictionary : Dict String Label
  deriving DecidableEq

namespace LabelsDictionary

def empty : LabelsDictionary := ⟨.empty, .empty⟩

/-- `LabelsDictionary.MergedDictionary`. -/
def mergedDictionary (labels : LabelsDictionary) : Dict String Label :=
  labels.innerDictionary.setAll (labels.base.entries.map fun e => (e.1, .ofString e.2))

end LabelsDictionary

/-! ### Context -/

/-- `Context`. The dictionaries are created on first use; one that was not created reads as one
    without entries. -/
structure Context where
  custom : StringDictionary
  internalLabels : LabelsDictionary
  request : Option Request
  response : Option Response
  service : Option Service
  user : Option User
  deriving DecidableEq

namespace Context

/-- `new Context()`. -/
def empty : Context where
  custom := .empty
  internalLabels := .empty
  request := none
  response := none
  service := none
  user := none

/-- `Context.ShouldSerializeLabels`. -/
def shouldSerializeLabels (c : Context) : Bool := 0 < c.internalLabels.mergedDictionary.count

/-- `Context.ShouldSerializeCustom`. -/
def shouldSerializeCustom (c : Context) : Bool := 0 < c.custom.count

end Context

end Api

end ApmAgent
