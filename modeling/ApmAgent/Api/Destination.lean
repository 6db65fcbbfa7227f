import ApmAgent.Helpers.Text

/-! # Destination

  What a span says about the system it called. Each property of a
  `Destination` may be unset, or set to a value that may be null: an explicit
  null keeps the agent from deducing the property.
-/

namespace ApmAgent

/-- `Destination.DestinationService`. -/
structure DestinationService where
  name : Option String
  resource : Option String
  type : Option String
  deriving DecidableEq, Repr

/-- `Destination.Optional<T>` for a nullable `T`. -/
inductive Optional (α : Type) where
  | unset
  | set (value : Option α)
  deriving DecidableEq, Repr

namespace Optional

variable {α : Type}

/-- `Value`, null as long as nothing is set. -/
def value : Optional α → Option α
  | unset => none
  | set v => v

/-- `if (!o.HasValue) o = src`. -/
def orElse : Optional α → Optional α → Optional α
  | unset, src => src
  | set v, _ => set v

@[simp] theorem value_unset : (unset : Optional α).value = none := rfl

@[simp] theorem value_set (v : Option α) : (set v).value = v := rfl

end Optional

/-- `Destination`. -/
structure Destination where
  address : Optional String
  port : Optional Int32
  service : Optional DestinationService
  deriving DecidableEq, Repr

namespace Destination

/-- `new Destination()`. -/
def new : Destination := ⟨.unset, .unset, .unset⟩

/-- `AddressHasValue`. -/
def addressHasValue (d : Destination) : Bool := d.address ≠ .unset

def setAddress (d : Destination) (address : String) : Destination :=
  { d with address := .set (some address) }

def setPort (d : Destination) (port : Option Int32) : Destination :=
  { d with port := .set port }

def setService (d : Destination) (service : Option DestinationService) : Destination :=
  { d with service := .set service }

/-- `CopyMissingPropertiesFrom`. -/
def copyMissingPropertiesFrom (d src : Destination) : Destination where
  address := d.address.orElse src.address
  port := d.port.orElse src.port
  service := d.service.orElse src.service

/-- What the properties `Address`, `Port` and `Service` return. -/
structure Properties where
  address : Option String
  port : Option Int32
  service : Option DestinationService
  deriving DecidableEq, Repr

def properties (d : Destination) : Properties where
  address := d.address.value
  port := d.port.value
  service := d.service.value

end Destination

end ApmAgent
