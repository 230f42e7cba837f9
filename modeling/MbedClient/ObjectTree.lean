import MbedClient.CNumber
import MbedClient.Slot

/-! The object tree: `M2MObject`, `M2MObjectInstance`, `M2MResource`, `M2MResourceInstance` with the
fields their store and the TLV code use, and the operations that change values or add nodes.
`report()` and the callbacks a value change sets off are not part of the store. -/
namespace MbedClient

inductive Mode where
  | static | dynamic | directory
  deriving DecidableEq, Repr

/-- `M2MResourceBase::ResourceType`; `opaqueData` is its `OPAQUE`. -/
inductive ResourceType where
  | string | integer | float | boolean | opaqueData | time | objlink
  deriving DecidableEq, Repr

def getAllowed : UInt8 := 0x01
def getPutAllowed : UInt8 := 0x03
def getPutPostDeleteAllowed : UInt8 := 0x0F
def snGrsPutAllowed : UInt8 := 0x02

/-- Outcomes of the coming allocations, the next one first. -/
abbrev Heap := Nat → Bool

def Heap.malloc (h : Heap) : Bool × Heap := (h 0, fun n => h (n + 1))

/-- What a new node of the tree needs: its path from `create_path`, then `new`. -/
def Heap.newNode (h : Heap) : Bool × Heap :=
  let (path, h) := h.malloc
  if path then h.malloc else (false, h)

/-- `value` is empty when the source's pointer is NULL and its length 0. -/
structure M2MResourceBase where
  mode : Mode
  operation : UInt8
  resourceType : ResourceType
  value : Bytes
  deriving DecidableEq

namespace M2MResourceBase
variable (b : M2MResourceBase)

/-- If the mode is Static, there is only GET_ALLOWED supported. -/
def setOperation (opr : UInt8) : M2MResourceBase :=
  { b with operation := if b.mode = .static then getAllowed else opr }

def putAllowed : Bool := 0 != b.operation &&& snGrsPutAllowed

def clearValue : M2MResourceBase := { b with value := [] }

/-- `success` says nothing about the allocation of the copy: if it fails, the old value is gone. -/
def setValue (value : Bytes) (h : Heap) : Bool × M2MResourceBase × Heap :=
  if 0 < value.length then
    let (copied, h) := h.malloc
    (true, { b with value := if copied then value else [] }, h)
  else (false, b, h)

def setValueInt (value : Int64) (h : Heap) : Bool × M2MResourceBase × Heap :=
  b.setValue (itoaC value) h

/-- `atoll` of the stored bytes, which a NUL follows. -/
def getValueInt : Int := atoll (cStr b.value)

end M2MResourceBase

structure M2MResourceInstance extends M2MResourceBase where
  instanceId : UInt16
  deriving DecidableEq

structure M2MResource extends M2MResourceBase where
  name : Bytes
  multipleInstance : Bool
  instances : List M2MResourceInstance
  deriving DecidableEq

structure M2MObjectInstance where
  instanceId : UInt16
  resources : List M2MResource
  deriving DecidableEq

structure M2MObject where
  instances : List M2MObjectInstance
  deriving DecidableEq

def validateStringLength (s : Bytes) (minLength maxLength : Nat) : Bool :=
  decide (minLength ≤ s.length) && decide (s.length ≤ maxLength)

namespace M2MResource
variable (r : M2MResource)

def nameId : Int := MbedClient.nameId r.name

def resourceInstance (id : UInt16) : Option M2MResourceInstance :=
  r.instances.find? (·.instanceId == id)

/-- `create_dynamic_resource_instance` of the owning object instance with the name of this
resource, which `resource(resource_name)` finds again. `use` is what the caller does through the
returned pointer. -/
def createDynamicInstance (type : ResourceType) (instanceId : UInt16)
    (use : M2MResourceBase → M2MResourceBase) (h : Heap) : Bool × M2MResource × Heap :=
  if validateStringLength r.name 1 maxAllowedStringLength && r.multipleInstance &&
      (r.resourceInstance instanceId).isNone then
    let (created, h) := h.newNode
    if created then
      let base : M2MResourceBase := ⟨.dynamic, 0, type, []⟩
      (true, { r with instances :=
        r.instances ++ [⟨use (base.setOperation getAllowed), instanceId⟩] }, h)
    else (false, r, h)
  else (false, r, h)

def memberAt (k : Nat) : Slot M2MResource M2MResourceInstance :=
  Slot.entry (·.instances) (fun xs r => { r with instances := xs }) (fun _ _ => rfl)
    (fun _ _ _ => rfl) (fun _ => rfl) k

end M2MResource

namespace M2MObjectInstance
variable (oi : M2MObjectInstance)

def resource (name : Bytes) : Option M2MResource := oi.resources.find? (·.name == name)

/-- `use` is what the caller does through the returned pointer. -/
def createDynamicResource (name : Bytes) (type : ResourceType) (multipleInstance : Bool)
    (use : M2MResourceBase → M2MResourceBase) (h : Heap) : Bool × M2MObjectInstance × Heap :=
  if validateStringLength name 1 maxAllowedStringLength && (oi.resource name).isNone then
    let (created, h) := h.newNode
    if created then
      let base : M2MResourceBase := ⟨.dynamic, 0, type, []⟩
      (true, { oi with resources := oi.resources ++
        [⟨use (base.setOperation getPutAllowed), name, multipleInstance, []⟩] }, h)
    else (false, oi, h)
  else (false, oi, h)

def resourceAt (k : Nat) : Slot M2MObjectInstance M2MResource :=
  Slot.entry (·.resources) (fun xs oi => { oi with resources := xs }) (fun _ _ => rfl)
    (fun _ _ _ => rfl) (fun _ => rfl) k

theorem resourceAt_instanceId {η : Type*} (k : Nat) (f : M2MResource × η → M2MResource × η)
    (s : M2MObjectInstance × η) : ((resourceAt k).zoom f s).1.instanceId = s.1.instanceId := by
  cases h : (resourceAt k).get s.1 with
  | none => rw [Slot.zoom_none _ h]
  | some r => rw [Slot.zoom_some _ h]; rfl

/-- A resource is only ever added under a name the list does not hold. -/
def NamesDistinct : Prop := (oi.resources.map (·.name)).Nodup

end M2MObjectInstance

namespace M2MObject

def instanceAt (j : Nat) : Slot M2MObject M2MObjectInstance :=
  Slot.entry (·.instances) (fun xs _ => { instances := xs }) (fun _ _ => rfl)
    (fun _ _ _ => rfl) (fun _ => rfl) j

def resourceAt (j k : Nat) : Slot M2MObject M2MResource :=
  (instanceAt j).trans (M2MObjectInstance.resourceAt k)

end M2MObject
end MbedClient
