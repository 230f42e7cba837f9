import MbedClient.ObjectTree
import MbedClient.Search
import MbedClient.Tlv.Header

/-! The class `M2MTLVDeserializer`. A recursive walk of the source is `Walk.run` over the part of
its body before the tail recursion; it stops where that body returns early. The environment threads
the outcomes of allocations and a ghost log of what a walk reads, stores and creates. -/
namespace MbedClient.Tlv
open Search

inductive Error where
  | none | notFound | notAllowed | notValid
  deriving DecidableEq, Repr

inductive Operation where
  | put | post
  deriving DecidableEq, Repr

/-- What a decoder does with its buffer and the tree. `record` is where the responsible record
starts, resources go by their `name_id`. The object instance of a member is missing where the
source passes none. -/
inductive Access where
  | byte (index : Nat)
  | value (offset length : Nat)
  | resource (record : Nat) (objectInstance : UInt16) (id : Int)
  | member (record : Nat) (objectInstance : Option UInt16) (resource : Int) (id : UInt16)
  deriving DecidableEq

structure Env where
  heap : Heap
  log : List Access

def Env.note (a : Access) (env : Env) : Env := { env with log := a :: env.log }

def Env.read (t : TypeIdLength) (env : Env) : Env :=
  { env with log := t.reads.map .byte ++ env.log }

section Walks
variable (tlv : Nat → UInt8) (size : Nat) (operation : Operation) (update : Bool)

/-- `set_value(tlv+offset, til._length)`, or `clear_value()` for an empty record. -/
def storeRecord (o : Nat) (b : M2MResourceBase) (env : Env) : M2MResourceBase × Env :=
  if 0 < recLength tlv o then
    let (_, b, heap) := b.setValue (recValue tlv o) env.heap
    (b, { heap, log := .value (recContent tlv o) (recLength tlv o) :: env.log })
  else (b.clearValue, env)

def storeMember (owner : Option UInt16) (resource : Int) (o : Nat) (i : M2MResourceInstance)
    (env : Env) : M2MResourceInstance × Env :=
  let (b, env) := storeRecord tlv o i.toM2MResourceBase
    (env.note (.member o owner resource i.instanceId))
  ({ i with toM2MResourceBase := b }, env)

def storeResource (owner : UInt16) (o : Nat) (r : M2MResource) (env : Env) : M2MResource × Env :=
  let (b, env) := storeRecord tlv o r.toM2MResourceBase (env.note (.resource o owner r.nameId))
  ({ r with toM2MResourceBase := b }, env)

def createMember (owner : Option UInt16) (o : Nat) (s : M2MResource × Env) : M2MResource × Env :=
  let (r, env) := s
  let (created, r, heap) := r.createDynamicInstance .integer (recId tlv o)
    (·.setOperation getPutPostDeleteAllowed) env.heap
  let env := { env with heap }
  (r, if created then env.note (.member o owner r.nameId (recId tlv o)) else env)

def createResource (o : Nat) (s : M2MObjectInstance × Env) : M2MObjectInstance × Env :=
  let (oi, env) := s
  let name := itoaC (Int64.ofNat (recId tlv o).toNat)
  let (created, oi, heap) := oi.createDynamicResource name .integer false
    (·.setOperation getPutPostDeleteAllowed) env.heap
  let env := { env with heap }
  (oi, if created then env.note (.resource o oi.instanceId (nameId name)) else env)

/-- One record of either private `deserialize_resource_instances`. The overload that gets the
object instance, called with its id as `owner`, accepts multiple resource records as well and
creates what it does not find. -/
def instanceRecord (owner : Option UInt16) (o : Nat) (s : M2MResource × Env) :
    Error × (M2MResource × Env) :=
  let (r, env) := s
  let env := env.read (header tlv o)
  let type := recType tlv o
  let id := recId tlv o
  if (owner.isSome && type == typeMultipleResource) || type == typeResourceInstance then
    let found := scan (fun i => i.instanceId == id && type == typeResourceInstance)
      (·.putAllowed) (storeMember tlv owner r.nameId o) update r.instances env
    let s := ({ r with instances := found.list }, found.env)
    if found.found then (if found.refused then .notAllowed else .none, s)
    else match operation, owner with
      | .post, some _ => (.none, createMember tlv owner o s)
      | .post, none => (.notAllowed, s)
      | .put, _ => (.notFound, s)
  else (.notValid, (r, env))

/-- The overloads return early at a record of another type. -/
def instanceStop (nested : Bool) (o : Nat) : Bool :=
  !((nested && recType tlv o == typeMultipleResource) || recType tlv o == typeResourceInstance)

/-- `deserialize_resource_instances(tlv, tlv_size, offset, resource, object_instance, ...)` -/
def deserializeResourceInstancesIn (owner : UInt16) (offset : Nat) (s : M2MResource × Env) :
    Error × (M2MResource × Env) :=
  Walk.run (frame tlv) (instanceStop tlv true) size
    (instanceRecord tlv operation update (some owner)) offset s

/-- `deserialize_resource_instances(tlv, tlv_size, offset, resource, ...)` -/
def deserializeResourceInstancesOf (offset : Nat) (s : M2MResource × Env) :
    Error × (M2MResource × Env) :=
  Walk.run (frame tlv) (instanceStop tlv false) size
    (instanceRecord tlv operation update none) offset s

/-- One record of the private `deserialize_resources`. -/
def resourceRecord (o : Nat) (s : M2MObjectInstance × Env) : Error × (M2MObjectInstance × Env) :=
  let (oi, env) := s
  let env := env.read (header tlv o)
  let type := recType tlv o
  let id := recId tlv o
  if type == typeResource || type == typeResourceInstance then
    let found := scan (fun r => r.nameId == (id.toNat : Int)) (·.putAllowed)
      (storeResource tlv oi.instanceId o) update oi.resources env
    let s := ({ oi with resources := found.list }, found.env)
    if found.found then (if found.refused then .notAllowed else .none, s)
    else match operation with
      | .post => (.none, createResource tlv o s)
      | .put => (.notFound, s)
  else if type == typeMultipleResource then
    let (error, resources, env) :=
      forMatches (fun r => r.multipleInstance && r.nameId == (id.toNat : Int))
        (fun r env => deserializeResourceInstancesIn tlv size operation update oi.instanceId
          (recContent tlv o) (r, env)) oi.resources .none env
    (error, ({ oi with resources }, env))
  else (.notValid, (oi, env))

def resourceStop (o : Nat) : Bool :=
  !(recType tlv o == typeResource || recType tlv o == typeResourceInstance ||
    recType tlv o == typeMultipleResource)

/-- `deserialize_resources(tlv, tlv_size, offset, object_instance, ...)` -/
def deserializeResourcesAt (offset : Nat) (s : M2MObjectInstance × Env) :
    Error × (M2MObjectInstance × Env) :=
  Walk.run (frame tlv) (resourceStop tlv) size (resourceRecord tlv size operation update) offset s

/-- One record of the private `deserialize_object_instances`. -/
def objectRecord (o : Nat) (s : M2MObject × Env) : Error × (M2MObject × Env) :=
  let (obj, env) := s
  let env := env.read (header tlv o)
  if recType tlv o == typeObjectInstance then
    let (error, instances, env) := forMatches (fun oi => oi.instanceId == recId tlv o)
      (fun oi env => deserializeResourcesAt tlv size operation update (recContent tlv o) (oi, env))
      obj.instances .none env
    (error, ({ instances }, env))
  else (.none, (obj, env))

def objectStop (o : Nat) : Bool := recType tlv o != typeObjectInstance

/-- `deserialize_object_instances(tlv, tlv_size, offset, object, ...)` -/
def deserializeObjectInstancesAt (offset : Nat) (s : M2MObject × Env) :
    Error × (M2MObject × Env) :=
  Walk.run (frame tlv) (objectStop tlv) size (objectRecord tlv size operation update) offset s

end Walks

/-! The public entry points. A buffer is a pointer, which may be NULL. -/
section Public

/-- `is_object_instance` and its siblings at offset 0 -/
def isType (type : UInt8) : Option (Nat → UInt8) → Bool
  | none => false
  | some tlv => tlv 0 &&& typeResource == type

/-- The first walk checks, the second one stores, and runs only if the first found no error. -/
def twice {σ : Type*} (walk : Bool → σ → Error × σ) (s : σ) : Error × σ :=
  let checked := walk false s
  if checked.1 = .none then walk true checked.2 else checked

def deserialiseObjectInstances (tlv : Option (Nat → UInt8)) (size : Nat) (operation : Operation)
    (s : M2MObject × Env) : Error × (M2MObject × Env) :=
  match tlv with
  | none => (.notValid, s)
  | some bytes =>
    let s := (s.1, s.2.note (.byte 0))
    if isType typeObjectInstance tlv then
      twice (fun update => deserializeObjectInstancesAt bytes size operation update 0) s
    else (.notValid, s)

def deserializeResources (tlv : Option (Nat → UInt8)) (size : Nat) (operation : Operation)
    (s : M2MObjectInstance × Env) : Error × (M2MObjectInstance × Env) :=
  match tlv with
  | none => (.notValid, s)
  | some bytes =>
    let s := (s.1, s.2.note (.byte 0))
    if !isType typeResource tlv && !isType typeMultipleResource tlv then (.notValid, s)
    else twice (fun update => deserializeResourcesAt bytes size operation update 0) s

/-- Where the public `deserialize_resource_instances` expects the first value to start. -/
def valueOffset (tlv : Nat → UInt8) : Nat :=
  let offset := if tlv 0 &&& 0x20 = 0 then 2 else 3
  let length := tlv 0 &&& 0x18
  if length = 0x08 then offset + 1
  else if length = 0x10 then offset + 2
  else if length = 0x18 then offset + 3
  else offset

def deserializeResourceInstances (tlv : Option (Nat → UInt8)) (size : Nat)
    (operation : Operation) (s : M2MResource × Env) : Error × (M2MResource × Env) :=
  match tlv with
  | none => (.notValid, s)
  | some bytes =>
    let s := (s.1, s.2.note (.byte 0))
    if !isType typeMultipleResource tlv then (.notValid, s)
    else twice (fun update =>
      deserializeResourceInstancesOf bytes size operation update (valueOffset bytes)) s

end Public
end MbedClient.Tlv
