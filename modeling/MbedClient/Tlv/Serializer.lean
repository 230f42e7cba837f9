import MbedClient.BigEndian
import MbedClient.ObjectTree
import MbedClient.Tlv.Header

/-! The class `M2MTLVSerializer`. A record is appended to a buffer by copying both into a new
allocation. Sizes are `uint32_t`: where the sum of them wraps, the copies pass the end of the
allocation, and the run has no result. `common_write_64_bit` belongs to another library. -/
namespace MbedClient.Tlv

/-- `uint8_t *&data, uint32_t &size`; a buffer that is NULL has size 0. -/
structure Output where
  data : Option Bytes
  size : UInt32
  deriving DecidableEq

def Output.empty : Output := ⟨none, 0⟩

def serializeId (id : UInt16) : Bytes :=
  if id > 255 then [((id &&& 0xFF00) >>> 8).toUInt8, (id &&& 0xFF).toUInt8]
  else [(id &&& 0xFF).toUInt8]

def serializeLength (length : UInt32) : Bytes :=
  if length > 65535 then [((length &&& 0xFF0000) >>> 16).toUInt8,
    ((length &&& 0xFF00) >>> 8).toUInt8, (length &&& 0xFF).toUInt8]
  else if length > 255 then [((length &&& 0xFF00) >>> 8).toUInt8, (length &&& 0xFF).toUInt8]
  else if length > 7 then [(length &&& 0xFF).toUInt8]
  else []

def tlvType (type : UInt8) (id : UInt16) (valueLength : UInt32) : UInt8 :=
  type + (if id < 256 then 0 else id16) +
    if valueLength < 8 then valueLength.toUInt8
    else if valueLength < 256 then length8
    else if valueLength < 65536 then length16 else length24

/-- Success, the buffer and the allocator; nothing if a copy passes the end of its allocation. -/
abbrev Appended := Option (Bool × Output × Heap)

def serializeTILV (type : UInt8) (id : UInt16) (value : Bytes) (valueLength : UInt32)
    (out : Output) (heap : Heap) : Appended :=
  let head := tlvType type id valueLength :: (serializeId id ++ serializeLength valueLength)
  let (granted, heap) := heap.malloc
  if granted then
    let request := out.size + UInt32.ofNat head.length + valueLength
    if request.toNat < out.size.toNat + head.length + valueLength.toNat then none
    else some (true, ⟨some ((out.data.getD []).take out.size.toNat ++ head ++
      value.take valueLength.toNat), request⟩, heap)
  else some (false, out, heap)

/-- The loop that gives up at the first element that fails. -/
def appendAll {α : Type*} (f : α → Output → Heap → Appended) :
    List α → Output → Heap → Appended
  | [], out, heap => some (true, out, heap)
  | x :: xs, out, heap => do
    let (success, out, heap) ← f x out heap
    if success then appendAll f xs out heap else some (false, out, heap)

/-- The loop that does not look at what its calls return. -/
def appendEach {α : Type*} (f : α → Output → Heap → Appended) :
    List α → Output → Heap → Option (Output × Heap)
  | [], out, heap => some (out, heap)
  | x :: xs, out, heap => do
    let (_, out, heap) ← f x out heap
    appendEach f xs out heap

/-- Integers, booleans and times are written as binary numbers. -/
def ResourceType.binary : ResourceType → Bool
  | .integer => true
  | .boolean => true
  | .time => true
  | _ => false

/-- The most significant byte first. -/
def bigEndian (v : UInt64) : Vector UInt8 8 :=
  ⟨(BigEndian.bytes 8 v.toNat).toArray, by rw [List.size_toArray, BigEndian.length_bytes]⟩

section Serialize
variable (commonWrite64Bit : UInt64 → Vector UInt8 8)

/-- `buffer` of `serialize_TLV_binary_int` -/
def binaryInt (b : M2MResourceBase) : Bytes :=
  if b.resourceType = .boolean then [UInt8.ofInt b.getValueInt]
  else (commonWrite64Bit (UInt64.ofInt b.getValueInt)).toList

def serializeTLVBinaryInt (b : M2MResourceBase) (type : UInt8) (id : UInt16) (out : Output)
    (heap : Heap) : Appended :=
  serializeTILV type id (binaryInt commonWrite64Bit b)
    (if b.resourceType = .boolean then 1 else 8) out heap

/-- What `serialize_resource` and `serialize_resource_instance` do with a value. -/
def serializeValue (type : UInt8) (id : UInt16) (b : M2MResourceBase) (out : Output)
    (heap : Heap) : Appended :=
  if ResourceType.binary b.resourceType then
    serializeTLVBinaryInt commonWrite64Bit b type id out heap
  else serializeTILV type id b.value (UInt32.ofNat b.value.length) out heap

def serializeResourceInstance (id : UInt16) (i : M2MResourceInstance) (out : Output)
    (heap : Heap) : Appended :=
  serializeValue commonWrite64Bit typeResourceInstance id i.toM2MResourceBase out heap

/-- `name_id()` as a `uint16_t` argument -/
def wireId (r : M2MResource) : UInt16 := UInt16.ofInt r.nameId

theorem wireId_toNat {r : M2MResource} (h : 0 ≤ r.nameId) : r.nameId = (wireId r).toNat := by
  have hle : r.nameId ≤ 65535 := nameId_le r.name
  rw [wireId, UInt16.ofInt, UInt16.toNat_ofNat']
  omega

theorem wireId_eq {r : M2MResource} {id : UInt16} (h : r.nameId = id.toNat) : wireId r = id := by
  rw [← UInt16.toNat_inj]
  have hid := wireId_toNat (h ▸ Int.natCast_nonneg _ : 0 ≤ r.nameId)
  omega

def serializeMultipleResource (r : M2MResource) (out : Output) (heap : Heap) : Appended := do
  let (success, nested, heap) ← appendAll
    (fun i => serializeResourceInstance commonWrite64Bit i.instanceId i) r.instances .empty heap
  if success && r.nameId != -1 then
    serializeTILV typeMultipleResource (wireId r) (nested.data.getD []) nested.size out heap
  else some (false, out, heap)

def serializeResource (r : M2MResource) (out : Output) (heap : Heap) : Appended :=
  if r.nameId ≠ -1 then
    serializeValue commonWrite64Bit typeResource (wireId r) r.toM2MResourceBase out heap
  else some (false, out, heap)

/-- `serialize(const M2MResource *resource, uint8_t *&data, uint32_t &size)` -/
def serializeEither (r : M2MResource) (out : Output) (heap : Heap) : Appended :=
  if r.nameId ≠ -1 then
    if r.multipleInstance then serializeMultipleResource commonWrite64Bit r out heap
    else serializeResource commonWrite64Bit r out heap
  else some (false, out, heap)

/-- With `valid` as the success. A failure returns NULL and leaves `size` as it is by then. -/
def serializeResources (rs : List M2MResource) (heap : Heap) : Appended :=
  if rs.any (·.nameId == -1) then some (false, .empty, heap)
  else do
    let (success, out, heap) ← appendAll (serializeEither commonWrite64Bit) rs .empty heap
    some (success, if success then out else ⟨none, out.size⟩, heap)

/-- `serialize(uint16_t id, const M2MObjectInstance *object_instance, ...)` -/
def serializeObjectInstance (id : UInt16) (oi : M2MObjectInstance) (out : Output) (heap : Heap) :
    Appended := do
  let (valid, resources, heap) ← serializeResources commonWrite64Bit oi.resources heap
  if valid then
    serializeTILV typeObjectInstance id (resources.data.getD []) resources.size out heap
  else some (false, out, heap)

def serializeObjectInstances (ois : List M2MObjectInstance) (heap : Heap) :
    Option (Output × Heap) :=
  appendEach (fun oi => serializeObjectInstance commonWrite64Bit oi.instanceId oi) ois .empty heap

/-- What the public `serialize` is overloaded on. -/
inductive Subject where
  | objectInstances (ois : List M2MObjectInstance)
  | resources (rs : List M2MResource)
  | resource (r : M2MResource)

/-- The public `serialize`, called with a size of 0: the buffer it returns and the size. -/
def serialize : Subject → Heap → Option (Output × Heap)
  | .objectInstances ois, heap => serializeObjectInstances commonWrite64Bit ois heap
  | .resources rs, heap => (serializeResources commonWrite64Bit rs heap).map Prod.snd
  | .resource r, heap => (serializeEither commonWrite64Bit r .empty heap).map Prod.snd

end Serialize
end MbedClient.Tlv
