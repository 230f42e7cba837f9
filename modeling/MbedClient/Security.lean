import MbedClient.BigEndian
import MbedClient.Search

/-! `M2MSecurity`: the security object with its one object instance, and the integers that are
written into its resources and read from them. -/
namespace MbedClient

def notAllowed : UInt8 := 0x00

namespace M2MResourceBase

/-- Nothing for an empty value, and if the copy cannot be allocated. -/
def getValue (b : M2MResourceBase) (h : Heap) : Option Bytes × Heap :=
  if 0 < b.value.length then
    let (copied, h) := h.malloc
    (if copied then some b.value else none, h)
  else (none, h)

end M2MResourceBase

namespace M2MObjectInstance
variable (oi : M2MObjectInstance)

/-- `use` is what a caller does through the pointer that `resource(name)` returns. -/
def useResource (name : Bytes) (use : M2MResourceBase → Heap → Bool × M2MResourceBase × Heap)
    (h : Heap) : Bool × M2MObjectInstance × Heap :=
  match Search.first (·.name == name) oi.resources with
  | none => (false, oi, h)
  | some (k, r) =>
    let (success, base, h) := use r.toM2MResourceBase h
    (success, { oi with resources := oi.resources.set k { r with toM2MResourceBase := base } }, h)

end M2MObjectInstance

inductive SecurityResource where
  | m2mServerUri | bootstrapServer | securityMode | publicKey | serverPublicKey | secretkey
  | smsSecurityMode | smsBindingKey | smsBindingSecretKey | m2mServerSMSNumber | shortServerID
  | clientHoldOffTime
  deriving DecidableEq

inductive ServerType where
  | bootstrap | m2mServer
  deriving DecidableEq

def SecurityResource.name : SecurityResource → Bytes
  | m2mServerUri => [0x30]
  | bootstrapServer => [0x31]
  | securityMode => [0x32]
  | publicKey => [0x33]
  | serverPublicKey => [0x34]
  | secretkey => [0x35]
  | smsSecurityMode => [0x36]
  | smsBindingKey => [0x37]
  | smsBindingSecretKey => [0x38]
  | m2mServerSMSNumber => [0x39]
  | shortServerID => [0x31, 0x30]
  | clientHoldOffTime => [0x31, 0x31]

def SecurityResource.isInteger : SecurityResource → Bool
  | securityMode | smsSecurityMode | m2mServerSMSNumber | shortServerID | clientHoldOffTime => true
  | _ => false

/-- `serverInstance` is missing if it could not be allocated. -/
structure M2MSecurity where
  serverType : ServerType
  serverInstance : Option M2MObjectInstance
  deriving DecidableEq

namespace M2MSecurity

def initialResources (serType : ServerType) : List (SecurityResource × ResourceType) :=
  [(.m2mServerUri, .string), (.bootstrapServer, .boolean), (.securityMode, .integer),
    (.publicKey, .opaqueData), (.serverPublicKey, .opaqueData), (.secretkey, .opaqueData)] ++
    if serType = .m2mServer then [(.shortServerID, .integer)] else []

def new (serType : ServerType) (h : Heap) : M2MSecurity × Heap :=
  let (created, h) := h.newNode
  if created then
    let (oi, h) := (initialResources serType).foldl (fun (oi, h) (r, type) =>
      (oi.createDynamicResource r.name type false (·.setOperation notAllowed) h).2)
      ((⟨0, []⟩ : M2MObjectInstance), h)
    (⟨serType, some oi⟩, h)
  else (⟨serType, none⟩, h)

variable (s : M2MSecurity)

def getResource (res : SecurityResource) : Option M2MResource :=
  s.serverInstance.bind (·.resource res.name)

def isResourcePresent (res : SecurityResource) : Bool := (s.getResource res).isSome

/-- The name of what `create_resource` adds; it is empty for the other resources. -/
def createdName : SecurityResource → Bytes
  | .smsSecurityMode => SecurityResource.smsSecurityMode.name
  | .m2mServerSMSNumber => SecurityResource.m2mServerSMSNumber.name
  | .shortServerID => SecurityResource.shortServerID.name
  | .clientHoldOffTime => SecurityResource.clientHoldOffTime.name
  | _ => []

/-- The value goes through `set_value(int64_t)`. -/
def createResource (resource : SecurityResource) (value : UInt32) (h : Heap) :
    Bool × M2MSecurity × Heap :=
  let securityId := if !s.isResourcePresent resource then createdName resource else []
  if !securityId.isEmpty then
    match s.serverInstance with
    | none => (false, s, h)
    | some oi =>
      let (created, oi, h) :=
        oi.createDynamicResource securityId .integer false (·.setOperation notAllowed) h
      if created then
        let (_, oi, h) :=
          oi.useResource securityId (fun b => b.setValueInt (Int64.ofNat value.toNat)) h
        (true, { s with serverInstance := some oi }, h)
      else (false, { s with serverInstance := some oi }, h)
  else (false, s, h)

/-- `set_resource_value(SecurityResource, uint32_t)`: the value goes through
`convert_integer_to_array`. -/
def setResourceValue (resource : SecurityResource) (value : UInt32) (h : Heap) :
    Bool × M2MSecurity × Heap :=
  match s.serverInstance with
  | none => (false, s, h)
  | some oi =>
    if s.isResourcePresent resource && resource.isInteger then
      let (buffer, h) := convertIntegerToArray (Int64.ofNat value.toNat) h
      let (success, oi, h) := oi.useResource resource.name (fun b => b.setValue (buffer.getD [])) h
      (success, { s with serverInstance := some oi }, h)
    else (false, s, h)

/-- Nothing if the conversion is undefined. -/
def resourceValueInt (resource : SecurityResource) (h : Heap) : Option UInt32 × Heap :=
  match s.getResource resource with
  | none => (some 0, h)
  | some res =>
    if resource.isInteger then
      let (buffer, h) := res.getValue h
      match buffer with
      | none => (some 0, h)
      | some buffer => ((convertArrayToInteger buffer).map fun v => v.toUInt64.toUInt32, h)
    else (some 0, h)

def toObject : M2MObject := ⟨s.serverInstance.toList⟩

def ofObject (obj : M2MObject) : M2MSecurity := { s with serverInstance := obj.instances.head? }

def setOperations (operation : UInt8) : Option M2MSecurity :=
  s.serverInstance.map fun oi =>
    { s with serverInstance := some { oi with resources := oi.resources.map fun r =>
        { r with toM2MResourceBase := r.toM2MResourceBase.setOperation operation } } }

/-- `clear_resources` goes through all the names. -/
def clearResources : M2MSecurity :=
  let names : List SecurityResource := [.m2mServerUri, .bootstrapServer, .securityMode, .publicKey,
    .serverPublicKey, .secretkey, .smsSecurityMode, .smsBindingKey, .smsBindingSecretKey,
    .m2mServerSMSNumber, .shortServerID, .clientHoldOffTime]
  { s with serverInstance := s.serverInstance.map fun oi =>
      names.foldl (fun oi res =>
        (oi.useResource res.name (fun b h => (true, b.clearValue, h)) fun _ => true).2.1) oi }

inductive Writer where
  | create | set
  deriving DecidableEq

def write : Writer → SecurityResource → UInt32 → Heap → Bool × M2MSecurity × Heap
  | .create => s.createResource
  | .set => s.setResourceValue

/-- Whether `set_value` can allocate its copy: the allocations in front of it are those of a new
resource, or the one of `convert_integer_to_array`. -/
def Writer.copyGranted : Writer → Heap → Bool
  | .create, h => h 2
  | .set, h => h 1

def Writer.encode : Writer → UInt32 → Bytes
  | .create, v => Decimal.digits v.toNat
  | .set, v => BigEndian.bytes (arraySize v.toNat) v.toNat

end M2MSecurity

section Use
variable {α : Type*}

/-- The first entry that passes a test stays the first one when it is overwritten. -/
theorem first_of_find? {p : α → Bool} {xs : List α} {x : α} (h : xs.find? p = some x) :
    ∃ k, Search.first p xs = some (k, x) ∧
      ∀ y, p y = true → (xs.set k y).find? p = some y := by
  induction xs with
  | nil => simp at h
  | cons a xs ih =>
    by_cases ha : p a = true
    · rw [List.find?_cons_of_pos ha] at h
      obtain rfl := Option.some.inj h
      exact ⟨0, by simp [Search.first, List.findIdx?_cons, ha],
        fun y hy => by simp [hy]⟩
    · rw [List.find?_cons_of_neg ha] at h
      obtain ⟨k, hk, hset⟩ := ih h
      refine ⟨k + 1, ?_, fun y hy => ?_⟩
      · obtain ⟨hidx, hget⟩ := Search.first_eq_some.mp hk
        exact Search.first_eq_some.mpr ⟨by simp [List.findIdx?_cons, ha, hidx], hget⟩
      · rw [List.set_cons_succ, List.find?_cons_of_neg ha]
        exact hset y hy

variable {oi : M2MObjectInstance} {name : Bytes} {r : M2MResource} {h : Heap}

theorem useResource_eq (hr : oi.resource name = some r)
    (use : M2MResourceBase → Heap → Bool × M2MResourceBase × Heap) (h : Heap) :
    ∃ oi', oi.useResource name use h = ((use r.toM2MResourceBase h).1, oi',
        (use r.toM2MResourceBase h).2.2) ∧
      oi'.resource name = some { r with toM2MResourceBase := (use r.toM2MResourceBase h).2.1 } := by
  obtain ⟨k, hk, hset⟩ := first_of_find? hr
  have hname : (r.name == name) = true :=
    List.find?_some (p := fun r : M2MResource => r.name == name) (l := oi.resources) hr
  have hfound := hset { r with toM2MResourceBase := (use r.toM2MResourceBase h).2.1 } hname
  refine ⟨⟨oi.instanceId, oi.resources.set k
    { r with toM2MResourceBase := (use r.toM2MResourceBase h).2.1 }⟩, ?_, hfound⟩
  rw [M2MObjectInstance.useResource, hk]

/-- A resource that is added is found under its name. -/
theorem createDynamicResource_resource {oi' : M2MObjectInstance} {h' : Heap} {type : ResourceType}
    {multi : Bool} {use : M2MResourceBase → M2MResourceBase}
    (hc : oi.createDynamicResource name type multi use h = (true, oi', h')) :
    ∃ r, oi'.resource name = some r ∧ h' = h.newNode.2 ∧ h.newNode.1 = true := by
  unfold M2MObjectInstance.createDynamicResource at hc
  split at hc
  · rename_i hname
    have hnone : oi.resources.find? (·.name == name) = none := by
      simpa [M2MObjectInstance.resource] using (Bool.and_eq_true_iff.mp hname).2
    generalize h.newNode = node at hc ⊢
    obtain ⟨created, k⟩ := node
    cases created with
    | false => simp at hc
    | true =>
      simp only [if_true, Prod.mk.injEq, true_and] at hc
      obtain ⟨rfl, rfl⟩ := hc
      exact ⟨_, by simp [M2MObjectInstance.resource, hnone]; rfl, rfl, rfl⟩
  · simp at hc

end Use

namespace M2MSecurity
variable {s : M2MSecurity} {r : SecurityResource} {v : UInt32} {h : Heap}

theorem createdName_eq (hr : createdName r ≠ []) : createdName r = r.name ∧ r.isInteger = true := by
  cases r <;> first | exact absurd rfl hr | exact ⟨rfl, rfl⟩

theorem encode_ne_nil (w : Writer) (v : UInt32) : w.encode v ≠ [] := by
  cases w with
  | create => exact Decimal.digits_ne_nil _
  | set =>
    intro hnil
    have hlen := BigEndian.length_bytes (arraySize v.toNat) v.toNat
    rw [Writer.encode] at hnil
    rw [hnil] at hlen
    exact (BigEndian.arraySize_pos v.toNat).ne hlen

theorem itoaC_uint32 (v : UInt32) : itoaC (Int64.ofNat v.toNat) = Decimal.digits v.toNat := by
  have hlt := v.toNat_lt
  have hv : (Int64.ofNat v.toNat).toInt = v.toNat := Int64.toInt_ofNat_of_lt (by omega)
  have hmin : Int64.ofNat v.toNat ≠ Int64.minValue := by
    intro hc
    have hneg : (Int64.ofNat v.toNat).toInt = -2 ^ 63 := by rw [hc]; rfl
    omega
  rw [itoaC_eq _ hmin, hv, if_neg (by omega), Int.natAbs_natCast]

theorem setValue_value (b : M2MResourceBase) {value : Bytes} (hv : value ≠ []) (h : Heap) :
    (b.setValue value h).1 = true ∧
      (b.setValue value h).2.1.value = if h.malloc.1 then value else [] := by
  rw [M2MResourceBase.setValue, if_pos (List.length_pos_iff.mpr hv)]
  exact ⟨rfl, rfl⟩

theorem getResource_some {oi : M2MObjectInstance} (hs : s.serverInstance = some oi) :
    s.getResource r = oi.resource r.name := by
  rw [getResource, hs]
  rfl

theorem createResource_stored {oi : M2MObjectInstance} (hs : s.serverInstance = some oi)
    (hname : r.name = createdName r)
    (hp : s.isResourcePresent r = false) (hw : (s.createResource r v h).1 = true) :
    ∃ res, (s.createResource r v h).2.1.getResource r = some res ∧
      res.value = if Writer.create.copyGranted h then Writer.create.encode v else [] := by
  have hne : (createdName r).isEmpty = false := by rw [← hname]; cases r <;> rfl
  simp only [createResource, hp, Bool.not_false, if_true, hs, hne] at hw ⊢
  rw [← hname] at hw ⊢
  generalize hc : oi.createDynamicResource r.name .integer false (·.setOperation notAllowed) h = t
    at hw ⊢
  obtain ⟨created, oi', k⟩ := t
  cases created with
  | false => simp at hw
  | true =>
    obtain ⟨res, hres, rfl, hnew⟩ := createDynamicResource_resource hc
    obtain ⟨oi'', huse, hres'⟩ :=
      useResource_eq hres (fun b => b.setValueInt (Int64.ofNat v.toNat)) h.newNode.2
    have hheap : h.newNode.2 = fun n => h (n + 2) := by
      cases h0 : h 0 <;> simp_all [Heap.newNode, Heap.malloc]
    have hvalue := (setValue_value res.toM2MResourceBase (Decimal.digits_ne_nil v.toNat)
      h.newNode.2).2
    simp only [if_true, huse]
    refine ⟨_, hres', ?_⟩
    change (M2MResourceBase.setValue _ (itoaC (Int64.ofNat v.toNat)) _).2.1.value = _
    rw [itoaC_uint32, hvalue, hheap]
    rfl

theorem setResourceValue_stored {oi : M2MObjectInstance} {res : M2MResource}
    (hs : s.serverInstance = some oi) (hres : oi.resource r.name = some res)
    (hint : r.isInteger = true) (hw : (s.setResourceValue r v h).1 = true) :
    ∃ res, (s.setResourceValue r v h).2.1.getResource r = some res ∧
      res.value = if Writer.set.copyGranted h then Writer.set.encode v else [] := by
  have hv := v.toNat_lt
  have hp : s.isResourcePresent r = true := by
    rw [isResourcePresent, getResource_some hs, hres]
    rfl
  have hbuffer := BigEndian.convertIntegerToArray_eq (n := v.toNat) (by omega) h
  obtain ⟨oi', huse, hres'⟩ := useResource_eq hres (fun b => b.setValue
    ((if h.malloc.1 then some (BigEndian.bytes (arraySize v.toNat) v.toNat) else none).getD []))
    h.malloc.2
  simp only [setResourceValue, hs, hp, hint, Bool.and_self, if_true, hbuffer, huse] at hw ⊢
  refine ⟨_, hres', ?_⟩
  cases hm : h.malloc.1 with
  | false => simp [hm, M2MResourceBase.setValue] at hw
  | true =>
    have hvalue := (setValue_value res.toM2MResourceBase (encode_ne_nil .set v) h.malloc.2).2
    simp only [if_true, Option.getD_some]
    have hcopy : Writer.set.copyGranted h = h.malloc.2.malloc.1 := rfl
    have hencode : Writer.set.encode v = BigEndian.bytes (arraySize v.toNat) v.toNat := rfl
    rw [hcopy, ← hencode]
    exact hvalue

/-- What a successful writer leaves in the resource. -/
theorem write_stored {w : Writer} (hw : (s.write w r v h).1 = true) : r.isInteger = true ∧
    ∃ res, (s.write w r v h).2.1.getResource r = some res ∧
      res.value = if w.copyGranted h then w.encode v else [] := by
  cases w with
  | create =>
    have hid : s.isResourcePresent r = false ∧ createdName r ≠ [] := by
      simp only [write, createResource] at hw
      cases hp : s.isResourcePresent r with
      | true => simp [hp] at hw
      | false => exact ⟨rfl, fun hnil => by simp [hp, hnil] at hw⟩
    obtain ⟨hname, hint⟩ := createdName_eq hid.2
    refine ⟨hint, ?_⟩
    cases hs : s.serverInstance with
    | none => simp [write, createResource, hs] at hw
    | some oi => exact createResource_stored hs hname.symm hid.1 hw
  | set =>
    cases hs : s.serverInstance with
    | none => simp [write, setResourceValue, hs] at hw
    | some oi =>
      by_cases hc : (s.isResourcePresent r && r.isInteger) = true
      · obtain ⟨hp, hint⟩ := Bool.and_eq_true_iff.mp hc
        obtain ⟨res, hres⟩ := Option.isSome_iff_exists.mp hp
        rw [getResource_some hs] at hres
        exact ⟨hint, setResourceValue_stored hs hres hint hw⟩
      · simp [write, setResourceValue, hs, hc] at hw

theorem resourceValueInt_eq {res : M2MResource} (hr : s.getResource r = some res)
    (hint : r.isInteger = true) (h : Heap) : (s.resourceValueInt r h).1 =
      if res.value ≠ [] ∧ h.malloc.1 = true then
        (convertArrayToInteger res.value).map fun v => v.toUInt64.toUInt32
      else some 0 := by
  rw [resourceValueInt, hr]
  simp only [hint, if_true, M2MResourceBase.getValue, List.length_pos_iff]
  by_cases hne : res.value = []
  · simp [hne]
  · cases h.malloc.1 <;> simp [hne]

/-- The reader understands one of the writers. -/
theorem decode_encode (w : Writer) (v : UInt32) :
    ((convertArrayToInteger (w.encode v)).map fun v => v.toUInt64.toUInt32) = some v ↔
      w = .set := by
  have hv := v.toNat_lt
  cases w with
  | create =>
    refine iff_of_false (fun hc => ?_) (by decide)
    obtain ⟨temp, htemp, hlow⟩ := Option.map_eq_some_iff.mp hc
    have hnat := BigEndian.convertArrayToInteger_eq htemp
    have hlen : (Decimal.digits v.toNat).length ≤ 8 := by
      unfold convertArrayToInteger at htemp
      split_ifs at htemp with hl
      exact hl
    have hlt := BigEndian.decimal_lt (Decimal.digits_isDigit v.toNat)
      (Decimal.digits_ne_nil _) hlen
    have hmod := congrArg UInt32.toNat hlow
    rw [UInt64.toNat_toUInt32, hnat] at hmod
    rw [Decimal.value_digits] at hlt
    exact hlt.ne' hmod
  | set =>
    refine iff_of_true ?_ rfl
    obtain ⟨hlt, hsize⟩ := BigEndian.lt_arraySize (n := v.toNat) (by omega)
    have hlen : (Writer.encode .set v).length ≤ 8 := by
      rw [Writer.encode, BigEndian.length_bytes]
      exact hsize
    have htemp : convertArrayToInteger (Writer.encode .set v) =
        some (arrayLoop (Writer.encode .set v) 0).toInt64 := by
      rw [convertArrayToInteger, if_pos hlen]
    have hnat := BigEndian.convertArrayToInteger_eq htemp
    rw [Writer.encode, BigEndian.value_bytes, Nat.mod_eq_of_lt hlt] at hnat
    rw [htemp, Option.map_some, Option.some.injEq, ← UInt32.toNat_inj, UInt64.toNat_toUInt32,
      Writer.encode, hnat, Nat.mod_eq_of_lt hv]

/-- What a writer has stored is read back if it is `set_resource_value`, or 0 if a copy could not
be allocated on the way. -/
theorem resourceValueInt_write (w : Writer) (hw : (s.write w r v h).1 = true) (k : Heap) :
    ((s.write w r v h).2.1.resourceValueInt r k).1 = some v ↔
      if w.copyGranted h && k.malloc.1 then w = .set else v = 0 := by
  obtain ⟨hint, res, hres, hvalue⟩ := write_stored hw
  rw [resourceValueInt_eq hres hint, hvalue]
  cases hcopy : w.copyGranted h with
  | false =>
    simp only [Bool.false_eq_true, if_false, ne_eq, not_true_eq_false, false_and, Bool.false_and,
      Option.some.injEq]
    exact eq_comm
  | true =>
    cases hm : k.malloc.1 with
    | false =>
      simp only [Bool.false_eq_true, if_false, and_false, Bool.and_false, Option.some.injEq]
      exact eq_comm
    | true => simpa [encode_ne_nil] using decode_encode w v

/-- `create_resource(ShortServerID, 1)` stores "1", which is read as 0x31. -/
theorem created_reads_wrong :
    let s := ((M2MSecurity.new .bootstrap fun _ => true).1.write .create .shortServerID 1
      fun _ => true)
    s.1 = true ∧ (s.2.1.resourceValueInt .shortServerID fun _ => true).1 = some 49 := by
  decide +kernel

theorem resourceValueInt_write_set :
    let s := (M2MSecurity.new .m2mServer fun _ => true).1
    ((s.write .set .shortServerID 1 fun _ => true).2.1.resourceValueInt .shortServerID
        fun _ => true).1 = some 1 ↔
      if Writer.set.copyGranted (fun _ => true) && (Heap.malloc fun _ => true).1 then
        Writer.set = Writer.set else (1 : UInt32) = 0 :=
  resourceValueInt_write .set (by decide +kernel) _

end M2MSecurity
end MbedClient
