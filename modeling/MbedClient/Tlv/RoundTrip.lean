import MbedClient.Tlv.Granted
import MbedClient.Tlv.Values

/-! What is serialized from one object and written into another one. -/
namespace MbedClient.Tlv

/-! Objects whose values survive. -/
section RoundTrip
variable (commonWrite64Bit : UInt64 → Vector UInt8 8)

structure Regular (obj : M2MObject) : Prop where
  instances : obj.instances ≠ []
  resources : ∀ oi ∈ obj.instances, oi.resources ≠ []
  parts : ∀ oi ∈ obj.instances, ∀ r ∈ oi.resources, r.parts ≠ []
  numbered : obj.Numbered
  putAllowed : ∀ x ∈ objectVariables obj, x.2.putAllowed = true

/-- No numbers, values of at most 65535 bytes and containers of less than 2^24 bytes. -/
structure Encodable (obj : M2MObject) : Prop where
  plain : ∀ x ∈ objectVariables obj, ResourceType.binary x.2.resourceType = false
  short : ∀ x ∈ objectVariables obj, x.2.value.length ≤ 65535
  objectInstances : ∀ oi ∈ obj.instances,
    (objectInstanceContent (wireValue commonWrite64Bit) oi).length < 2 ^ 24
  multiple : ∀ oi ∈ obj.instances, ∀ r ∈ oi.resources, r.multipleInstance = true →
    (resourceContent (wireValue commonWrite64Bit) r).length < 2 ^ 24

def SameShape (obj target : M2MObject) : Prop :=
  ∀ n, n ∈ (objectVariables target).map Prod.fst ↔ n ∈ (objectVariables obj).map Prod.fst

def values (obj : M2MObject) : List (Path × Bytes) :=
  (objectVariables obj).map fun x => (x.1, x.2.value)

/-- Where all allocations succeed, `serialize` returns a buffer, and a `Put` of this buffer is
accepted and leaves `target` with the values of `obj`. -/
def RoundTrips (obj target : M2MObject) : Prop :=
  ∃ data size heap, serialize commonWrite64Bit (.objectInstances obj.instances) (fun _ => true) =
      some (⟨some data, size⟩, heap) ∧ size.toNat = data.length ∧
    ∀ tlv log, Holds tlv 0 data →
      let put :=
        deserialiseObjectInstances (some tlv) size.toNat .put (target, ⟨fun _ => true, log⟩)
      put.1 = .none ∧ ∀ x, x ∈ values put.2.1 ↔ x ∈ values obj

variable {commonWrite64Bit} {obj target : M2MObject}

theorem wireValue_plain {b : M2MResourceBase} (hb : ResourceType.binary b.resourceType = false)
    (hlength : b.value.length ≤ 65535) : wireValue commonWrite64Bit b = b.value := by
  have hnat : (UInt32.ofNat b.value.length).toNat = b.value.length :=
    UInt32.toNat_ofNat_of_lt' (by simp [UInt32.size]; omega)
  simp [wireValue, hb, hnat]

theorem Encodable.wire_eq (h : Encodable commonWrite64Bit obj) {x : Path × M2MResourceBase}
    (hx : x ∈ objectVariables obj) : wireValue commonWrite64Bit x.2 = x.2.value :=
  wireValue_plain (h.plain x hx) (h.short x hx)

theorem Encodable.fits (h : Encodable commonWrite64Bit obj) (hnumbered : obj.Numbered) :
    ∀ oi ∈ obj.instances, ObjectInstanceFits (wireValue commonWrite64Bit) oi := by
  intro oi hoi
  refine ⟨h.objectInstances oi hoi, fun r hr => ?_⟩
  have hshort : ∀ y ∈ r.parts, (wireValue commonWrite64Bit y.2).length < 2 ^ 24 := by
    intro y hy
    have hx := mem_objectVariables.mpr ⟨oi, hoi, r, hr, y, hy, rfl⟩
    have hlength := h.short _ hx
    have hwire := h.wire_eq hx
    dsimp only at hlength hwire
    rw [hwire]
    omega
  have hname := (hnumbered.known hoi hr).nameId
  refine ⟨by omega, ?_, fun hm i hi => ?_⟩
  · cases hm : r.multipleInstance with
    | true => exact h.multiple oi hoi r hr hm
    | false =>
      rw [resourceContent, hm, if_neg Bool.false_ne_true]
      exact hshort (none, r.toM2MResourceBase)
        (by rw [r.parts_single hm]; exact List.mem_singleton_self _)
  · refine hshort (some i.instanceId, i.toM2MResourceBase) ?_
    rw [r.parts_multiple hm]
    exact List.mem_map_of_mem hi

theorem Encodable.written (h : Encodable commonWrite64Bit obj) :
    written (wireValue commonWrite64Bit) (objectVariables obj) = values obj := by
  refine List.map_congr_left fun x hx => ?_
  rw [h.wire_eq hx]

theorem values_path {x : Path × Bytes} (hx : x ∈ values obj) :
    ∃ b, (x.1, b) ∈ objectVariables obj ∧ b.value = x.2 := by
  obtain ⟨⟨n, b⟩, hb, rfl⟩ := List.mem_map.mp hx
  exact ⟨b, hb, rfl⟩

theorem path_values {n : Path} {b : M2MResourceBase} (hb : (n, b) ∈ objectVariables obj) :
    (n, b.value) ∈ values obj := List.mem_map.mpr ⟨(n, b), hb, rfl⟩

theorem exists_variable {n : Path} (hn : n ∈ (objectVariables obj).map Prod.fst) :
    ∃ b, (n, b) ∈ objectVariables obj := by
  obtain ⟨⟨n, b⟩, hb, rfl⟩ := List.mem_map.mp hn
  exact ⟨b, hb⟩

/-- What one object has at a path another one has too. -/
theorem values_mono {x : Path × Bytes} (hx : x ∈ values obj)
    (hpaths : ∀ n ∈ (objectVariables obj).map Prod.fst, n ∈ (objectVariables target).map Prod.fst)
    (hvalue : ∀ n b b', (n, b) ∈ objectVariables obj → (n, b') ∈ objectVariables target →
      b'.value = b.value) : x ∈ values target := by
  obtain ⟨b, hb, hv⟩ := values_path hx
  obtain ⟨b', hb'⟩ := exists_variable (hpaths x.1 (List.mem_map_of_mem hb))
  have hmem := path_values hb'
  rwa [hvalue x.1 b b' hb hb', hv] at hmem

/-- A buffer that lists the object is written into another one of its shape. -/
theorem put_values {tlv : Nat → UInt8} {size : Nat} (hobj : Regular obj)
    (hencodable : Encodable commonWrite64Bit obj) (htarget : Regular target)
    (hshape : SameShape obj target)
    (hlists : Lists tlv (ObjectInstanceRecord tlv (wireValue commonWrite64Bit)) 0 size
      obj.instances) (log : List Access) :
    let put := deserialiseObjectInstances (some tlv) size .put (target, ⟨fun _ => true, log⟩)
    put.1 = .none ∧ ∀ x, x ∈ values put.2.1 ↔ x ∈ values obj := by
  have hentries : pathValues tlv ((Addressee.object target).paths tlv size) = values obj := by
    rw [pathValues_object hlists, hencodable.written]
  obtain ⟨hwf, hfilled⟩ : (Addressee.object target).WellFormed tlv size ∧
      (Addressee.object target).Filled tlv size :=
    object_of_lists hlists hobj.instances fun oi hoi =>
      ⟨hobj.resources oi hoi, hobj.parts oi hoi⟩
  have hopen : ∀ x ∈ pathValues tlv ((Addressee.object target).paths tlv size),
      x.1.Open target := by
    rw [hentries]
    intro x hx
    obtain ⟨b, hb, -⟩ := values_path hx
    obtain ⟨b', hb'⟩ := exists_variable ((hshape x.1).mpr (List.mem_map_of_mem hb))
    exact htarget.numbered.openPath hb' (htarget.putAllowed _ hb')
  obtain ⟨hnone, hreads⟩ := put_delivers rfl hwf hfilled hopen (stable_const true)
    (rfl : (⟨fun _ => true, log⟩ : Env).heap = _)
  rw [hentries] at hreads
  refine ⟨hnone, ?_⟩
  -- the target keeps its variables
  have hgrows : target.Grows true false
      (deserialiseObjectInstances (some tlv) size .put (target, ⟨fun _ => true, log⟩)).2.1 :=
    deserialize_grows tlv size .put (.object target) ⟨fun _ => true, log⟩
  set put := (deserialiseObjectInstances (some tlv) size .put (target, ⟨fun _ => true, log⟩)).2.1
  have hput : put.Numbered := ⟨deserialize_unique size .put (some tlv) (.object target) _
    htarget.numbered.unique, hgrows.canonical htarget.numbered.canonical⟩
  have hkept : ∀ n, n ∈ (objectVariables put).map Prod.fst ↔
      n ∈ (objectVariables obj).map Prod.fst := by
    rw [hgrows.objectVariables]
    exact hshape
  have hvalue : ∀ n b b', (n, b) ∈ objectVariables obj → (n, b') ∈ objectVariables put →
      b'.value = b.value := by
    intro n b b' hb hb'
    obtain ⟨b₀, hb₀⟩ := exists_variable ((hshape n).mpr (List.mem_map_of_mem hb))
    obtain ⟨t, ht, -⟩ := htarget.numbered.locate hb₀
    obtain ⟨_, rfl, hread⟩ := hreads (n, b.value) (path_values hb) (fun y hy hn => by
      obtain ⟨b₁, hb₁, hv⟩ := values_path hy
      rw [hn] at hb₁
      rw [← hv, hobj.numbered.eq_of_path hb₁ hb]) (by
      dsimp only [Addressee.forest] at ht ⊢
      rw [ht]
      rfl)
    have hstored : n.read put = some b.value := hread
    rw [hput.read hb'] at hstored
    exact Option.some.inj hstored
  intro x
  constructor
  · intro hx
    exact values_mono hx (fun n => (hkept n).mp) fun n b' b hb' hb => (hvalue n b b' hb hb').symm
  · intro hx
    exact values_mono hx (fun n => (hkept n).mpr) hvalue

theorem Encodable.named (h : Encodable commonWrite64Bit obj) (hnumbered : obj.Numbered) :
    ∀ oi ∈ obj.instances, allNamed oi.resources = true := by
  intro oi hoi
  refine allNamed_iff.mpr fun r hr => ?_
  have hname := ((h.fits hnumbered oi hoi).2 r hr).1
  omega

theorem RoundTrips.length_lt (h : RoundTrips commonWrite64Bit obj target)
    (hnamed : ∀ oi ∈ obj.instances, allNamed oi.resources = true) :
    (obj.instances.flatMap (objectInstanceBytes (wireValue commonWrite64Bit))).length < 2 ^ 32 := by
  obtain ⟨data, size, heap, hserialize, -⟩ := h
  by_contra hge
  rw [serializeObjectInstances_granted hnamed, if_neg hge] at hserialize
  cases hserialize

/-- The number of bytes is a `uint32_t`. -/
theorem round_trips_iff (hobj : Regular obj) (hencodable : Encodable commonWrite64Bit obj)
    (htarget : Regular target) (hshape : SameShape obj target) :
    RoundTrips commonWrite64Bit obj target ↔
      (obj.instances.flatMap
        (objectInstanceBytes (wireValue commonWrite64Bit))).length < 2 ^ 32 := by
  have hfits := hencodable.fits hobj.numbered
  have hnamed := hencodable.named hobj.numbered
  constructor
  · intro h
    exact h.length_lt hnamed
  · intro hlt
    have hrun := @serializeObjectInstances_granted commonWrite64Bit _ hnamed
    set bytes :=
      obj.instances.flatMap (objectInstanceBytes (wireValue commonWrite64Bit)) with hbytes
    have hne : bytes ≠ [] := by
      obtain ⟨oi, hoi⟩ := List.exists_mem_of_ne_nil _ hobj.instances
      intro hnil
      exact List.cons_ne_nil _ _ (List.flatMap_eq_nil_iff.mp hnil oi hoi)
    have hout : Output.of bytes = ⟨some bytes, UInt32.ofNat bytes.length⟩ := by
      rw [Output.of, if_neg hne]
    have hsize : (UInt32.ofNat bytes.length).toNat = bytes.length := UInt32.toNat_ofNat_of_lt' hlt
    refine ⟨bytes, UInt32.ofNat bytes.length, fun _ => true, ?_, hsize, fun tlv log hholds => ?_⟩
    · rw [hrun, if_pos hlt, hout]
    · have hlists := lists_of_holds (R := ObjectInstanceRecord tlv _) hholds
        fun oi hoi p hp => objectInstanceRecord_of_holds (hfits oi hoi) hp
      rw [Nat.zero_add] at hlists
      rw [hsize]
      exact put_values hobj hencodable htarget hshape hlists log

end RoundTrip

/-! Objects with as many instances, resources and bytes as one likes. -/
section Block

def blockResource (length k : Nat) : M2MResource :=
  ⟨⟨.dynamic, getPutAllowed, .string, List.replicate length 0⟩, Decimal.digits k, false, []⟩

def blockInstance (n length i : Nat) : M2MObjectInstance :=
  ⟨UInt16.ofNat i, (List.range n).map (blockResource length)⟩

def block (m n length : Nat) : M2MObject := ⟨(List.range m).map (blockInstance n length)⟩

variable {m n length : Nat}

theorem mem_block {oi : M2MObjectInstance} (hoi : oi ∈ (block m n length).instances) :
    ∃ i < m, oi = blockInstance n length i := by
  obtain ⟨i, hi, rfl⟩ := List.mem_map.mp hoi
  exact ⟨i, List.mem_range.mp hi, rfl⟩

theorem mem_blockInstance {i : Nat} {r : M2MResource}
    (hr : r ∈ (blockInstance n length i).resources) :
    ∃ k < n, r = blockResource length k := by
  obtain ⟨k, hk, rfl⟩ := List.mem_map.mp hr
  exact ⟨k, List.mem_range.mp hk, rfl⟩

theorem block_variable {x : Path × M2MResourceBase} (hx : x ∈ objectVariables (block m n length)) :
    x.2 = (blockResource length 0).toM2MResourceBase := by
  obtain ⟨oi, hoi, r, hr, y, hy, rfl⟩ := mem_objectVariables.mp hx
  obtain ⟨i, -, rfl⟩ := mem_block hoi
  obtain ⟨k, -, rfl⟩ := mem_blockInstance hr
  rw [(blockResource length k).parts_single rfl, List.mem_singleton] at hy
  rw [hy]
  rfl

theorem block_numbered (hm : m ≤ 65536) (hn : n ≤ 65536) : (block m n length).Numbered := by
  have hid : ∀ i < 65536, (UInt16.ofNat i).toNat = i := fun i hi => UInt16.toNat_ofNat_of_lt' hi
  refine ⟨⟨?_, fun oi hoi => ?_⟩, fun oi hoi r hr => ?_⟩
  · rw [Keyed.Unique, block, List.map_map]
    refine List.Nodup.map_on (fun i hi j hj heq => ?_) List.nodup_range
    rw [List.mem_range] at hi hj
    have heq : (UInt16.ofNat i).toNat = (UInt16.ofNat j).toNat := congrArg UInt16.toNat heq
    rwa [hid i (by omega), hid j (by omega)] at heq
  · obtain ⟨i, -, rfl⟩ := mem_block hoi
    refine ⟨?_, fun r hr => ?_⟩
    · rw [Keyed.Unique, blockInstance, List.map_map]
      refine List.nodup_range.map fun j k heq => ?_
      have heq : Decimal.value (Decimal.digits j) = Decimal.value (Decimal.digits k) :=
        congrArg Decimal.value heq
      rwa [Decimal.value_digits, Decimal.value_digits] at heq
    · obtain ⟨k, -, rfl⟩ := mem_blockInstance hr
      exact Keyed.unique_nil _
  · obtain ⟨i, -, rfl⟩ := mem_block hoi
    obtain ⟨k, hk, rfl⟩ := mem_blockInstance hr
    exact ⟨UInt16.ofNat k, by rw [hid k (by omega)]; rfl⟩

theorem block_regular (hm : 0 < m ∧ m ≤ 65536) (hn : 0 < n ∧ n ≤ 65536) :
    Regular (block m n length) := by
  have hrange : ∀ {α : Type} {k : Nat} (f : Nat → α), 0 < k → (List.range k).map f ≠ [] := by
    intro α k f hk
    simp
    omega
  refine ⟨hrange _ hm.1, fun oi hoi => ?_, fun oi hoi r hr => ?_, block_numbered hm.2 hn.2,
    fun x hx => ?_⟩
  · obtain ⟨i, -, rfl⟩ := mem_block hoi
    exact hrange _ hn.1
  · obtain ⟨i, -, rfl⟩ := mem_block hoi
    obtain ⟨k, -, rfl⟩ := mem_blockInstance hr
    exact List.cons_ne_nil _ _
  · rw [block_variable hx]
    exact (by decide : (0 != getPutAllowed &&& snGrsPutAllowed) = true)

theorem block_shape (length' : Nat) : SameShape (block m n length) (block m n length') := by
  have hpaths : ∀ l, (objectVariables (block m n l)).map Prod.fst =
      (List.range m).flatMap fun i => (List.range n).map fun k =>
        Path.resource (UInt16.ofNat i) (wireId (blockResource 0 k)) := by
    intro l
    rw [objectVariables, block, List.flatMap_map, List.map_flatMap]
    refine List.flatMap_congr fun i _ => ?_
    rw [instanceVariables, blockInstance, List.flatMap_map, List.map_flatMap,
      List.map_eq_flatMap
        (f := fun k => Path.resource (UInt16.ofNat i) (wireId (blockResource 0 k)))]
    rfl
  intro p
  rw [hpaths, hpaths]

theorem length_record_bounds (type : UInt8) (id : UInt16) {value : Bytes}
    (h : value.length < 2 ^ 32) : value.length + 2 ≤ (record type id value).length ∧
      (record type id value).length ≤ value.length + 6 := by
  rw [length_record type id h, headSize]
  split_ifs <;> omega

variable {commonWrite64Bit : UInt64 → Vector UInt8 8}

theorem block_content (hlength : length ≤ 65535) (i : Nat) :
    n * (length + 2) ≤
        (objectInstanceContent (wireValue commonWrite64Bit) (blockInstance n length i)).length ∧
      (objectInstanceContent (wireValue commonWrite64Bit) (blockInstance n length i)).length ≤
        n * (length + 6) := by
  have hrecord : ∀ r ∈ (List.range n).map (blockResource length),
      length + 2 ≤ (resourceBytes (wireValue commonWrite64Bit) r).length ∧
      (resourceBytes (wireValue commonWrite64Bit) r).length ≤ length + 6 := by
    intro r hr
    obtain ⟨k, -, rfl⟩ := List.mem_map.mp hr
    have hvalue : (blockResource length k).value.length = length := List.length_replicate
    have hwire : resourceContent (wireValue commonWrite64Bit) (blockResource length k) =
        (blockResource length k).value :=
      @wireValue_plain commonWrite64Bit (blockResource length k).toM2MResourceBase rfl
        (hvalue.trans_le hlength)
    have hlt : (blockResource length k).value.length < 2 ^ 32 := by omega
    have hbounds := length_record_bounds typeResource (wireId (blockResource length k)) hlt
    rw [hvalue] at hbounds
    rw [resourceBytes, hwire]
    exact hbounds
  have hlow := mul_le_length fun r hr => (hrecord r hr).1
  have hhigh := length_le_mul fun r hr => (hrecord r hr).2
  rw [List.length_map, List.length_range] at hlow hhigh
  exact ⟨hlow, hhigh⟩

theorem block_encodable (hlength : length ≤ 65535) (hn : n * (length + 6) < 2 ^ 24) :
    Encodable commonWrite64Bit (block m n length) := by
  refine ⟨fun x hx => ?_, fun x hx => ?_, fun oi hoi => ?_, fun oi hoi r hr hmulti => ?_⟩
  · rw [block_variable hx]
    rfl
  · rw [block_variable hx]
    exact (List.length_replicate.trans_le hlength : (List.replicate length (0 : UInt8)).length ≤ _)
  · obtain ⟨i, -, rfl⟩ := mem_block hoi
    exact (block_content hlength i).2.trans_lt hn
  · obtain ⟨i, -, rfl⟩ := mem_block hoi
    obtain ⟨k, -, rfl⟩ := mem_blockInstance hr
    exact absurd hmulti Bool.false_ne_true

/-- One byte is read back into an object that holds none. -/
theorem one_byte_arrives : RoundTrips bigEndian (block 1 1 1) (block 1 1 0) :=
  (round_trips_iff (block_regular (by decide) (by decide))
    (block_encodable (by decide) (by decide)) (block_regular (by decide) (by decide))
    (block_shape 0)).mpr (by decide +kernel)

/-- More than 4 GiB: the size of the last request wraps. -/
theorem giant_lost : Regular (block 257 255 65535) ∧ Encodable bigEndian (block 257 255 65535) ∧
    ¬RoundTrips bigEndian (block 257 255 65535) (block 257 255 65535) := by
  have hregular : Regular (block 257 255 65535) := block_regular (by decide) (by decide)
  have hencodable : Encodable bigEndian (block 257 255 65535) :=
    block_encodable (by decide) (by decide)
  refine ⟨hregular, hencodable, fun h => ?_⟩
  have hlt := h.length_lt (hencodable.named hregular.numbered)
  have hinstance : ∀ i, 255 * (65535 + 2) + 2 ≤ (objectInstanceBytes (wireValue bigEndian)
      (blockInstance 255 65535 i)).length := by
    intro i
    obtain ⟨hlow, hhigh⟩ := @block_content 255 65535 bigEndian (by decide) i
    have hbounds := (length_record_bounds typeObjectInstance (UInt16.ofNat i)
      (hhigh.trans_lt (by decide))).1
    exact (Nat.add_le_add_right hlow 2).trans hbounds
  have hsum := mul_le_length fun oi (hoi : oi ∈ (block 257 255 65535).instances) => by
    obtain ⟨i, -, rfl⟩ := mem_block hoi
    exact hinstance i
  have hcount : (block 257 255 65535).instances.length = 257 := by simp [block]
  rw [hcount] at hsum
  omega

end Block
end MbedClient.Tlv
