import MbedClient.Itoa
import MbedClient.Tlv.RoundTrip

/-! Numbers on their way through a record: decimal text in the resource, a binary number on the
wire, and the bytes of the wire in the resource that reads them. -/
namespace MbedClient.Tlv
open Search

/-! What `atoll` makes of the bytes of a binary number. -/
section Reread

/-- The last `set_value(int64_t)` of an integer, boolean or time got its copy. -/
def SetTo (b : M2MResourceBase) (v : Int64) : Prop := ResourceType.binary b.resourceType = true ∧
  ∃ (b₀ : M2MResourceBase) (h : Heap), h.malloc.1 = true ∧ b = (b₀.setValueInt v h).2.1

theorem SetTo.getValueInt {b : M2MResourceBase} {v : Int64} (h : SetTo b v)
    (hv : v ≠ Int64.minValue) : b.getValueInt = v.toInt := by
  obtain ⟨-, b₀, heap, hm, rfl⟩ := h
  exact (readsBack hv b₀ heap hm).2

/-- The number that a C string starts with. -/
def reread (s : Bytes) : Int := atoll (cStr s)

theorem reread_zero (s : Bytes) : reread (0 :: s) = 0 := rfl

/-- Bytes that are neither blank nor a sign nor a digit end a number before it starts. -/
theorem reread_high (s : Bytes) : reread (255 :: s) = 0 := by
  have hfirst : cStr (255 :: s) = 255 :: cStr s := rfl
  have hnumeral : numeral (255 :: cStr s) = ⟨false, [], 255 :: cStr s⟩ := rfl
  rw [reread, hfirst, atoll, hnumeral]
  rfl

theorem length_signed_le (s : Bytes) : (signed s).2.length ≤ s.length := by
  cases s with
  | nil => exact Nat.le_refl 0
  | cons b s =>
    rw [signed]
    split_ifs <;> simp

/-- Few bytes are a small number. -/
theorem natAbs_reread_lt {s : Bytes} (hs : s.length ≤ 8) : (reread s).natAbs < 10 ^ 8 := by
  obtain ⟨text, htext⟩ : ∃ text, text = cStr s := ⟨_, rfl⟩
  have hlength : text.length ≤ 8 := htext ▸ (cStr_length_le s).trans hs
  have hdigits : (numeral text).digits.length ≤ text.length :=
    ((List.takeWhile_prefix _).length_le.trans (length_signed_le _)).trans
      (List.dropWhile_suffix _).length_le
  have hlt := Decimal.value_lt (numeral text).digits fun b hb => List.mem_takeWhile_imp hb
  have hpow : 10 ^ (numeral text).digits.length ≤ 10 ^ 8 :=
    Nat.pow_le_pow_right (by decide) (hdigits.trans hlength)
  rw [reread, ← htext, atoll]
  split_ifs <;> omega

/-- One byte is no number, or a digit, which is less than its code. -/
theorem reread_byte (b : UInt8) :
    reread [b] = 0 ∨ (48 ≤ b.toNat ∧ reread [b] = (b.toNat : Int) - 48) := by
  have hall : ∀ n : Fin 256, reread [UInt8.ofFin n] = 0 ∨
      (48 ≤ n.val ∧ reread [UInt8.ofFin n] = (n.val : Int) - 48) := by decide +kernel
  exact hall b.toFin

theorem reread_boolean {v : Int} (h : reread [UInt8.ofInt v] = v) : v = 0 := by
  obtain hzero | ⟨hlow, hdigit⟩ := reread_byte (UInt8.ofInt v)
  · rw [← h, hzero]
  · have hbyte : (UInt8.ofInt v).toNat = (v % 256).toNat := by
      rw [UInt8.ofInt, UInt8.toNat_ofNat']
      omega
    rw [h, hbyte] at hdigit
    rw [hbyte] at hlow
    omega

theorem reread_integer {v : Int} (hv : v.natAbs < 10 ^ 8)
    (h : reread (bigEndian (UInt64.ofInt v)).toList = v) : v = 0 := by
  have hbytes : (bigEndian (UInt64.ofInt v)).toList =
      UInt8.ofNat ((UInt64.ofInt v).toNat / 256 ^ 7) ::
        BigEndian.bytes 7 (UInt64.ofInt v).toNat := BigEndian.bytes_succ 7 _
  have hnat : (UInt64.ofInt v).toNat = (v % 2 ^ 64).toNat := by
    rw [UInt64.ofInt, UInt64.toNat_ofNat']
    omega
  obtain hneg | hpos := lt_or_ge v 0
  · have hfirst : (UInt64.ofInt v).toNat / 256 ^ 7 = 255 := by
      rw [hnat]
      omega
    rw [hbytes, hfirst] at h
    exact h.symm.trans (reread_high _)
  · have hfirst : (UInt64.ofInt v).toNat / 256 ^ 7 = 0 := by
      rw [hnat]
      omega
    rw [hbytes, hfirst] at h
    exact h.symm.trans (reread_zero _)

/-- The record of a number is read as this number only if that is 0. -/
theorem reread_wire_iff {b : M2MResourceBase} {v : Int64} (h : SetTo b v) :
    reread (wireValue bigEndian b) = v.toInt ↔ v = 0 := by
  have hwire : wireValue bigEndian b = binaryInt bigEndian b := if_pos h.1
  have hlength : (wireValue bigEndian b).length ≤ 8 := by
    rw [hwire, binaryInt]
    split_ifs <;> simp
  constructor
  · intro heq
    have hsmall := natAbs_reread_lt hlength
    rw [heq] at hsmall
    have hmin : v ≠ Int64.minValue := by
      rintro rfl
      exact absurd hsmall (by decide)
    rw [hwire, binaryInt, h.getValueInt hmin] at heq
    refine Int64.toInt_inj.mp (Eq.trans ?_ (by decide : (0 : Int) = (0 : Int64).toInt))
    split_ifs at heq
    · exact reread_boolean heq
    · exact reread_integer hsmall heq
  · rintro rfl
    rw [hwire, binaryInt, h.getValueInt (by decide)]
    split_ifs
    · rfl
    · rfl

end Reread

/-! The parts of a resource are found by their ids. -/
section Parts
variable {r r' : M2MResource} {x y : Option UInt16 × M2MResourceBase}

theorem part_eq_of_key (h : r.Unique) (hx : x ∈ r.parts) (hy : y ∈ r.parts) (hkey : x.1 = y.1) :
    x = y := by
  cases hm : r.multipleInstance with
  | false =>
    rw [r.parts_single hm, List.mem_singleton] at hx hy
    rw [hx, hy]
  | true =>
    rw [r.parts_multiple hm] at hx hy
    obtain ⟨i, hi, rfl⟩ := List.mem_map.mp hx
    obtain ⟨j, hj, rfl⟩ := List.mem_map.mp hy
    rw [Keyed.Unique.eq_of_key h hi hj (Option.some.inj hkey)]

theorem exists_part {m : Option UInt16} (h : m ∈ r.parts.map Prod.fst) : ∃ b, (m, b) ∈ r.parts := by
  obtain ⟨⟨m, b⟩, hb, rfl⟩ := List.mem_map.mp h
  exact ⟨b, hb⟩

theorem known_of_filter {oi : M2MObjectInstance} {id : UInt16} (hid : r.nameId = id.toNat)
    (h : oi.resources.filter (·.nameId == r.nameId) = [r']) (hunique : r'.Unique) :
    Known oi r' id := by
  have hmem : ∀ s, s ∈ oi.resources ∧ s.nameId = r.nameId ↔ s = r' := by
    intro s
    have hs : s ∈ oi.resources.filter (·.nameId == r.nameId) ↔ s ∈ [r'] := by rw [h]
    rwa [List.mem_filter, beq_iff_eq, List.mem_singleton] at hs
  obtain ⟨hr', hname⟩ := (hmem r').mpr rfl
  exact ⟨hr', hname.trans hid, fun s hs hsid => (hmem s).mp ⟨hs, hsid.trans hid.symm⟩, hunique⟩

end Parts

/-! The record of one resource. -/
section Resource
variable {r target : M2MResource} {oi : M2MObjectInstance}

/-- The resource that a record of `r` is for: the only one of the object instance with its id. -/
structure Counterpart (r target : M2MResource) (oi : M2MObjectInstance) : Prop where
  only : oi.resources.filter (·.nameId == r.nameId) = [target]
  unique : target.Unique
  parts : ∀ m, m ∈ target.parts.map Prod.fst ↔ m ∈ r.parts.map Prod.fst
  putAllowed : ∀ x ∈ target.parts, x.2.putAllowed = true

theorem unique_grows {r r' : M2MResource} (h : r.Grows true false r') (hr : r.Unique) :
    r'.Unique := by
  have hids : r'.instances.map (·.instanceId) = r.instances.map (·.instanceId) := by
    rw [List.map_eq_flatMap, List.map_eq_flatMap]
    refine (flatMap_eq (h.instances.forall₂ fun i hi => Bool.false_ne_true hi.1)
      fun i i' hi => ?_).symm
    rw [hi.instanceId]
  rw [M2MResource.Unique, Keyed.Unique, hids]
  exact hr

/-- The resource with an id keeps its place in the object instance. -/
theorem filter_grows {oi' : M2MObjectInstance} {id : Int}
    (h : oi.resources.filter (·.nameId == id) = [target]) (hg : oi.Grows true false oi') :
    ∃ target', oi'.resources.filter (·.nameId == id) = [target'] ∧
      target.Grows true false target' := by
  have hkept := hg.resources.forall₂ fun r hr => Bool.false_ne_true hr.1
  have hsame : ∀ s s' : M2MResource, s.Grows true false s' →
      ((s.nameId == id) = true ↔ (s'.nameId == id) = true) := fun s s' hs => by rw [hs.nameId]
  have hfilter : List.Forall₂ (M2MResource.Grows true false) (oi.resources.filter (·.nameId == id))
      (oi'.resources.filter (·.nameId == id)) := List.rel_filter (fun s s' => hsame s s') hkept
  rw [h] at hfilter
  obtain ⟨target', rest, hgrows, hrest, heq⟩ := List.forall₂_cons_left_iff.mp hfilter
  rw [List.forall₂_nil_left_iff.mp hrest] at heq
  exact ⟨target', heq, hgrows⟩

theorem serialize_resource {commonWrite64Bit : UInt64 → Vector UInt8 8}
    (h : ResourceFits (wireValue commonWrite64Bit) r) :
    let bytes := resourceBytes (wireValue commonWrite64Bit) r
    bytes.length < 2 ^ 32 ∧ serialize commonWrite64Bit (.resource r) (fun _ => true) =
      some (⟨some bytes, UInt32.ofNat bytes.length⟩, fun _ => true) := by
  obtain ⟨hname, hlength, -⟩ := h
  have happends : Appends (serializeEither commonWrite64Bit r) _ _ :=
    serializeEither_appends (by omega)
  have hbytes : (resourceBytes (wireValue commonWrite64Bit) r).length < 2 ^ 32 := by
    have hbounds := (length_record_bounds (if r.multipleInstance then typeMultipleResource
      else typeResource) (wireId r) (hlength.trans (by decide))).2
    rw [resourceBytes]
    omega
  have hrun := happends.granted (resourceRequests_bounded _ r)
    (by decide : ([] : Bytes).length < 2 ^ 32)
  rw [List.nil_append, if_pos hbytes] at hrun
  have hne : resourceBytes (wireValue commonWrite64Bit) r ≠ [] := List.cons_ne_nil _ _
  refine ⟨hbytes, ?_⟩
  rw [serialize, show Output.empty = .of [] from rfl, hrun, Option.map_some, Output.of, if_neg hne]

theorem Counterpart.part (ht : Counterpart r target oi) {x : Option UInt16 × M2MResourceBase}
    (hx : x ∈ r.parts) : ∃ b, (x.1, b) ∈ target.parts ∧ b.putAllowed = true := by
  obtain ⟨b, hb⟩ := exists_part ((ht.parts x.1).mpr (List.mem_map_of_mem hx))
  exact ⟨b, hb, ht.putAllowed _ hb⟩

theorem Known.locate_alone {id : UInt16} (h : Known oi r id) {m : Option UInt16}
    {b : M2MResourceBase} (hb : (m, b) ∈ r.parts) :
    ∃ t, (Path.part oi.instanceId id m).locate ⟨[oi]⟩ = some t ∧
      (⟨[oi]⟩ : M2MObject).base? t = some b :=
  h.locate hb (List.mem_singleton_self oi) fun _ hoi' _ => List.mem_singleton.mp hoi'

section Put
variable {tlv : Nat → UInt8} {size : Nat} {wire : M2MResourceBase → Bytes}

theorem pathValues_resource (hlists : Lists tlv (ResourceRecord tlv wire) 0 size [r]) :
    pathValues tlv ((Addressee.objectInstance oi).paths tlv size) =
      r.parts.map fun x => (.part oi.instanceId (wireId r) x.1, wire x.2) := by
  rw [Addressee.paths, pathValues_resources hlists, List.flatMap_singleton, written,
    resourceVariables, List.map_map]
  rfl

/-- The record of `r` writes each part of the counterpart with the bytes of this part. -/
theorem put_parts (hname : 0 ≤ r.nameId) (hunique : r.Unique) (hparts : r.parts ≠ [])
    (ht : Counterpart r target oi) (hlists : Lists tlv (ResourceRecord tlv wire) 0 size [r])
    (env : Env) :
    let put := deserialize (some tlv) size .put (.objectInstance oi) env
    put.1 = .none ∧ ∀ x ∈ r.parts, ∃ c : Bool,
      (Path.part oi.instanceId (wireId r) x.1).read put.2.1.forest =
        some (if c then wire x.2 else []) := by
  have hknown := known_of_filter (wireId_toNat hname) ht.only ht.unique
  have hwf : (Addressee.objectInstance oi).WellFormed tlv size :=
    ⟨hlists.lt (List.cons_ne_nil _ _), resourcesFormat_of_lists hlists⟩
  have hfilled : (Addressee.objectInstance oi).Filled tlv size :=
    regionFilled_of_lists hlists fun s hs => by rwa [List.mem_singleton.mp hs]
  have hopen : ∀ x ∈ pathValues tlv ((Addressee.objectInstance oi).paths tlv size),
      x.1.Open (Addressee.objectInstance oi).forest := by
    rw [pathValues_resource hlists]
    intro x hx oi' hoi' _
    obtain rfl := List.mem_singleton.mp hoi'
    obtain ⟨z, hz, rfl⟩ := List.mem_map.mp hx
    obtain ⟨b, hb, hput⟩ := ht.part hz
    exact hknown.openIn hb hput oi'.instanceId
  obtain ⟨hnone, hreads⟩ := put_delivers rfl hwf hfilled hopen
    (fun _ _ => trivial : Stable fun _ => True) (trivial : (fun _ => True) env.heap)
  rw [pathValues_resource hlists] at hreads
  refine ⟨hnone, fun x hx => ?_⟩
  obtain ⟨b, hb, -⟩ := ht.part hx
  obtain ⟨t, hlocate, -⟩ := hknown.locate_alone hb
  have hone : ∀ e ∈ r.parts.map fun y => (Path.part oi.instanceId (wireId r) y.1, wire y.2),
      e.1 = Path.part oi.instanceId (wireId r) x.1 → e.2 = wire x.2 := by
    intro e he hpath
    obtain ⟨w, hw, rfl⟩ := List.mem_map.mp he
    rw [part_eq_of_key hunique hw hx (Path.part_inj hpath)]
  obtain ⟨h, -, hread⟩ := hreads _ (List.mem_map_of_mem hx) hone
    (Option.isSome_iff_exists.mpr ⟨t, hlocate⟩)
  exact ⟨h 0, hread⟩

/-- A `Put` of the record of `r` leaves the bytes of its parts in those of the counterpart. -/
theorem put_resource (hname : 0 ≤ r.nameId) (hunique : r.Unique) (hparts : r.parts ≠ [])
    (ht : Counterpart r target oi) (hlists : Lists tlv (ResourceRecord tlv wire) 0 size [r])
    (env : Env) :
    let put := deserializeResources (some tlv) size .put (oi, env)
    put.1 = .none ∧ ∃ target', put.2.1.resources.filter (·.nameId == r.nameId) = [target'] ∧
      target'.parts.map Prod.fst = target.parts.map Prod.fst ∧
      ∀ x ∈ r.parts, ∀ y ∈ target'.parts, y.1 = x.1 →
        ∃ c : Bool, y.2.value = if c then wire x.2 else [] := by
  obtain ⟨hnone, hreads⟩ := put_parts hname hunique hparts ht hlists env
  refine ⟨hnone, ?_⟩
  have hresult : (deserialize (some tlv) size .put (.objectInstance oi) env).2.1.forest =
      ⟨[(deserializeResources (some tlv) size .put (oi, env)).2.1]⟩ := rfl
  -- the object instance keeps its nodes
  have hforest : (Addressee.objectInstance oi).forest.Grows true false
      (deserialize (some tlv) size .put (.objectInstance oi) env).2.1.forest :=
    deserialize_grows tlv size .put (.objectInstance oi) env
  rw [hresult] at hforest hreads
  have hgrows : oi.Grows true false (deserializeResources (some tlv) size .put (oi, env)).2.1 := by
    cases hforest with
    | cons h _ => exact h
  obtain ⟨target', honly, hg⟩ := filter_grows ht.only hgrows
  have hknown := known_of_filter (wireId_toNat hname) honly (unique_grows hg ht.unique)
  refine ⟨target', honly, hg.parts, fun x hx y hy hkey => ?_⟩
  obtain ⟨c, hread⟩ := hreads x hx
  have hvalue := read_of_locate (hknown.locate_alone hy)
  rw [hgrows.instanceId, hkey, hread] at hvalue
  exact ⟨c, (Option.some.inj hvalue).symm⟩

end Put

end Resource

/-! Resources of numbers. -/
section Numbers
variable {r target : M2MResource} {oi : M2MObjectInstance} {number : Option UInt16 → Int64}

/-- A resource with an id that was given numbers: itself, or its instances. -/
structure Numeric (r : M2MResource) (number : Option UInt16 → Int64) : Prop where
  nameId : 0 ≤ r.nameId
  unique : r.Unique
  parts : r.parts ≠ []
  setTo : ∀ x ∈ r.parts, SetTo x.2 (number x.1)

/-- Where the allocations of `serialize` succeed, it returns a record, and a `Put` of this record is
accepted and leaves the counterpart with the numbers. -/
def NumbersArrive (r : M2MResource) (number : Option UInt16 → Int64) (oi : M2MObjectInstance) :
    Prop :=
  ∃ data size heap, serialize bigEndian (.resource r) (fun _ => true) =
      some (⟨some data, size⟩, heap) ∧ size.toNat = data.length ∧
    ∀ tlv env, Holds tlv 0 data →
      let put := deserializeResources (some tlv) size.toNat .put (oi, env)
      put.1 = .none ∧ ∃ target', put.2.1.resources.filter (·.nameId == r.nameId) = [target'] ∧
        (∀ m, m ∈ target'.parts.map Prod.fst ↔ m ∈ r.parts.map Prod.fst) ∧
        ∀ x ∈ target'.parts, x.2.getValueInt = (number x.1).toInt

theorem Numeric.fits (h : Numeric r number) : ResourceFits (wireValue bigEndian) r := by
  have hshort : ∀ b : M2MResourceBase, ResourceType.binary b.resourceType = true →
      (wireValue bigEndian b).length ≤ 8 := by
    intro b hb
    rw [wireValue, if_pos hb, binaryInt]
    split_ifs <;> simp
  cases hm : r.multipleInstance with
  | false =>
    have hmem : (none, r.toM2MResourceBase) ∈ r.parts := by
      rw [r.parts_single hm]
      exact List.mem_singleton_self _
    have hset := (h.setTo _ hmem).1
    refine ⟨h.nameId, ?_, fun hc => absurd (hm.symm.trans hc) Bool.false_ne_true⟩
    rw [resourceContent, hm, if_neg Bool.false_ne_true]
    exact (hshort _ hset).trans_lt (by decide)
  | true =>
    have hset : ∀ i ∈ r.instances, (wireValue bigEndian i.toM2MResourceBase).length ≤ 8 := by
      intro i hi
      refine hshort _ (h.setTo (some i.instanceId, i.toM2MResourceBase) ?_).1
      rw [r.parts_multiple hm]
      exact List.mem_map_of_mem hi
    refine ⟨h.nameId, ?_, fun _ i hi => (hset i hi).trans_lt (by decide)⟩
    have hmembers : ∀ i ∈ r.instances, (memberBytes (wireValue bigEndian) i).length ≤ 14 := by
      intro i hi
      have hlt := (hset i hi).trans_lt (by decide : 8 < 2 ^ 32)
      have hbounds := (length_record_bounds typeResourceInstance i.instanceId hlt).2
      exact hbounds.trans (Nat.add_le_add_right (hset i hi) 6)
    have hsum := length_le_mul hmembers
    have hcount := h.unique.length_le
    rw [resourceContent, hm, if_pos rfl]
    omega

/-- What a resource with the bytes of a record, or none, is read as. -/
theorem getValueInt_iff {b b' : M2MResourceBase} {v : Int64} {c : Bool} (h : SetTo b v)
    (hvalue : b'.value = if c then wireValue bigEndian b else []) :
    b'.getValueInt = v.toInt ↔ v = 0 := by
  have hread : b'.getValueInt = reread b'.value := rfl
  rw [hread, hvalue]
  cases c with
  | true => exact reread_wire_iff h
  | false =>
    constructor
    · intro hzero
      exact Int64.toInt_inj.mp hzero.symm
    · rintro rfl
      rfl

/-- The record holds a binary number, and the decoder stores its bytes where text is expected. -/
theorem numbers_arrive_iff (hr : Numeric r number) (ht : Counterpart r target oi) :
    NumbersArrive r number oi ↔ ∀ x ∈ r.parts, number x.1 = 0 := by
  obtain ⟨hlength, hserialize⟩ := serialize_resource hr.fits
  set bytes := resourceBytes (wireValue bigEndian) r with hbytes
  have hsize : (UInt32.ofNat bytes.length).toNat = bytes.length := UInt32.toNat_ofNat_of_lt' hlength
  have hput := fun (tlv : Nat → UInt8) (env : Env) (hholds : Holds tlv 0 bytes) => by
    have hlists := @lists_of_holds tlv M2MResource (ResourceRecord tlv (wireValue bigEndian))
      (resourceBytes (wireValue bigEndian)) 0 [r] (by rwa [List.flatMap_singleton])
      fun s hs p hp => by
        obtain rfl := List.mem_singleton.mp hs
        exact resourceRecord_of_holds hr.fits hp
    rw [List.flatMap_singleton, Nat.zero_add] at hlists
    exact put_resource hr.nameId hr.unique hr.parts ht hlists env
  constructor
  · rintro ⟨data, size, heap, hdata, hdatasize, harrive⟩ x hx
    rw [hserialize] at hdata
    obtain ⟨rfl, rfl⟩ : bytes = data ∧ UInt32.ofNat bytes.length = size := by
      cases hdata
      exact ⟨rfl, rfl⟩
    have hholds := holds_ofBytes bytes
    obtain ⟨-, target₁, honly₁, -, hnumbers⟩ := harrive (ofBytes bytes) ⟨fun _ => true, []⟩ hholds
    obtain ⟨-, target', honly, hkeys, hvalues⟩ := hput (ofBytes bytes) ⟨fun _ => true, []⟩ hholds
    rw [hsize] at honly₁
    obtain rfl : target' = target₁ := List.singleton_inj.mp (honly.symm.trans honly₁)
    obtain ⟨b, hb⟩ := exists_part (hkeys ▸ (ht.parts x.1).mpr (List.mem_map_of_mem hx))
    obtain ⟨c, hvalue⟩ := hvalues x hx (x.1, b) hb rfl
    exact (getValueInt_iff (hr.setTo x hx) hvalue).mp (hnumbers (x.1, b) hb)
  · intro hzero
    refine ⟨bytes, _, _, hserialize, hsize, fun tlv env hholds => ?_⟩
    obtain ⟨hnone, target', honly, hkeys, hvalues⟩ := hput tlv env hholds
    rw [hsize]
    refine ⟨hnone, target', honly, fun m => by rw [hkeys]; exact ht.parts m, fun y hy => ?_⟩
    have hkey : y.1 ∈ target.parts.map Prod.fst := hkeys ▸ List.mem_map_of_mem hy
    obtain ⟨b, hb⟩ := exists_part ((ht.parts y.1).mp hkey)
    obtain ⟨c, hvalue⟩ := hvalues (y.1, b) hb y hy rfl
    exact (getValueInt_iff (hr.setTo (y.1, b) hb) hvalue).mpr (hzero (y.1, b) hb)

/-- The integer resource 1 with a text. -/
def integer (text : Bytes) : M2MResource :=
  ⟨⟨.dynamic, getPutAllowed, .integer, text⟩, [49], false, []⟩

theorem integer_part {text : Bytes} {x : Option UInt16 × M2MResourceBase}
    (hx : x ∈ (integer text).parts) : x = (none, (integer text).toM2MResourceBase) := by
  rwa [(integer text).parts_single rfl, List.mem_singleton] at hx

theorem integer_numeric {v : Int64} {text : Bytes} (htext : itoaC v = text) (hne : text ≠ []) :
    Numeric (integer text) fun _ => v := by
  refine ⟨(by decide : (0 : Int) ≤ nameId [49]), Keyed.unique_nil _, List.cons_ne_nil _ _, ?_⟩
  intro x hx
  rw [integer_part hx]
  refine ⟨rfl, (integer []).toM2MResourceBase, fun _ => true, rfl, ?_⟩
  rw [M2MResourceBase.setValueInt, htext, M2MResourceBase.setValue,
    if_pos (List.length_pos_iff.mpr hne)]
  rfl

theorem integer_counterpart (text : Bytes) :
    Counterpart (integer text) (integer text) ⟨0, [integer text]⟩ := by
  refine ⟨?_, Keyed.unique_nil _, fun _ => Iff.rfl, fun x hx => ?_⟩
  · apply List.filter_eq_self.mpr
    intro r hr
    rw [List.mem_singleton.mp hr]
    exact beq_self_eq_true _
  · rw [integer_part hx]
    exact (by decide : (0 != getPutAllowed &&& snGrsPutAllowed) = true)

/-- 0 is read back. -/
theorem zero_arrives : NumbersArrive (integer [48]) (fun _ => 0) ⟨0, [integer [48]]⟩ :=
  (numbers_arrive_iff (integer_numeric (by decide +kernel) (by decide))
    (integer_counterpart [48])).mpr fun _ _ => rfl

/-- 5 is the text `5` in the resource, and on the wire a byte 5 after seven zeros. -/
theorem five_lost : Numeric (integer [53]) (fun _ => 5) ∧
    Counterpart (integer [53]) (integer [53]) ⟨0, [integer [53]]⟩ ∧
    ¬NumbersArrive (integer [53]) (fun _ => 5) ⟨0, [integer [53]]⟩ := by
  refine ⟨integer_numeric (by decide +kernel) (by decide), integer_counterpart [53], ?_⟩
  rintro ⟨data, size, heap, hdata, -, harrive⟩
  have hserialize : serialize bigEndian (.resource (integer [53])) (fun _ => true) =
      some (⟨some [200, 1, 8, 0, 0, 0, 0, 0, 0, 0, 5], 11⟩, fun _ => true) := rfl
  rw [hserialize] at hdata
  cases hdata
  obtain ⟨-, target', honly, hparts, hnumbers⟩ :=
    harrive (ofBytes _) ⟨fun _ => true, []⟩ (holds_ofBytes _)
  have hread : ∀ r ∈ (deserializeResources
      (some (ofBytes [200, 1, 8, 0, 0, 0, 0, 0, 0, 0, 5])) 11 .put
      (⟨0, [integer [53]]⟩, ⟨fun _ => true, []⟩)).2.1.resources,
      ∀ x ∈ r.parts, x.2.getValueInt = 0 := by decide +kernel
  obtain ⟨b, hb⟩ := exists_part ((hparts none).mpr (List.mem_singleton_self _))
  have htarget := List.mem_of_mem_filter (honly.symm ▸ List.mem_singleton_self target')
  have hzero := hread target' htarget (none, b) hb
  rw [hnumbers (none, b) hb] at hzero
  exact absurd hzero (by decide : (5 : Int64).toInt ≠ 0)

end Numbers
end MbedClient.Tlv
