import Mathlib.Data.UInt
import MbedClient.Walk
import MbedClient.CNumber

/-! Record headers of the OMA-TLV encoding: the constants of m2mconstants.h and the class
`TypeIdLength` of m2mtlvdeserializer.cpp. A buffer is read through its pointer, so it is a function
from indices to bytes; what it answers at `tlv_size` and behind is whatever memory holds there.
Offsets are `uint32_t` in the source and `Nat` here: a record has a header of at most six bytes and
a content of less than `2 ^ 24`, so that no offset wraps where `tlv_size` is less than
`2 ^ 32 - 2 ^ 24 - 6`. -/
namespace MbedClient

def typeResource : UInt8 := 0xC0
def typeMultipleResource : UInt8 := 0x80
def typeResourceInstance : UInt8 := 0x40
def typeObjectInstance : UInt8 := 0x0

def id16 : UInt8 := 0x20

def length8 : UInt8 := 0x08
def length16 : UInt8 := 0x10
def length24 : UInt8 := 0x18

/-- The fields of the source's class; `reads` is a ghost list of the indices read so far. -/
structure TypeIdLength where
  tlv : Nat → UInt8
  offset : Nat
  type : UInt8
  id : UInt16
  length : Nat
  reads : List Nat

namespace TypeIdLength

def new (tlv : Nat → UInt8) (offset : Nat) : TypeIdLength :=
  { tlv, offset, type := tlv offset &&& 0xC0, id := 0, length := 0, reads := [offset] }

/-- `_tlv[_offset++] & 0xFF` -/
def takeByte (t : TypeIdLength) : UInt8 × TypeIdLength :=
  (t.tlv t.offset, { t with offset := t.offset + 1, reads := t.offset :: t.reads })

def deserialiseID (idLength : UInt8) (t : TypeIdLength) : TypeIdLength :=
  let (b, t) := t.takeByte
  let t := { t with id := b.toUInt16 }
  if id16 = idLength then
    let (b, t) := t.takeByte
    { t with id := (t.id <<< 8) + b.toUInt16 }
  else t

def deserialiseLength (lengthType : UInt8) (t : TypeIdLength) : TypeIdLength :=
  let t := if lengthType > 0 then
      let (b, t) := t.takeByte
      { t with length := b.toNat }
    else t
  let t := if lengthType > length8 then
      let (b, t) := t.takeByte
      { t with length := (t.length <<< 8) + b.toNat }
    else t
  if lengthType > length16 then
    let (b, t) := t.takeByte
    { t with length := (t.length <<< 8) + b.toNat }
  else t

def deserialize (t : TypeIdLength) : TypeIdLength :=
  let idLength := t.tlv t.offset &&& id16
  let lengthType := t.tlv t.offset &&& length24
  let t := if 0 = lengthType then { t with length := (t.tlv t.offset &&& 0x07).toNat } else t
  let t := { t with offset := t.offset + 1 }
  (t.deserialiseID idLength).deserialiseLength lengthType

def idSize (idLength : UInt8) : Nat := if id16 = idLength then 2 else 1

def lengthSize (lengthType : UInt8) : Nat :=
  (if lengthType > 0 then 1 else 0) + (if lengthType > length8 then 1 else 0) +
    (if lengthType > length16 then 1 else 0)

theorem deserialiseID_spec (c : UInt8) (t : TypeIdLength) :
    deserialiseID c t = { t with
      offset := t.offset + idSize c
      id := if id16 = c then ((t.tlv t.offset).toUInt16 <<< 8) + (t.tlv (t.offset + 1)).toUInt16
        else (t.tlv t.offset).toUInt16
      reads :=
        if id16 = c then (t.offset + 1) :: t.offset :: t.reads else t.offset :: t.reads } := by
  by_cases h : id16 = c <;> simp [deserialiseID, takeByte, idSize, h]

theorem deserialiseLength_frame (c : UInt8) (t : TypeIdLength) :
    (deserialiseLength c t).type = t.type ∧ (deserialiseLength c t).id = t.id ∧
      (deserialiseLength c t).offset = t.offset + lengthSize c := by
  by_cases h0 : c > 0 <;> by_cases h8 : c > length8 <;> by_cases h16 : c > length16 <;>
    simp [deserialiseLength, takeByte, lengthSize, h0, h8, h16]

theorem deserialiseLength_reads (c : UInt8) (t : TypeIdLength) (i : Nat) :
    i ∈ (deserialiseLength c t).reads ↔
      i ∈ t.reads ∨ (t.offset ≤ i ∧ i < t.offset + lengthSize c) := by
  by_cases hi : i ∈ t.reads <;> by_cases h0 : c > 0 <;> by_cases h8 : c > length8 <;>
    by_cases h16 : c > length16 <;>
    simp [deserialiseLength, takeByte, lengthSize, hi, h0, h8, h16] <;> omega

theorem deserialiseLength_length (c : UInt8) (t : TypeIdLength) :
    (deserialiseLength c t).length =
      if c > length16 ∧ c > length8 ∧ c > 0 then
        (((t.tlv t.offset).toNat <<< 8) + (t.tlv (t.offset + 1)).toNat) <<< 8 +
          (t.tlv (t.offset + 2)).toNat
      else if c > length8 ∧ c > 0 then
        ((t.tlv t.offset).toNat <<< 8) + (t.tlv (t.offset + 1)).toNat
      else if c > 0 then (t.tlv t.offset).toNat
      else t.length := by
  have h08 : c > length8 → c > 0 := fun h => UInt8.lt_trans (by decide : 0 < length8) h
  have h816 : c > length16 → c > length8 :=
    fun h => UInt8.lt_trans (by decide : length8 < length16) h
  by_cases h16 : c > length16
  · simp [deserialiseLength, takeByte, h16, h816 h16, h08 (h816 h16)]
  · by_cases h8 : c > length8
    · simp [deserialiseLength, takeByte, h16, h8, h08 h8]
    · by_cases h0 : c > 0 <;> simp [deserialiseLength, takeByte, h16, h8, h0]

end TypeIdLength

/-- `TypeIdLength til(tlv, offset); til.deserialize();` -/
def header (tlv : Nat → UInt8) (o : Nat) : TypeIdLength := (TypeIdLength.new tlv o).deserialize

/-! The record that starts at `o`: its type, id, value range and successor. -/
section Record
variable (tlv : Nat → UInt8) (o : Nat)

def recType : UInt8 := (header tlv o).type
def recId : UInt16 := (header tlv o).id
def recContent : Nat := (header tlv o).offset
def recLength : Nat := (header tlv o).length
def recNext : Nat := recContent tlv o + recLength tlv o

def slice (n : Nat) : Bytes := (List.range n).map fun i => tlv (o + i)

def recValue : Bytes := slice tlv (recContent tlv o) (recLength tlv o)

theorem header_eq : header tlv o =
    let b := tlv o
    let t : TypeIdLength :=
      { tlv, offset := o + 1, type := b &&& 0xC0, id := 0
        length := if 0 = b &&& length24 then (b &&& 0x07).toNat else 0, reads := [o] }
    (t.deserialiseID (b &&& id16)).deserialiseLength (b &&& length24) := by
  by_cases h : 0 = tlv o &&& length24 <;>
    simp [header, TypeIdLength.deserialize, TypeIdLength.new, h]

theorem recType_eq : recType tlv o = tlv o &&& 0xC0 := by
  simp [recType, header_eq, TypeIdLength.deserialiseLength_frame, TypeIdLength.deserialiseID_spec]

theorem recContent_eq : recContent tlv o = o + 1 + TypeIdLength.idSize (tlv o &&& id16) +
    TypeIdLength.lengthSize (tlv o &&& length24) := by
  simp [recContent, header_eq, TypeIdLength.deserialiseLength_frame,
    TypeIdLength.deserialiseID_spec]

theorem recId_eq : recId tlv o =
    if id16 = tlv o &&& id16 then ((tlv (o + 1)).toUInt16 <<< 8) + (tlv (o + 2)).toUInt16
    else (tlv (o + 1)).toUInt16 := by
  simp [recId, header_eq, TypeIdLength.deserialiseLength_frame, TypeIdLength.deserialiseID_spec]

/-- `deserialize` reads exactly the bytes in front of the value. -/
theorem mem_reads (i : Nat) : i ∈ (header tlv o).reads ↔ o ≤ i ∧ i < recContent tlv o := by
  rw [recContent_eq, header_eq, TypeIdLength.deserialiseLength_reads,
    TypeIdLength.deserialiseID_spec]
  unfold TypeIdLength.idSize
  split_ifs <;> simp <;> omega

theorem recContent_bounds : o + 2 ≤ recContent tlv o ∧ recContent tlv o ≤ o + 6 := by
  rw [recContent_eq]
  unfold TypeIdLength.idSize TypeIdLength.lengthSize
  split_ifs <;> omega

theorem recLength_lt : recLength tlv o < 2 ^ 24 := by
  have h7 : (tlv o &&& 0x07).toNat ≤ 7 := by
    rw [UInt8.toNat_and]
    exact Nat.and_le_right
  have hb : ∀ i, (tlv i).toNat < 256 := fun i => UInt8.toNat_lt _
  rw [recLength, header_eq, TypeIdLength.deserialiseLength_length,
    TypeIdLength.deserialiseID_spec]
  simp only [Nat.shiftLeft_eq]
  have h0 := hb (o + 1 + TypeIdLength.idSize (tlv o &&& id16))
  have h1 := hb (o + 1 + TypeIdLength.idSize (tlv o &&& id16) + 1)
  have h2 := hb (o + 1 + TypeIdLength.idSize (tlv o &&& id16) + 2)
  split_ifs <;> omega

theorem lt_recNext : o < recNext tlv o := by
  have := recContent_bounds tlv o
  unfold recNext
  omega

end Record

def ofBytes (bytes : Bytes) (i : Nat) : UInt8 := bytes.getD i 0

/-- Records laid out one behind the other. -/
def frame (tlv : Nat → UInt8) : Walk.Frame := ⟨recNext tlv, lt_recNext tlv⟩

@[simp] theorem frame_next (tlv : Nat → UInt8) (o : Nat) : (frame tlv).next o = recNext tlv o := rfl

@[simp] theorem length_slice (tlv : Nat → UInt8) (o n : Nat) : (slice tlv o n).length = n := by
  simp [slice]

@[simp] theorem length_recValue (tlv : Nat → UInt8) (o : Nat) :
    (recValue tlv o).length = recLength tlv o := by
  simp [recValue]

end MbedClient
