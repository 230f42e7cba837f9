import MbedClient.Tlv.RoundTrip

/-! Records of any kind in one buffer: what `serialize_TILV` appends to it one by one, read back
with `TypeIdLength` from the first of them on. -/
namespace MbedClient.Tlv
open Allocation

/-- What `TypeIdLength` tells of a record, and its value. -/
structure Reading where
  type : UInt8
  id : UInt16
  length : Nat
  value : Bytes
  deriving DecidableEq

/-- The readings from `o` on, and where the walk that skips every value ends. -/
def readStream (tlv : Nat → UInt8) (o size : Nat) : List Reading × Nat :=
  if o < size then
    let (readings, last) := readStream tlv (recNext tlv o) size
    (⟨recType tlv o, recId tlv o, recLength tlv o, recValue tlv o⟩ :: readings, last)
  else ([], o)
termination_by size - o
decreasing_by have := lt_recNext tlv o; omega

/-- One of the four types of records, with a value whose length fits three bytes. -/
structure Record where
  type : UInt8
  id : UInt16
  value : Bytes
  isType : IsType type
  short : value.length < 2 ^ 24

namespace Record
variable (r : Record)

def serialize (out : Output) (heap : Heap) : Appended :=
  serializeTILV r.type r.id r.value (UInt32.ofNat r.value.length) out heap

def bytes : Bytes := record r.type r.id r.value

def reading : Reading := ⟨r.type, r.id, r.value.length, r.value⟩

theorem length_bytes : r.bytes.length = headSize r.id r.value.length + r.value.length :=
  length_record r.type r.id (r.short.trans (by decide))

theorem bytes_pos : 0 < r.bytes.length := List.length_pos_iff.mpr (by simp [bytes, record])

theorem appends : Appends r.serialize r.bytes (fun n => [n + r.bytes.length]) :=
  serializeTILV_appends r.type r.id r.value (r.short.trans (by decide))

theorem bounded : Bounded (fun n => [n + r.bytes.length]) r.bytes := by
  intro n q hq
  rw [List.mem_singleton.mp hq]

end Record

section Stream
variable {tlv : Nat → UInt8} {rs : List Record}

theorem readStream_holds {o : Nat} (h : Holds tlv o (rs.flatMap Record.bytes)) :
    readStream tlv o (o + (rs.flatMap Record.bytes).length) =
      (rs.map Record.reading, o + (rs.flatMap Record.bytes).length) := by
  induction rs generalizing o with
  | nil => simp [readStream]
  | cons r rs ih =>
    rw [List.flatMap_cons, holds_append] at h
    have hread := holds_record r.isType r.short h.1
    have hnext : recNext tlv o = o + r.bytes.length := by
      rw [hread.next, r.length_bytes, Nat.add_assoc]
    have hlength : recLength tlv o = r.value.length := by
      rw [← length_recValue, hread.value_eq]
    have hlt : o < o + (r.bytes ++ rs.flatMap Record.bytes).length := by
      have := r.bytes_pos
      rw [List.length_append]
      omega
    have hrest := ih h.2
    rw [List.flatMap_cons, readStream, if_pos hlt, hnext, List.length_append,
      ← Nat.add_assoc, hrest,
      hread.recType, hread.recId, hlength, hread.value_eq]
    rfl

theorem length_stream : (rs.flatMap Record.bytes).length =
    (rs.map fun r => headSize r.id r.value.length + r.value.length).sum := by
  rw [List.length_flatMap]
  exact congrArg List.sum (List.map_congr_left fun r _ => r.length_bytes)

/-- Where all allocations succeed, appending `rs` to `pre` gives a buffer that starts with `pre`,
and from there on, wherever it lies in memory, it is read as `rs` up to its very end. -/
def StreamRoundTrips (pre : Bytes) (rs : List Record) : Prop :=
  ∃ data size heap, appendAll Record.serialize rs (.of pre) (fun _ => true) =
      some (true, ⟨data, size⟩, heap) ∧ size.toNat = (data.getD []).length ∧
    pre <+: data.getD [] ∧ ∀ tlv, Holds tlv 0 (data.getD []) →
      readStream tlv pre.length size.toNat = (rs.map Record.reading, size.toNat)

theorem appendAll_records (rs : List Record) {pre : Bytes} (hpre : pre.length < 2 ^ 32) :
    appendAll Record.serialize rs (.of pre) (fun _ => true) =
      if (pre ++ rs.flatMap Record.bytes).length < 2 ^ 32 then
        some (true, .of (pre ++ rs.flatMap Record.bytes), fun _ => true)
      else none :=
  appendAll_granted (fun r _ => r.appends) (fun r _ => r.bounded) hpre

/-- The number of bytes is a `uint32_t`. -/
theorem streamRoundTrips_iff {pre : Bytes} (hpre : pre.length < 2 ^ 32) (rs : List Record) :
    StreamRoundTrips pre rs ↔ pre.length +
      (rs.map fun r => headSize r.id r.value.length + r.value.length).sum < 2 ^ 32 := by
  have hrun := appendAll_records rs hpre
  rw [← length_stream, ← List.length_append]
  constructor
  · intro ⟨data, size, heap, h, _⟩
    by_contra hge
    rw [hrun, if_neg hge] at h
    cases h
  · intro hlt
    have hsize := Output.size_of hlt
    have hdata := Output.getD_of (pre ++ rs.flatMap Record.bytes)
    rw [if_pos hlt] at hrun
    generalize Output.of (pre ++ rs.flatMap Record.bytes) = out at hrun hsize hdata
    refine ⟨out.data, out.size, _, hrun, ?_, ?_, fun tlv hholds => ?_⟩
    · rw [hsize, hdata]
    · rw [hdata]
      exact List.prefix_append _ _
    · rw [hdata, holds_append, Nat.zero_add] at hholds
      rw [hsize, List.length_append]
      exact readStream_holds hholds.2

/-- A resource and an empty object instance behind one byte. -/
theorem streamRoundTrips_two : StreamRoundTrips [7] [⟨typeResource, 5, [1, 2], .inl rfl, by decide⟩,
    ⟨typeObjectInstance, 256, [], .inr (.inr (.inr rfl)), by decide⟩] :=
  (streamRoundTrips_iff (by decide) _).mpr (by decide)

/-- A resource record with `n` zeros. -/
def zeros (n : Nat) (hn : n < 2 ^ 24) : Record :=
  ⟨typeResource, 0, List.replicate n 0, .inl rfl, by rwa [List.length_replicate]⟩

theorem le_length_zeros {n : Nat} (hn : n < 2 ^ 24) : n ≤ (zeros n hn).bytes.length := by
  have hvalue : (zeros n hn).value.length = n := List.length_replicate
  rw [Record.length_bytes, hvalue]
  exact Nat.le_add_left _ _

/-- 257 of the longest records are longer than 4 GiB: the size of the last request wraps. -/
theorem long_stream_lost :
    ¬StreamRoundTrips [] (List.replicate 257 (zeros 16777215 (by decide))) := by
  intro ⟨data, size, heap, h, _⟩
  have hrun := appendAll_records (List.replicate 257 (zeros 16777215 (by decide)))
    (by decide : ([] : Bytes).length < 2 ^ 32)
  have hlong : ∀ r ∈ List.replicate 257 (zeros 16777215 (by decide)),
      16777215 ≤ r.bytes.length := by
    intro r hr
    rw [List.eq_of_mem_replicate hr]
    exact le_length_zeros _
  have hsum := mul_le_length hlong
  rw [List.length_replicate] at hsum
  rw [hrun, if_neg (by rw [List.nil_append]; omega)] at h
  cases h

end Stream
end MbedClient.Tlv
