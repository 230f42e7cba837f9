import MbedClient.Allocation
import MbedClient.Tlv.Encoding
import MbedClient.Tlv.Listing

/-! What a run of the serializer does, as a function of the requests it makes: an element whose
requests are all granted has its bytes appended, a refused one leaves the buffer as it was. -/
namespace MbedClient.Tlv
open Allocation
variable {α : Type*}

/-- A buffer with these bytes; it is NULL while there are none. -/
def Output.of (bytes : Bytes) : Output :=
  ⟨if bytes = [] then none else some bytes, UInt32.ofNat bytes.length⟩

theorem Output.getD_of (bytes : Bytes) : (Output.of bytes).data.getD [] = bytes := by
  unfold Output.of
  split_ifs with h <;> simp [h]

theorem Output.size_of {bytes : Bytes} (h : bytes.length < 2 ^ 32) :
    (Output.of bytes).size.toNat = bytes.length := UInt32.toNat_ofNat_of_lt' h

/-- `f` appends `bytes`, for which it requests what `requests` says of the bytes already there. -/
structure Appends (f : Output → Heap → Appended) (bytes : Bytes) (requests : Nat → List Nat) :
    Prop where
  run : ∀ (pre : Bytes) (heap : Heap), pre.length < 2 ^ 32 → f (.of pre) heap =
    (attempt (requests pre.length) heap).map fun s =>
      (s.1, if s.1 then .of (pre ++ bytes) else .of pre, s.2)
  last : ∀ n, ∃ q, requests n = q ++ [n + bytes.length]
  bytes_ne_nil : bytes ≠ []

theorem Appends.fits {f : Output → Heap → Appended} {bytes : Bytes} {requests : Nat → List Nat}
    (h : Appends f bytes requests) {n : Nat} {heap heap' : Heap}
    (ha : attempt (requests n) heap = some (true, heap')) : n + bytes.length < 2 ^ 32 := by
  obtain ⟨q, hq⟩ := h.last n
  refine lt_of_attempt ha _ ?_
  rw [hq]
  simp

/-- One record: one request for the buffer with the record. -/
theorem serializeTILV_appends (type : UInt8) (id : UInt16) (value : Bytes)
    (hv : value.length < 2 ^ 32) :
    Appends (serializeTILV type id value (UInt32.ofNat value.length)) (record type id value)
      (fun n => [n + (record type id value).length]) := by
  refine ⟨fun pre heap hpre => ?_, fun n => ⟨[], rfl⟩, by simp [record]⟩
  have hn : (UInt32.ofNat value.length).toNat = value.length := UInt32.toNat_ofNat_of_lt' hv
  have hlen : (record type id value).length = (tlvType type id (UInt32.ofNat value.length) ::
      (serializeId id ++ serializeLength (UInt32.ofNat value.length))).length + value.length := by
    rw [record, List.length_append]
  set head := tlvType type id (UInt32.ofNat value.length) ::
      (serializeId id ++ serializeLength (UInt32.ofNat value.length)) with hhead
  have hrec : record type id value = head ++ value := rfl
  have hh : head.length < 2 ^ 8 := by
    have hl := length_record type id hv
    rw [hlen, headSize] at hl
    split_ifs at hl <;> omega
  have hs : (Output.of pre).size = UInt32.ofNat pre.length := rfl
  have hreq : ((Output.of pre).size + UInt32.ofNat head.length + UInt32.ofNat value.length) =
      UInt32.ofNat (pre.length + head.length + value.length) := by
    rw [hs, UInt32.ofNat_add, UInt32.ofNat_add]
  simp only [serializeTILV, ← hhead, hreq, Output.size_of hpre, hn, Output.getD_of, attempt, hlen,
    ← Nat.add_assoc]
  cases hg : heap.malloc.1 with
  | false => simp
  | true =>
    rcases lt_or_ge (pre.length + head.length + value.length) (2 ^ 32) with hlt | hge
    · have hnat : (UInt32.ofNat (pre.length + head.length + value.length)).toNat =
          pre.length + head.length + value.length := UInt32.toNat_ofNat_of_lt' hlt
      have hof : Output.of (pre ++ record type id value) =
          ⟨some (pre ++ head ++ value),
            UInt32.ofNat (pre.length + head.length + value.length)⟩ := by
        have hne : pre ++ record type id value ≠ [] := by simp [record]
        rw [Output.of, if_neg hne, List.length_append, hlen, hrec, List.append_assoc, Nat.add_assoc]
      rw [hnat, if_neg (lt_irrefl _), if_pos hlt, hof]
      simp
    · have hwrap : (UInt32.ofNat (pre.length + head.length + value.length)).toNat <
          pre.length + head.length + value.length :=
        (UInt32.toNat_lt _).trans_le hge
      rw [if_pos hwrap, if_neg (not_lt.mpr hge)]
      simp

/-- The bytes in a longer buffer count like a buffer of their own. -/
theorem serializeTILV_take (type : UInt8) (id : UInt16) {value : Bytes} {n : UInt32}
    (h : n.toNat ≤ value.length) : serializeTILV type id value n =
      serializeTILV type id (value.take n.toNat) (UInt32.ofNat (value.take n.toNat).length) := by
  have hn : UInt32.ofNat (value.take n.toNat).length = n := by
    rw [List.length_take, Nat.min_eq_left h, UInt32.ofNat_toNat]
  rw [hn]
  funext out heap
  simp [serializeTILV, List.take_take]

section Loop
variable {f : α → Output → Heap → Appended} {bytes : α → Bytes} {requests : α → Nat → List Nat}

/-- The requests of the first element. -/
def lead (requests : α → Nat → List Nat) : List α → Nat → List Nat
  | [], _ => []
  | x :: _, n => requests x n

/-- The loop over all elements: it leaves what the elements before the refused one have written. -/
theorem appendAll_run {xs : List α} (hf : ∀ x ∈ xs, Appends (f x) (bytes x) (requests x))
    {pre : Bytes} (hpre : pre.length < 2 ^ 32) (heap : Heap) :
    match attempt (running requests (fun x => (bytes x).length) xs pre.length) heap with
    | none => appendAll f xs (.of pre) heap = none
    | some (true, heap') => (pre ++ xs.flatMap bytes).length < 2 ^ 32 ∧
      appendAll f xs (.of pre) heap = some (true, .of (pre ++ xs.flatMap bytes), heap')
    | some (false, heap') => ∃ ys, (pre ++ ys).length < 2 ^ 32 ∧
      appendAll f xs (.of pre) heap = some (false, .of (pre ++ ys), heap') ∧
      (ys = [] ↔ attempt (lead requests xs pre.length) heap = some (false, heap')) := by
  induction xs generalizing pre heap with
  | nil => simpa [running, attempt, appendAll] using hpre
  | cons x xs ih =>
    have hx := hf x List.mem_cons_self
    rw [running, attempt_append, appendAll, hx.run pre heap hpre, lead]
    cases ha : attempt (requests x pre.length) heap with
    | none => simp
    | some s =>
      obtain ⟨granted, heap'⟩ := s
      cases granted with
      | false => simpa using hpre
      | true =>
        have hlt := hx.fits ha
        have ht := ih (fun y hy => hf y (List.mem_cons_of_mem x hy))
          (by simpa using hlt : (pre ++ bytes x).length < 2 ^ 32) heap'
        rw [List.length_append] at ht
        simp only [Option.map_some, Option.bind_some, if_true, Option.bind_eq_bind] at ht ⊢
        cases hr : attempt (running requests (fun x => (bytes x).length) xs
            (pre.length + (bytes x).length)) heap' with
        | none => simpa [hr] using ht
        | some s =>
          obtain ⟨granted, heap''⟩ := s
          simp only [hr] at ht
          cases granted with
          | false =>
            obtain ⟨ys, hys, hrun, -⟩ := ht
            refine ⟨bytes x ++ ys, by simpa using hys, by simpa using hrun, ?_⟩
            simp [hx.bytes_ne_nil]
          | true => simpa using ht

end Loop

section Elements
variable (commonWrite64Bit : UInt64 → Vector UInt8 8)

/-- A value as a record holds it: a binary number, or the `value_length()` bytes of `value()`. -/
def wireValue (b : M2MResourceBase) : Bytes :=
  if ResourceType.binary b.resourceType then binaryInt commonWrite64Bit b
  else b.value.take (UInt32.ofNat b.value.length).toNat

variable (wire : M2MResourceBase → Bytes)

def memberRequests (i : M2MResourceInstance) (n : Nat) : List Nat :=
  [n + (memberBytes wire i).length]

def resourceRequests (r : M2MResource) (n : Nat) : List Nat :=
  (if r.multipleInstance then
    running (memberRequests wire) (fun i => (memberBytes wire i).length) r.instances 0 else []) ++
    [n + (resourceBytes wire r).length]

def resourceListRequests (rs : List M2MResource) : List Nat :=
  running (resourceRequests wire) (fun r => (resourceBytes wire r).length) rs 0

def objectInstanceRequests (oi : M2MObjectInstance) (n : Nat) : List Nat :=
  resourceListRequests wire oi.resources ++ [n + (objectInstanceBytes wire oi).length]

variable {commonWrite64Bit}

theorem serializeValue_appends (type : UInt8) (id : UInt16) (b : M2MResourceBase) :
    Appends (serializeValue commonWrite64Bit type id b)
      (record type id (wireValue commonWrite64Bit b))
      (fun n => [n + (record type id (wireValue commonWrite64Bit b)).length]) := by
  cases hb : ResourceType.binary b.resourceType with
  | true =>
    have hwire : wireValue commonWrite64Bit b = binaryInt commonWrite64Bit b := by
      simp [wireValue, hb]
    have hlen : UInt32.ofNat (binaryInt commonWrite64Bit b).length =
        if b.resourceType = .boolean then 1 else 8 := by
      unfold binaryInt
      split_ifs <;> simp
    have hlt : (binaryInt commonWrite64Bit b).length < 2 ^ 32 := by
      unfold binaryInt
      split_ifs <;> simp
    have heq : serializeValue commonWrite64Bit type id b = serializeTILV type id
        (binaryInt commonWrite64Bit b) (UInt32.ofNat (binaryInt commonWrite64Bit b).length) := by
      funext out heap
      simp [serializeValue, hb, serializeTLVBinaryInt, hlen]
    rw [heq, hwire]
    exact serializeTILV_appends type id _ hlt
  | false =>
    have hle : (UInt32.ofNat b.value.length).toNat ≤ b.value.length := by
      rw [UInt32.toNat_ofNat']
      exact Nat.mod_le _ _
    have hwire : wireValue commonWrite64Bit b =
        b.value.take (UInt32.ofNat b.value.length).toNat := by
      simp [wireValue, hb]
    have hlt : (wireValue commonWrite64Bit b).length < 2 ^ 32 := by
      rw [hwire, List.length_take, Nat.min_eq_left hle]
      exact UInt32.toNat_lt _
    have heq : serializeValue commonWrite64Bit type id b = serializeTILV type id
        (wireValue commonWrite64Bit b)
        (UInt32.ofNat (wireValue commonWrite64Bit b).length) := by
      rw [hwire, ← serializeTILV_take type id hle]
      funext out heap
      simp [serializeValue, hb]
    rw [heq]
    exact serializeTILV_appends type id _ hlt

theorem serializeResourceInstance_appends (i : M2MResourceInstance) :
    Appends (serializeResourceInstance commonWrite64Bit i.instanceId i)
      (memberBytes (wireValue commonWrite64Bit) i)
      (memberRequests (wireValue commonWrite64Bit) i) :=
  serializeValue_appends typeResourceInstance i.instanceId i.toM2MResourceBase

/-- A container: what its elements have written into a buffer of its own becomes its content. -/
theorem container_appends {type : UInt8} {id : UInt16} {content : Bytes} {q : List Nat}
    {nest : Heap → Appended}
    (hnest : ∀ heap, match attempt q heap with
      | none => nest heap = none
      | some (true, heap') => content.length < 2 ^ 32 ∧
        nest heap = some (true, .of content, heap')
      | some (false, heap') => ∃ out, nest heap = some (false, out, heap')) :
    Appends (fun out heap => (nest heap).bind fun s =>
        if s.1 then serializeTILV type id (s.2.1.data.getD []) s.2.1.size out s.2.2
        else some (false, out, s.2.2))
      (record type id content) (fun n => q ++ [n + (record type id content).length]) := by
  refine ⟨fun pre heap hpre => ?_, fun n => ⟨q, rfl⟩, by simp [record]⟩
  have h := hnest heap
  rw [attempt_append]
  cases hq : attempt q heap with
  | none =>
    rw [hq] at h
    simp [h]
  | some s =>
    obtain ⟨granted, heap'⟩ := s
    rw [hq] at h
    cases granted with
    | false =>
      obtain ⟨out, h⟩ := h
      simp [h]
    | true =>
      have happend := (serializeTILV_appends type id content h.1).run pre heap' hpre
      simp only [h.2, Option.bind_some, if_true, Output.getD_of]
      exact happend

end Elements

end MbedClient.Tlv
