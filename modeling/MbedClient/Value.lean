import MbedClient.ObjectTree

/-! `M2MResourceBase::set_value` with the pointers that it gets and keeps. -/
namespace MbedClient

/-- What `value` points to: nothing, memory of the caller, or the buffer of the resource itself,
which is freed on the way. -/
inductive Pointer where
  | null
  | outside (bytes : Bytes)
  | inside (offset : Nat)

/-- `resource` and `resourcelen` of the structure of the CoAP library. -/
structure Stored where
  resource : Option Bytes
  resourcelen : UInt32
  deriving DecidableEq

/-- `alloc_string_copy` asks for `size + 1` bytes, and `memory_alloc` refuses to give none. -/
def allocStringCopy (size : UInt32) (h : Heap) : Bool × Heap :=
  if size + 1 = 0 then (false, h) else h.malloc

namespace Stored
variable (s : Stored) (value : Pointer) (length : UInt32) (h : Heap)

/-- The memory behind the pointer when the function is called, `length` bytes or more of it. -/
def bytesAt : Pointer → Option Bytes
  | .null => none
  | .outside bytes => some bytes
  | .inside offset => s.resource.map (·.drop offset)

def isValueChanged : Bool :=
  if length ≠ s.resourcelen then true
  else
    match s.bytesAt value, s.resource with
    | some _, none => true
    | none, some _ => true
    | some bytes, some old => bytes.take s.resourcelen.toNat != old.take s.resourcelen.toNat
    | none, none => false

/-- The result, the structure, and whether a change is reported. Nothing if freed memory is read. -/
def setValue : Option (Bool × Stored × Bool × Heap) :=
  let changed := s.isValueChanged value length
  if s.bytesAt value ≠ none ∧ 0 < length then
    let (copied, h) := allocStringCopy length h
    if copied then
      match value with
      | .outside bytes => some (true, ⟨some (bytes.take length.toNat), length⟩, changed, h)
      | _ => none
    else some (true, ⟨none, 0⟩, false, h)
  else some (false, s, false, h)

/-- The value is the argument after a success, and what it was before after a failure. -/
def Honest : Option (Bool × Stored × Bool × Heap) → Prop
  | none => False
  | some (true, s', _) =>
    s'.resource = (s.bytesAt value).map (·.take length.toNat) ∧ s'.resourcelen = length
  | some (false, s', _) => s' = s

theorem setValue_honest_iff : s.Honest value length (s.setValue value length h) ↔
    s.bytesAt value = none ∨ length = 0 ∨
      (∃ bytes, value = .outside bytes) ∧ (allocStringCopy length h).1 = true := by
  have hpos : length ≠ 0 → 0 < length := UInt32.pos_iff_ne_zero.mpr
  by_cases hnone : s.bytesAt value = none
  · rw [setValue, if_neg (by simp [hnone])]
    exact iff_of_true rfl (Or.inl hnone)
  by_cases hzero : length = 0
  · rw [setValue, if_neg (by simp [hzero])]
    exact iff_of_true rfl (Or.inr (Or.inl hzero))
  rw [setValue, if_pos ⟨hnone, hpos hzero⟩, or_iff_right hnone, or_iff_right hzero]
  obtain ⟨copied, h'⟩ := allocStringCopy length h
  cases copied with
  | false =>
    -- the old value is gone and the new one is not there
    refine iff_of_false (fun hh => hzero hh.2.symm) (by simp)
  | true =>
    cases value with
    | null => exact absurd rfl hnone
    | outside bytes => exact iff_of_true ⟨rfl, rfl⟩ ⟨⟨bytes, rfl⟩, rfl⟩
    | inside offset => exact iff_of_false id (by simp)

/-- The copy of a new value is refused: `true`, and the old value is lost. -/
theorem refused_copy_dishonest : ¬(⟨some [0x61], 1⟩ : Stored).Honest (.outside [0x62]) 1
    ((⟨some [0x61], 1⟩ : Stored).setValue (.outside [0x62]) 1 fun _ => false) := by
  rintro ⟨-, hlength⟩
  exact absurd hlength (by decide)

/-- The structure for a value of the tree, NULL for an empty one. -/
def of (bytes : Bytes) : Stored :=
  ⟨if bytes = [] then none else some bytes, UInt32.ofNat bytes.length⟩

/-- On values of the tree this is its `setValue`. -/
theorem setValue_of (b : M2MResourceBase) {bytes : Bytes} (hlength : bytes.length + 1 < 2 ^ 32) :
    ∃ reported, (of b.value).setValue (.outside bytes) (UInt32.ofNat bytes.length) h =
      some ((b.setValue bytes h).1, of (b.setValue bytes h).2.1.value, reported,
        (b.setValue bytes h).2.2) := by
  have hnat : (UInt32.ofNat bytes.length).toNat = bytes.length :=
    UInt32.toNat_ofNat_of_lt' (by simp [UInt32.size]; omega)
  by_cases hpos : 0 < bytes.length
  · have hsize : UInt32.ofNat bytes.length + 1 ≠ 0 := by
      intro hwrap
      have hwrap := congrArg UInt32.toNat hwrap
      rw [UInt32.toNat_add, hnat] at hwrap
      simp at hwrap
      omega
    have hlt : 0 < UInt32.ofNat bytes.length := by
      rw [UInt32.lt_iff_toNat_lt, hnat]
      exact hpos
    rw [setValue, if_pos ⟨by simp [bytesAt], hlt⟩, allocStringCopy, if_neg hsize,
      M2MResourceBase.setValue, if_pos hpos]
    obtain ⟨copied, h'⟩ := h.malloc
    cases copied with
    | false => exact ⟨false, rfl⟩
    | true =>
      have hne : bytes ≠ [] := List.ne_nil_of_length_pos hpos
      refine ⟨(of b.value).isValueChanged (.outside bytes) (UInt32.ofNat bytes.length), ?_⟩
      simp [of, hne, hnat]
  · have hnil : bytes = [] := by simpa using hpos
    subst hnil
    exact ⟨false, rfl⟩

end Stored
end MbedClient
