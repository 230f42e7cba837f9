import Mathlib.Data.Nat.Bitwise
import MbedClient.Nsdl.Handlers

/-! What `M2MBlockMessage` shows to the application while a resource takes its payload block by
block. -/
namespace MbedClient.Nsdl

/-- A PUT that is handled as far as `set_message_info`, and the memory then. The block option has at
most 24 bits. -/
structure Put where
  header : CoapHeader
  heap : Heap
  block1 : ∀ o ∈ header.options, o.block1 = -1 ∨ 0 ≤ o.block1.toInt ∧ o.block1.toInt < 2 ^ 24

namespace M2MBlockMessage
variable (maxSize : UInt32) (m : M2MBlockMessage)

/-- What `M2MResourceBase::handle_put_request` does with its block message: what the callback is
shown, if it is called, and what is left. -/
def incoming (put : Put) : Option (Option M2MBlockMessage × M2MBlockMessage) := do
  let (m, _) ← m.setMessageInfo maxSize put.header put.heap
  if m.isBlockMessage then some (some m, m.afterShown) else some (none, m)

def run : M2MBlockMessage → List Put → Option M2MBlockMessage
  | m, [] => some m
  | m, put :: puts => do
    let (_, m) ← m.incoming maxSize put
    run m puts

section Layers
variable {maxSize : UInt32} {m m' : M2MBlockMessage} {header : CoapHeader} {h h' : Heap}

theorem copyPayload_eq (hcopy : m.copyPayload header h = some (m', h')) :
    m' = { m with blockData := m'.blockData, blockDataLen := header.payloadLen } ∧
      (header.payloadLen > 0 → (m'.blockData = some header.payload ↔ h.malloc.1 = true)) := by
  rw [copyPayload] at hcopy
  by_cases hsome : header.payloadLen > 0
  · simp only [if_pos hsome] at hcopy
    by_cases hgranted : h.malloc.1 = true
    · rw [if_pos hgranted] at hcopy
      cases hptr : header.payloadPtr with
      | none => simp [hptr] at hcopy
      | some data =>
        rw [hptr] at hcopy
        obtain ⟨rfl, -⟩ := Prod.mk.inj (Option.some.inj hcopy)
        refine ⟨rfl, fun _ => iff_of_true ?_ hgranted⟩
        rw [CoapHeader.payload, hptr]
    · rw [if_neg hgranted] at hcopy
      obtain ⟨rfl, -⟩ := Prod.mk.inj (Option.some.inj hcopy)
      exact ⟨rfl, fun _ => iff_of_false (by simp) hgranted⟩
  · simp only [if_neg hsome] at hcopy
    obtain ⟨rfl, -⟩ := Prod.mk.inj (Option.some.inj hcopy)
    exact ⟨rfl, fun hc => absurd hc hsome⟩

theorem copyPayload_runs : (∃ m' h', m.copyPayload header h = some (m', h')) ↔
    (header.payloadLen > 0 → h.malloc.1 = true → header.payloadPtr.isSome) := by
  rw [copyPayload]
  by_cases hsome : header.payloadLen > 0
  · simp only [if_pos hsome]
    by_cases hgranted : h.malloc.1 = true
    · cases hptr : header.payloadPtr <;> simp [hsome, hgranted]
    · simp [hgranted]
  · simp [hsome]

/-- A message with options that is not too large: what changes before the payload is copied. -/
def described (m : M2MBlockMessage) (options : OptionsList) : M2MBlockMessage :=
  { m with
    totalMessageSize := if options.useSize1 then options.size1 else m.totalMessageSize
    entityTooLarge := false
    isLastBlock := if options.block1 != -1 then options.block1 &&& 0x08 == 0 else m.isLastBlock
    isBlockMessage := options.block1 != -1
    blockNumber := (options.block1 >>> 4).toUInt32.toUInt16 }

theorem setMessageInfo_small {options : OptionsList} (hoptions : header.options = some options)
    (hsmall : (if options.useSize1 then options.size1 else m.totalMessageSize) ≤ maxSize) :
    m.setMessageInfo maxSize header h = (m.described options).copyPayload header h := by
  rw [setMessageInfo, hoptions]
  have hnot := UInt32.not_lt.mpr hsmall
  cases huse : options.useSize1 <;> cases hblock : options.block1 != -1 <;>
    simp_all [described]

theorem setMessageInfo_large {options : OptionsList} (hoptions : header.options = some options)
    (hlarge : maxSize < if options.useSize1 then options.size1 else m.totalMessageSize) :
    m.setMessageInfo maxSize header h = some ({ m with
      totalMessageSize := if options.useSize1 then options.size1 else m.totalMessageSize
      entityTooLarge := true
      isBlockMessage := options.block1 != -1 }, h) := by
  rw [setMessageInfo, hoptions]
  cases huse : options.useSize1 <;> simp_all

/-- Only a payload that is missing is in the way. -/
theorem setMessageInfo_runs : (∃ m' h', m.setMessageInfo maxSize header h = some (m', h')) ↔
    ∀ options, header.options = some options →
      (if options.useSize1 then options.size1 else m.totalMessageSize) ≤ maxSize →
      header.payloadLen > 0 → h.malloc.1 = true → header.payloadPtr.isSome := by
  cases hoptions : header.options with
  | none =>
    rw [setMessageInfo, hoptions]
    exact iff_of_true ⟨_, _, rfl⟩ (fun _ hc => nomatch hc)
  | some options =>
    by_cases hlarge : maxSize < if options.useSize1 then options.size1 else m.totalMessageSize
    · rw [setMessageInfo_large hoptions hlarge]
      refine iff_of_true ⟨_, _, rfl⟩ ?_
      intro o ho hsmall
      cases ho
      exact absurd hlarge (UInt32.not_lt.mpr hsmall)
    · have hsmall := UInt32.not_lt.mp hlarge
      rw [setMessageInfo_small hoptions hsmall, copyPayload_runs]
      constructor
      · intro hruns o ho _
        exact hruns
      · intro hruns
        exact hruns options rfl hsmall

end Layers
end M2MBlockMessage
end MbedClient.Nsdl
