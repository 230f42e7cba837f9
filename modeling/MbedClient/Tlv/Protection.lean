import MbedClient.Tlv.Passes

/-! Which requests leave the values alone that a server must not write. The permission is only
looked at in the first pass, and the first pass answers with the verdict of its last visit. -/
namespace MbedClient.Tlv

/-- No resource or resource instance without PUT permission has another value in `a'`. -/
def Addressee.KeepsProtected (a a' : Addressee) : Prop :=
  ∀ t b, a.forest.base? t = some b → b.putAllowed = false →
    (a'.forest.base? t).map (·.value) = some b.value

/-- Exactly the refused buffers, and those in which the last record that names a read-only value
clears a value that is empty anyway, leave all read-only values alone. Offsets are natural numbers:
of the code this holds for a `size` below `2 ^ 32 - 2 ^ 24 - 6`, where none of them wraps. -/
theorem keepsProtected_iff (tlv : Nat → UInt8) (size : Nat) (operation : Operation)
    (a : Addressee) :
    (∀ env, a.KeepsProtected (deserialize (some tlv) size operation a env).2.1) ↔
      ¬a.Accepted tlv size operation ∨
      ∀ t b, a.forest.base? t = some b → b.putAllowed = false →
        ∀ v, (a.writers tlv size t).getLast? = some v →
          b.value = [] ∧ recLength tlv v.record = 0 := by
  have hrun := fun (c : Bool) {t b} (hb : a.forest.base? t = some b) =>
    deserialize_base? tlv size operation a ⟨fun _ => c, []⟩ (stable_const c) rfl hb
  constructor
  · intro h
    by_cases ha : a.Accepted tlv size operation
    · refine Or.inr fun t b hb hp v hv => ?_
      have hvalue : ∀ c, b.value = stored tlv v.record fun _ => c := by
        intro c
        rcases hrun c hb with ⟨hn, -⟩ | ⟨-, hw⟩
        · exact absurd ha hn
        · rw [hv] at hw
          obtain ⟨_, rfl, hw⟩ := hw
          have hk := h ⟨fun _ => c, []⟩ t b hb hp
          rw [hw] at hk
          exact (Option.some.inj hk).symm
      have hempty : b.value = [] := hvalue false
      refine ⟨hempty, ?_⟩
      rw [← length_recValue, ← show b.value = recValue tlv v.record from hvalue true, hempty]
      rfl
    · exact Or.inl ha
  · intro h env t b hb hp
    rcases deserialize_base? tlv size operation a env (H := fun _ => True) (fun _ _ => trivial)
        trivial hb with ⟨-, hw⟩ | ⟨ha, hw⟩
    · rw [hw]
      rfl
    · rcases h with h | h
      · exact absurd ha h
      · cases hv : (a.writers tlv size t).getLast? with
        | none =>
          rw [hv] at hw
          rw [hw]
          rfl
        | some v =>
          obtain ⟨hempty, hl⟩ := h t b hb hp v hv
          rw [hv] at hw
          obtain ⟨h', -, hw⟩ := hw
          rw [hw, hempty]
          simp [assign, stored_empty tlv h' hl]

/-- Resource 1 may only be read, resource 2 may be written. -/
def readOnlyFirst : M2MObjectInstance :=
  ⟨0, [⟨⟨.dynamic, getAllowed, .string, [0x41]⟩, [0x31], false, []⟩,
    ⟨⟨.dynamic, getPutAllowed, .string, []⟩, [0x32], false, []⟩]⟩

/-- The record for resource 2 makes the first pass forget that resource 1 was refused. -/
theorem readOnly_overwritten : ¬(Addressee.objectInstance readOnlyFirst).KeepsProtected
    (deserialize (some (ofBytes [0xC1, 1, 0x58, 0xC1, 2, 0x59])) 6 .put
      (.objectInstance readOnlyFirst) ⟨fun _ => true, []⟩).2.1 := by
  intro h
  exact absurd (h ⟨0, 0, none⟩ _ rfl (by decide)) (by decide +kernel)

end MbedClient.Tlv
