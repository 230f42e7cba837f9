import MbedClient.Tlv.Creation

/-! Which requests read and store inside their buffer only. A walk looks at the offset of a record,
never at what is left behind it. -/
namespace MbedClient.Tlv
variable (tlv : Nat → UInt8) (size : Nat) (operation : Operation) (a : Addressee)

def Access.Inside (size : Nat) : Access → Prop
  | .byte i => i < size
  | .value o n => o + n ≤ size
  | .resource _ _ _ => True
  | .member _ _ _ _ => True

theorem touch_inside {nested : Bool} {obj : M2MObject} {v : Visit} {x : Access}
    (h : some x = touch tlv nested obj v) : x.Inside size := by
  cases v with
  | object p => simp [touch] at h
  | inside j v =>
    obtain ⟨oi, -, h⟩ := Option.bind_eq_some_iff.mp h.symm
    cases v with
    | own p =>
      obtain rfl := Option.some.inj h
      trivial
    | member k p =>
      obtain ⟨r, -, rfl⟩ := Option.map_eq_some_iff.mp h
      trivial

/-- Every record that is visited has its header inside, every record that is stored its value. -/
structure Addressee.Fits : Prop where
  header : ∀ v ∈ a.visits tlv size, recContent tlv v.record ≤ size
  value : a.verdict tlv size operation = .none →
    ∀ v ∈ a.visits tlv size, a.Stores tlv operation v → recNext tlv v.record ≤ size

theorem mayLeave_inside (h : a.Fits tlv size operation) {x : Access}
    (hx : a.MayLeave tlv size operation x) : x.Inside size := by
  obtain ⟨v, hv, update, s, hu, hg, hleft⟩ := hx
  rcases hleft with ⟨i, rfl, -, hi⟩ | ⟨⟨rfl, ht⟩, -, rfl⟩ | ⟨-, ht⟩
  · exact lt_of_lt_of_le hi (h.header v hv)
  · exact h.value (hu rfl) v hv (visitTarget_grown hg (visits_placed tlv size a v hv) ht)
  · exact touch_inside tlv size ht

theorem fits_of_inside (hstart : a.startsOn tlv = true)
    (h : ∀ x ∈ (deserialize (some tlv) size operation a ⟨fun _ => true, []⟩).2.2.log,
      x.Inside size) : a.Fits tlv size operation := by
  have hheader : ∀ v ∈ a.visits tlv size, recContent tlv v.record ≤ size := by
    intro v hv
    obtain ⟨s, -, hleft, -⟩ := pass_log_reach tlv size operation false a
      (Env.note (.byte 0) ⟨fun _ => true, []⟩) (stable_const true) rfl hv
    have hb := recContent_bounds tlv v.record
    have hbyte := h _ (mem_deserialize_log tlv size operation a _ hstart
      (hleft (.byte (recContent tlv v.record - 1)) (Or.inl ⟨_, rfl, by omega, by omega⟩)))
    simp only [Access.Inside] at hbyte
    omega
  refine ⟨hheader, fun hverdict v hv hs => ?_⟩
  rcases Nat.eq_zero_or_pos (recLength tlv v.record) with hl | hl
  · rw [recNext, hl]
    exact hheader v hv
  · rw [deserialize_accepted tlv size operation a _ ⟨hstart, hverdict⟩] at h
    have hk := pass_kind tlv size operation false a (Env.note (.byte 0) ⟨fun _ => true, []⟩)
    have hg := pass_grows tlv size operation false a (Env.note (.byte 0) ⟨fun _ => true, []⟩)
    have ht := target_after_check tlv operation size a (Env.note (.byte 0) ⟨fun _ => true, []⟩)
      rfl hv hs
    rw [← Addressee.visits_grows tlv size hk hg] at hv
    obtain ⟨s, ⟨hgs, -⟩, hleft, -⟩ := pass_log_reach tlv size operation true _
      (pass tlv size operation false (a, Env.note (.byte 0) ⟨fun _ => true, []⟩)).2.2
      (H := fun _ => True) (fun _ _ => trivial) trivial hv
    exact h _ (hleft _ (Or.inr (Or.inl ⟨⟨rfl, visitTarget_mono hgs ht⟩, hl, rfl⟩)))

theorem inside_of_fits (hsize : 0 < size)
    (hfits : a.startsOn tlv = true → a.Fits tlv size operation) (heap : Heap) :
    ∀ x ∈ (deserialize (some tlv) size operation a ⟨heap, []⟩).2.2.log, x.Inside size := by
  intro x hx
  rcases deserialize_log_cases tlv size operation a ⟨heap, []⟩ hx with hx | rfl | ⟨hstart, hx⟩
  · exact absurd hx List.not_mem_nil
  · exact hsize
  · exact mayLeave_inside tlv size operation a (hfits hstart) hx

/-- Exactly the buffers with a first byte that keep each visited header and each stored value
inside are decoded in bounds. -/
theorem inside_iff :
    (∀ heap, ∀ x ∈ (deserialize (some tlv) size operation a ⟨heap, []⟩).2.2.log,
      x.Inside size) ↔
    0 < size ∧ (a.startsOn tlv = true → a.Fits tlv size operation) := by
  constructor
  · intro h
    refine ⟨?_, fun hstart => fits_of_inside tlv size operation a hstart (h _)⟩
    have hbyte : Access.byte 0 ∈
        (deserialize (some tlv) size operation a ⟨fun _ => true, []⟩).2.2.log := by
      by_cases hstart : a.startsOn tlv = true
      · exact mem_deserialize_log tlv size operation a _ hstart
          (mem_pass_log tlv size operation false a _ List.mem_cons_self)
      · rw [deserialize_eq, if_neg hstart]
        exact List.mem_cons_self
    exact h _ _ hbyte
  · rintro ⟨hsize, hfits⟩ heap
    exact inside_of_fits tlv size operation a hsize hfits heap

/-- The id of a truncated record is read behind the buffer. -/
theorem truncated_outside : ¬∀ x ∈ (deserialize (some (ofBytes [0xC1])) 1 .put
    (.objectInstance ⟨0, []⟩) ⟨fun _ => true, []⟩).2.2.log, x.Inside 1 := by
  intro h
  have hbyte := h (.byte 1) (by decide +kernel)
  exact absurd hbyte (by simp [Access.Inside])

end MbedClient.Tlv
