import MbedClient.CNumber

/-! Which names `name_id` takes for which ids. `strtol` decides whether a name is a number,
`strtoul` reads it, and the result is cut to 32 bits before its range is checked. -/
namespace MbedClient

def denoted (name : Bytes) : Int :=
  let n := numeral name
  if n.negative then -Decimal.value n.digits else Decimal.value n.digits

/-- -1, or an id; and an id just for its canonical numeral. -/
def IdRight (name : Bytes) : Prop :=
  (nameId name = -1 ∨ 0 ≤ nameId name ∧ nameId name ≤ 65535) ∧
    ∀ n : Nat, nameId name = n ↔ n ≤ 65535 ∧ name = Decimal.digits n

/-- The names in one object instance: besides, no two of them have the same id. -/
def IdsRight (names : List Bytes) : Prop :=
  (∀ name ∈ names, IdRight name) ∧
    ∀ a ∈ names, ∀ b ∈ names, a ≠ b → 0 ≤ nameId a → nameId a ≠ nameId b

/-- No number, or a number that is too large also after the cut to 32 bits, or comes out as -1. -/
def NoId (name : Bytes) : Prop :=
  isInteger name = false ∨ 2 ^ 64 ≤ (denoted name).natAbs ∨
    2 ^ 16 ≤ denoted name % 2 ^ 32 ∧ denoted name % 2 ^ 32 < 2 ^ 31 ∨
    denoted name % 2 ^ 32 = 2 ^ 32 - 1

/-- What is left of the number after the cut. -/
theorem strtoul_emod (name : Bytes) : (strtoul name : Int) % 2 ^ 32 =
    if 2 ^ 64 ≤ (denoted name).natAbs then 2 ^ 32 - 1 else denoted name % 2 ^ 32 := by
  simp only [strtoul, denoted]
  by_cases hneg : (numeral name).negative = true
  · simp only [hneg, if_true]
    split_ifs <;> omega
  · simp only [hneg]
    split_ifs <;> omega

theorem nameId_of_isInteger {name : Bytes} (hint : isInteger name = true)
    (hl : name.length ≤ maxAllowedStringLength) : nameId name =
      if (strtoul name : Int) % 2 ^ 32 < 2 ^ 16 then (strtoul name : Int) % 2 ^ 32
      else if (strtoul name : Int) % 2 ^ 32 < 2 ^ 31 then -1
      else (strtoul name : Int) % 2 ^ 32 - 2 ^ 32 := by
  simp only [nameId, hint, hl, decide_true, Bool.and_self, if_true, Int.bmod]
  split_ifs <;> omega

theorem nameId_of_noId {name : Bytes} (hl : name.length ≤ maxAllowedStringLength)
    (h : NoId name) : nameId name = -1 := by
  cases hint : isInteger name with
  | false => simp [nameId, hint]
  | true =>
    rw [nameId_of_isInteger hint hl, strtoul_emod]
    have hrange := h.resolve_left (by rw [hint]; exact Bool.noConfusion)
    split_ifs <;> first | rfl | omega

theorem idRight_iff {name : Bytes} (hl : name.length ≤ maxAllowedStringLength) :
    IdRight name ↔ NoId name ∨ ∃ n ≤ 65535, name = Decimal.digits n := by
  constructor
  · rintro ⟨hrange, hid⟩
    by_cases hno : NoId name
    · exact Or.inl hno
    · have hint : isInteger name = true := by
        simpa using fun h => hno (Or.inl h)
      have heq := nameId_of_isInteger hint hl
      rw [strtoul_emod] at heq
      simp only [NoId, not_or] at hno
      have hnonneg : 0 ≤ nameId name := by
        rw [heq] at hrange ⊢
        split_ifs at hrange ⊢ <;> omega
      obtain ⟨hle, hname⟩ := (hid (nameId name).toNat).mp (Int.toNat_of_nonneg hnonneg).symm
      exact Or.inr ⟨_, hle, hname⟩
  · rintro (hno | ⟨n, hn, rfl⟩)
    · have heq := nameId_of_noId hl hno
      refine ⟨Or.inl heq, fun n => iff_of_false (by omega) ?_⟩
      rintro ⟨hn, rfl⟩
      rw [nameId_digits hn] at heq
      omega
    · rw [IdRight, nameId_digits hn]
      refine ⟨by omega, fun m => ⟨fun h => ?_, fun ⟨hm, h⟩ => ?_⟩⟩
      · obtain rfl : n = m := by omega
        exact ⟨hn, rfl⟩
      · have hv := congrArg Decimal.value h
        rw [Decimal.value_digits, Decimal.value_digits] at hv
        rw [hv]

/-- The names of objects and resources get the right ids if each of them gets its own. -/
theorem idsRight_iff {names : List Bytes}
    (hlength : ∀ name ∈ names, name.length ≤ maxAllowedStringLength) :
    IdsRight names ↔ ∀ name ∈ names, NoId name ∨ ∃ n ≤ 65535, name = Decimal.digits n := by
  constructor
  · intro h name hname
    exact (idRight_iff (hlength name hname)).mp (h.1 name hname)
  · intro h
    have hright : ∀ name ∈ names, IdRight name :=
      fun name hname => (idRight_iff (hlength name hname)).mpr (h name hname)
    refine ⟨hright, fun a ha b hb hne hnonneg heq => hne ?_⟩
    have hid := (Int.toNat_of_nonneg hnonneg).symm
    obtain ⟨-, hna⟩ := ((hright a ha).2 _).mp hid
    obtain ⟨-, hnb⟩ := ((hright b hb).2 _).mp (heq ▸ hid)
    rw [hna, hnb, heq]

theorem idsRight_numerals : IdsRight [[0x37], [0x31, 0x30]] := by
  refine (idsRight_iff (by decide)).mpr fun name hname => Or.inr ?_
  simp only [List.mem_cons, List.not_mem_nil, or_false] at hname
  obtain rfl | rfl := hname
  · exact ⟨7, by decide, by decide +kernel⟩
  · exact ⟨10, by decide, by decide +kernel⟩

/-- `"4294967303"` comes out as 7 and so has the id of `"7"`. -/
theorem cut_name_taken :
    ¬IdsRight [[0x37], [0x34, 0x32, 0x39, 0x34, 0x39, 0x36, 0x37, 0x33, 0x30, 0x33]] := by
  intro h
  exact h.2 _ List.mem_cons_self _ (List.mem_cons_of_mem _ List.mem_cons_self) (by decide)
    (by decide +kernel) (by decide +kernel)

end MbedClient
