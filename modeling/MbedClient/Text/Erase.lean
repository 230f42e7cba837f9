import MbedClient.Text.M2MString

/-! What `erase` takes out of a string. -/
namespace MbedClient.M2MString
variable {s : M2MString} {fresh : Nat → UInt8} {h : Heap} {pos len : UInt64}

/-- The string `t` is `s` without the `len` characters from `pos` on, or without all of them. On the
way there nothing is accessed behind the NUL of `s`. -/
structure ErasedTo (s : M2MString) (pos len : UInt64) (t : M2MString) : Prop where
  valid : t.Valid
  content : t.content = s.content.take pos.toNat ++ s.content.drop (pos.toNat + len.toNat)
  unchanged : len = 0 ∨ s.size ≤ pos → t = s
  within : MemoryBlock.Within (s.size.toNat + 1) s.p t.p

def ErasesRight (fresh : Nat → UInt8) (s : M2MString) (pos len : UInt64) (h : Heap) : Prop :=
  ∃ t k, s.erase fresh pos len h = some (t, k) ∧ s.ErasedTo pos len t

theorem erase_nothing (hs : s.Valid) (hnothing : len = 0 ∨ s.size ≤ pos) :
    ErasesRight fresh s pos len h := by
  obtain ⟨rest, -, hlen⟩ := hs.cells_eq
  obtain rfl | hle := hnothing
  · refine ⟨s, h, rfl, hs, ?_, fun _ => rfl, .refl _ _⟩
    exact (List.take_append_drop _ _).symm
  · have hsame : s.erase fresh pos len h = some (s, h) := by
      rw [erase, if_neg (UInt64.not_lt.mpr hle), ite_self]
    have hend : s.content.length ≤ pos.toNat := hlen ▸ UInt64.le_iff_toNat_le.mp hle
    refine ⟨s, h, hsame, hs, ?_, fun _ => rfl, .refl _ _⟩
    rw [List.take_of_length_le hend, List.drop_of_length_le (by omega), List.append_nil]

/-- A string that gets shorter keeps its memory. -/
theorem resize_shorter {p : MemoryBlock UInt8} (hallocated : p.cells.length = s.allocated.toNat)
    (hfits : s.size.toNat < s.allocated.toNat) {n : UInt64} (hn : n.toNat < s.size.toNat) :
    ∃ t, ({ s with p } : M2MString).resize fresh n h = some (t, h) ∧ t.Valid ∧
      t.content = p.cells.take n.toNat ∧ MemoryBlock.Within (s.size.toNat + 1) p t.p := by
  obtain ⟨q, hq, hvalid, hcontent, hwithin⟩ := exists_terminated hallocated (hn.trans hfits)
  have hresize : ({ s with p } : M2MString).resize fresh n h = some (⟨q, s.allocated, n⟩, h) := by
    rw [resize, resizeWith, if_pos (UInt64.lt_iff_toNat_lt.mpr hn)]
    exact Option.bind_eq_some_iff.mpr ⟨q, hq, rfl⟩
  exact ⟨_, hresize, hvalid, hcontent, hwithin.mono (by omega)⟩

theorem erase_eq (fresh : Nat → UInt8) (h : Heap) (hsome : len > 0) (hpos : pos < s.size) :
    s.erase fresh pos len h =
      (if s.size - pos - len > 0 then
        s.p.move pos.toNat (pos.toNat + len.toNat) (s.size - pos - len).toNat else some s.p).bind
          fun p => ({ s with p } : M2MString).resize fresh (pos + (s.size - pos - len)) h := by
  rw [erase, if_pos hsome, if_pos hpos]
  by_cases hmore : s.size - pos - len > 0
  · simp only [if_pos hmore]
    rfl
  · simp only [if_neg hmore]
    rfl

section Erasing
variable (hs : s.Valid) (hpos : pos < s.size)

theorem remain_toNat (hpos : pos < s.size) (hend : pos.toNat + len.toNat ≤ s.size.toNat) :
    (s.size - pos - len).toNat = s.size.toNat - (pos.toNat + len.toNat) := by
  have hsub := UInt64.toNat_sub_of_le _ _ (UInt64.le_of_lt hpos)
  have hle : len ≤ s.size - pos := UInt64.le_iff_toNat_le.mpr (by omega)
  rw [UInt64.toNat_sub_of_le _ _ hle, hsub, Nat.sub_sub]

include hs hpos

/-- The characters behind the ones that are erased, moved forward. -/
theorem erase_moves (hend : pos.toNat + len.toNat ≤ s.size.toNat) : ∃ p,
    (if s.size - pos - len > 0 then
      s.p.move pos.toNat (pos.toNat + len.toNat) (s.size - pos - len).toNat else some s.p) =
        some p ∧
      p.cells.length = s.allocated.toNat ∧
      p.cells.take (s.size.toNat - len.toNat) =
        s.content.take pos.toNat ++ s.content.drop (pos.toNat + len.toNat) ∧
      MemoryBlock.Within (s.size.toNat + 1) s.p p := by
  have hremain := remain_toNat hpos hend
  have hfits := hs.fits
  rw [← hs.allocated] at hfits ⊢
  have hhead : s.content.take pos.toNat = s.p.cells.take pos.toNat := by
    rw [content, List.take_take, min_eq_left (by omega)]
  have htail : s.content.drop (pos.toNat + len.toNat) =
      (s.p.cells.drop (pos.toNat + len.toNat)).take (s.size - pos - len).toNat := by
    rw [content, List.drop_take, hremain]
  rw [hhead, htail]
  by_cases hmore : s.size - pos - len > 0
  · rw [if_pos hmore]
    obtain ⟨p, hp⟩ : ∃ p, s.p.move pos.toNat (pos.toNat + len.toNat) (s.size - pos - len).toNat =
        some p := MemoryBlock.exists_move (by omega) (by omega)
    obtain ⟨-, -, hcells, hwithin⟩ := MemoryBlock.move_eq_some hp
    refine ⟨p, hp, MemoryBlock.length_move hp, ?_, hwithin _ (by omega) (by omega)⟩
    have hjoined : (s.p.cells.take pos.toNat ++
        (s.p.cells.drop (pos.toNat + len.toNat)).take (s.size - pos - len).toNat).length =
          s.size.toNat - len.toNat := by
      rw [List.length_append, List.length_take, List.length_take, List.length_drop]
      omega
    rw [hcells, ← hjoined, List.take_left]
  · have hnone : (s.size - pos - len).toNat = 0 := by
      rw [gt_iff_lt, UInt64.lt_iff_toNat_lt, UInt64.toNat_zero] at hmore
      omega
    have hup : s.size.toNat - len.toNat = pos.toNat := by omega
    refine ⟨s.p, if_neg hmore, rfl, ?_, .refl _ _⟩
    rw [hup, hnone, List.take_zero, List.append_nil]

theorem erase_within (hsome : len > 0) (hend : pos.toNat + len.toNat ≤ s.size.toNat) :
    ErasesRight fresh s pos len h := by
  obtain ⟨p, hp, hallocated, hcells, hwithin⟩ := erase_moves hs hpos hend
  have hremain := remain_toNat hpos hend
  have hlen := UInt64.lt_iff_toNat_lt.mp hsome
  rw [UInt64.toNat_zero] at hlen
  have hup : (pos + (s.size - pos - len)).toNat = s.size.toNat - len.toNat := by
    have hlt := s.size.toNat_lt
    rw [UInt64.toNat_add, hremain, Nat.mod_eq_of_lt (by omega)]
    omega
  have hless : (pos + (s.size - pos - len)).toNat < s.size.toNat := by omega
  obtain ⟨t, hresize, hvalid, hcontent, hwithin'⟩ := resize_shorter hallocated hs.fits hless
  refine ⟨t, h, ?_, hvalid, ?_, ?_, hwithin.trans hwithin'⟩
  · rw [erase_eq fresh h hsome hpos]
    exact Option.bind_eq_some_iff.mpr ⟨p, hp, hresize⟩
  · rw [hcontent, hup]
    exact hcells
  · intro hnothing
    obtain rfl | hle := hnothing
    · exact absurd hsome (UInt64.lt_irrefl 0)
    · exact absurd hpos (UInt64.not_lt.mpr hle)

/-- The difference wraps, and the memory ends before the characters that would be moved. -/
theorem erase_overrun (hend : s.size.toNat < pos.toNat + len.toNat) :
    s.erase fresh pos len h = none := by
  have hsub := UInt64.toNat_sub_of_le _ _ (UInt64.le_of_lt hpos)
  have hwrap : (s.size - pos - len).toNat = 2 ^ 64 + s.size.toNat - (pos.toNat + len.toNat) := by
    have hlt := UInt64.lt_iff_toNat_lt.mp hpos
    have hlen := len.toNat_lt
    rw [UInt64.toNat_sub, hsub]
    omega
  have hlt := s.allocated.toNat_lt
  have hlen := len.toNat_lt
  have hpos' := UInt64.lt_iff_toNat_lt.mp hpos
  have hsome : len > 0 := UInt64.lt_iff_toNat_lt.mpr (by rw [UInt64.toNat_zero]; omega)
  have hmore : s.size - pos - len > 0 :=
    UInt64.lt_iff_toNat_lt.mpr (by rw [hwrap, UInt64.toNat_zero]; omega)
  have hread : s.p.read (pos.toNat + len.toNat) (s.size - pos - len).toNat = none := by
    rw [MemoryBlock.read, if_neg]
    rw [hs.allocated, hwrap]
    omega
  rw [erase_eq fresh h hsome hpos, if_pos hmore, MemoryBlock.move, hread]
  rfl

end Erasing

/-- The characters that are erased must not go on behind the end of the string. -/
theorem erasesRight_iff (hs : s.Valid) (fresh : Nat → UInt8) (pos len : UInt64) (h : Heap) :
    ErasesRight fresh s pos len h ↔
      len = 0 ∨ s.size ≤ pos ∨ pos.toNat + len.toNat ≤ s.size.toNat := by
  constructor
  · intro ⟨t, k, herase, _⟩
    by_contra hnot
    obtain ⟨-, hpos, hend⟩ :
        ¬ len = 0 ∧ ¬ s.size ≤ pos ∧ ¬ pos.toNat + len.toNat ≤ s.size.toNat := by
      tauto
    rw [erase_overrun hs (UInt64.not_le.mp hpos) (Nat.not_le.mp hend)] at herase
    cases herase
  · intro hgood
    by_cases hnothing : len = 0 ∨ s.size ≤ pos
    · exact erase_nothing hs hnothing
    · obtain ⟨hsome, hpos⟩ := not_or.mp hnothing
      apply erase_within hs (UInt64.not_le.mp hpos)
      · exact UInt64.pos_iff_ne_zero.mpr hsome
      · tauto

/-- `"name"`, from its second character on. -/
theorem erase_to_end_fails :
    let s : M2MString := ⟨⟨[0x6e, 0x61, 0x6d, 0x65, 0], []⟩, 5, 4⟩
    s.Valid ∧ ¬ ErasesRight (fun _ => 0) s 1 10 (fun _ => true) := by
  refine ⟨⟨rfl, by decide, rfl⟩, ?_⟩
  intro ⟨t, k, herase, _⟩
  have hnone : M2MString.erase ⟨⟨[0x6e, 0x61, 0x6d, 0x65, 0], []⟩, 5, 4⟩ (fun _ => 0) 1 10
      (fun _ => true) = none := rfl
  rw [hnone] at herase
  cases herase

theorem erase_inner :
    let s : M2MString := ⟨⟨[0x6e, 0x61, 0x6d, 0x65, 0], []⟩, 5, 4⟩
    s.Valid ∧ ErasesRight (fun _ => 0) s 1 2 (fun _ => true) := by
  have hs : (M2MString.mk ⟨[0x6e, 0x61, 0x6d, 0x65, 0], []⟩ 5 4).Valid := ⟨rfl, by decide, rfl⟩
  exact ⟨hs, (erasesRight_iff hs _ _ _ _).mpr (.inr (.inr (by decide)))⟩

end MbedClient.M2MString
