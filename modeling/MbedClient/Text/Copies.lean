import MbedClient.Text.M2MString

/-! The two ways to copy a string: the copy constructor goes by the size, the assignment by the
first NUL. -/
namespace MbedClient.M2MString
variable {s : M2MString} {h h' : Heap}

/-- `t` has the size and all bytes of `s`, a NUL behind them, and room for them. -/
structure CopiedTo (s t : M2MString) : Prop where
  valid : t.Valid
  size : t.size = s.size
  content : t.content = s.content

def CopiesAgree (fresh : Nat → UInt8) (s : M2MString) (t : LeftSide) (h h' : Heap) : Prop :=
  (∃ u k, s.copyConstruct fresh h = some (u, k) ∧ s.CopiedTo u) ∧
    ∃ u k, s.assignTo fresh t h' = some (u, k) ∧ s.CopiedTo u

/-- A copy of memory that ends with a NUL. -/
theorem new_copy (fresh : Nat → UInt8) (text : Bytes) {size : UInt64}
    (hsize : text.length = size.toNat) (hlt : text.length + 1 < 2 ^ 64) :
    ∃ p, (MemoryBlock.new fresh (text.length + 1)).write 0 (text ++ [0]) = some p ∧
      (M2MString.mk p (size + 1) size).Valid ∧ (M2MString.mk p (size + 1) size).content = text := by
  have hlen : (text ++ [0]).length = text.length + 1 := by simp
  obtain ⟨p, hp, hcells⟩ := MemoryBlock.write_new fresh (text ++ [0])
  rw [hlen] at hp
  refine ⟨p, hp, valid_of_cells hcells ?_ hsize⟩
  rw [hcells, hlen, hsize, UInt64.toNat_add, UInt64.toNat_one, Nat.mod_eq_of_lt (by omega)]

/-- The content with its NUL. -/
theorem read_content (hs : s.Valid) : s.p.read 0 (s.size + 1).toNat =
    some (s.content ++ [0], { s.p with accesses := (0, (s.size + 1).toNat) :: s.p.accesses }) := by
  obtain ⟨rest, hcells, hlen⟩ := hs.cells_eq
  have hle : 0 + (s.size + 1).toNat ≤ s.p.cells.length := by
    rw [hcells, hs.size_succ, List.length_append, List.length_cons]
    omega
  have htake : (s.p.cells.drop 0).take (s.size + 1).toNat = s.content ++ [0] := by
    rw [List.drop_zero, hcells, hs.size_succ, ← hlen, List.take_length_add_append]
    rfl
  rw [MemoryBlock.read, if_pos hle, htake]

theorem copyConstruct_copies (hs : s.Valid) (fresh : Nat → UInt8) :
    (∃ u k, s.copyConstruct fresh h = some (u, k) ∧ s.CopiedTo u) ↔ h.malloc.1 = true := by
  obtain ⟨-, -, hlen⟩ := hs.cells_eq
  have hread := read_content hs
  have hsucc := hs.size_succ
  have hlt := (s.size + 1).toNat_lt
  obtain ⟨p, hp, hvalid, hcontent⟩ := new_copy fresh s.content hlen (by omega)
  rw [hlen, ← hsucc] at hp
  cases hm : h.malloc.1 with
  | false => simp [copyConstruct, hm]
  | true =>
    have hcopy : s.copyConstruct fresh h = some (⟨p, s.size + 1, s.size⟩, h.malloc.2) := by
      simp only [copyConstruct, hm, hread, hp, Option.bind_eq_bind, Option.bind_some, if_true]
    exact iff_of_true ⟨_, _, hcopy, hvalid, rfl, hcontent⟩ rfl

/-- The assignment of a C string makes a string of its characters. -/
theorem assign_text (t : M2MString) (fresh : Nat → UInt8) {text : Bytes} (rest : Bytes)
    (htext : 0 ∉ text)
    (hlt : text.length + 1 < 2 ^ 64) (hm : h.malloc.1 = true) :
    ∃ u, t.assign fresh (.other (text ++ 0 :: rest)) h = some (u, h.malloc.2) ∧ u.Valid ∧
      u.size = UInt64.ofNat text.length ∧ u.content = text := by
  have hof : text.length = (UInt64.ofNat text.length).toNat :=
    (UInt64.toNat_ofNat_of_lt' (Nat.lt_of_succ_lt hlt)).symm
  obtain ⟨p, hp, hvalid, hcontent⟩ := new_copy fresh text hof hlt
  have htake : (text ++ 0 :: rest).take (text.length + 1) = text ++ [0] := by
    rw [List.take_length_add_append]
    rfl
  refine ⟨_, ?_, hvalid, rfl, hcontent⟩
  simp [assign, pointedTo, strlen_append htext, hm, htake, hp]

theorem assign_unless (t : M2MString) (fresh : Nat → UInt8) {memory : Bytes}
    (hm : h.malloc.1 = false) :
    t.assign fresh (.other memory) h = none := by
  cases hlen : strlen memory with
  | none => simp [assign, pointedTo, hlen]
  | some len => simp [assign, pointedTo, hlen, hm]

/-- A string without a NUL is all that a scan of its memory finds. -/
theorem takeWhile_cells (hs : s.Valid) (h : 0 ∉ s.content) :
    s.p.cells.takeWhile (· != 0) = s.content := by
  obtain ⟨rest, hcells, -⟩ := hs.cells_eq
  have hne : ∀ c ∈ s.content, (c != 0) = true := by
    intro c hc
    exact bne_iff_ne.mpr fun hzero => h (hzero ▸ hc)
  rw [hcells, List.takeWhile_append_of_pos hne, List.takeWhile_cons_of_neg (by simp),
    List.append_nil]

theorem assignTo_copies (hs : s.Valid) (fresh : Nat → UInt8) (t : LeftSide) :
    (∃ u k, s.assignTo fresh t h = some (u, k) ∧ s.CopiedTo u) ↔
      t = .itself ∨ h.malloc.1 = true ∧ 0 ∉ s.content := by
  cases t with
  | itself => exact iff_of_true ⟨s, h, rfl, hs, rfl, rfl⟩ (.inl rfl)
  | other t =>
    cases hm : h.malloc.1 with
    | false => simp [assignTo, assign_unless t fresh hm]
    | true =>
      obtain ⟨rest, hcells, hlen⟩ := hs.cells_eq
      have hnul : 0 ∈ s.p.cells := hcells ▸ List.mem_append_right _ List.mem_cons_self
      obtain ⟨rest', hsplit⟩ := exists_text hnul
      have hshort : (s.p.cells.takeWhile (· != 0)).length + 1 < 2 ^ 64 := by
        have hfull := congrArg List.length hsplit
        rw [hs.allocated, List.length_append, List.length_cons] at hfull
        have hlt := s.allocated.toNat_lt
        omega
      obtain ⟨u, hu, hvalid, hsize, hcontent⟩ :=
        assign_text t fresh rest' (notMem_takeWhile s.p.cells) hshort hm
      rw [← hsplit] at hu
      constructor
      · intro ⟨v, k, hv, hcopied⟩
        obtain ⟨rfl, -⟩ := Prod.mk.inj (Option.some.inj (hu.symm.trans hv))
        rw [← hcopied.content, hcontent]
        exact .inr ⟨rfl, notMem_takeWhile _⟩
      · intro hclean
        obtain hitself | ⟨-, hclean⟩ := hclean
        · cases hitself
        · rw [takeWhile_cells hs hclean] at hsize hcontent
          refine ⟨u, _, hu, hvalid, ?_, hcontent⟩
          rw [hsize, hlen, UInt64.ofNat_toNat]

section Values

/-- There is room for `n` characters and a NUL, and the content is where it was. -/
theorem reserve_room (hs : s.Valid) (fresh : Nat → UInt8) {n : UInt64} (hsize : s.size ≤ n)
    (hn : n.toNat + 1 < 2 ^ 64) (hm : h.malloc.1 = true) : ∃ u k, s.reserve fresh n h = (u, k) ∧
      u.Valid ∧ n.toNat < u.allocated.toNat ∧ u.size = s.size ∧ u.content = s.content := by
  have hsucc : (n + 1).toNat = n.toNat + 1 := by
    rw [UInt64.toNat_add, UInt64.toNat_one, Nat.mod_eq_of_lt hn]
  have hle := UInt64.le_iff_toNat_le.mp hsize
  have hfits := hs.fits
  by_cases hge : n ≥ s.allocated
  · have hpos : n + 1 > 0 := UInt64.lt_iff_toNat_lt.mpr (by rw [hsucc]; exact Nat.succ_pos _)
    have hreserve : s.reserve fresh n h =
        ({ s with p := s.p.realloc fresh (n + 1).toNat, allocated := n + 1 }, h.malloc.2) := by
      simp only [reserve, newRealloc, if_pos hge, if_pos hpos, hm, if_true]
    have hkept {k : Nat} (hk : k ≤ s.size.toNat + 1) :
        (s.p.realloc fresh (n + 1).toNat).cells.take k = s.p.cells.take k := by
      apply MemoryBlock.take_realloc
      · omega
      · rw [hs.allocated]
        omega
    have hnul : (s.p.realloc fresh (n + 1).toNat).cells[s.size.toNat]? = some 0 := by
      rw [← List.getElem?_take_of_lt (Nat.lt_succ_self _), hkept le_rfl,
        List.getElem?_take_of_lt (Nat.lt_succ_self _)]
      exact hs.terminated
    refine ⟨_, _, hreserve, ⟨MemoryBlock.length_realloc _ _ _, ?_, hnul⟩, ?_, rfl,
      hkept (Nat.le_succ _)⟩
    · exact hsucc ▸ Nat.lt_succ_of_le hle
    · exact hsucc ▸ Nat.lt_succ_self _
  · have hreserve : s.reserve fresh n h = (s, h) := if_neg hge
    exact ⟨_, _, hreserve, hs, UInt64.lt_iff_toNat_lt.mp (UInt64.not_le.mp hge), rfl, rfl⟩

/-- Where there is room for a longer content, it can be written: with its NUL at once, or first
without it. -/
theorem reserve_behind (hs : s.Valid) (fresh : Nat → UInt8) {data : Bytes} {newlen : UInt64}
    (hnew : newlen.toNat = s.size.toNat + data.length) (hlt : newlen.toNat + 1 < 2 ^ 64)
    (hm : h.malloc.1 = true) : ∃ u k, s.reserve fresh newlen h = (u, k) ∧ u.size = s.size ∧
      u.Valid ∧ u.content = s.content ∧ (∃ p, u.p.write s.size.toNat (data ++ [0]) = some p ∧
        (M2MString.mk p u.allocated newlen).Valid ∧
        (M2MString.mk p u.allocated newlen).content = s.content ++ data) ∧
      ∃ p q, u.p.write s.size.toNat data = some p ∧ p.write newlen.toNat [0] = some q ∧
        (M2MString.mk q u.allocated newlen).Valid ∧
        (M2MString.mk q u.allocated newlen).content = s.content ++ data := by
  have hle : s.size ≤ newlen := UInt64.le_iff_toNat_le.mpr (hnew ▸ Nat.le_add_right _ _)
  obtain ⟨u, k, hreserve, hvalid, hfits, hsize, hcontent⟩ := reserve_room hs fresh hle hlt hm
  have hroom : s.size.toNat + data.length < u.p.cells.length := by
    rw [hvalid.allocated, ← hnew]
    exact hfits
  have hjoined : (s.content ++ data).length = newlen.toNat := by
    obtain ⟨-, -, hlen⟩ := hs.cells_eq
    rw [List.length_append, hlen, hnew]
  have hcells : u.p.cells.take s.size.toNat = s.content := by
    rw [← hcontent, content, hsize]
  obtain ⟨p, rest, hp, hpcells, hplen⟩ := MemoryBlock.exists_write_ended 0 hroom
  obtain ⟨p', q, rest', hp', hq, hqcells, hqlen⟩ := MemoryBlock.exists_write_marked 0 hroom
  rw [hcells] at hpcells hqcells
  rw [← hnew] at hq
  have hallocated := hvalid.allocated
  exact ⟨u, k, hreserve, hsize, hvalid, hcontent,
    ⟨p, hp, valid_of_cells hpcells (hplen.trans hallocated) hjoined⟩,
    p', q, hp', hq, valid_of_cells hqcells (hqlen.trans hallocated) hjoined⟩

/-- Any bytes can be appended. -/
theorem appendRaw_content (hs : s.Valid) (fresh : Nat → UInt8) {str : MemoryBlock UInt8}
    {n : UInt64}
    (hstr : n.toNat ≤ str.cells.length) (hroom : s.size.toNat + n.toNat + 1 < 2 ^ 64)
    (hm : h.malloc.1 = true) : ∃ u k, s.appendRaw fresh (some str) n h = some (u, k) ∧ u.Valid ∧
      u.content = s.content ++ str.cells.take n.toNat := by
  by_cases hpos : n > 0
  · have hlen : (str.cells.take n.toNat).length = n.toNat := List.length_take_of_le hstr
    have hnew : (s.size + n).toNat = s.size.toNat + (str.cells.take n.toNat).length := by
      rw [UInt64.toNat_add, hlen, Nat.mod_eq_of_lt (Nat.lt_of_succ_lt hroom)]
    obtain ⟨u, k, hreserve, hsize, -, -, -, p, q, hp, hq, hvalid⟩ :=
      reserve_behind hs fresh hnew (by rwa [hnew, hlen]) hm
    have hread : str.read 0 n.toNat = some (str.cells.take n.toNat,
        { str with accesses := (0, n.toNat) :: str.accesses }) := by
      rw [MemoryBlock.read, if_pos (by omega), List.drop_zero]
    refine ⟨⟨q, u.allocated, s.size + n⟩, k, ?_, hvalid⟩
    simp only [appendRaw, if_pos hpos, hreserve, hsize, hread, hp, hq, Option.bind_eq_bind,
      Option.bind_some]
  · have hzero : n.toNat = 0 := by
      rw [gt_iff_lt, UInt64.lt_iff_toNat_lt] at hpos
      simpa using hpos
    refine ⟨s, h, if_neg hpos, hs, ?_⟩
    rw [hzero, List.take_zero, List.append_nil]

theorem empty_content (fresh : Nat → UInt8) (hm : h.malloc.1 = true) :
    ∃ u, empty fresh h = some (u, h.malloc.2) ∧ u.Valid ∧ u.content = [] := by
  obtain ⟨p, hp, hcells⟩ := MemoryBlock.write_new fresh [0]
  refine ⟨⟨p, 1, 0⟩, ?_, valid_of_cells hcells (congrArg List.length hcells) rfl⟩
  simp only [empty, hm, if_true]
  exact Option.bind_eq_some_iff.mpr ⟨p, hp, rfl⟩

/-- `get_value_string`, for the memory of a value and its length -/
def getValueString (fresh : Nat → UInt8) (value : Option (MemoryBlock UInt8)) (len : UInt64)
    (h : Heap) : Option (M2MString × Heap) := do
  let (s, h) ← empty fresh h
  s.appendRaw fresh value len h

end Values

/-- A copy of a valid string is a copy both times unless a NUL stops the assignment. -/
theorem copiesAgree_iff (hs : s.Valid) (fresh : Nat → UInt8) (t : LeftSide) (h h' : Heap) :
    CopiesAgree fresh s t h h' ↔
      h.malloc.1 = true ∧ (t = .itself ∨ h'.malloc.1 = true ∧ 0 ∉ s.content) :=
  and_congr (copyConstruct_copies hs fresh) (assignTo_copies hs fresh t)

/-- The value `a`, NUL, `b` loses its last two bytes. -/
theorem value_cut : ∃ s k,
    getValueString (fun _ => 0) (some ⟨[0x61, 0, 0x62], []⟩) 3 (fun _ => true) = some (s, k) ∧
      s.Valid ∧ ¬ CopiesAgree (fun _ => 0) s (.other s) (fun _ => true) (fun _ => true) := by
  refine ⟨_, _, rfl, ⟨rfl, by decide, rfl⟩, ?_⟩
  intro ⟨_, u, k, hassign, hcopied⟩
  cases hassign
  cases hcopied.size

theorem copiesAgree_ab :
    let s : M2MString := ⟨⟨[0x61, 0x62, 0], []⟩, 3, 2⟩
    s.Valid ∧ CopiesAgree (fun _ => 0) s (.other s) (fun _ => true) (fun _ => true) := by
  have hs : (M2MString.mk ⟨[0x61, 0x62, 0], []⟩ 3 2).Valid := ⟨rfl, by decide, rfl⟩
  exact ⟨hs, (copiesAgree_iff hs _ _ _ _).mpr ⟨rfl, .inr ⟨rfl, by decide⟩⟩⟩

end MbedClient.M2MString
