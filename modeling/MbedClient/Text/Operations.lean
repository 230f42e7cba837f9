import MbedClient.Text.Copies

/-! The methods of `m2m::String` that construct, extend and cut a string, each with what it makes of
the content. -/
namespace MbedClient

/-- The right side of `s += t`: the string `s` itself, or another one. -/
inductive RightSide where
  | itself
  | other (t : M2MString)

def allGranted : Heap := fun _ => true

namespace M2MString
variable (s : M2MString) (fresh : Nat → UInt8)

/-- `String(const char* s)`, by way of `strdup` -/
def ofChars (memory : Bytes) (h : Heap) : Option (M2MString × Heap) := do
  let len ← strlen memory
  let (granted, h) := h.malloc
  if granted then
    let p ← (MemoryBlock.new fresh (len + 1)).write 0 (memory.take (len + 1))
    some (⟨p, UInt64.ofNat (len + 1), UInt64.ofNat len⟩, h)
  else none

/-- `String(const char* str, size_t n)` -/
def ofBytes (str : MemoryBlock UInt8) (n : UInt64) (h : Heap) : Option (M2MString × Heap) := do
  let (granted, h) := h.malloc
  if granted then
    let (data, _) ← str.read 0 n.toNat
    let p ← (MemoryBlock.new fresh (n + 1).toNat).write 0 data
    let p ← p.write n.toNat [0]
    some (⟨p, n + 1, n⟩, h)
  else none

/-- `operator+=(const String& s)` -/
def addString (right : RightSide) (h : Heap) : Option (M2MString × Heap) :=
  match right with
  | .itself =>
    if s.size > 0 then do
      let (s, h) := s.reserve fresh (s.size + s.size) h
      let p ← s.p.move s.size.toNat 0 (s.size + 1).toNat
      some ({ s with p, size := s.size + s.size }, h)
    else some (s, h)
  | .other t =>
    if t.size > 0 then do
      let (s, h) := s.reserve fresh (s.size + t.size) h
      let (data, _) ← t.p.read 0 (t.size + 1).toNat
      let p ← s.p.write s.size.toNat data
      some ({ s with p, size := s.size + t.size }, h)
    else some (s, h)

/-- `operator+=(const char* s)`, where the characters may be the string's own -/
def addChars (source : CharPointer) (h : Heap) : Option (M2MString × Heap) := do
  let lens ← strlen (s.pointedTo source)
  if lens > 0 then
    let data := (s.pointedTo source).take (lens + 1)
    let size := s.size + UInt64.ofNat lens
    if size + 1 ≤ s.allocated then
      let p ← s.p.write s.size.toNat data
      some ({ s with p, size }, h)
    else
      let (s2, h) ← s.copyConstruct fresh h
      let (s2, h) := s2.reserve fresh size h
      let p ← s2.p.write s.size.toNat data
      -- `swap`: the old memory goes away with the copy
      some ({ s2 with p, size }, h)
  else some (s, h)

/-- By how much `push_back` extends the memory: factor 1.5. -/
def more : UInt64 :=
  let more := s.allocated * 3 / 2
  if more < 4 then 4 else more

def pushBack (c : UInt8) (h : Heap) : Option (M2MString × Heap) := do
  let (s, h) := if s.size = s.allocated - 1 then s.reserve fresh (s.size + s.more) h else (s, h)
  let p ← s.p.write s.size.toNat [c]
  let size := s.size + 1
  let p ← p.write size.toNat [0]
  some ({ s with p, size }, h)

/-- `operator+=(const char c)` -/
def addChar (c : UInt8) (h : Heap) : Option (M2MString × Heap) := s.pushBack fresh c h

/-- `append`, with characters that are not its own -/
def append (str : Option CharArray) (n : UInt64) (h : Heap) : Option (M2MString × Heap) :=
  match str with
  | some str =>
    if n > 0 then do
      let lens ← strlen str.memory
      let n := if n > UInt64.ofNat lens then UInt64.ofNat lens else n
      let newlen := s.size + n
      let (s, h) := s.reserve fresh newlen h
      let p ← s.p.write s.size.toNat (str.memory.take n.toNat)
      let p ← p.write newlen.toNat [0]
      some ({ s with p, size := newlen }, h)
    else some (s, h)
  | none => some (s, h)

def clear : Option M2MString := do
  let p ← s.p.write 0 [0]
  some { s with p, size := 0 }

def substr (pos length : UInt64) (h : Heap) : Option (M2MString × Heap) := do
  let (t, h) ← empty fresh h
  if pos ≤ s.size then
    let remain := s.size - pos
    let length := if length > remain then remain else length
    let (t, h) := t.reserve fresh length h
    let (data, _) ← s.p.read pos.toNat length.toNat
    let p ← t.p.write 0 data
    let p ← p.write length.toNat [0]
    some ({ t with p, size := length }, h)
  else some (t, h)

variable {s}

def Yields (result : Option (M2MString × Heap)) (text : Bytes) : Prop :=
  ∃ t k, result = some (t, k) ∧ t.Valid ∧ t.content = text

section Blocks
variable {h : Heap}

theorem length_lt (hs : s.Valid) : s.p.cells.length < 2 ^ 64 := hs.allocated ▸ s.allocated.toNat_lt

theorem newRealloc_short (hs : s.Valid) (fresh : Nat → UInt8) (n : UInt64) (h : Heap) :
    (s.newRealloc fresh n h).1.p.cells.length < 2 ^ 64 ∧ (s.newRealloc fresh n h).1.size =
      s.size := by
  rw [newRealloc]
  split_ifs
  · cases hm : h.malloc.1 with
    | true =>
      simp only [hm, if_true]
      exact ⟨(MemoryBlock.length_realloc s.p fresh n.toNat).symm ▸ n.toNat_lt, trivial⟩
    | false =>
      simp only [hm, Bool.false_eq_true, if_false]
      exact ⟨length_lt hs, trivial⟩
  · exact ⟨length_lt hs, rfl⟩

/-- Whatever is asked for, what is there is shorter than what a size can say. -/
theorem reserve_short (hs : s.Valid) (fresh : Nat → UInt8) (n : UInt64) (h : Heap) :
    (s.reserve fresh n h).1.p.cells.length < 2 ^ 64 ∧ (s.reserve fresh n h).1.size = s.size := by
  rw [reserve]
  split_ifs
  · exact newRealloc_short hs fresh (n + 1) h
  · exact ⟨length_lt hs, rfl⟩

/-- A write that would need a longer block. -/
theorem write_far {p : MemoryBlock UInt8} {start : Nat} {data : Bytes}
    (hp : p.cells.length < 2 ^ 64)
    (hfar : 2 ^ 64 ≤ start + data.length) : p.write start data = none :=
  if_neg (by omega)

end Blocks

/-- A length that is cut to what is there. -/
theorem cut_toNat (n most : UInt64) :
    (if n > most then most else n).toNat = min n.toNat most.toNat := by
  split_ifs with hlong
  · exact (Nat.min_eq_right (UInt64.lt_iff_toNat_lt.mp hlong).le).symm
  · exact (Nat.min_eq_left (UInt64.le_iff_toNat_le.mp (UInt64.not_lt.mp hlong))).symm

section Constructors

theorem empty_yields (fresh : Nat → UInt8) : Yields (empty fresh allGranted) [] := by
  obtain ⟨t, ht, hvalid⟩ := empty_content (h := allGranted) fresh rfl
  exact ⟨t, _, ht, hvalid⟩

/-- Memory with a NUL, and the text in it. -/
theorem assign_yields (t : M2MString) (fresh : Nat → UInt8) {memory : Bytes} (hnul : 0 ∈ memory)
    (hlt : memory.length < 2 ^ 64) :
    Yields (t.assign fresh (.other memory) allGranted) (memory.takeWhile (· != 0)) := by
  obtain ⟨rest, hrest⟩ := exists_text hnul
  obtain ⟨-, -, hle⟩ := cString_spec hnul
  obtain ⟨u, hu, hvalid, -, hcontent⟩ := assign_text (h := allGranted) t fresh rest
    (notMem_takeWhile memory) (hle.trans_lt hlt) rfl
  rw [← hrest] at hu
  exact ⟨u, _, hu, hvalid, hcontent⟩

/-- The constructor does what the assignment does. -/
theorem ofChars_yields (fresh : Nat → UInt8) {memory : Bytes} (hnul : 0 ∈ memory)
    (hlt : memory.length < 2 ^ 64) :
    Yields (ofChars fresh memory allGranted) (memory.takeWhile (· != 0)) :=
  assign_yields ⟨⟨[], []⟩, 0, 0⟩ fresh hnul hlt

theorem ofBytes_yields_iff (fresh : Nat → UInt8) {str : MemoryBlock UInt8} {n : UInt64}
    (hstr : n.toNat ≤ str.cells.length) :
    Yields (ofBytes fresh str n allGranted) (str.cells.take n.toNat) ↔ n + 1 ≠ 0 := by
  have hlen : (str.cells.take n.toNat).length = n.toNat := List.length_take_of_le hstr
  have hread : str.read 0 n.toNat = some (str.cells.take n.toNat,
      { str with accesses := (0, n.toNat) :: str.accesses }) := by
    rw [MemoryBlock.read, if_pos (by omega), List.drop_zero]
  have hm : allGranted.malloc = (true, allGranted) := rfl
  constructor
  · intro hyields hwrap
    obtain ⟨t, k, ht, -⟩ := hyields
    rw [← UInt64.toNat_inj, UInt64.toNat_add, UInt64.toNat_one, UInt64.toNat_zero] at hwrap
    have hwrite : (MemoryBlock.new fresh (n + 1).toNat).write 0 (str.cells.take n.toNat) =
        none := by
      rw [MemoryBlock.write, if_neg]
      rw [MemoryBlock.length_new, UInt64.toNat_add, UInt64.toNat_one, hlen]
      omega
    simp only [ofBytes, hm, hread, hwrite, if_true, Option.bind_eq_bind, Option.bind_some,
      Option.bind_none, reduceCtorEq] at ht
  · intro hne
    have hsucc : (n + 1).toNat = n.toNat + 1 := by
      have hlt := n.toNat_lt
      rw [Ne, ← UInt64.toNat_inj, UInt64.toNat_add, UInt64.toNat_one, UInt64.toNat_zero] at hne
      rw [UInt64.toNat_add, UInt64.toNat_one]
      omega
    have hnew := MemoryBlock.length_new fresh (n + 1).toNat
    have hroom : 0 + (str.cells.take n.toNat).length <
        (MemoryBlock.new fresh (n + 1).toNat).cells.length := by
      omega
    obtain ⟨p, q, rest, hp, hq, hcells, hqlen⟩ := MemoryBlock.exists_write_marked 0 hroom
    rw [hlen, Nat.zero_add] at hq
    refine ⟨⟨q, n + 1, n⟩, allGranted, ?_, valid_of_cells hcells (hqlen.trans hnew) hlen⟩
    simp only [ofBytes, hm, hread, hp, hq, if_true, Option.bind_eq_bind, Option.bind_some]

theorem copyConstruct_granted (hs : s.Valid) (fresh : Nat → UInt8) :
    ∃ u, s.copyConstruct fresh allGranted = some (u, allGranted) ∧ s.CopiedTo u := by
  obtain ⟨u, k, hu, hcopied⟩ := (copyConstruct_copies (h := allGranted) hs fresh).mpr rfl
  refine ⟨u, ?_, hcopied⟩
  have hm : allGranted.malloc = (true, allGranted) := rfl
  simp only [copyConstruct, hm, if_true, Option.bind_eq_bind] at hu ⊢
  obtain ⟨data, hdata, hrest⟩ := Option.bind_eq_some_iff.mp hu
  obtain ⟨p, hp, hend⟩ := Option.bind_eq_some_iff.mp hrest
  cases hend
  exact hu

theorem copyConstruct_yields (hs : s.Valid) (fresh : Nat → UInt8) :
    Yields (s.copyConstruct fresh allGranted) s.content := by
  obtain ⟨u, hu, hcopied⟩ := copyConstruct_granted hs fresh
  exact ⟨u, allGranted, hu, hcopied.valid, hcopied.content⟩

theorem substr_yields (hs : s.Valid) (fresh : Nat → UInt8) (pos length : UInt64) :
    Yields (s.substr fresh pos length allGranted)
      ((s.content.drop pos.toNat).take length.toNat) := by
  obtain ⟨t, ht, htvalid, hnil⟩ := empty_content (h := allGranted) fresh rfl
  have hm : allGranted.malloc.2 = allGranted := rfl
  rw [hm] at ht
  obtain ⟨-, -, hlen⟩ := hs.cells_eq
  by_cases hpos : pos ≤ s.size
  · have hsub := UInt64.toNat_sub_of_le _ _ hpos
    generalize hn : (if length > s.size - pos then s.size - pos else length) = n
    have hnat : n.toNat = min length.toNat (s.size.toNat - pos.toNat) := by
      rw [← hn, ← hsub]
      exact cut_toNat _ _
    have htext :
        (s.content.drop pos.toNat).take length.toNat = (s.p.cells.drop pos.toNat).take n.toNat := by
      rw [content, List.drop_take, List.take_take, hnat]
    have hfits := hs.fits
    have hle := UInt64.le_iff_toNat_le.mp hpos
    have hread : pos.toNat + n.toNat ≤ s.p.cells.length := by
      rw [hs.allocated]
      omega
    have hdata : ((s.p.cells.drop pos.toNat).take n.toNat).length = n.toNat := by
      rw [List.length_take, List.length_drop]
      omega
    obtain ⟨-, -, htlen⟩ := htvalid.cells_eq
    rw [hnil, List.length_nil] at htlen
    have hlt := s.allocated.toNat_lt
    have hnew :
      n.toNat = t.size.toNat + ((s.p.cells.drop pos.toNat).take n.toNat).length := by omega
    obtain ⟨u, k, hreserve, hsize, -, -, -, p, q, hp, hq, hvalid, hcontent⟩ :=
      reserve_behind (h := allGranted) htvalid fresh hnew (by omega) rfl
    rw [← htlen] at hp
    rw [hnil, List.nil_append] at hcontent
    refine ⟨⟨q, u.allocated, n⟩, k, ?_, hvalid, hcontent.trans htext.symm⟩
    simp only [substr, ht, if_pos hpos, hn, hreserve, MemoryBlock.read, if_pos hread, hp, hq,
      Option.bind_eq_bind, Option.bind_some]
  · refine ⟨t, allGranted, ?_, htvalid, ?_⟩
    · simp only [substr, ht, if_neg hpos, Option.bind_eq_bind, Option.bind_some]
    · have hend : s.content.length ≤ pos.toNat :=
        hlen ▸ (UInt64.lt_iff_toNat_lt.mp (UInt64.not_le.mp hpos)).le
      rw [hnil, List.drop_of_length_le hend, List.take_nil]

end Constructors

section Assignments

/-- What a pointer may point to for a C string: a character of the string or its NUL, or memory with
a NUL. -/
def Pointed (s : M2MString) : CharPointer → Prop
  | .own offset => offset ≤ s.size.toNat
  | .other memory => 0 ∈ memory ∧ memory.length < 2 ^ 64

/-- The C string that a pointer points to, if the string's own content is `text`. -/
def charsAt (text : Bytes) : CharPointer → Bytes
  | .own offset => (text.drop offset).takeWhile (· != 0)
  | .other memory => memory.takeWhile (· != 0)

theorem pointed_spec (hs : s.Valid) {source : CharPointer} (h : s.Pointed source) :
    0 ∈ s.pointedTo source ∧ (s.pointedTo source).length < 2 ^ 64 ∧
      (s.pointedTo source).takeWhile (· != 0) = charsAt s.content source := by
  cases source with
  | own offset =>
    obtain ⟨rest, hcells, hlen⟩ := hs.cells_eq
    have hle : offset ≤ s.content.length := hlen ▸ h
    have hdrop : s.p.cells.drop offset = s.content.drop offset ++ 0 :: rest := by
      rw [hcells, List.drop_append_of_le_length hle]
    refine ⟨?_, ?_, ?_⟩
    · rw [pointedTo, hdrop]
      exact List.mem_append_right _ List.mem_cons_self
    · rw [pointedTo, List.length_drop]
      exact (Nat.sub_le _ _).trans_lt (length_lt hs)
    · rw [pointedTo, charsAt, hdrop, List.takeWhile_append]
      split_ifs with hall
      · rw [List.takeWhile_cons_of_neg (by simp), List.append_nil]
        exact (List.IsPrefix.eq_of_length (List.takeWhile_prefix _) hall).symm
      · rfl
  | other memory => exact ⟨h.1, h.2, rfl⟩

theorem takeWhile_eq_self {text : Bytes} : text.takeWhile (· != 0) = text ↔ 0 ∉ text := by
  constructor
  · intro h
    rw [← h]
    exact notMem_takeWhile text
  · intro h
    rw [List.takeWhile_eq_self_iff]
    intro c hc
    exact bne_iff_ne.mpr fun hzero => h (hzero ▸ hc)

/-- A string that is assigned its own characters stays as it is. -/
theorem assign_yields_iff (hs : s.Valid) (fresh : Nat → UInt8) {source : CharPointer}
    (h : s.Pointed source) :
    Yields (s.assign fresh source allGranted) (charsAt s.content source) ↔
      (source = .own 0 → 0 ∉ s.content) := by
  obtain ⟨hnul, hlt, htext⟩ := pointed_spec hs h
  have hother := assign_yields s fresh hnul hlt
  rw [htext] at hother
  cases source with
  | own offset =>
    cases offset with
    | zero =>
      constructor
      · intro ⟨t, k, ht, _, hcontent⟩ _
        cases ht
        exact takeWhile_eq_self.mp hcontent.symm
      · intro hclean
        exact ⟨s, allGranted, rfl, hs, (takeWhile_eq_self.mpr (hclean rfl)).symm⟩
    | succ offset => exact iff_of_true hother fun hc => by cases hc
  | other memory => exact iff_of_true hother fun hc => by cases hc

theorem assignTo_yields_iff (hs : s.Valid) (fresh : Nat → UInt8) (t : LeftSide) :
    Yields (s.assignTo fresh t allGranted) s.content ↔ t = .itself ∨ 0 ∉ s.content := by
  have hcopied {u : M2MString} : s.CopiedTo u ↔ u.Valid ∧ u.content = s.content := by
    refine ⟨fun h => ⟨h.valid, h.content⟩, ?_⟩
    intro ⟨hu, hcontent⟩
    refine ⟨hu, ?_, hcontent⟩
    obtain ⟨-, -, hlen⟩ := hs.cells_eq
    obtain ⟨-, -, hulen⟩ := hu.cells_eq
    rw [← UInt64.toNat_inj, ← hulen, ← hlen, hcontent]
  have hcopies := assignTo_copies (h := allGranted) hs fresh t
  simp only [hcopied] at hcopies
  exact hcopies.trans (or_congr_right (and_iff_right rfl))

end Assignments

section Extensions

/-- A content that is longer by `n` characters has a size, and so has its memory. -/
def Room (s : M2MString) (n : Nat) : Prop := s.size.toNat + n + 1 < 2 ^ 64

theorem toNat_add_of_room {n : UInt64} (h : s.Room n.toNat) :
    (s.size + n).toNat = s.size.toNat + n.toNat := by
  rw [UInt64.toNat_add]
  exact Nat.mod_eq_of_lt (Nat.lt_of_succ_lt h)

/-- Without room, whatever was reserved, either the bytes or the NUL behind them would go too
far. -/
theorem reserved_far (hs : s.Valid) (fresh : Nat → UInt8) {data : Bytes} {newlen : UInt64}
    (hnew : newlen.toNat = (s.size.toNat + data.length) % 2 ^ 64) (hfar : ¬ s.Room data.length) :
    (s.reserve fresh newlen allGranted).1.size = s.size ∧
      (((s.reserve fresh newlen allGranted).1.p.write s.size.toNat data).bind fun q =>
        q.write newlen.toNat [0]) = none := by
  obtain ⟨hshort, hsize⟩ := reserve_short hs fresh newlen allGranted
  refine ⟨hsize, ?_⟩
  cases hq : (s.reserve fresh newlen allGranted).1.p.write s.size.toNat data with
  | none => rfl
  | some q =>
    obtain ⟨hroom, -, -⟩ := MemoryBlock.write_eq_some hq
    have hlen := MemoryBlock.length_write hq
    rw [Room] at hfar
    refine write_far (hlen ▸ hshort) ?_
    rw [hnew, List.length_singleton]
    omega

theorem room_zero (hs : s.Valid) : s.Room 0 := by
  have hlt := s.allocated.toNat_lt
  have hfits := hs.fits
  rw [Room]
  omega

/-- An empty string has nothing to add, and needs no room. -/
theorem nothing_added (hs : s.Valid) {t : M2MString} (ht : t.Valid) (hpos : ¬ t.size > 0) :
    t.content = [] ∧ s.Room t.size.toNat := by
  obtain ⟨-, -, hlen⟩ := ht.cells_eq
  have hzero : t.size.toNat = 0 := by
    rw [gt_iff_lt, UInt64.lt_iff_toNat_lt, UInt64.toNat_zero] at hpos
    omega
  exact ⟨List.eq_nil_of_length_eq_zero (hlen.trans hzero), hzero ▸ room_zero hs⟩

theorem addString_yields_iff (hs : s.Valid) (fresh : Nat → UInt8) {t : M2MString} (ht : t.Valid) :
    Yields (s.addString fresh (.other t) allGranted) (s.content ++ t.content) ↔
      s.Room t.size.toNat := by
  obtain ⟨-, -, hlen⟩ := ht.cells_eq
  have hread := read_content ht
  by_cases hpos : t.size > 0
  · constructor
    · intro ⟨u, k, hu, _⟩
      by_contra hfar
      obtain ⟨hshort, hsize⟩ := reserve_short hs fresh (s.size + t.size) allGranted
      have hwrite : (s.reserve fresh (s.size + t.size) allGranted).1.p.write
          (s.reserve fresh (s.size + t.size) allGranted).1.size.toNat (t.content ++ [0]) =
            none := by
        apply write_far hshort
        rw [Room] at hfar
        rw [hsize, List.length_append, hlen, List.length_singleton]
        omega
      simp only [addString, if_pos hpos, hread, hwrite, Option.bind_eq_bind, Option.bind_some,
        Option.bind_none, reduceCtorEq] at hu
    · intro hroom
      have hnew := toNat_add_of_room hroom
      rw [← hlen] at hnew
      obtain ⟨u, k, hreserve, hsize, -, -, ⟨p, hp, hvalid, hcontent⟩, -⟩ :=
        reserve_behind (h := allGranted) hs fresh hnew (by rw [hnew, hlen]; exact hroom) rfl
      refine ⟨_, k, ?_, hvalid, hcontent⟩
      simp only [addString, if_pos hpos, hreserve, hsize, hread, hp, Option.bind_eq_bind,
        Option.bind_some]
  · obtain ⟨hnil, hroom⟩ := nothing_added hs ht hpos
    refine iff_of_true ⟨s, allGranted, if_neg hpos, hs, ?_⟩ hroom
    rw [hnil, List.append_nil]

/-- The characters are doubled: what is copied ends where its place begins. -/
theorem addItself_yields_iff (hs : s.Valid) (fresh : Nat → UInt8) :
    Yields (s.addString fresh .itself allGranted) (s.content ++ s.content) ↔
      s.Room s.size.toNat := by
  obtain ⟨-, -, hlen⟩ := hs.cells_eq
  by_cases hpos : s.size > 0
  · constructor
    · intro ⟨u, k, hu, _⟩
      by_contra hfar
      obtain ⟨hshort, hsize⟩ := reserve_short hs fresh (s.size + s.size) allGranted
      simp only [addString, if_pos hpos, Option.bind_eq_bind, hsize] at hu
      obtain ⟨p, hp, -⟩ := Option.bind_eq_some_iff.mp hu
      obtain ⟨-, hroom, -⟩ := MemoryBlock.move_eq_some hp
      rw [hs.size_succ] at hroom
      rw [Room] at hfar
      omega
    · intro hroom
      have hnew := toNat_add_of_room hroom
      have hle : s.size ≤ s.size + s.size :=
        UInt64.le_iff_toNat_le.mpr (hnew ▸ Nat.le_add_right _ _)
      obtain ⟨u, k, hreserve, hu, hfits, hsize, hcontent⟩ :=
        reserve_room (h := allGranted) hs fresh hle (by rw [hnew]; exact hroom) rfl
      obtain ⟨b, hread, hb⟩ : ∃ b, u.p.read 0 (s.size + 1).toNat = some (s.content ++ [0], b) ∧
          b.cells = u.p.cells := by
        rw [← hsize, ← hcontent]
        exact ⟨_, read_content hu, rfl⟩
      have hend : s.size.toNat + s.content.length < b.cells.length := by
        rw [hb, hu.allocated, hlen, ← hnew]
        exact hfits
      obtain ⟨p, rest, hp, hcells, hplen⟩ := MemoryBlock.exists_write_ended 0 hend
      have hhead : b.cells.take s.size.toNat = s.content := by
        rw [hb, ← hcontent, content, hsize]
      rw [hhead] at hcells
      rw [hb] at hplen
      have hjoined : (s.content ++ s.content).length = (s.size + s.size).toNat := by
        rw [List.length_append, hlen, hnew]
      refine ⟨_, k, ?_, valid_of_cells hcells (hplen.trans hu.allocated) hjoined⟩
      simp only [addString, if_pos hpos, hreserve, hsize, MemoryBlock.move, hread, hp,
        Option.bind_eq_bind, Option.bind_some]
  · obtain ⟨hnil, hroom⟩ := nothing_added hs hs hpos
    refine iff_of_true ⟨s, allGranted, if_neg hpos, hs, ?_⟩ hroom
    rw [hnil, List.append_nil]

/-- In both branches the characters are copied with their NUL. -/
theorem addChars_yields_iff (hs : s.Valid) (fresh : Nat → UInt8) {source : CharPointer}
    (h : s.Pointed source) :
    Yields (s.addChars fresh source allGranted) (s.content ++ charsAt s.content source) ↔
      s.Room (charsAt s.content source).length := by
  obtain ⟨hnul, hlt, htext⟩ := pointed_spec hs h
  obtain ⟨hstrlen, htake, hle⟩ := cString_spec hnul
  rw [htext] at hstrlen htake hle
  generalize charsAt s.content source = text at *
  have hof : (UInt64.ofNat text.length).toNat = text.length :=
    UInt64.toNat_ofNat_of_lt' (Nat.lt_of_succ_lt (Nat.lt_of_le_of_lt hle hlt))
  by_cases hpos : text.length > 0
  · obtain ⟨s2, hcopy, hcopied⟩ := copyConstruct_granted hs fresh
    constructor
    · intro ⟨u, k, hu, _⟩
      by_contra hfar
      have hfar : 2 ^ 64 ≤ s.size.toNat + (text ++ [0]).length := by
        rw [Room] at hfar
        rw [List.length_append, List.length_singleton]
        omega
      obtain ⟨hshort, -⟩ := reserve_short hcopied.valid fresh
        (s.size + UInt64.ofNat text.length) allGranted
      have hfirst := write_far (length_lt hs) hfar
      have hsecond := write_far hshort hfar
      simp only [addChars, hstrlen, if_pos hpos, htake, hcopy, hfirst, hsecond, Option.bind_eq_bind,
        Option.bind_some, Option.bind_none, ite_self, reduceCtorEq] at hu
    · intro hroom
      have hnew : (s.size + UInt64.ofNat text.length).toNat = s.size.toNat + text.length := by
        rw [toNat_add_of_room (by rwa [hof]), hof]
      have hshort : (s.size + UInt64.ofNat text.length).toNat + 1 < 2 ^ 64 := by
        rw [hnew]
        exact hroom
      by_cases hspace : s.size + UInt64.ofNat text.length + 1 ≤ s.allocated
      · have hend : s.size.toNat + text.length < s.p.cells.length := by
          rw [UInt64.le_iff_toNat_le, UInt64.toNat_add, hnew, UInt64.toNat_one] at hspace
          rw [hs.allocated]
          rw [hnew] at hshort
          omega
        obtain ⟨p, rest, hp, hcells, hplen⟩ := MemoryBlock.exists_write_ended 0 hend
        have hjoined : (s.content ++ text).length = (s.size + UInt64.ofNat text.length).toNat := by
          obtain ⟨-, -, hlen⟩ := hs.cells_eq
          rw [List.length_append, hlen, hnew]
        refine ⟨_, allGranted, ?_, valid_of_cells hcells (hplen.trans hs.allocated) hjoined⟩
        simp only [addChars, hstrlen, if_pos hpos, htake, if_pos hspace, hp, Option.bind_eq_bind,
          Option.bind_some]
      · have hsize := hcopied.size
        have hnew' : (s.size + UInt64.ofNat text.length).toNat = s2.size.toNat + text.length := by
          rw [hnew, hsize]
        obtain ⟨u, k, hreserve, -, -, -, ⟨p, hp, hvalid, hcontent⟩, -⟩ :=
          reserve_behind (h := allGranted)
          hcopied.valid fresh hnew' hshort rfl
        rw [hsize] at hp
        rw [hcopied.content] at hcontent
        refine ⟨_, k, ?_, hvalid, hcontent⟩
        simp only [addChars, hstrlen, if_pos hpos, htake, if_neg hspace, hcopy, hreserve, hp,
          Option.bind_eq_bind, Option.bind_some]
  · have hnil : text = [] := List.eq_nil_of_length_eq_zero (Nat.eq_zero_of_not_pos hpos)
    subst hnil
    refine iff_of_true ⟨s, allGranted, ?_, hs, (List.append_nil _).symm⟩ (room_zero hs)
    simp only [addChars, hstrlen, if_neg hpos, Option.bind_eq_bind, Option.bind_some]

/-- One more character has room, or the memory can grow by as much as `push_back` asks for. -/
def Grows (s : M2MString) : Prop :=
  s.size = s.allocated - 1 → s.allocated.toNat + s.more.toNat < 2 ^ 64

theorem four_le_more (s : M2MString) : 4 ≤ s.more.toNat := by
  rw [more]
  split_ifs with hless
  · exact le_rfl
  · exact UInt64.le_iff_toNat_le.mp (UInt64.not_lt.mp hless)

/-- The string is full exactly if its memory ends with the NUL. -/
theorem full_iff (hs : s.Valid) : s.size = s.allocated - 1 ↔
    s.size.toNat + 1 = s.allocated.toNat := by
  have hfits := hs.fits
  have hone : (1 : UInt64) ≤ s.allocated :=
    UInt64.le_iff_toNat_le.mpr (by rw [UInt64.toNat_one]; omega)
  rw [← UInt64.toNat_inj, UInt64.toNat_sub_of_le _ _ hone, UInt64.toNat_one]
  omega

/-- If the memory cannot grow so far, it does not grow at all. -/
theorem reserve_more_wraps (hs : s.Valid) (fresh : Nat → UInt8) (h : Heap)
    (hfull : s.size = s.allocated - 1)
    (hfar : ¬ s.allocated.toNat + s.more.toNat < 2 ^ 64) :
    (s.reserve fresh (s.size + s.more) h).1.p = s.p := by
  have hfull := (full_iff hs).mp hfull
  have hmore := s.more.toNat_lt
  have hsum : (s.size + s.more).toNat = (s.size.toNat + s.more.toNat) % 2 ^ 64 :=
    UInt64.toNat_add _ _
  rw [reserve]
  split_ifs with hge
  · have hzero : s.size + s.more + 1 = 0 := by
      rw [ge_iff_le, UInt64.le_iff_toNat_le, hsum] at hge
      rw [← UInt64.toNat_inj, UInt64.toNat_add, hsum, UInt64.toNat_one, UInt64.toNat_zero]
      omega
    rw [hzero, newRealloc, if_neg (UInt64.lt_irrefl 0)]
  · rfl

/-- A character and the NUL behind it, where there is room for both. -/
theorem exists_pushed (hs : s.Valid) (c : UInt8) (hroom : s.size.toNat + 1 < s.allocated.toNat) :
    ∃ p q, s.p.write s.size.toNat [c] = some p ∧ p.write (s.size + 1).toNat [0] = some q ∧
      (M2MString.mk q s.allocated (s.size + 1)).Valid ∧
      (M2MString.mk q s.allocated (s.size + 1)).content = s.content ++ [c] := by
  have hend : s.size.toNat + [c].length < s.p.cells.length := by
    rw [hs.allocated]
    exact hroom
  obtain ⟨p, q, rest, hp, hq, hcells, hqlen⟩ := MemoryBlock.exists_write_marked 0 hend
  have hjoined : (s.content ++ [c]).length = (s.size + 1).toNat := by
    obtain ⟨-, -, hlen⟩ := hs.cells_eq
    rw [List.length_append, hlen, hs.size_succ, List.length_singleton]
  rw [List.length_singleton, ← hs.size_succ] at hq
  exact ⟨p, q, hp, hq, valid_of_cells hcells (hqlen.trans hs.allocated) hjoined⟩

theorem pushBack_yields_iff (hs : s.Valid) (fresh : Nat → UInt8) (c : UInt8) :
    Yields (s.pushBack fresh c allGranted) (s.content ++ [c]) ↔ s.Grows := by
  by_cases hfull : s.size = s.allocated - 1
  · have hend := (full_iff hs).mp hfull
    constructor
    · intro ⟨u, k, hu, _⟩ _
      by_contra hfar
      have hsame := reserve_more_wraps hs fresh allGranted hfull hfar
      obtain ⟨-, hsize⟩ := reserve_short hs fresh (s.size + s.more) allGranted
      simp only [pushBack, if_pos hfull, hsame, hsize, Option.bind_eq_bind] at hu
      obtain ⟨p, hp, hu⟩ := Option.bind_eq_some_iff.mp hu
      obtain ⟨q, hq, -⟩ := Option.bind_eq_some_iff.mp hu
      obtain ⟨hroom, -, -⟩ := MemoryBlock.write_eq_some hq
      rw [MemoryBlock.length_write hp, hs.allocated, hs.size_succ, List.length_singleton] at hroom
      omega
    · intro hgrows
      have hgrows := hgrows hfull
      have hmore := s.four_le_more
      have hsum : (s.size + s.more).toNat = s.size.toNat + s.more.toNat := by
        rw [UInt64.toNat_add]
        exact Nat.mod_eq_of_lt (by omega)
      have hle : s.size ≤ s.size + s.more :=
        UInt64.le_iff_toNat_le.mpr (hsum ▸ Nat.le_add_right _ _)
      obtain ⟨u, k, hreserve, hu, hroom, hsize, hcontent⟩ :=
        reserve_room (h := allGranted) hs fresh hle (by omega) rfl
      obtain ⟨p, q, hp, hq, hvalid⟩ := exists_pushed hu c (by rw [hsize]; omega)
      rw [hcontent] at hvalid
      refine ⟨_, k, ?_, hvalid⟩
      simp only [pushBack, if_pos hfull, hreserve, hp, hq, Option.bind_eq_bind, Option.bind_some]
  · have hfits := hs.fits
    have hspace : s.size.toNat + 1 < s.allocated.toNat := by
      have hne := mt (full_iff hs).mpr hfull
      omega
    obtain ⟨p, q, hp, hq, hvalid⟩ := exists_pushed hs c hspace
    refine iff_of_true ⟨_, allGranted, ?_, hvalid⟩ fun hc => absurd hc hfull
    simp only [pushBack, if_neg hfull, hp, hq, Option.bind_eq_bind, Option.bind_some]

def appended (str : Option CharArray) (n : UInt64) : Bytes := str.elim [] (·.text.take n.toNat)

theorem append_yields_iff (hs : s.Valid) (fresh : Nat → UInt8) (str : Option CharArray)
    (n : UInt64) :
    Yields (s.append fresh str n allGranted) (s.content ++ appended str n) ↔
      s.Room (appended str n).length := by
  cases str with
  | none => exact iff_of_true ⟨s, allGranted, rfl, hs, (List.append_nil _).symm⟩ (room_zero hs)
  | some str =>
    by_cases hpos : n > 0
    · obtain ⟨hstrlen, -, hle⟩ := cString_spec str.terminated
      have hof : (UInt64.ofNat str.text.length).toNat = str.text.length :=
        UInt64.toNat_ofNat_of_lt' (Nat.lt_of_succ_lt (Nat.lt_of_le_of_lt hle str.bounded))
      generalize hm :
        (if n > UInt64.ofNat str.text.length then UInt64.ofNat str.text.length else n) = m
      have hnat : m.toNat = min n.toNat str.text.length := by
        rw [← hm, cut_toNat, hof]
      have htaken : str.memory.take m.toNat = appended (some str) n := by
        obtain ⟨rest, hrest⟩ := exists_text str.terminated
        have hshort : m.toNat ≤ str.text.length := hnat ▸ Nat.min_le_right _ _
        rw [hrest, ← CharArray.text, List.take_append_of_le_length hshort, hnat,
          ← List.take_eq_take_min]
        rfl
      have hlen : (appended (some str) n).length = m.toNat := by
        rw [hnat]
        exact List.length_take
      constructor
      · intro ⟨u, k, hu, _⟩
        by_contra hfar
        have hnew :
            (s.size + m).toNat = (s.size.toNat + (appended (some str) n).length) % 2 ^ 64 := by
          rw [UInt64.toNat_add, hlen]
        obtain ⟨hsize, hnone⟩ := reserved_far hs fresh hnew hfar
        have hstrlen : strlen str.memory = some str.text.length := hstrlen
        simp only [append, if_pos hpos, hstrlen, hm, hsize, htaken, Option.bind_eq_bind,
          Option.bind_some] at hu
        rw [← Option.bind_assoc, hnone] at hu
        cases hu
      · intro hroom
        have hnew : (s.size + m).toNat = s.size.toNat + (appended (some str) n).length := by
          rw [toNat_add_of_room (hlen ▸ hroom), hlen]
        obtain ⟨u, k, hreserve, hsize, -, -, -, p, q, hp, hq, hvalid⟩ :=
          reserve_behind (h := allGranted) hs fresh hnew (by rw [hnew]; exact hroom) rfl
        have hstrlen : strlen str.memory = some str.text.length := hstrlen
        refine ⟨_, k, ?_, hvalid⟩
        simp only [append, if_pos hpos, hstrlen, hm, hreserve, hsize, htaken, hp, hq,
          Option.bind_eq_bind, Option.bind_some]
    · have hzero : n.toNat = 0 := by
        rw [gt_iff_lt, UInt64.lt_iff_toNat_lt, UInt64.toNat_zero] at hpos
        omega
      have hnil : appended (some str) n = [] := by
        rw [appended, Option.elim_some, hzero, List.take_zero]
      rw [hnil, List.append_nil]
      exact iff_of_true ⟨s, allGranted, if_neg hpos, hs, rfl⟩ (room_zero hs)

def appendedRaw (str : Option (MemoryBlock UInt8)) (n : UInt64) : Bytes :=
  str.elim [] (·.cells.take n.toNat)

theorem appendRaw_yields_iff (hs : s.Valid) (fresh : Nat → UInt8) {str : Option (MemoryBlock UInt8)}
    {n : UInt64} (hstr : ∀ b ∈ str, n.toNat ≤ b.cells.length) :
    Yields (s.appendRaw fresh str n allGranted) (s.content ++ appendedRaw str n) ↔
      s.Room (appendedRaw str n).length := by
  cases str with
  | none => exact iff_of_true ⟨s, allGranted, rfl, hs, (List.append_nil _).symm⟩ (room_zero hs)
  | some str =>
    have hle := hstr str rfl
    have hlen : (appendedRaw (some str) n).length = n.toNat := List.length_take_of_le hle
    constructor
    · intro ⟨u, k, hu, _⟩
      by_contra hfar
      by_cases hpos : n > 0
      · have hnew :
            (s.size + n).toNat = (s.size.toNat + (appendedRaw (some str) n).length) % 2 ^ 64 := by
          rw [UInt64.toNat_add, hlen]
        obtain ⟨hsize, hnone⟩ := reserved_far hs fresh hnew hfar
        have hread : str.read 0 n.toNat = some (appendedRaw (some str) n,
            { str with accesses := (0, n.toNat) :: str.accesses }) := by
          rw [MemoryBlock.read, if_pos (by omega), List.drop_zero]
          rfl
        simp only [appendRaw, if_pos hpos, hsize, hread, Option.bind_eq_bind,
          Option.bind_some] at hu
        rw [← Option.bind_assoc, hnone] at hu
        cases hu
      · rw [gt_iff_lt, UInt64.lt_iff_toNat_lt, UInt64.toNat_zero] at hpos
        have hzero : n.toNat = 0 := Nat.eq_zero_of_not_pos hpos
        rw [hlen, hzero] at hfar
        exact hfar (room_zero hs)
    · intro hroom
      rw [hlen] at hroom
      obtain ⟨u, k, hu, hvalid⟩ := appendRaw_content (h := allGranted) hs fresh hle hroom rfl
      exact ⟨u, k, hu, hvalid⟩

end Extensions

section Cuts

def resized (text : Bytes) (n : UInt64) (c : UInt8) : Bytes :=
  text.take n.toNat ++ List.replicate (n.toNat - text.length) c

/-- The first `n` characters, with a NUL behind them. -/
theorem exists_cut (hs : s.Valid) {n : UInt64} (hn : n.toNat ≤ s.size.toNat) :
    ∃ p, s.p.write n.toNat [0] = some p ∧ (M2MString.mk p s.allocated n).Valid ∧
      (M2MString.mk p s.allocated n).content = s.content.take n.toNat := by
  obtain ⟨p, hp, hvalid, hcontent, -⟩ := exists_terminated hs.allocated (hn.trans_lt hs.fits)
  refine ⟨p, hp, hvalid, hcontent.trans ?_⟩
  rw [content, List.take_take, Nat.min_eq_left hn]

theorem clear_yields (hs : s.Valid) : Yields (s.clear.map (·, allGranted)) [] := by
  obtain ⟨p, hp, hvalid, hcontent⟩ := exists_cut (n := 0) hs (Nat.zero_le _)
  refine ⟨_, allGranted, ?_, hvalid, hcontent⟩
  rw [UInt64.toNat_zero] at hp
  rw [clear, hp]
  rfl

theorem resizeWith_yields_iff (hs : s.Valid) (fresh : Nat → UInt8) (n : UInt64) (c : UInt8) :
    Yields (s.resizeWith fresh n c allGranted) (resized s.content n c) ↔ n + 1 ≠ 0 := by
  obtain ⟨-, -, hlen⟩ := hs.cells_eq
  have hfits := hs.fits
  have hlt := s.allocated.toNat_lt
  have hwrap : n + 1 ≠ 0 ↔ n.toNat + 1 < 2 ^ 64 := by
    have hn := n.toNat_lt
    rw [Ne, ← UInt64.toNat_inj, UInt64.toNat_add, UInt64.toNat_one, UInt64.toNat_zero]
    omega
  rw [hwrap]
  by_cases hless : n < s.size
  · have hnat := UInt64.lt_iff_toNat_lt.mp hless
    obtain ⟨p, hp, hvalid, hcontent⟩ := exists_cut hs hnat.le
    have htext : resized s.content n c = s.content.take n.toNat := by
      rw [resized, hlen, Nat.sub_eq_zero_of_le hnat.le, List.replicate_zero, List.append_nil]
    rw [htext]
    refine iff_of_true ⟨_, allGranted, ?_, hvalid, hcontent⟩ (by omega)
    simp only [resizeWith, if_pos hless, hp, Option.bind_eq_bind, Option.bind_some]
  · have hnat := UInt64.le_iff_toNat_le.mp (UInt64.not_lt.mp hless)
    have htext :
        resized s.content n c = s.content ++ List.replicate (n.toNat - s.size.toNat) c := by
      rw [resized, hlen, List.take_of_length_le (hlen ▸ hnat)]
    rw [htext]
    by_cases hmore : n > s.size
    · have hdata : s.size.toNat + (List.replicate (n.toNat - s.size.toNat) c).length = n.toNat := by
        rw [List.length_replicate]
        omega
      constructor
      · intro ⟨u, k, hu, _⟩
        by_contra hfar
        have hfar : ¬ s.Room (List.replicate (n.toNat - s.size.toNat) c).length := by
          rw [Room, hdata]
          exact hfar
        have hnew : n.toNat = (s.size.toNat + (List.replicate (n.toNat - s.size.toNat) c).length) %
            2 ^ 64 := by
          rw [hdata, Nat.mod_eq_of_lt n.toNat_lt]
        obtain ⟨hsize, hnone⟩ := reserved_far hs fresh hnew hfar
        simp only [resizeWith, if_neg hless, if_pos hmore, hsize, Option.bind_eq_bind] at hu
        rw [← Option.bind_assoc, hnone] at hu
        cases hu
      · intro hroom
        obtain ⟨u, k, hreserve, hsize, -, -, -, p, q, hp, hq, hvalid⟩ :=
          reserve_behind (h := allGranted) hs fresh hdata.symm hroom rfl
        refine ⟨_, k, ?_, hvalid⟩
        simp only [resizeWith, if_neg hless, if_pos hmore, hreserve, hsize, hp, hq,
          Option.bind_eq_bind,
          Option.bind_some]
    · have hsame : n.toNat = s.size.toNat :=
        Nat.le_antisymm (UInt64.le_iff_toNat_le.mp (UInt64.not_lt.mp hmore)) hnat
      rw [hsame, Nat.sub_self, List.replicate_zero, List.append_nil]
      refine iff_of_true ⟨s, allGranted, ?_, hs, rfl⟩ (by omega)
      rw [resizeWith, if_neg hless, if_neg hmore]

end Cuts

end M2MString
end MbedClient
