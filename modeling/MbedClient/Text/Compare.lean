import Mathlib.Order.Compare
import MbedClient.Text.M2MString

/-! The order that `compare` gives to texts: the lexicographic one, by unsigned characters. -/
namespace MbedClient.M2MString
variable {s : M2MString} {pos len : UInt64}

/-- What `compare` answers if the shorter text starts the longer one. -/
def bySize (m n : Nat) : Int := if m < n then -1 else if m = n then 0 else 1

theorem bySize_toNat (m n : UInt64) :
    bySize m.toNat n.toNat = if m < n then -1 else if m = n then 0 else 1 := by
  simp only [bySize, UInt64.lt_iff_toNat_lt, UInt64.toNat_inj]

def substring (s : M2MString) (pos len : UInt64) : Bytes :=
  (s.content.drop pos.toNat).take (min len.toNat (s.size.toNat - pos.toNat))

/-- A comparison of `a` with `b` has been answered by its sign. -/
def SignOf (answer : Option Int) (a b : Bytes) : Prop :=
  ∃ r, answer = some r ∧ Ord.compare r 0 = Ord.compare a b ∧ (r = 0 ↔ a = b)

/-- The difference of two characters orders them. -/
theorem compare_difference {x y : UInt8} (hne : x ≠ y) :
    (x.toNat : Int) - y.toNat ≠ 0 ∧ Ord.compare ((x.toNat : Int) - y.toNat) 0 =
      Ord.compare x y := by
  have hnat : x.toNat ≠ y.toNat := fun h => hne (UInt8.toNat_inj.mp h)
  have hlt : (x.toNat : Int) - y.toNat < 0 ↔ x < y := by
    rw [UInt8.lt_iff_toNat_lt]
    omega
  have hzero : (x.toNat : Int) - y.toNat ≠ 0 := by omega
  refine ⟨hzero, ?_⟩
  change compareOfLessAndEq _ _ = compareOfLessAndEq _ _
  simp only [compareOfLessAndEq, hlt, hzero, hne]

/-- The characters of `a` in front of `a'` are compared with those of `b`, and then the sizes. -/
theorem strncmp_order {a : Bytes} (ha : 0 ∉ a) (b a' b' : Bytes) :
    ∃ r, strncmp (a ++ a') (b ++ b') (min a.length b.length) = some r ∧
      Ord.compare (if r = 0 then bySize a.length b.length else r) 0 = Ord.compare a b := by
  induction a generalizing b with
  | nil =>
    refine ⟨0, by simp [strncmp], ?_⟩
    cases b with
    | nil => rfl
    | cons y b => rfl
  | cons x a ih =>
    cases b with
    | nil => exact ⟨0, rfl, rfl⟩
    | cons y b =>
      rw [List.length_cons, List.length_cons, Nat.add_min_add_right, List.compare_cons_cons]
      by_cases hxy : x = y
      · subst hxy
        have hx : ¬ x = 0 := (List.ne_of_not_mem_cons ha).symm
        obtain ⟨r, hr, horder⟩ := ih (List.not_mem_of_not_mem_cons ha) b
        refine ⟨r, ?_, ?_⟩
        · rw [List.cons_append, List.cons_append, strncmp, if_neg (not_not.mpr rfl), if_neg hx, hr]
        · rw [Std.ReflOrd.compare_self, Ordering.eq_then, ← horder]
          simp only [bySize, Nat.add_lt_add_iff_right, Nat.add_right_cancel_iff]
      · obtain ⟨hne, hsign⟩ := compare_difference hxy
        refine ⟨_, if_pos hxy, ?_⟩
        rw [if_neg hne, hsign]
        cases hcompare : Ord.compare x y with
        | eq => exact absurd (Std.LawfulEqOrd.eq_of_compare hcompare) hxy
        | lt => rfl
        | gt => rfl

theorem signOf_order {r : Int} {a b : Bytes} (h : Ord.compare r 0 = Ord.compare a b) :
    SignOf (some r) a b := by
  refine ⟨r, rfl, h, ?_⟩
  rw [← Std.compare_eq_iff_eq (a := r), ← Std.compare_eq_iff_eq (a := a), h]

theorem toNat_min (m n : UInt64) : (min m n).toNat = min m.toNat n.toNat := by
  change (if m ≤ n then m else n).toNat = _
  by_cases hle : m ≤ n
  · rw [if_pos hle, min_eq_left (UInt64.le_iff_toNat_le.mp hle)]
  · have hge := UInt64.le_of_lt (UInt64.not_le.mp hle)
    rw [if_neg hle, min_eq_right (UInt64.le_iff_toNat_le.mp hge)]

theorem toNat_clamped (hpos : pos ≤ s.size) :
    (if len > s.size - pos then s.size - pos else len).toNat =
      min len.toNat (s.size.toNat - pos.toNat) := by
  rw [← UInt64.toNat_sub_of_le _ _ hpos]
  by_cases hmore : len > s.size - pos
  · rw [if_pos hmore, min_eq_right (UInt64.lt_iff_toNat_lt.mp hmore).le]
  · rw [if_neg hmore, min_eq_left (UInt64.le_iff_toNat_le.mp (UInt64.not_lt.mp hmore))]

/-- The substring is what the memory holds from `pos` on. -/
theorem substring_cells (hs : s.Valid) (hpos : pos ≤ s.size) (len : UInt64) :
    (s.substring pos len).length = min len.toNat (s.size.toNat - pos.toNat) ∧
      ∃ rest, s.p.cells.drop pos.toNat = s.substring pos len ++ rest := by
  obtain ⟨rest, hcells, hlen⟩ := hs.cells_eq
  have hle := UInt64.le_iff_toNat_le.mp hpos
  constructor
  · rw [substring, List.length_take, List.length_drop, hlen]
    omega
  · refine ⟨(s.content.drop pos.toNat).drop (min len.toNat (s.size.toNat - pos.toNat)) ++ 0 ::
      rest, ?_⟩
    rw [hcells, List.drop_append_of_le_length (by omega), substring, ← List.append_assoc,
      List.take_append_drop]

/-- Both overloads of `compare`: the text ends with a NUL. -/
theorem compareText_signOf (hs : s.Valid) (hclean : 0 ∉ s.content) (hpos : pos ≤ s.size)
    {text rest : Bytes} {osize : UInt64} (hsize : text.length = osize.toNat) :
    SignOf (s.compareText pos len (text ++ 0 :: rest) osize) (s.substring pos len) text := by
  obtain ⟨hlen, rest', hcells⟩ := substring_cells hs hpos len
  have hpart : 0 ∉ s.substring pos len := fun hzero =>
    hclean (List.mem_of_mem_drop (List.mem_of_mem_take hzero))
  obtain ⟨r, hr, horder⟩ := strncmp_order hpart text rest' (0 :: rest)
  rw [hlen, hsize, ← toNat_clamped hpos] at hr horder
  rw [← hcells] at hr
  have hcompare : s.compareText pos len (text ++ 0 :: rest) osize = some (if r = 0 then
      bySize (if len > s.size - pos then s.size - pos else len).toNat osize.toNat else r) := by
    rw [compareText, if_pos hpos]
    simp only [toNat_min, hr, Option.bind_eq_bind, Option.bind_some, bySize_toNat]
  rw [hcompare]
  exact signOf_order horder

/-- The two overloads of `compare`, for a text without NUL bytes. -/
theorem compare_signOf (hs : s.Valid) (hclean : 0 ∉ s.content) (hpos : pos ≤ s.size)
    (len : UInt64) :
    (∀ str : M2MString, str.Valid → 0 ∉ str.content →
      SignOf (s.compare pos len str) (s.substring pos len) str.content) ∧
    ∀ str : CharArray, SignOf (s.compareChars pos len str) (s.substring pos len) str.text := by
  constructor
  · intro str hstr _
    obtain ⟨rest, hcells, hlen⟩ := hstr.cells_eq
    rw [compare, hcells]
    exact compareText_signOf hs hclean hpos hlen
  · intro str
    obtain ⟨rest, hmemory⟩ := exists_text str.terminated
    rw [← CharArray.text] at hmemory
    have hshort : str.text.length < 2 ^ 64 := by
      have hbounded := str.bounded
      rw [hmemory, List.length_append] at hbounded
      omega
    have hstrlen : strlen str.memory = some str.text.length := by
      rw [hmemory]
      exact strlen_append (notMem_takeWhile _) rest
    rw [compareChars, hstrlen, hmemory]
    exact compareText_signOf hs hclean hpos (UInt64.toNat_ofNat_of_lt' hshort).symm

/-- The scheme of `coap:/`. -/
theorem compare_scheme :
    let s : M2MString := ⟨⟨[0x63, 0x6f, 0x61, 0x70, 0x3a, 0x2f, 0], []⟩, 7, 6⟩
    SignOf (s.compareChars 0 4 ⟨[0x63, 0x6f, 0x61, 0x70, 0], by decide, by decide⟩)
      [0x63, 0x6f, 0x61, 0x70] [0x63, 0x6f, 0x61, 0x70] := by
  have hs : (M2MString.mk ⟨[0x63, 0x6f, 0x61, 0x70, 0x3a, 0x2f, 0], []⟩ 7 6).Valid :=
    ⟨rfl, by decide, rfl⟩
  exact (compare_signOf hs (by decide) (by decide) 4).2
    ⟨[0x63, 0x6f, 0x61, 0x70, 0], by decide, by decide⟩

end MbedClient.M2MString
