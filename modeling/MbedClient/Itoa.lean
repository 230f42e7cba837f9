import MbedClient.ObjectTree
import Mathlib.Data.List.Induction

/-! `itoa_c` and `m2m::reverse` on the array that they write: what `itoaC` says about the text, with
the bounds of the array. -/
namespace MbedClient

def store (s : Bytes) (i : Nat) (b : UInt8) : Option Bytes :=
  if i < s.length then some (s.set i b) else none

def reverseLoop (s : Bytes) (i j : Nat) : Bytes :=
  if i < j then reverseLoop ((s.set i (s.getD j 0)).set j (s.getD i 0)) (i + 1) (j - 1) else s
termination_by j - i

def digitLoop (n : Int) (i : Nat) (s : Bytes) : Option (Nat × Bytes) := do
  let s ← store s i (UInt8.ofNat ((n.tmod 10 + 48) % 256).toNat)
  if 0 < n.tdiv 10 then digitLoop (n.tdiv 10) (i + 1) s else pure (i + 1, s)
termination_by n.toNat
decreasing_by exact tdiv_ten_lt (by assumption)

def storeSign (sign : Int64) (i : Nat) (s : Bytes) : Option (Nat × Bytes) :=
  if sign < 0 then (store s i 0x2D).map fun s => (i + 1, s) else some (i, s)

/-- `itoa_c(n, s)`: the array afterwards and the length that is returned. `n = -n` wraps. -/
def itoaCInto (n : Int64) (s : Bytes) : Option (Bytes × Nat) := do
  let (i, s) ← digitLoop (if n < 0 then -n else n).toInt 0 s
  let (i, s) ← storeSign n i s
  let s ← store s i 0
  pure (reverseLoop s 0 (i - 1), i)

section At
variable (a : Bytes) (x b : UInt8) (rest : Bytes)

theorem set_at : (a ++ x :: rest).set a.length b = a ++ b :: rest := by simp

theorem getD_at : (a ++ x :: rest).getD a.length 0 = x := by simp

theorem store_at : store (a ++ x :: rest) a.length b = some (a ++ b :: rest) := by
  rw [store, set_at, if_pos (by simp)]

end At

theorem reverseLoop_append (a m c : Bytes) :
    reverseLoop (a ++ m ++ c) a.length (a.length + m.length - 1) = a ++ m.reverse ++ c := by
  induction m using List.bidirectionalRec generalizing a c with
  | nil => rw [reverseLoop, if_neg (by simp)]; rfl
  | singleton x => rw [reverseLoop, if_neg (by simp)]; rfl
  | cons_append x m y ih =>
    -- both ends are exchanged, and the loop goes on between them
    have hj : a.length + (x :: (m ++ [y])).length - 1 = (a ++ x :: m).length := by
      simp
    have hs : a ++ x :: (m ++ [y]) ++ c = (a ++ x :: m) ++ y :: c := by simp
    have hs' : a ++ x :: (m ++ [y]) ++ c = a ++ x :: (m ++ y :: c) := by simp
    have hswap : ((a ++ x :: (m ++ y :: c)).set a.length y).set (a ++ x :: m).length x =
        (a ++ [y]) ++ m ++ x :: c := by
      have hlength : (a ++ x :: m).length = (a ++ y :: m).length := by simp
      rw [set_at, hlength, show a ++ y :: (m ++ y :: c) = (a ++ y :: m) ++ y :: c by simp, set_at]
      simp
    rw [hj, reverseLoop, if_pos (by simp), hs, getD_at, ← hs, hs', getD_at, hswap]
    have hnext := ih (a ++ [y]) (x :: c)
    have hi : (a ++ [y]).length = a.length + 1 := by simp
    have hjnext : (a ++ [y]).length + m.length - 1 = (a ++ x :: m).length - 1 := by
      simp
    rw [hi] at hnext
    rw [hi] at hjnext
    rw [← hjnext, hnext]
    simp

/-- What the loop writes behind `a`, in an array with room for it. -/
theorem digitLoop_append {n : Int} (a : Bytes) {rest : Bytes}
    (hroom : (itoaLoop n).length ≤ rest.length) :
    digitLoop n a.length (a ++ rest) = some (a.length + (itoaLoop n).length,
      a ++ itoaLoop n ++ rest.drop (itoaLoop n).length) := by
  induction n using itoaLoop.induct generalizing a rest with
  | case1 n ih =>
    rw [itoaLoop] at hroom ⊢
    rw [digitLoop]
    set b := UInt8.ofNat ((n.tmod 10 + 48) % 256).toNat
    obtain ⟨x, rest, rfl⟩ := List.exists_cons_of_ne_nil (l := rest) (by
      rintro rfl
      simp at hroom)
    rw [store_at, Option.bind_eq_bind, Option.bind_some]
    by_cases hn : 0 < n.tdiv 10
    · rw [if_pos hn] at hroom ⊢
      have hnext : digitLoop _ _ (a ++ [b] ++ rest) = _ := ih hn (a ++ [b]) (by simpa using hroom)
      rw [if_pos hn, show a.length + 1 = (a ++ [b]).length by simp,
        show a ++ b :: rest = a ++ [b] ++ rest by simp, hnext]
      simp
      omega
    · rw [if_neg hn, if_neg hn]
      simp

/-- The next byte behind a text in an array that is as it was from there on. -/
theorem store_drop {t s : Bytes} (h : t.length < s.length) (b : UInt8) :
    store (t ++ s.drop t.length) t.length b = some (t ++ [b] ++ s.drop (t ++ [b]).length) := by
  rw [List.drop_eq_getElem_cons h, store_at]
  simp

def itoaText (n : Int64) : Bytes :=
  let loop := itoaLoop (if n < 0 then -n else n).toInt
  if n < 0 then loop ++ [0x2D] else loop

theorem itoaC_eq_reverse (n : Int64) : itoaC n = (itoaText n).reverse := rfl

theorem digitLoop_text (n : Int64) {s : Bytes} (hroom : (itoaText n).length < s.length) :
    ((digitLoop (if n < 0 then -n else n).toInt 0 s).bind fun p => storeSign n p.1 p.2) =
      some ((itoaText n).length, itoaText n ++ s.drop (itoaText n).length) := by
  have hdigits (hloop : (itoaLoop (if n < 0 then -n else n).toInt).length ≤ s.length) :=
    digitLoop_append [] hloop
  simp only [itoaText, storeSign] at hroom ⊢
  split_ifs at hroom hdigits ⊢ with hn
  · rw [List.length_append, List.length_singleton] at hroom
    have hrun := hdigits (by omega)
    rw [List.length_nil, Nat.zero_add, List.nil_append, List.nil_append] at hrun
    rw [hrun, Option.bind_some, store_drop (by omega), Option.map_some, List.length_append,
      List.length_singleton]
  · have hrun := hdigits (by omega)
    rw [List.length_nil, Nat.zero_add, List.nil_append, List.nil_append] at hrun
    rw [hrun, Option.bind_some]

/-- The array ends up with the text, a NUL behind it, and what it held further on. -/
theorem itoaCInto_eq (n : Int64) {s : Bytes} (hroom : (itoaC n).length < s.length) :
    itoaCInto n s = some (itoaC n ++ 0 :: s.drop ((itoaC n).length + 1), (itoaC n).length) := by
  rw [itoaC_eq_reverse, List.length_reverse] at hroom ⊢
  have hreverse := reverseLoop_append [] (itoaText n) (0 :: s.drop ((itoaText n).length + 1))
  rw [List.length_nil, Nat.zero_add, List.nil_append, List.nil_append] at hreverse
  have hend := store_drop hroom 0
  rw [List.append_assoc, List.length_append, List.length_singleton, List.singleton_append] at hend
  calc itoaCInto n s =
      ((digitLoop (if n < 0 then -n else n).toInt 0 s).bind fun p => storeSign n p.1 p.2).bind
        fun p => (store p.2 p.1 0).bind fun s => some (reverseLoop s 0 (p.1 - 1), p.1) := by
        rw [Option.bind_assoc]
        rfl
    _ = some ((itoaText n).reverse ++ 0 :: s.drop ((itoaText n).length + 1),
        (itoaText n).length) := by
        rw [digitLoop_text n hroom, Option.bind_some, hend, Option.bind_some, hreverse]

/-- The canonical numeral: no leading zeros, and a `-` in front of a negative number. -/
def decimalText (v : Int) : Bytes :=
  if v < 0 then 0x2D :: Decimal.digits v.natAbs else Decimal.digits v.natAbs

/-- `itoa_c` writes the numeral and a NUL into at most 21 bytes, and returns its length. -/
def WritesNumeral (v : Int64) : Prop := (decimalText v.toInt).length + 1 ≤ 21 ∧
  ∀ s : Bytes, 21 ≤ s.length → ∃ rest, itoaCInto v s =
    some (decimalText v.toInt ++ 0 :: rest, (decimalText v.toInt).length)

def ReadsBack (v : Int64) : Prop := ∀ (b : M2MResourceBase) (h : Heap), h.malloc.1 = true →
  (b.setValueInt v h).1 = true ∧ (b.setValueInt v h).2.1.getValueInt = v.toInt

theorem length_decimalText (v : Int64) : (decimalText v.toInt).length + 1 ≤ 21 := by
  have hle := v.toInt_lt
  have hge := v.le_toInt
  have hlt : v.toInt.natAbs < 10 ^ (18 + 1) := by omega
  have hdigits := Decimal.length_digits_le hlt
  rw [decimalText]
  split_ifs
  · rw [List.length_cons]
    omega
  · omega

theorem itoaC_decimalText {v : Int64} (hv : v ≠ Int64.minValue) :
    itoaC v = decimalText v.toInt := itoaC_eq v hv

/-- A numeral has no NUL in it, which would end the text before its end. -/
theorem itoaC_string {v : Int64} (hv : v ≠ Int64.minValue) :
    itoaC v ≠ [] ∧ cStr (itoaC v) = itoaC v := by
  have hdigit : ∀ b ∈ Decimal.digits v.toInt.natAbs, (b != 0) = true := by
    intro b hb
    rw [bne_iff_ne]
    rintro rfl
    exact absurd (Decimal.digits_isDigit _ _ hb) (by decide)
  rw [itoaC_eq v hv]
  split_ifs
  · refine ⟨List.cons_ne_nil _ _, List.takeWhile_eq_self_iff.mpr ?_⟩
    exact List.forall_mem_cons.mpr ⟨by decide, hdigit⟩
  · exact ⟨Decimal.digits_ne_nil _, List.takeWhile_eq_self_iff.mpr hdigit⟩

/-- A number that is stored is read again, and so is 0 if there was no room for it. -/
theorem getValueInt_setValueInt (b : M2MResourceBase) {v : Int64} (hv : v ≠ Int64.minValue)
    (h : Heap) : (b.setValueInt v h).2.1.getValueInt = if h 0 then v.toInt else 0 := by
  obtain ⟨hne, htake⟩ := itoaC_string hv
  rw [M2MResourceBase.setValueInt, M2MResourceBase.setValue, if_pos (List.length_pos_iff.mpr hne),
    Heap.malloc, M2MResourceBase.getValueInt]
  cases h0 : h 0 with
  | false => rfl
  | true =>
    dsimp only
    rw [if_pos rfl, if_pos rfl, htake, atoll_itoaC v hv]

theorem readsBack {v : Int64} (hv : v ≠ Int64.minValue) : ReadsBack v := by
  intro b h hm
  refine ⟨?_, ?_⟩
  · rw [M2MResourceBase.setValueInt, M2MResourceBase.setValue,
      if_pos (List.length_pos_iff.mpr (itoaC_string hv).1)]
  · have h0 : h 0 = true := hm
    rw [getValueInt_setValueInt b hv h, if_pos h0]

theorem integer_written_iff (v : Int64) :
    WritesNumeral v ∧ ReadsBack v ↔ v ≠ Int64.minValue := by
  constructor
  · rintro ⟨⟨-, hwrites⟩, -⟩ rfl
    obtain ⟨rest, hrest⟩ := hwrites (List.replicate 21 0) (by decide)
    rw [itoaCInto_eq _ (by decide +kernel)] at hrest
    have hlength : (itoaC Int64.minValue).length = (decimalText Int64.minValue.toInt).length := by
      injection hrest with hrest
      exact congrArg Prod.snd hrest
    exact absurd hlength (by decide +kernel)
  · intro hv
    have htext := itoaC_decimalText hv
    have hlength := length_decimalText v
    refine ⟨⟨hlength, fun s hs => ⟨s.drop ((decimalText v.toInt).length + 1), ?_⟩⟩, readsBack hv⟩
    rw [itoaCInto_eq v (by rw [htext]; omega), htext]

/-- The least number comes out as `-(`. -/
theorem minValue_unreadable : ¬(WritesNumeral Int64.minValue ∧ ReadsBack Int64.minValue) := by
  rintro ⟨-, hread⟩
  have h := (hread ⟨.dynamic, 0, .integer, []⟩ (fun _ => true) rfl).2
  exact absurd h (by decide +kernel)

end MbedClient
