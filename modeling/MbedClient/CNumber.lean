import MbedClient.Decimal
import Mathlib.Data.List.TakeWhile
import Mathlib.Tactic.Ring

/-! Numbers as C strings: `m2m::itoa_c`, the C library's `strtol`, `strtoul` and `atoll` for a
64-bit `long`, and `M2MBase::is_integer` and `M2MBase::name_id` on top of them. A C string is the
list of its bytes; the terminating NUL ends every scan and is left out. -/
namespace MbedClient

abbrev Bytes := List UInt8

/-- A `String` as `c_str()` is read. -/
def cStr (s : Bytes) : Bytes := s.takeWhile (· != 0)

theorem cStr_cStr (s : Bytes) : cStr (cStr s) = cStr s := by
  rw [cStr, cStr, List.takeWhile_takeWhile]
  exact congrArg (List.takeWhile · s) (funext fun b => by grind)

theorem notMem_cStr (s : Bytes) : 0 ∉ cStr s := fun h =>
  absurd (List.mem_takeWhile_imp h) (by decide)

theorem cStr_eq_self (s : Bytes) : cStr s = s ↔ 0 ∉ s := by
  rw [cStr, List.takeWhile_eq_self_iff]
  refine ⟨fun h hz => ?_, fun h x hx => ?_⟩
  · exact absurd (h 0 hz) (by decide)
  · exact bne_iff_ne.mpr fun hz => h (hz ▸ hx)

theorem cStr_length_le (s : Bytes) : (cStr s).length ≤ s.length :=
  (List.takeWhile_prefix _).length_le

theorem cStr_eq_of_length {s : Bytes} (h : s.length ≤ (cStr s).length) : cStr s = s :=
  (List.takeWhile_prefix _).eq_of_length (Nat.le_antisymm (cStr_length_le s) h)

/-- What lies behind the part that is read starts with a NUL. -/
theorem cStr_append_behind (s : Bytes) : ∃ r, s = cStr s ++ r ∧ (r = [] ∨ ∃ t, r = 0 :: t) := by
  refine ⟨s.dropWhile (· != 0), (List.takeWhile_append_dropWhile).symm, ?_⟩
  cases hr : s.dropWhile (· != 0) with
  | nil => exact Or.inl rfl
  | cons b t =>
    have hb := List.head_dropWhile_not (· != 0) (l := s) (by rw [hr]; exact List.cons_ne_nil _ _)
    simp only [hr, List.head_cons] at hb
    exact Or.inr ⟨t, by rw [show b = 0 by simpa using hb]⟩

def isSpace (b : UInt8) : Bool := b == 0x20 || (0x09 ≤ b && b ≤ 0x0D)

/-- What C's conversions see: white space, a sign, digits and the rest behind them. -/
structure Numeral where
  negative : Bool
  digits : Bytes
  rest : Bytes

def signed : Bytes → Bool × Bytes
  | [] => (false, [])
  | b :: t => if b = 0x2D then (true, t) else if b = 0x2B then (false, t) else (false, b :: t)

def numeral (s : Bytes) : Numeral :=
  let (negative, t) := signed (s.dropWhile isSpace)
  ⟨negative, t.takeWhile Decimal.isDigit, t.dropWhile Decimal.isDigit⟩

/-- A conversion does not go beyond a NUL. -/
theorem numeral_cStr (s : Bytes) : (numeral (cStr s)).negative = (numeral s).negative ∧
    (numeral (cStr s)).digits = (numeral s).digits := by
  have hspace : (cStr s).dropWhile isSpace = cStr (s.dropWhile isSpace) := by
    induction s with
    | nil => rfl
    | cons b t ih =>
      by_cases hb : b = 0
      · subst hb
        rfl
      · have hread : cStr (b :: t) = b :: cStr t := List.takeWhile_cons_of_pos (by simpa using hb)
        rw [hread, List.dropWhile_cons, List.dropWhile_cons]
        split_ifs
        · exact ih
        · exact hread.symm
  have hsigned : ∀ t, signed (cStr t) = ((signed t).1, cStr (signed t).2) := by
    intro t
    cases t with
    | nil => rfl
    | cons b t =>
      by_cases hb : b = 0
      · subst hb
        rfl
      · have hread : cStr (b :: t) = b :: cStr t := List.takeWhile_cons_of_pos (by simpa using hb)
        rw [hread, signed, signed]
        split_ifs <;> simp only [hread]
  have hdigits : ∀ t, (cStr t).takeWhile Decimal.isDigit = t.takeWhile Decimal.isDigit := by
    intro t
    rw [cStr, List.takeWhile_takeWhile]
    refine congrArg (List.takeWhile · t) (funext fun b => ?_)
    by_cases hb : b = 0
    · subst hb
      rfl
    · simp [hb]
  simp only [numeral, hspace, hsigned, hdigits, and_self]

/-- Like `strtoll`, `atoll` saturates at the ends of the 64-bit range. -/
def atoll (s : Bytes) : Int :=
  let n := numeral s
  if n.negative then max (-(Decimal.value n.digits : Int)) (-2 ^ 63)
  else min (Decimal.value n.digits : Int) (2 ^ 63 - 1)

theorem atoll_cStr (s : Bytes) : atoll (cStr s) = atoll s := by
  obtain ⟨hnegative, hdigits⟩ := numeral_cStr s
  simp only [atoll, hnegative, hdigits]

def strtoul (s : Bytes) : Nat :=
  let n := numeral s
  let v := Decimal.value n.digits
  if v ≥ 2 ^ 64 then 2 ^ 64 - 1
  else if n.negative then (2 ^ 64 - v) % 2 ^ 64 else v

/-- `strtol` moves the end pointer to the terminating NUL. -/
def strtolConsumesAll (s : Bytes) : Bool :=
  let n := numeral s
  !n.digits.isEmpty && n.rest.isEmpty

def isInteger (value : Bytes) : Bool :=
  match value with
  | [] => false
  | c :: _ =>
    if !Decimal.isDigit c && c != 0x2D && c != 0x2B then false else strtolConsumesAll value

def maxAllowedStringLength : Nat := 64

/-- `name_id = strtoul(...)` converts an `unsigned long` to `int32_t`. -/
def nameId (name : Bytes) : Int :=
  if isInteger name && decide (name.length ≤ maxAllowedStringLength) then
    let id := Int.bmod (strtoul name) (2 ^ 32)
    if id > 65535 then -1 else id
  else -1

theorem nameId_le (name : Bytes) : nameId name ≤ 65535 := by
  unfold nameId
  split_ifs
  · simp only
    split_ifs <;> omega
  · omega

theorem tdiv_ten_lt {n : Int} (h : 0 < n.tdiv 10) : (n.tdiv 10).toNat < n.toNat := by
  rcases lt_or_ge n 0 with hn | hn
  · have := Int.tdiv_nonneg (a := -n) (b := 10) (by omega) (by omega)
    rw [Int.neg_tdiv] at this
    omega
  · rw [Int.tdiv_eq_ediv_of_nonneg hn] at h ⊢
    omega

/-- The `do` loop of `itoa_c`: the digits come last one first. -/
def itoaLoop (n : Int) : Bytes :=
  UInt8.ofNat ((n.tmod 10 + 48) % 256).toNat ::
    if 0 < n.tdiv 10 then itoaLoop (n.tdiv 10) else []
termination_by n.toNat
decreasing_by exact tdiv_ten_lt (by assumption)

/-- `n = -n` wraps at the least 64-bit integer. -/
def itoaC (n : Int64) : Bytes :=
  let s := itoaLoop (if n < 0 then -n else n).toInt
  (if n < 0 then s ++ [0x2D] else s).reverse

theorem digit_ne_sign (b : UInt8) (h : Decimal.isDigit b = true) :
    isSpace b = false ∧ b ≠ 0x2D ∧ b ≠ 0x2B := by
  simp only [Decimal.isDigit, Bool.and_eq_true, decide_eq_true_eq, UInt8.le_iff_toNat_le] at h
  have h48 : 48 ≤ b.toNat := h.1
  simp only [isSpace, Bool.or_eq_false_iff, Bool.and_eq_false_imp, beq_eq_false_iff_ne, ne_eq,
    decide_eq_true_eq, decide_eq_false_iff_not, UInt8.le_iff_toNat_le, ← UInt8.toNat_inj]
  refine ⟨⟨?_, fun _ => ?_⟩, ?_, ?_⟩ <;> simp <;> omega

section Digits
variable {s : Bytes} (hd : ∀ b ∈ s, Decimal.isDigit b = true)
include hd

theorem takeWhile_digits : s.takeWhile Decimal.isDigit = s := List.takeWhile_eq_self_iff.mpr hd

theorem dropWhile_digits : s.dropWhile Decimal.isDigit = [] := List.dropWhile_eq_nil_iff.mpr hd

theorem numeral_digits (hne : s ≠ []) : numeral s = ⟨false, s, []⟩ := by
  cases s with
  | nil => exact absurd rfl hne
  | cons b t =>
    have hb := hd b List.mem_cons_self
    have hsp : isSpace b = false ∧ b ≠ 0x2D ∧ b ≠ 0x2B := by
      revert hb
      exact digit_ne_sign b
    simp [numeral, signed, hsp, takeWhile_digits hd, dropWhile_digits hd]

theorem numeral_minus_digits : numeral (0x2D :: s) = ⟨true, s, []⟩ := by
  simp [numeral, signed, isSpace, takeWhile_digits hd, dropWhile_digits hd]

end Digits

theorem isInteger_digits (n : Nat) : isInteger (Decimal.digits n) = true := by
  have hd := Decimal.digits_isDigit n
  have hne := Decimal.digits_ne_nil n
  cases hs : Decimal.digits n with
  | nil => exact absurd hs hne
  | cons b t =>
    rw [hs] at hd hne
    simp [isInteger, strtolConsumesAll, numeral_digits hd hne, hd b List.mem_cons_self]

theorem nameId_digits {n : Nat} (h : n ≤ 65535) : nameId (Decimal.digits n) = n := by
  have hd := Decimal.digits_isDigit n
  have hne := Decimal.digits_ne_nil n
  have hlen : (Decimal.digits n).length ≤ 5 := Decimal.length_digits_le (k := 4) (by omega)
  have hint := isInteger_digits n
  have hul : strtoul (Decimal.digits n) = n := by
    simp [strtoul, numeral_digits hd hne, Decimal.value_digits]
    omega
  have hb : Int.bmod n (2 ^ 32) = n := by
    rw [Int.bmod_eq_of_le] <;> omega
  have hl : (Decimal.digits n).length ≤ maxAllowedStringLength := hlen.trans (by decide)
  simp only [nameId, hint, hul, hb, hl, decide_true, Bool.and_self, if_true]
  rw [if_neg (by omega)]

theorem itoaLoop_natCast (n : Nat) : itoaLoop n = (Decimal.digits n).reverse := by
  have hdiv : (n : Int).tdiv 10 = (n / 10 : Nat) := by
    rw [Int.tdiv_eq_ediv_of_nonneg (Int.natCast_nonneg n)]
    rfl
  have hmod : ((n : Int).tmod 10 + 48) % 256 = (48 + n % 10 : Nat) := by
    rw [Int.tmod_eq_emod_of_nonneg (Int.natCast_nonneg n)]
    omega
  induction n using Decimal.digits.induct with
  | case1 n h =>
    rw [itoaLoop, Decimal.digits, if_pos h, hdiv, hmod, if_neg (by omega), Int.toNat_natCast,
      Nat.mod_eq_of_lt h]
    rfl
  | case2 n h ih =>
    rw [itoaLoop, Decimal.digits, if_neg h, hdiv, hmod, if_pos (by omega), Int.toNat_natCast, ih]
    · simp [Decimal.digit]
    · rw [Int.tdiv_eq_ediv_of_nonneg (Int.natCast_nonneg _)]
      rfl
    · rw [Int.tmod_eq_emod_of_nonneg (Int.natCast_nonneg _)]
      omega

/-- `itoa_c` writes the canonical numeral; `INT64_MIN` is the exception. -/
theorem itoaC_eq (n : Int64) (hn : n ≠ Int64.minValue) : itoaC n =
    if n.toInt < 0 then 0x2D :: Decimal.digits n.toInt.natAbs
    else Decimal.digits n.toInt.natAbs := by
  have hlt : n < 0 ↔ n.toInt < 0 := by
    rw [Int64.lt_iff_toInt_lt]
    rfl
  by_cases h : n.toInt < 0
  · have hneg : (-n).toInt = (n.toInt.natAbs : Int) := by
      have hmin : n.toInt ≠ -2 ^ 63 := fun hc => hn (Int64.toInt_inj.mp hc)
      have hge := n.le_toInt
      rw [Int64.toInt_neg, Int.bmod_eq_of_le] <;> omega
    rw [itoaC, if_pos (by rwa [hlt]), if_pos (by rwa [hlt]), if_pos h, hneg, itoaLoop_natCast]
    simp
  · have hpos : n.toInt = (n.toInt.natAbs : Int) := by omega
    have hloop : itoaLoop n.toInt = (Decimal.digits n.toInt.natAbs).reverse := by
      rw [hpos, itoaLoop_natCast, ← hpos]
    rw [itoaC, if_neg (by rwa [hlt]), if_neg (by rwa [hlt]), if_neg h, hloop]
    simp

theorem atoll_itoaC (n : Int64) (hn : n ≠ Int64.minValue) : atoll (itoaC n) = n.toInt := by
  have hd := Decimal.digits_isDigit n.toInt.natAbs
  have hne := Decimal.digits_ne_nil n.toInt.natAbs
  have hle := n.toInt_lt
  have hge := n.le_toInt
  rw [itoaC_eq n hn]
  split_ifs with h
  · simp only [atoll, numeral_minus_digits hd, Decimal.value_digits, if_true]
    omega
  · simp only [atoll, numeral_digits hd hne, Decimal.value_digits, Bool.false_eq_true, if_false]
    omega

end MbedClient
