import Mathlib.Data.UInt
import Mathlib.Data.List.Basic
import Mathlib.Tactic.Linarith

/-! Decimal numerals as byte strings: the canonical numeral of a number and the value of a string
of digits. -/
namespace MbedClient.Decimal

def digit (n : Nat) : UInt8 := UInt8.ofNat (48 + n)

def isDigit (b : UInt8) : Bool := 48 ≤ b && b ≤ 57

def digits (n : Nat) : List UInt8 :=
  if n < 10 then [digit n] else digits (n / 10) ++ [digit (n % 10)]

def value (s : List UInt8) : Nat := s.foldl (fun acc b => acc * 10 + (b.toNat - 48)) 0

theorem digit_toNat {n : Nat} (h : n < 10) : (digit n).toNat = 48 + n := by
  rw [digit, UInt8.toNat_ofNat']
  omega

theorem isDigit_digit {n : Nat} (h : n < 10) : isDigit (digit n) = true := by
  have := digit_toNat h
  simp [isDigit, UInt8.le_iff_toNat_le, this]
  omega

theorem digits_isDigit (n : Nat) : ∀ b ∈ digits n, isDigit b = true := by
  induction n using digits.induct with
  | case1 n h =>
    rw [digits, if_pos h]
    simp [isDigit_digit h]
  | case2 n h ih =>
    rw [digits, if_neg h]
    intro b hb
    rcases List.mem_append.mp hb with hb | hb
    · exact ih b hb
    · rw [List.mem_singleton.mp hb]
      exact isDigit_digit (Nat.mod_lt n (by omega))

theorem digits_ne_nil (n : Nat) : digits n ≠ [] := by
  rw [digits]
  split_ifs <;> simp

theorem value_append_digit (s : List UInt8) {n : Nat} (h : n < 10) :
    value (s ++ [digit n]) = value s * 10 + n := by
  simp [value, digit_toNat h]

theorem value_digits (n : Nat) : value (digits n) = n := by
  induction n using digits.induct with
  | case1 n h =>
    rw [digits, if_pos h]
    simpa [value] using value_append_digit [] h
  | case2 n h ih =>
    rw [digits, if_neg h, value_append_digit _ (Nat.mod_lt n (by omega)), ih]
    omega

theorem length_digits_le {n k : Nat} (h : n < 10 ^ (k + 1)) : (digits n).length ≤ k + 1 := by
  induction k generalizing n with
  | zero => simp [digits, show n < 10 by simpa using h]
  | succ k ih =>
    rw [digits]
    split_ifs with hn
    · simp
    · have hd : n / 10 < 10 ^ (k + 1) := by
        rw [Nat.div_lt_iff_lt_mul (by omega), ← pow_succ]
        exact h
      simpa using ih hd

theorem value_lt (s : List UInt8) (h : ∀ b ∈ s, isDigit b = true) : value s < 10 ^ s.length := by
  induction s using List.reverseRecOn with
  | nil => simp [value]
  | append_singleton s b ih =>
    have hb := h b (by simp)
    simp only [isDigit, Bool.and_eq_true, decide_eq_true_eq, UInt8.le_iff_toNat_le] at hb
    have hs := ih fun c hc => h c (by simp [hc])
    have hv : value (s ++ [b]) = value s * 10 + (b.toNat - 48) := by simp [value]
    have h57 : b.toNat ≤ 57 := hb.2
    rw [hv, List.length_append, List.length_singleton, pow_succ]
    omega

end MbedClient.Decimal
