import Mathlib.Algebra.Order.Group.Nat
import MbedClient.CNumber
import MbedClient.ObjectTree

/-! `String::convert_integer_to_array` and `convert_array_to_integer`: numbers as bytes with the
most significant one first. -/
namespace MbedClient

/-- The size grows already at the greatest number that would fit. -/
def arraySize (value : Int) : Nat :=
  if value < 0xFF then 1
  else if value < 0xFFFF then 2
  else if value < 0xFFFFFF then 3
  else if value < 0xFFFFFFFF then 4
  else if value < 0xFFFFFFFFFF then 5
  else if value < 0xFFFFFFFFFFFF then 6
  else if value < 0xFFFFFFFFFFFFFF then 7
  else 8

/-- NULL if the buffer cannot be allocated. -/
def convertIntegerToArray (value : Int64) (h : Heap) : Option Bytes × Heap :=
  let size := arraySize value.toInt
  let (buffer, h) := h.malloc
  (if buffer then
    some ((List.range size).map fun i => UInt8.ofInt (value.toInt >>> ((size - i - 1) * 8)))
  else none, h)

/-- `temp_64 += (uint64_t)(*value++) << i * 8`, where `i` bytes are left behind the next one. -/
def arrayLoop : Bytes → UInt64 → UInt64
  | [], temp => temp
  | b :: s, temp => arrayLoop s (temp + b.toUInt64 <<< UInt64.ofNat (s.length * 8))

/-- Nothing for more than eight bytes: a shift by 64 or more is undefined. -/
def convertArrayToInteger (value : Bytes) : Option Int64 :=
  if value.length ≤ 8 then some (arrayLoop value 0).toInt64 else none

/-- With the optional `array`, whose number then takes the place of `value`. -/
def convertIntegerToArrayOf (value : Int64) (array : Option Bytes) (h : Heap) :
    Option (Option Bytes × Heap) :=
  match array with
  | some array => (convertArrayToInteger array).map fun value => convertIntegerToArray value h
  | none => some (convertIntegerToArray value h)

namespace BigEndian

def value : Bytes → Nat
  | [] => 0
  | b :: s => b.toNat * 256 ^ s.length + value s

def bytes (size n : Nat) : Bytes :=
  (List.range size).map fun i => UInt8.ofNat (n / 256 ^ (size - i - 1))

theorem bytes_succ (size n : Nat) :
    bytes (size + 1) n = UInt8.ofNat (n / 256 ^ size) :: bytes size n := by
  rw [bytes, List.range_succ_eq_map, List.map_cons, List.map_map]
  refine congrArg₂ List.cons (by simp) (List.map_congr_left fun i _ => ?_)
  have hi : size + 1 - (i + 1) - 1 = size - i - 1 := by omega
  rw [Function.comp_apply, Nat.succ_eq_add_one, hi]

theorem length_bytes (size n : Nat) : (bytes size n).length = size := by simp [bytes]

theorem value_bytes (size n : Nat) : value (bytes size n) = n % 256 ^ size := by
  induction size with
  | zero => rw [pow_zero, Nat.mod_one]; rfl
  | succ size ih =>
    have hmod : n % 256 ^ (size + 1) = n % 256 ^ size + 256 ^ size * (n / 256 ^ size % 256) :=
      Nat.mod_pow_succ
    rw [bytes_succ, value, ih, length_bytes, UInt8.toNat_ofNat', hmod, Nat.add_comm, Nat.mul_comm]

theorem value_lt (s : Bytes) : value s < 256 ^ s.length := by
  induction s with
  | nil => exact Nat.one_pos
  | cons b s ih =>
    have hb := b.toNat_lt
    rw [value, List.length_cons, pow_succ]
    nlinarith [Nat.one_le_pow s.length 256 (by decide)]

theorem value_append (s t : Bytes) : value (s ++ t) = value s * 256 ^ t.length + value t := by
  induction s with
  | nil => simp [value]
  | cons b s ih =>
    rw [List.cons_append, value, value, ih, List.length_append, pow_add]
    ring

/-- What a number is modulo a power of 256 are its last bytes. -/
theorem value_mod (s : Bytes) {k : Nat} (hk : k ≤ s.length) :
    value s % 256 ^ k = value (s.drop (s.length - k)) := by
  have hlen : (s.drop (s.length - k)).length = k := by
    rw [List.length_drop]
    omega
  have hlt := value_lt (s.drop (s.length - k))
  have hsplit := value_append (s.take (s.length - k)) (s.drop (s.length - k))
  rw [hlen] at hlt hsplit
  rw [List.take_append_drop] at hsplit
  rw [hsplit, Nat.mul_add_mod_self_right, Nat.mod_eq_of_lt hlt]

/-- Bytes from 0x30 on make a great number. -/
theorem le_value {s : Bytes} (hs : ∀ b ∈ s, 48 ≤ b.toNat) :
    48 * 256 ^ s.length ≤ 255 * value s + 48 := by
  induction s with
  | nil => simp [value]
  | cons b s ih =>
    have hb := hs b List.mem_cons_self
    have hrest := ih fun c hc => hs c (List.mem_cons_of_mem b hc)
    have hhead : 48 * 256 ^ s.length ≤ b.toNat * 256 ^ s.length := Nat.mul_le_mul_right _ hb
    rw [value, List.length_cons, pow_succ]
    omega

/-- Read as a 32-bit number, a decimal numeral of at most eight digits passes its own value. -/
theorem decimal_lt {s : Bytes} (hd : ∀ b ∈ s, Decimal.isDigit b = true) (hne : s ≠ [])
    (hs : s.length ≤ 8) : Decimal.value s < value s % 256 ^ 4 := by
  have hv := Decimal.value_lt s hd
  have h48 : ∀ b ∈ s, 48 ≤ b.toNat := fun b hb => by
    have hb := hd b hb
    simp only [Decimal.isDigit, Bool.and_eq_true, decide_eq_true_eq, UInt8.le_iff_toNat_le] at hb
    exact hb.1
  have hpos := List.length_pos_iff.mpr hne
  rcases Nat.lt_or_ge s.length 4 with hlt | hge
  · have hlow := le_value h48
    have hmod := Nat.mod_eq_of_lt ((value_lt s).trans_le
      (Nat.pow_le_pow_right (by decide : 256 > 0) hlt.le))
    rw [hmod]
    have hcases : s.length = 1 ∨ s.length = 2 ∨ s.length = 3 := by omega
    rcases hcases with hl | hl | hl <;> rw [hl] at hv hlow <;> omega
  · have hlen : (s.drop (s.length - 4)).length = 4 := by
      rw [List.length_drop]
      omega
    have hlow := le_value (s := s.drop (s.length - 4)) fun b hb => h48 b (List.mem_of_mem_drop hb)
    rw [hlen] at hlow
    have hpow : 10 ^ s.length ≤ 10 ^ 8 := Nat.pow_le_pow_right (by decide) hs
    rw [value_mod s hge]
    omega

theorem toNat_arrayLoop {s : Bytes} (hs : s.length ≤ 8) (temp : UInt64) :
    (arrayLoop s temp).toNat = (temp.toNat + value s) % 2 ^ 64 := by
  induction s generalizing temp with
  | nil => exact (Nat.mod_eq_of_lt temp.toNat_lt).symm
  | cons b s ih =>
    rw [List.length_cons] at hs
    have hshift : (b.toUInt64 <<< UInt64.ofNat (s.length * 8)).toNat =
        b.toNat * 256 ^ s.length % 2 ^ 64 := by
      have h64 : s.length * 8 % 2 ^ 64 % 64 = s.length * 8 := by omega
      have hpow : 2 ^ (s.length * 8) = 256 ^ s.length := by
        rw [Nat.mul_comm, pow_mul]
        rfl
      rw [UInt64.toNat_shiftLeft, UInt64.toNat_ofNat', Nat.shiftLeft_eq, UInt8.toNat_toUInt64,
        h64, hpow]
    rw [arrayLoop, ih (by omega), UInt64.toNat_add, hshift, value]
    omega

theorem convertArrayToInteger_eq {s : Bytes} {temp : Int64}
    (h : convertArrayToInteger s = some temp) : temp.toUInt64.toNat = value s := by
  unfold convertArrayToInteger at h
  split_ifs at h with hs
  obtain rfl := Option.some.inj h
  have hlt : value s < 2 ^ 64 :=
    (value_lt s).trans_le (Nat.pow_le_pow_right (by decide : 256 > 0) hs)
  have hloop := toNat_arrayLoop hs 0
  rw [UInt64.toNat_zero, Nat.zero_add, Nat.mod_eq_of_lt hlt] at hloop
  exact hloop

theorem ofInt_natCast (k : Nat) : UInt8.ofInt k = UInt8.ofNat k := by
  refine UInt8.toNat_inj.mp ?_
  rw [UInt8.ofInt, UInt8.toNat_ofNat', UInt8.toNat_ofNat']
  omega

theorem convertIntegerToArray_eq {n : Nat} (hn : n < 2 ^ 63) (h : Heap) :
    convertIntegerToArray (Int64.ofNat n) h =
      (if h.malloc.1 then some (bytes (arraySize n) n) else none, h.malloc.2) := by
  have hint : (Int64.ofNat n).toInt = n := Int64.toInt_ofNat_of_lt (by omega)
  have hbytes : ((List.range (arraySize n)).map fun i =>
      UInt8.ofInt ((n : Int) >>> ((arraySize n - i - 1) * 8))) = bytes (arraySize n) n := by
    refine List.map_congr_left fun i _ => ?_
    have hpow : 2 ^ ((arraySize n - i - 1) * 8) = 256 ^ (arraySize n - i - 1) := by
      rw [Nat.mul_comm, pow_mul]
      rfl
    rw [Int.shiftRight_eq_div_pow, hpow, ← Int.natCast_div, ofInt_natCast]
  rw [convertIntegerToArray, hint, hbytes]

theorem lt_arraySize {n : Nat} (hn : n < 2 ^ 63) :
    n < 256 ^ arraySize n ∧ arraySize n ≤ 8 := by
  unfold arraySize
  split_ifs <;> norm_num <;> omega

theorem arraySize_pos (n : Int) : 0 < arraySize n := by
  unfold arraySize
  split_ifs <;> decide

/-- Up to eight bytes of a number of 63 bits are read as this number. -/
theorem convertArrayToInteger_value {s : Bytes} (hs : s.length ≤ 8) (hv : value s < 2 ^ 63) :
    convertArrayToInteger s = some (Int64.ofNat (value s)) := by
  have hread : convertArrayToInteger s = some (arrayLoop s 0).toInt64 := if_pos hs
  have hnat := convertArrayToInteger_eq hread
  have hof : (Int64.ofNat (value s)).toUInt64.toNat = value s := by
    apply Nat.mod_eq_of_lt
    omega
  have heq := UInt64.toNat_inj.mp (hnat.trans hof.symm)
  exact hread.trans (congrArg (fun u => some (UInt64.toInt64 u)) heq)

/-- What is written of a number is its big-endian form, and is read as this number. -/
theorem convertIntegerToArray_bytes {n : Nat} (hn : n < 2 ^ 63) {h : Heap}
    (hm : h.malloc.1 = true) :
    ∃ s, (convertIntegerToArray (Int64.ofNat n) h).1 = some s ∧ 1 ≤ s.length ∧ s.length ≤ 8 ∧
      s = bytes s.length n ∧ value s = n ∧ convertArrayToInteger s = some (Int64.ofNat n) := by
  have hsize := lt_arraySize hn
  have hlen := length_bytes (arraySize n) n
  have hval : value (bytes (arraySize n) n) = n := by
    rw [value_bytes, Nat.mod_eq_of_lt hsize.1]
  have hle : (bytes (arraySize n) n).length ≤ 8 := hlen.trans_le hsize.2
  have hread := convertArrayToInteger_value hle (hval.trans_lt hn)
  rw [hval] at hread
  refine ⟨bytes (arraySize n) n, ?_, ?_, hle, ?_, hval, hread⟩
  · rw [convertIntegerToArray_eq hn, hm, if_pos rfl]
  · rw [hlen]
    exact arraySize_pos n
  · rw [hlen]

/-- Both round trips of the conversions, for every number of 63 bits and for every array of up to
eight bytes that holds one. -/
theorem convertIntegerToArray_roundTrip :
    (∀ (v : Int64) (h : Heap), 0 ≤ v.toInt → h.malloc.1 = true →
      ∃ s h', convertIntegerToArrayOf v none h = some (some s, h') ∧ 1 ≤ s.length ∧
        s.length ≤ 8 ∧ s = bytes s.length v.toInt.toNat ∧ value s = v.toInt.toNat ∧
        convertArrayToInteger s = some v) ∧
    ∀ (s : Bytes) (v : Int64) (h : Heap), 1 ≤ s.length → s.length ≤ 8 → value s < 2 ^ 63 →
      h.malloc.1 = true →
      ∃ t h', convertIntegerToArrayOf v (some s) h = some (some t, h') ∧ value t = value s ∧
        convertArrayToInteger t = convertArrayToInteger s := by
  constructor
  · intro v h hv hm
    have hlt : v.toInt.toNat < 2 ^ 63 := by
      have := v.toInt_lt
      omega
    have hof : Int64.ofNat v.toInt.toNat = v := by
      rw [← Int64.toInt_inj, Int64.toInt_ofNat_of_lt hlt, Int.toNat_of_nonneg hv]
    obtain ⟨s, hs, hpos, hle, hbytes, hval, hread⟩ := convertIntegerToArray_bytes hlt hm
    rw [hof] at hs hread
    exact ⟨s, (convertIntegerToArray v h).2, by rw [← hs]; rfl, hpos, hle, hbytes, hval, hread⟩
  · intro s v h _ hle hv hm
    have hread := convertArrayToInteger_value hle hv
    obtain ⟨t, ht, _, _, _, hval, hback⟩ := convertIntegerToArray_bytes hv hm
    refine ⟨t, (convertIntegerToArray (Int64.ofNat (value s)) h).2, ?_, hval,
      hback.trans hread.symm⟩
    rw [convertIntegerToArrayOf, hread, ← ht]
    rfl

/-- At the greatest one-byte threshold, where already two bytes are written. -/
theorem convertIntegerToArray_roundTrip_255 :
    (∃ s h', convertIntegerToArrayOf 255 none (fun _ => true) = some (some s, h') ∧
      1 ≤ s.length ∧ s.length ≤ 8 ∧ s = bytes s.length 255 ∧ value s = 255 ∧
      convertArrayToInteger s = some 255) ∧
    ∃ t h', convertIntegerToArrayOf 0 (some [0, 255]) (fun _ => true) = some (some t, h') ∧
      value t = 255 ∧ convertArrayToInteger t = some 255 := by
  refine ⟨convertIntegerToArray_roundTrip.1 255 _ (by decide) rfl, ?_⟩
  exact convertIntegerToArray_roundTrip.2 [0, 255] 0 _ (by decide) (by decide) (by decide) rfl

end BigEndian
end MbedClient
