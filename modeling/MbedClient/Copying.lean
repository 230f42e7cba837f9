import MbedClient.CNumber

/-! C strings and copies of them into `char` arrays. A computation keeps a log of its copies, and
has no value once it has left what C defines. A pointer into a string is the part of the string
that it points to. -/
namespace MbedClient

abbrev CString := { s : Bytes // 0 ∉ s }

/-- `strchr`, or `strstr` for a text of one character. -/
def strchr (s : Bytes) (c : UInt8) : Option Bytes :=
  match s.dropWhile (· != c) with
  | [] => none
  | p => some p

theorem bne_of_notMem {s : Bytes} {c : UInt8} (h : c ∉ s) : ∀ x ∈ s, (x != c) = true := by
  intro x hx
  rw [bne_iff_ne]
  rintro rfl
  exact h hx

theorem strchr_of_notMem {s : Bytes} {c : UInt8} (h : c ∉ s) : strchr s c = none := by
  have hdrop : s.dropWhile (· != c) = [] := by
    exact List.dropWhile_eq_nil_iff.mpr (bne_of_notMem h)
  rw [strchr, hdrop]

theorem strchr_append {a : Bytes} {c : UInt8} (h : c ∉ a) (t : Bytes) :
    strchr (a ++ c :: t) c = some (c :: t) := by
  have hdrop : (a ++ c :: t).dropWhile (· != c) = c :: t := by
    rw [List.dropWhile_append_of_pos (bne_of_notMem h)]
    simp
  rw [strchr, hdrop]

/-- A string without the character, or one that is cut at its first occurrence. -/
theorem strchr_cases (s : Bytes) (c : UInt8) :
    (c ∉ s ∧ strchr s c = none) ∨
      ∃ a t, c ∉ a ∧ s = a ++ c :: t ∧ strchr s c = some (c :: t) := by
  by_cases h : c ∈ s
  · obtain ⟨a, t, rfl, ha⟩ := List.eq_append_cons_of_mem h
    exact Or.inr ⟨a, t, ha, rfl, strchr_append ha t⟩
  · exact Or.inl ⟨h, strchr_of_notMem h⟩

theorem mem_intercalate {sep option : Bytes} {options : List Bytes} {x : UInt8}
    (hoption : option ∈ options) (hx : x ∈ option) : x ∈ sep.intercalate options := by
  induction options with
  | nil => exact absurd hoption List.not_mem_nil
  | cons o options ih =>
    rcases List.mem_cons.mp hoption with rfl | hrest
    · cases options with
      | nil => rwa [List.intercalate_singleton]
      | cons o' options =>
        rw [List.intercalate_cons_cons, List.append_assoc]
        exact List.mem_append_left _ hx
    · rw [List.intercalate_cons_of_ne_nil (List.ne_nil_of_mem hrest)]
      exact List.mem_append_right _ (ih hrest)

theorem mem_of_mem_splitOn {s option : Bytes} {c x : UInt8} (hoption : option ∈ s.splitOn c)
    (hx : x ∈ option) : x ∈ s := by
  have : x ∈ [c].intercalate (s.splitOn c) := mem_intercalate hoption hx
  rwa [List.intercalate_splitOn] at this

/-- A copy to the start of an array: what the array holds, and the bytes that go over it. -/
structure Copy where
  array : Bytes
  bytes : Bytes
  deriving DecidableEq

namespace Copy
variable (c : Copy)

def after : Bytes := c.bytes ++ c.array.drop c.bytes.length

def Inside : Prop := c.bytes.length ≤ c.array.length
def Terminated : Prop := 0 ∈ c.after

instance : Decidable c.Inside := inferInstanceAs (Decidable (_ ≤ _))
instance : Decidable c.Terminated := inferInstanceAs (Decidable (_ ∈ _))

end Copy

structure Copying (α : Type) where
  value : Option α
  copies : List Copy

namespace Copying
variable {α β : Type}

instance : Monad Copying where
  pure a := ⟨some a, []⟩
  bind m f :=
    match m.value with
    | none => ⟨none, m.copies⟩
    | some a => ⟨(f a).value, m.copies ++ (f a).copies⟩

@[simp] theorem value_pure (a : α) : (pure a : Copying α).value = some a := rfl
@[simp] theorem copies_pure (a : α) : (pure a : Copying α).copies = [] := rfl

@[simp] theorem value_bind (m : Copying α) (f : α → Copying β) :
    (m >>= f).value = m.value.bind fun a => (f a).value := by
  cases h : m.value with
  | none => simp only [bind, h, Option.bind_none]
  | some a => simp only [bind, h, Option.bind_some]

theorem copies_bind_some {m : Copying α} {a : α} (h : m.value = some a) (f : α → Copying β) :
    (m >>= f).copies = m.copies ++ (f a).copies := by
  simp only [bind, h]

theorem copies_bind_none {m : Copying α} (h : m.value = none) (f : α → Copying β) :
    (m >>= f).copies = m.copies := by
  simp only [bind, h]

/-- Copying past the end of the array leaves C. -/
def memcpy (array bytes : Bytes) : Copying Bytes :=
  let c : Copy := ⟨array, bytes⟩
  ⟨if c.Inside then some c.after else none, [c]⟩

/-- The string in an array, which ends at the first NUL. To look for its end in an array without
one leaves C. -/
def string (array : Bytes) : Copying Bytes :=
  ⟨if 0 ∈ array then some (array.takeWhile (· != 0)) else none, []⟩

/-- The computation ends within C, with a value of which `Q` holds. -/
def Ends (m : Copying α) (Q : α → Prop) : Prop := ∃ a, m.value = some a ∧ Q a

def Contained (m : Copying α) : Prop := ∀ c ∈ m.copies, c.Inside ∧ c.Terminated

theorem ends_of_value {m : Copying α} {a : α} {Q : α → Prop} (h : m.value = some a) :
    m.Ends Q ↔ Q a := by
  simp [Ends, h]

theorem not_ends {m : Copying α} {Q : α → Prop} (h : m.value = none) : ¬m.Ends Q := by
  simp [Ends, h]

@[simp] theorem contained_pure (a : α) : (pure a : Copying α).Contained := by
  simp [Contained]

theorem contained_bind {m : Copying α} {a : α} (h : m.value = some a) (f : α → Copying β) :
    (m >>= f).Contained ↔ m.Contained ∧ (f a).Contained := by
  rw [Contained, copies_bind_some h, List.forall_mem_append]
  rfl

theorem contained_bind_none {m : Copying α} (h : m.value = none) (f : α → Copying β) :
    (m >>= f).Contained ↔ m.Contained := by
  simp [Contained, copies_bind_none h]

@[simp] theorem contained_string (array : Bytes) : (string array).Contained := by
  simp [Contained, string]

theorem contained_memcpy (array bytes : Bytes) :
    (memcpy array bytes).Contained ↔
      (⟨array, bytes⟩ : Copy).Inside ∧ (⟨array, bytes⟩ : Copy).Terminated := by
  simp [Contained, memcpy]

end Copying

def zeros (n : Nat) : Bytes := List.replicate n 0

section Cleared
variable {n : Nat} {bytes : Bytes}

theorem inside_zeros : (⟨zeros n, bytes⟩ : Copy).Inside ↔ bytes.length ≤ n := by
  simp [Copy.Inside, zeros]

theorem after_zeros : (⟨zeros n, bytes⟩ : Copy).after = bytes ++ zeros (n - bytes.length) := by
  simp [Copy.after, zeros]

theorem terminated_zeros : (⟨zeros n, bytes⟩ : Copy).Terminated ↔ 0 ∈ bytes ∨ bytes.length < n := by
  rw [Copy.Terminated, after_zeros, List.mem_append, zeros, List.mem_replicate]
  simp [Nat.sub_eq_zero_iff_le]

theorem value_memcpy_zeros (h : bytes.length ≤ n) :
    (Copying.memcpy (zeros n) bytes).value = some (bytes ++ zeros (n - bytes.length)) := by
  rw [Copying.memcpy]
  simp only [if_pos (inside_zeros.mpr h), after_zeros]

theorem value_memcpy_zeros_none (h : n < bytes.length) :
    (Copying.memcpy (zeros n) bytes).value = none := by
  rw [Copying.memcpy]
  simp only [if_neg (mt inside_zeros.mp (not_le.mpr h))]

theorem takeWhile_zeros (h : 0 ∉ bytes) (k : Nat) :
    (bytes ++ zeros k).takeWhile (· != 0) = bytes := by
  rw [List.takeWhile_append_of_pos (bne_of_notMem h)]
  cases k with
  | zero => simp [zeros]
  | succ k => simp [zeros, List.replicate_succ]

theorem value_string_zeros (h : 0 ∉ bytes) {k : Nat} (hk : 0 < k) :
    (Copying.string (bytes ++ zeros k)).value = some bytes := by
  have hmem : (0 : UInt8) ∈ bytes ++ zeros k :=
    List.mem_append_right bytes (List.mem_replicate.mpr ⟨by omega, rfl⟩)
  rw [Copying.string]
  simp only [if_pos hmem, takeWhile_zeros h]

theorem value_string_none (h : 0 ∉ bytes) : (Copying.string bytes).value = none := by
  rw [Copying.string]
  simp only [if_neg h]

end Cleared

/-- `strcmp(array, text) == 0`: the comparison ends at the first byte that differs. -/
def strcmpEq (array text : Bytes) : Bool := (text ++ [0]).isPrefixOf array

/-- Unlike a shorter one, a string as long as the array is equal to no text that would have ended in
it. -/
theorem strcmpEq_zeros {n : Nat} {bytes text : Bytes} (hb : 0 ∉ bytes) (ht : 0 ∉ text)
    (hlength : text.length < n) :
    strcmpEq (bytes ++ zeros (n - bytes.length)) text = decide (bytes = text) := by
  rw [strcmpEq, Bool.eq_iff_iff, List.isPrefixOf_iff_prefix, decide_eq_true_iff]
  constructor
  · rintro ⟨rest, hrest⟩
    have htext : (text ++ [0] ++ rest).takeWhile (· != 0) = text := by
      rw [List.append_assoc, List.takeWhile_append_of_pos (bne_of_notMem ht)]
      simp
    rw [← takeWhile_zeros hb (n - bytes.length), ← hrest, htext]
  · rintro rfl
    obtain ⟨k, hk⟩ : ∃ k, n - bytes.length = k + 1 := ⟨n - bytes.length - 1, by omega⟩
    refine ⟨zeros k, ?_⟩
    rw [hk, zeros, zeros, List.replicate_succ, List.append_assoc, List.singleton_append]

end MbedClient
