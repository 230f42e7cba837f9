import Mathlib.Data.List.Basic

/-! Arrays in memory, each behind a pointer. An access outside of an array, or to an array that has
been deleted, has no result. -/
namespace MbedClient

abbrev ArrayPointer := Option Nat

/-- A deleted array leaves its address, which is not used again. -/
structure ArrayHeap (α : Type*) where
  arrays : List (Option (List α))

namespace ArrayHeap
variable {α : Type*} (h : ArrayHeap α)

def cells (p : ArrayPointer) : Option (List α) := p.bind fun a => h.arrays[a]?.join

def new (l : List α) : ArrayHeap α × ArrayPointer := (⟨h.arrays ++ [some l]⟩, some h.arrays.length)

def put (p : ArrayPointer) (l : Option (List α)) : ArrayHeap α :=
  ⟨p.elim h.arrays fun a => h.arrays.set a l⟩

/-- The NULL pointer may be deleted. -/
def delete (p : ArrayPointer) : Option (ArrayHeap α) :=
  if p = none ∨ (h.cells p).isSome then some (h.put p none) else none

def get (p : ArrayPointer) (k : Int) : Option α := do
  let l ← h.cells p
  if 0 ≤ k then l[k.toNat]? else none

def set (p : ArrayPointer) (k : Int) (x : α) : Option (ArrayHeap α) := do
  let l ← h.cells p
  if 0 ≤ k ∧ k < l.length then some (h.put p (some (l.set k.toNat x))) else none

/-- `q[j] = p[i]`, `q[j + 1] = p[i + 1]` and so on, `n` times -/
def copy (p q : ArrayPointer) : Nat → Int → Int → ArrayHeap α → Option (ArrayHeap α)
  | 0, _, _, h => some h
  | n + 1, i, j, h => do
    let h ← h.set q j (← h.get p i)
    copy p q n (i + 1) (j + 1) h

variable {h} {p q : ArrayPointer} {l src dst : List α} {i j n : Nat}

theorem cells_put_self {m : Option (List α)} (hp : h.cells p = some l) :
    (h.put p m).cells p = m := by
  cases p with
  | none => cases hp
  | some a =>
    have hlt : a < h.arrays.length := by
      by_contra hge
      rw [cells, Option.bind_some, List.getElem?_eq_none (Nat.le_of_not_lt hge)] at hp
      cases hp
    simp [cells, put, List.getElem?_set_self hlt]

theorem cells_put_of_ne {m : Option (List α)} (hne : q ≠ p) : (h.put p m).cells q = h.cells q := by
  cases p with
  | none => rfl
  | some a =>
    cases q with
    | none => rfl
    | some b =>
      have hab : a ≠ b := fun hc => hne (congrArg some hc.symm)
      simp [cells, put, List.getElem?_set_ne hab]

theorem put_put (m m' : Option (List α)) : (h.put p m).put p m' = h.put p m' := by
  cases p with
  | none => rfl
  | some a => simp [put, List.set_set]

theorem put_self (hp : h.cells p = some l) : h.put p (some l) = h := by
  cases p with
  | none => rfl
  | some a =>
    have ha : h.arrays[a]? = some (some l) := Option.join_eq_some_iff.mp hp
    obtain ⟨hlt, hget⟩ := List.getElem?_eq_some_iff.mp ha
    obtain ⟨arrays⟩ := h
    simp only [put, Option.elim_some, ← hget, List.set_getElem_self]

/-- A new array is not one of those there are. -/
theorem cells_new_none (l : List α) : h.cells (h.new l).2 = none := by
  simp [cells, new]

theorem cells_new_self (l : List α) : (h.new l).1.cells (h.new l).2 = some l := by
  simp [cells, new]

theorem cells_new_of_some {m : List α} (hp : h.cells p = some l) :
    (h.new m).1.cells p = some l := by
  cases p with
  | none => cases hp
  | some a =>
    have ha : h.arrays[a]? = some (some l) := Option.join_eq_some_iff.mp hp
    have hlt := (List.getElem?_eq_some_iff.mp ha).1
    simp only [cells, new, Option.bind_some, List.getElem?_append_left hlt, ha, Option.join_some]

theorem delete_of_some (hp : h.cells p = some l) : h.delete p = some (h.put p none) := by
  rw [delete, hp]
  exact if_pos (.inr rfl)

theorem get_of_lt (hp : h.cells p = some l) (hi : i < l.length) : h.get p i = some l[i] := by
  simp [get, hp, List.getElem?_eq_getElem hi]

theorem set_of_lt {x : α} (hp : h.cells p = some l) (hi : i < l.length) :
    h.set p i x = some (h.put p (some (l.set i x))) := by
  simp [set, hp, hi]

theorem get_of_none {k : Int} (hp : h.cells p = none) : h.get p k = none := by
  rw [get, hp]
  rfl

/-- Elements that are copied one after the other arrive as they were, unless they are copied to
where later ones are still to be read. -/
theorem copy_eq (hp : h.cells p = some src) (hq : h.cells q = some dst) (hi : i + n ≤ src.length)
    (hj : j + n ≤ dst.length) (hover : p = q → j ≤ i) :
    h.copy p q n i j =
      some (h.put q (some (dst.take j ++ (src.drop i).take n ++ dst.drop (j + n)))) := by
  induction n generalizing h src dst i j with
  | zero =>
    rw [List.take_zero, List.append_nil, Nat.add_zero, List.take_append_drop, put_self hq]
    rfl
  | succ n ih =>
    have hi' : i < src.length := by omega
    have hj' : j < dst.length := by omega
    have hset := set_of_lt (x := src[i]) hq hj'
    have hq' : (h.put q (some (dst.set j src[i]))).cells q = some (dst.set j src[i]) :=
      cells_put_self hq
    -- what is still to be read is not what has just been written
    obtain ⟨src', hp', hlen, hrest⟩ :
      ∃ src', (h.put q (some (dst.set j src[i]))).cells p = some src' ∧
        src'.length = src.length ∧ src'.drop (i + 1) = src.drop (i + 1) := by
      by_cases hpq : p = q
      · have hsame : src = dst := Option.some.inj (hp.symm.trans (hpq ▸ hq))
        refine ⟨dst.set j src[i], ?_, ?_, ?_⟩
        · rw [hpq]
          exact hq'
        · rw [List.length_set, hsame]
        · rw [List.drop_set_of_lt (Nat.lt_succ_of_le (hover hpq)), hsame]
      · exact ⟨src, (cells_put_of_ne hpq).trans hp, rfl, rfl⟩
    have hcopy := ih hp' hq' (i := i + 1) (j := j + 1) (by omega)
      (by rw [List.length_set]; omega) (fun hpq => Nat.succ_le_succ (hover hpq))
    rw [put_put, hrest] at hcopy
    have hhead : (dst.take j).length = j := List.length_take_of_le (Nat.le_of_lt hj')
    have htake : (dst.set j src[i]).take (j + 1) = dst.take j ++ [src[i]] := by
      rw [List.set_eq_take_append_cons_drop, if_pos hj', List.take_append, hhead,
        Nat.add_sub_cancel_left,
        List.take_of_length_le (by omega), List.take_succ_cons, List.take_zero]
    have hdrop : (dst.set j src[i]).drop (j + 1 + n) = dst.drop (j + (n + 1)) := by
      rw [List.drop_set_of_lt (by omega), Nat.add_right_comm, Nat.add_assoc]
    have hsrc : (src.drop i).take (n + 1) = src[i] :: (src.drop (i + 1)).take n := by
      rw [List.drop_eq_getElem_cons hi', List.take_succ_cons]
    rw [htake, hdrop, List.append_assoc (dst.take j), List.singleton_append, ← hsrc] at hcopy
    simp only [copy, get_of_lt hp hi', hset, Option.bind_eq_bind, Option.bind_some]
    exact_mod_cast hcopy

end ArrayHeap
end MbedClient
