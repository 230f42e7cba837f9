import MbedClient.Search

/-! The first entry of a list that passes a test, while other entries come, go and change. What is
looked up is something that the entry holds. -/
namespace MbedClient.Search
variable {α β : Type*} {p : α → Bool} {xs ys : List α} {x y : α} {i : Nat}

theorem exists_first (h : xs.find? p = some x) : ∃ i, first p xs = some (i, x) := by
  induction xs with
  | nil => simp at h
  | cons a xs ih =>
    rw [List.find?_cons] at h
    cases ha : p a with
    | true =>
      rw [ha] at h
      obtain rfl := Option.some.inj h
      exact ⟨0, first_eq_some.mpr ⟨by simp [List.findIdx?_cons, ha], rfl⟩⟩
    | false =>
      rw [ha] at h
      obtain ⟨i, hi⟩ := ih h
      obtain ⟨hidx, hget⟩ := first_eq_some.mp hi
      exact ⟨i + 1, first_eq_some.mpr ⟨by simp [List.findIdx?_cons, ha, hidx], hget⟩⟩

theorem find?_set_first (h : first p xs = some (i, x)) (hy : p y = true) :
    (xs.set i y).find? p = some y := by
  obtain ⟨hidx, -⟩ := first_eq_some.mp h
  clear h
  induction xs generalizing i with
  | nil => simp at hidx
  | cons a xs ih =>
    rw [List.findIdx?_cons] at hidx
    cases ha : p a with
    | true =>
      rw [ha] at hidx
      obtain rfl := Option.some.inj hidx
      rw [List.set_cons_zero, List.find?_cons_of_pos hy]
    | false =>
      rw [ha] at hidx
      obtain ⟨k, hk, rfl⟩ := Option.map_eq_some_iff.mp hidx
      rw [List.set_cons_succ, List.find?_cons_of_neg (by simp [ha]), ih hk]

section Held
variable {f : α → Option β} {b : β}

/-- Another entry in the place of one, which holds the same. -/
theorem held_set (hi : xs[i]? = some x) (hp : p y = p x)
    (hf : p x = true → f x = some b → f y = some b) (h : (xs.find? p).bind f = some b) :
    ((xs.set i y).find? p).bind f = some b := by
  induction xs generalizing i with
  | nil => simp at h
  | cons a xs ih =>
    rw [List.find?_cons] at h
    cases i with
    | zero =>
      obtain rfl : a = x := Option.some.inj hi
      rw [List.set_cons_zero, List.find?_cons, hp]
      cases ha : p a with
      | true =>
        rw [ha] at h
        exact hf ha h
      | false =>
        rw [ha] at h
        exact h
    | succ i =>
      rw [List.set_cons_succ, List.find?_cons]
      cases ha : p a with
      | true =>
        rw [ha] at h
        exact h
      | false =>
        rw [ha] at h
        exact ih hi h

theorem held_append (h : (xs.find? p).bind f = some b) : ((xs ++ ys).find? p).bind f = some b := by
  obtain ⟨x, hx, hfx⟩ := Option.bind_eq_some_iff.mp h
  rw [List.find?_append, hx, Option.some_or, Option.bind_some, hfx]

end Held

theorem find?_eraseIdx (hi : xs[i]? = some x) (hx : p x = false) :
    (xs.eraseIdx i).find? p = xs.find? p := by
  induction xs generalizing i with
  | nil => rfl
  | cons a xs ih =>
    cases i with
    | zero =>
      obtain rfl : a = x := Option.some.inj hi
      rw [List.eraseIdx_cons_zero, List.find?_cons_of_neg (by simp [hx])]
    | succ i =>
      rw [List.eraseIdx_cons_succ, List.find?_cons, List.find?_cons, ih hi]

/-- A loop over a list with indices comes to the first entry that passes. -/
theorem findSome?_first {g : α × Nat → Option β} {b : β} (h : first p xs = some (i, x))
    (hother : ∀ y ∈ xs, p y = false → ∀ j, g (y, j) = none) (hx : g (x, i) = some b) :
    xs.zipIdx.findSome? g = some b := by
  obtain ⟨hidx, hget⟩ := first_eq_some.mp h
  clear h
  suffices hfrom : ∀ s, g (x, s + i) = some b → (xs.zipIdx s).findSome? g = some b by
    exact hfrom 0 (by rwa [Nat.zero_add])
  clear hx
  induction xs generalizing i with
  | nil => simp at hget
  | cons a xs ih =>
    intro s hx
    rw [List.zipIdx_cons, List.findSome?_cons]
    rw [List.findIdx?_cons] at hidx
    cases ha : p a with
    | true =>
      rw [ha] at hidx
      obtain rfl := Option.some.inj hidx
      obtain rfl : a = x := Option.some.inj hget
      rw [show g (a, s) = some b from hx]
    | false =>
      rw [ha] at hidx
      obtain ⟨k, hk, rfl⟩ := Option.map_eq_some_iff.mp hidx
      rw [hother a List.mem_cons_self ha s]
      refine ih (fun y hy => hother y (List.mem_cons_of_mem a hy)) hk hget (s + 1) ?_
      rwa [show s + 1 + k = s + (k + 1) by omega]

end MbedClient.Search
