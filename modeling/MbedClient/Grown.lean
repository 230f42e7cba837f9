import Mathlib.Data.List.Basic
import Mathlib.Data.List.Forall2

/-! Lists that keep their entries up to a relation and may gain fresh ones at the end. -/
namespace MbedClient
variable {α β : Type*}

/-- `ys` holds the entries of `xs`, in order and related by `R`, and fresh ones behind them. -/
inductive Grown (R : α → α → Prop) (Fresh : α → Prop) : List α → List α → Prop
  | nil {ys} : (∀ y ∈ ys, Fresh y) → Grown R Fresh [] ys
  | cons {x y xs ys} : R x y → Grown R Fresh xs ys → Grown R Fresh (x :: xs) (y :: ys)

namespace Grown
variable {R : α → α → Prop} {Fresh : α → Prop} {xs ys zs : List α}

theorem refl (hR : ∀ x, R x x) (xs : List α) : Grown R Fresh xs xs := by
  induction xs with
  | nil => exact nil (by simp)
  | cons x xs ih => exact cons (hR x) ih

theorem trans (hR : ∀ x y z, R x y → R y z → R x z) (hF : ∀ y z, Fresh y → R y z → Fresh z)
    (h : Grown R Fresh xs ys) (k : Grown R Fresh ys zs) : Grown R Fresh xs zs := by
  induction h generalizing zs with
  | nil hy =>
    refine nil ?_
    induction k with
    | nil hz => exact hz
    | cons hr _ ih =>
      intro z hz
      rcases List.mem_cons.mp hz with rfl | hz
      · exact hF _ _ (hy _ List.mem_cons_self) hr
      · exact ih (fun w hw => hy w (List.mem_cons_of_mem _ hw)) z hz
  | cons hr _ ih =>
    cases k with
    | cons hk ht => exact cons (hR _ _ _ hr hk) (ih ht)

theorem mono {S : α → α → Prop} {Fresh' : α → Prop} (hR : ∀ x y, R x y → S x y)
    (hF : ∀ y, Fresh y → Fresh' y) (h : Grown R Fresh xs ys) : Grown S Fresh' xs ys := by
  induction h with
  | nil hy => exact nil fun y hm => hF y (hy y hm)
  | cons hr _ ih => exact cons (hR _ _ hr) ih

theorem append (h : Grown R Fresh xs ys) {y : α} (hy : Fresh y) :
    Grown R Fresh xs (ys ++ [y]) := by
  induction h with
  | nil hf =>
    refine nil fun z hz => ?_
    rcases List.mem_append.mp hz with hz | hz
    · exact hf z hz
    · exact List.mem_singleton.mp hz ▸ hy
  | cons hr _ ih => exact cons hr ih

theorem set (hR : ∀ x, R x x) {k : Nat} {y z : α} (hk : ys[k]? = some y) (hz : R y z) :
    Grown R Fresh ys (ys.set k z) := by
  induction ys generalizing k with
  | nil => simp at hk
  | cons x xs ih =>
    cases k with
    | zero =>
      obtain rfl : x = y := by simpa using hk
      exact cons hz (refl hR xs)
    | succ k => exact cons (hR x) (ih (by simpa using hk))

theorem eq_of_eq (h : Grown Eq (fun _ : α => False) xs ys) : ys = xs := by
  induction h with
  | nil hy => exact List.eq_nil_iff_forall_not_mem.mpr hy
  | cons hr _ ih => rw [hr, ih]

theorem length_le (h : Grown R Fresh xs ys) : xs.length ≤ ys.length := by
  induction h with
  | nil _ => exact Nat.zero_le _
  | cons _ _ ih => exact Nat.succ_le_succ ih

/-- Without fresh entries. -/
theorem length_eq (h : Grown R (fun _ => False) xs ys) : ys.length = xs.length := by
  induction h with
  | nil hy => rw [List.eq_nil_iff_forall_not_mem.mpr hy]
  | cons _ _ ih => rw [List.length_cons, List.length_cons, ih]

theorem forall₂ (h : Grown R Fresh xs ys) (hF : ∀ y, ¬Fresh y) : List.Forall₂ R xs ys := by
  induction h with
  | nil hy =>
    rw [List.eq_nil_iff_forall_not_mem.mpr fun y hm => hF y (hy y hm)]
    exact .nil
  | cons hr _ ih => exact .cons hr ih

theorem antisymm (hR : ∀ x y, R x y → R y x → y = x) (h : Grown R Fresh xs ys)
    (k : Grown R Fresh ys xs) : ys = xs := by
  induction h with
  | nil hy => exact List.eq_nil_of_length_eq_zero (Nat.le_zero.mp k.length_le)
  | cons hr _ ih =>
    cases k with
    | cons hs ht => rw [hR _ _ hr hs, ih ht]

theorem getElem? (h : Grown R Fresh xs ys) {k : Nat} {x : α} (hk : xs[k]? = some x) :
    ∃ y, ys[k]? = some y ∧ R x y := by
  induction h generalizing k with
  | nil _ => simp at hk
  | cons hr _ ih =>
    cases k with
    | zero => exact ⟨_, rfl, by simpa [← Option.some.inj hk] using hr⟩
    | succ k => simpa using ih (by simpa using hk)

/-- Without fresh entries. -/
theorem getElem?_back (h : Grown R Fresh xs ys) (hF : ∀ y, ¬Fresh y) {k : Nat} {y : α}
    (hk : ys[k]? = some y) : ∃ x, xs[k]? = some x ∧ R x y := by
  induction h generalizing k with
  | nil hy => exact absurd (hy y (List.mem_of_getElem? hk)) (hF y)
  | cons hr _ ih =>
    cases k with
    | zero => exact ⟨_, rfl, by simpa [← Option.some.inj hk] using hr⟩
    | succ k => simpa using ih (by simpa using hk)

/-- A relation that can be shown of the entries at each position. -/
theorem strengthen {S : α → α → Prop} (h : Grown R Fresh xs ys)
    (hS : ∀ (k : Nat) x y, xs[k]? = some x → ys[k]? = some y → R x y → S x y) :
    Grown S Fresh xs ys := by
  induction h with
  | nil hy => exact nil hy
  | cons hr _ ih =>
    exact cons (hS 0 _ _ rfl rfl hr) (ih fun (k : Nat) x y hx hy => hS (k + 1) x y hx hy)

theorem mem (h : Grown R Fresh xs ys) {y : α} (hy : y ∈ ys) :
    (∃ x ∈ xs, R x y) ∨ Fresh y := by
  induction h with
  | nil hf => exact Or.inr (hf y hy)
  | cons hr _ ih =>
    rcases List.mem_cons.mp hy with rfl | hy
    · exact Or.inl ⟨_, List.mem_cons_self, hr⟩
    · rcases ih hy with ⟨x, hx, hxy⟩ | hf
      · exact Or.inl ⟨x, List.mem_cons_of_mem _ hx, hxy⟩
      · exact Or.inr hf

section Tests
variable {f : α → Bool} (hR : ∀ x y, R x y → f y = f x)
include hR

theorem any_eq (hF : ∀ y, Fresh y → f y = false) (h : Grown R Fresh xs ys) :
    ys.any f = xs.any f := by
  induction h with
  | nil hy => simpa using fun y hm => hF y (hy y hm)
  | cons hr _ ih => rw [List.any_cons, List.any_cons, hR _ _ hr, ih]

theorem any_mono (h : Grown R Fresh xs ys) (hx : xs.any f = true) : ys.any f = true := by
  induction h with
  | nil _ => simp at hx
  | cons hr _ ih =>
    rw [List.any_cons, hR _ _ hr] at *
    rcases Bool.or_eq_true _ _ ▸ hx with hx | hx
    · simp [hx]
    · simp [ih hx]

theorem findIdx?_some (h : Grown R Fresh xs ys) {k : Nat} (hk : xs.findIdx? f = some k) :
    ys.findIdx? f = some k := by
  induction h generalizing k with
  | nil _ => simp at hk
  | cons hr _ ih =>
    rw [List.findIdx?_cons] at *
    rw [hR _ _ hr]
    split_ifs at hk ⊢ with hf
    · exact hk
    · obtain ⟨j, hj, rfl⟩ := Option.map_eq_some_iff.mp hk
      simp [ih hj]

theorem findIdx?_none (h : Grown R Fresh xs ys) {k : Nat} (hx : xs.findIdx? f = none)
    (hk : ys.findIdx? f = some k) : xs.length ≤ k := by
  induction h generalizing k with
  | nil _ => exact Nat.zero_le k
  | cons hr _ ih =>
    rw [List.findIdx?_cons] at *
    rw [hR _ _ hr] at hk
    split_ifs at hx hk with hf
    obtain ⟨j, hj, rfl⟩ := Option.map_eq_some_iff.mp hk
    exact Nat.succ_le_succ (ih (by simpa using hx) hj)

end Tests
end Grown
end MbedClient
