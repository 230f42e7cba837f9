import Mathlib.Data.List.Basic
import Mathlib.Data.List.Nodup
import MbedClient.Search

/-! Lists whose entries have keys, no two of them the same. -/
namespace MbedClient.Keyed
variable {α κ : Type*} {key : α → κ} {xs : List α} {x y : α} {i : Nat}

/-- No two entries have the same key. -/
def Unique (key : α → κ) (xs : List α) : Prop := (xs.map key).Nodup

theorem unique_nil (key : α → κ) : Unique key [] := List.nodup_nil

theorem unique_cons : Unique key (x :: xs) ↔ (∀ y ∈ xs, key y ≠ key x) ∧ Unique key xs := by
  rw [Unique, List.map_cons, List.nodup_cons, List.mem_map]
  push Not
  rfl

/-- An entry with a new key. -/
theorem Unique.append (h : Unique key xs) (hx : ∀ y ∈ xs, key y ≠ key x) :
    Unique key (xs ++ [x]) := by
  rw [Unique, List.map_append, List.map_singleton]
  refine List.Nodup.append h (List.nodup_singleton _) ?_
  rw [List.disjoint_singleton, List.mem_map]
  rintro ⟨y, hy, heq⟩
  exact hx y hy heq

theorem Unique.eq_of_key (h : Unique key xs) (hx : x ∈ xs) (hy : y ∈ xs) (hk : key x = key y) :
    x = y := List.inj_on_of_nodup_map h hx hy hk

/-- Another entry with the same key. -/
theorem Unique.set (h : Unique key xs) (hi : xs[i]? = some x) (hy : key y = key x) :
    Unique key (xs.set i y) := by
  obtain ⟨hlt, rfl⟩ := List.getElem?_eq_some_iff.mp hi
  have hlt' : i < (xs.map key).length := by rwa [List.length_map]
  have hsame : (xs.set i y).map key = xs.map key := by
    rw [List.map_set, hy, ← List.getElem_map key (h := hlt')]
    exact List.set_getElem_self hlt'
  rwa [Unique, hsame]

section Find
variable [BEq κ] [LawfulBEq κ] {k : κ}

theorem find_eq_none : xs.find? (fun x => key x == k) = none ↔ ∀ x ∈ xs, key x ≠ k := by
  simp

theorem of_find (h : xs.find? (fun x => key x == k) = some x) : x ∈ xs ∧ key x = k :=
  ⟨List.mem_of_find?_eq_some h, by simpa using List.find?_some h⟩

theorem Unique.find_eq (h : Unique key xs) (hx : x ∈ xs) (hk : key x = k) :
    xs.find? (fun x => key x == k) = some x := by
  cases hfind : xs.find? (fun x => key x == k) with
  | none => exact absurd hk (find_eq_none.mp hfind x hx)
  | some y =>
    obtain ⟨hy, hyk⟩ := of_find hfind
    rw [h.eq_of_key hy hx (hyk.trans hk.symm)]

/-- What the first entry with a key is. -/
theorem first_entry (h : Search.first (fun x => key x == k) xs = some (i, x)) :
    xs[i]? = some x ∧ key x = k :=
  ⟨(Search.first_eq_some.mp h).2, by simpa using Search.first_passes h⟩

theorem first_entry_none (h : Search.first (fun x => key x == k) xs = none) :
    ∀ x ∈ xs, key x ≠ k := by
  have hany : xs.any (fun x => key x == k) = false := by
    rw [← Search.first_isSome, h]
    rfl
  simpa using hany

end Find

section Alter
variable [DecidableEq κ] {k : κ} {g : α → Option α}

def alter (key : α → κ) (k : κ) (g : α → Option α) (xs : List α) : List α :=
  xs.filterMap fun x => if key x = k then g x else some x

theorem alter_cons : alter key k g (x :: xs) =
    (if key x = k then g x else some x).toList ++ alter key k g xs := by
  rw [alter, List.filterMap_cons]
  cases (if key x = k then g x else some x) <;> rfl

theorem alter_eq_self (h : ∀ x ∈ xs, key x = k → g x = some x) : alter key k g xs = xs := by
  induction xs with
  | nil => rfl
  | cons x xs ih =>
    rw [alter_cons, ih fun y hy => h y (List.mem_cons_of_mem x hy)]
    split_ifs with hx
    · rw [h x List.mem_cons_self hx]
      rfl
    · rfl

theorem alter_congr {g' : α → Option α} (h : ∀ x ∈ xs, key x = k → g x = g' x) :
    alter key k g xs = alter key k g' xs := by
  refine List.filterMap_congr fun x hx => ?_
  split_ifs with hk
  · exact h x hx hk
  · rfl

theorem alter_alter {g' : α → Option α} (hg : ∀ x x', g x = some x' → key x' = key x) :
    alter key k g' (alter key k g xs) = alter key k (fun x => (g x).bind g') xs := by
  rw [alter, alter, List.filterMap_filterMap]
  refine List.filterMap_congr fun x _ => ?_
  by_cases hk : key x = k
  · rw [if_pos hk, if_pos hk]
    dsimp only
    cases hx : g x with
    | none => rfl
    | some x' => rw [Option.bind_some, Option.bind_some, if_pos ((hg x x' hx).trans hk)]
  · rw [if_neg hk, if_neg hk, Option.bind_some, if_neg hk]

theorem mem_alter (hg : ∀ x x', g x = some x' → key x' = key x) (hy : y ∈ alter key k g xs) :
    ∃ x ∈ xs, key y = key x ∧ (g x = some y ∨ y = x) := by
  obtain ⟨x, hx, hxy⟩ := List.mem_filterMap.mp hy
  split_ifs at hxy
  · exact ⟨x, hx, hg x y hxy, Or.inl hxy⟩
  · obtain rfl := Option.some.inj hxy
    exact ⟨x, hx, rfl, Or.inr rfl⟩

theorem Unique.alter (h : Unique key xs) (hg : ∀ x x', g x = some x' → key x' = key x) :
    Unique key (alter key k g xs) := by
  induction xs with
  | nil => exact h
  | cons x xs ih =>
    obtain ⟨hx, hrest⟩ := unique_cons.mp h
    have htail (x' : α) (hx' : key x' = key x) : Unique key (x' :: Keyed.alter key k g xs) := by
      refine unique_cons.mpr ⟨fun y hy => ?_, ih hrest⟩
      obtain ⟨z, hz, hyz, -⟩ := mem_alter hg hy
      rw [hyz, hx']
      exact hx z hz
    rw [alter_cons]
    split_ifs
    · cases hgx : g x with
      | none => exact ih hrest
      | some x' => exact htail x' (hg x x' hgx)
    · exact htail x rfl

/-- The others keep their places. -/
theorem set_eq_alter (h : Unique key xs) (hi : xs[i]? = some x) (hx : g x = some y) :
    xs.set i y = Keyed.alter key (key x) g xs := by
  induction xs generalizing i with
  | nil => simp at hi
  | cons z xs ih =>
    obtain ⟨hz, hrest⟩ := unique_cons.mp h
    rw [alter_cons]
    cases i with
    | zero =>
      obtain rfl := Option.some.inj hi
      rw [if_pos rfl, hx, alter_eq_self fun w hw hk => absurd hk (hz w hw)]
      rfl
    | succ i =>
      have hmem : x ∈ xs := List.mem_of_getElem? hi
      rw [if_neg fun hk => hz x hmem hk.symm, List.set_cons_succ, ih hrest hi]
      rfl

/-- To erase the first entry with a key is to erase all of them. -/
theorem eraseP_eq_alter (h : Unique key xs) {p : α → Bool} (hp : ∀ x, p x = true ↔ key x = k)
    (hg : ∀ x ∈ xs, key x = k → g x = none) :
    xs.eraseP p = Keyed.alter key k g xs := by
  induction xs with
  | nil => rfl
  | cons x xs ih =>
    obtain ⟨hx, hrest⟩ := unique_cons.mp h
    rw [alter_cons]
    by_cases hk : key x = k
    · rw [List.eraseP_cons_of_pos ((hp x).mpr hk), if_pos hk, hg x List.mem_cons_self hk,
        alter_eq_self fun y hy hy' => absurd (hy'.trans hk.symm) (hx y hy)]
      rfl
    · rw [List.eraseP_cons_of_neg (mt (hp x).mp hk), if_neg hk,
        ih hrest fun y hy => hg y (List.mem_cons_of_mem x hy)]
      rfl

section Entry
variable [BEq κ] [LawfulBEq κ] {f : α → Bool × α}

/-- What is found after one entry has changed or gone. -/
theorem Unique.find_alter (h : Unique key xs) (hg : ∀ x x', g x = some x' → key x' = key x)
    (k' : κ) :
    (Keyed.alter key k g xs).find? (fun x => key x == k') =
      if k' = k then (xs.find? fun x => key x == k).bind g else xs.find? fun x => key x == k' := by
  induction xs with
  | nil => split_ifs <;> rfl
  | cons x xs ih =>
    obtain ⟨hx, hrest⟩ := unique_cons.mp h
    rw [alter_cons]
    by_cases hxk : key x = k
    · rw [if_pos hxk]
      have hnone : xs.find? (fun y => key y == k) = none :=
        find_eq_none.mpr fun y hy => hxk ▸ hx y hy
      have hself : Keyed.alter key k g xs = xs :=
        alter_eq_self fun y hy hyk => absurd (hyk.trans hxk.symm) (hx y hy)
      rw [hself]
      by_cases hk : k' = k
      · subst hk
        rw [if_pos rfl, List.find?_cons_of_pos (by simp [hxk]), Option.bind_some]
        cases hgx : g x with
        | none => exact hnone
        | some x' =>
          exact List.find?_cons_of_pos (by simp [hg x x' hgx, hxk])
      · have hskip : (key x == k') = false := by simp [hxk, Ne.symm hk]
        rw [if_neg hk, List.find?_cons_of_neg (by simp [hskip])]
        cases hgx : g x with
        | none => rfl
        | some x' => exact List.find?_cons_of_neg (by simp [hg x x' hgx, hskip])
    · have hskip : (key x == k) = false := by simp [hxk]
      rw [if_neg hxk, Option.toList_some, List.singleton_append, List.find?_cons, ih hrest]
      by_cases hk : k' = k
      · subst hk
        rw [if_pos rfl, if_pos rfl, hskip, List.find?_cons_of_neg (by simp [hskip])]
      · rw [if_neg hk, if_neg hk, List.find?_cons]

/-- What is done through a pointer to the first entry with a key, if there is one. -/
def onEntry (key : α → κ) (k : κ) (f : α → Bool × α) (xs : List α) : Bool × List α :=
  match Search.first (fun x => key x == k) xs with
  | none => (false, xs)
  | some (i, x) => ((f x).1, xs.set i (f x).2)

theorem onEntry_eq (h : Unique key xs) (k : κ) (f : α → Bool × α) :
    onEntry key k f xs = ((xs.find? (fun x => key x == k)).any fun x => (f x).1,
      Keyed.alter key k (fun x => some (f x).2) xs) := by
  rw [onEntry]
  cases hfirst : Search.first (fun x => key x == k) xs with
  | none =>
    have hnone := first_entry_none hfirst
    rw [find_eq_none.mpr hnone, alter_eq_self fun x hx hk => absurd hk (hnone x hx)]
    rfl
  | some found =>
    obtain ⟨i, x⟩ := found
    obtain ⟨hi, rfl⟩ := first_entry hfirst
    rw [h.find_eq (List.mem_of_getElem? hi) rfl]
    dsimp only
    rw [set_eq_alter (g := fun x => some (f x).2) h hi rfl]
    rfl

end Entry

end Alter

end MbedClient.Keyed
