import MbedClient.Grown
import MbedClient.Slot

/-! Two loops over a list of entries and a threaded environment: one that stops at the first
entry it may write or must refuse, one that enters every entry that matches. -/
namespace MbedClient.Search
variable {α η ε μ : Type*}

/-- What a search reports: whether some entry matched, whether a match was refused, the entries
and the environment afterwards. -/
structure Scan (α η : Type*) where
  found : Bool
  refused : Bool
  list : List α
  env : η

/-- When writing, stores into the first match; when checking, stops at the first match that does
not allow the store. -/
def scan (hit allowed : α → Bool) (store : α → η → α × η) (write : Bool) :
    List α → η → Scan α η
  | [], env => ⟨false, false, [], env⟩
  | x :: xs, env =>
    if hit x then
      if write then ⟨true, false, (store x env).1 :: xs, (store x env).2⟩
      else if allowed x then
        let r := scan hit allowed store write xs env
        ⟨true, r.refused, x :: r.list, r.env⟩
      else ⟨true, true, x :: xs, env⟩
    else
      let r := scan hit allowed store write xs env
      ⟨r.found, r.refused, x :: r.list, r.env⟩

/-- Runs `f` on every match; the last result replaces the earlier ones. -/
def forMatches (hit : α → Bool) (f : α → η → ε × α × η) : List α → ε → η → ε × List α × η
  | [], e, env => (e, [], env)
  | x :: xs, e, env =>
    if hit x then
      let r := f x env
      let t := forMatches hit f xs r.1 r.2.2
      (t.1, r.2.1 :: t.2.1, t.2.2)
    else
      let t := forMatches hit f xs e env
      (t.1, x :: t.2.1, t.2.2)

/-- The first entry that passes a test, with its index. -/
def first (f : α → Bool) (xs : List α) : Option (Nat × α) :=
  (xs.findIdx? f).bind fun k => xs[k]?.map fun x => (k, x)

theorem first_eq_some {f : α → Bool} {xs : List α} {k : Nat} {x : α} :
    first f xs = some (k, x) ↔ xs.findIdx? f = some k ∧ xs[k]? = some x := by
  simp only [first, Option.bind_eq_some_iff, Option.map_eq_some_iff, Prod.mk.injEq]
  constructor
  · rintro ⟨_, hk, _, hx, rfl, rfl⟩
    exact ⟨hk, hx⟩
  · rintro ⟨hk, hx⟩
    exact ⟨k, hk, x, hx, rfl, rfl⟩

theorem first_passes {f : α → Bool} {xs : List α} {k : Nat} {x : α}
    (h : first f xs = some (k, x)) : f x = true := by
  obtain ⟨hk, hx⟩ := first_eq_some.mp h
  obtain ⟨hlt, hf, -⟩ := List.findIdx?_eq_some_iff_getElem.mp hk
  obtain ⟨-, rfl⟩ := List.getElem?_eq_some_iff.mp hx
  exact hf

theorem first_isSome {f : α → Bool} {xs : List α} :
    (first f xs).isSome = xs.any f := by
  rw [← List.findIdx?_isSome]
  cases hk : xs.findIdx? f with
  | none => simp [first, hk]
  | some k =>
    obtain ⟨hlt, -, -⟩ := List.findIdx?_eq_some_iff_getElem.mp hk
    simp [first, hk, hlt]

section Scan
variable (hit allowed : α → Bool) (store : α → η → α × η) (xs : List α) (env : η)

theorem scan_found (write : Bool) : (scan hit allowed store write xs env).found = xs.any hit := by
  induction xs with
  | nil => rfl
  | cons x xs ih =>
    rw [scan, List.any_cons]
    cases hx : hit x with
    | true => cases write <;> cases allowed x <;> simp
    | false => simpa using ih

theorem scan_refused (write : Bool) : (scan hit allowed store write xs env).refused =
    (!write && xs.any fun x => hit x && !allowed x) := by
  induction xs with
  | nil => simp [scan]
  | cons x xs ih =>
    cases write <;> cases hx : hit x <;> cases ha : allowed x <;> simp_all [scan]

/-- A store reaches the first match and no other entry, a check changes nothing. -/
theorem scan_state (write : Bool) : ((scan hit allowed store write xs env).list,
      (scan hit allowed store write xs env).env) =
    match xs.findIdx? hit with
    | none => (xs, env)
    | some k => if write then (Slot.nth k).zoom (fun s => store s.1 s.2) (xs, env)
      else (xs, env) := by
  induction xs with
  | nil => rfl
  | cons x xs ih =>
    rw [Prod.mk.injEq] at ih
    cases write with
    | false =>
      have hl : (match xs.findIdx? hit with
          | none => (xs, env)
          | some _ => (xs, env)) = (xs, env) := by cases xs.findIdx? hit <;> rfl
      simp only [Bool.false_eq_true, if_false, hl] at ih
      cases hx : hit x <;> cases ha : allowed x <;> simp [scan, hx, ha, ih, List.findIdx?_cons] <;>
        cases xs.findIdx? hit <;> rfl
    | true =>
      cases hx : hit x with
      | true => simp [scan, hx, List.findIdx?_cons, Slot.zoom, Slot.nth, Slot.entry]
      | false =>
        simp only [scan, hx, Bool.false_eq_true, if_false, List.findIdx?_cons, ih.1, ih.2]
        cases hk : xs.findIdx? hit with
        | none => rfl
        | some k => cases h : xs[k]? <;> simp [Slot.zoom, Slot.nth, Slot.entry, h]

end Scan

/-- What a loop over the matches does when entering an entry `x` is a run over `g x`: the steps of
all entries, each with the index of its entry. The first entry has index `i`. -/
def entered (hit : α → Bool) (g : α → List μ) : List α → Nat → List (Nat × μ)
  | [], _ => []
  | x :: xs, i => (if hit x then (g x).map fun m => (i, m) else []) ++ entered hit g xs (i + 1)

section ForMatches
variable {hit : α → Bool} {f : α → η → ε × α × η} {g : α → List μ} {xs : List α} {e : ε} {env : η}

theorem le_of_mem_entered {i : Nat} {m : Nat × μ} (h : m ∈ entered hit g xs i) : i ≤ m.1 := by
  induction xs generalizing i with
  | nil => simp [entered] at h
  | cons x xs ih =>
    rcases List.mem_append.mp h with h | h
    · split_ifs at h
      · obtain ⟨_, _, rfl⟩ := List.mem_map.mp h
        exact Nat.le_refl i
      · simp at h
    · exact Nat.le_of_succ_le (ih h)

/-- The steps of one entry. -/
theorem entered_filter (f : μ → Bool) (i k : Nat) :
    (entered hit g xs i).filter (fun m => m.1 == i + k && f m.2) =
      (xs[k]?.map fun x => if hit x then ((g x).filter f).map fun m => (i + k, m) else []).getD
        [] := by
  induction xs generalizing i k with
  | nil => simp [entered]
  | cons x xs ih =>
    rw [entered, List.filter_append]
    cases k with
    | zero =>
      have htail : (entered hit g xs (i + 1)).filter (fun m => m.1 == i + 0 && f m.2) = [] := by
        refine List.filter_eq_nil_iff.mpr fun m hm => ?_
        have hle := le_of_mem_entered hm
        simp only [Nat.add_zero, Bool.and_eq_true, beq_iff_eq, not_and]
        omega
      rw [htail, List.append_nil]
      cases hx : hit x with
      | true => simp [hx, List.filter_map, Function.comp_def]
      | false => simp [hx]
    | succ k =>
      have hhead : ((if hit x then (g x).map fun m => (i, m) else []).filter
          fun m => m.1 == i + (k + 1) && f m.2) = [] := by
        refine List.filter_eq_nil_iff.mpr fun m hm => ?_
        split_ifs at hm
        · obtain ⟨_, _, rfl⟩ := List.mem_map.mp hm
          simp
        · simp at hm
      rw [hhead, List.nil_append, show i + (k + 1) = i + 1 + k by omega, ih]
      rfl

theorem mem_entered {k : Nat} {m : μ} : (k, m) ∈ entered hit g xs 0 ↔
    ∃ x, xs[k]? = some x ∧ hit x = true ∧ m ∈ g x := by
  classical
  have hmem : (k, m) ∈ entered hit g xs 0 ↔ (k, m) ∈ (entered hit g xs 0).filter
      (fun n => n.1 == 0 + k && decide (n.2 = m)) := by simp
  rw [hmem, entered_filter (fun n => decide (n = m)) 0 k]
  cases xs[k]? with
  | none => simp
  | some x => cases hx : hit x <;> simp [hx]

/-- The last step is the last one of its entry. -/
theorem entered_getLast? {i k : Nat} {m : μ} (h : (entered hit g xs i).getLast? = some (k, m)) :
    ∃ j x, k = i + j ∧ xs[j]? = some x ∧ hit x = true ∧ (g x).getLast? = some m := by
  induction xs generalizing i with
  | nil => simp [entered] at h
  | cons x xs ih =>
    rw [entered, List.getLast?_append] at h
    cases ht : (entered hit g xs (i + 1)).getLast? with
    | some n =>
      rw [ht, Option.some_or] at h
      obtain rfl := Option.some.inj h
      obtain ⟨j, y, rfl, hj, hy⟩ := ih ht
      exact ⟨j + 1, y, by omega, hj, hy⟩
    | none =>
      rw [ht, Option.none_or] at h
      split_ifs at h with hx
      · rw [List.getLast?_map] at h
        obtain ⟨n, hn, heq⟩ := Option.map_eq_some_iff.mp h
        obtain ⟨rfl, rfl⟩ := Prod.mk.inj heq
        exact ⟨0, x, rfl, rfl, hx, hn⟩
      · simp at h

/-- Entries that only differ in what neither the test nor the steps look at. -/
theorem entered_grown {R : α → α → Prop} {Fresh : α → Prop} {ys : List α} {i : Nat}
    (hR : ∀ x y, R x y → hit y = hit x) (hF : ∀ y, Fresh y → hit y = false)
    (hg : ∀ x y, R x y → g y = g x) (h : Grown R Fresh xs ys) :
    entered hit g ys i = entered hit g xs i := by
  induction h generalizing i with
  | @nil ys hy =>
    induction ys generalizing i with
    | nil => rfl
    | cons y ys ih =>
      have ht := ih (i := i + 1) fun z hz => hy z (List.mem_cons_of_mem y hz)
      simpa [entered, hF y (hy y List.mem_cons_self)] using ht
  | cons hr _ ih => rw [entered, entered, hR _ _ hr, hg _ _ hr, ih]

/-- The last step of the last match decides the result. -/
theorem forMatches_fst {w : Nat × μ → ε} {i : Nat}
    (hf : ∀ k x, xs[k]? = some x → hit x = true →
      ∃ m, (g x).getLast? = some m ∧ ∀ env, (f x env).1 = w (i + k, m)) :
    (forMatches hit f xs e env).1 = ((entered hit g xs i).getLast?.map w).getD e := by
  induction xs generalizing e env i with
  | nil => rfl
  | cons x xs ih =>
    have ht : ∀ k y, xs[k]? = some y → hit y = true →
        ∃ m, (g y).getLast? = some m ∧ ∀ env, (f y env).1 = w (i + 1 + k, m) := by
      intro k y hk hy
      rw [show i + 1 + k = i + (k + 1) by omega]
      exact hf (k + 1) y (by simpa using hk) hy
    cases hx : hit x with
    | true =>
      obtain ⟨m, hm, hv⟩ := hf 0 x rfl hx
      simp only [forMatches, entered, hx, if_true, ih ht, hv, hm, List.getLast?_append,
        List.getLast?_map]
      cases (entered hit g xs (i + 1)).getLast? <;> simp
    | false => simpa [forMatches, entered, hx] using ih ht

/-- A loop over the matches whose bodies are runs is a run itself. -/
theorem forMatches_snd {inner : μ → α × η → α × η}
    (hf : ∀ x ∈ xs, hit x = true → ∀ env, (f x env).2 = Trace.fold inner (g x) (x, env)) :
    (forMatches hit f xs e env).2 = Trace.fold
      (fun p : Nat × μ => (Slot.nth p.1).zoom (inner p.2)) (entered hit g xs 0) (xs, env) := by
  suffices h : ∀ pre : List α, (pre ++ (forMatches hit f xs e env).2.1,
      (forMatches hit f xs e env).2.2) = Trace.fold
        (fun p : Nat × μ => (Slot.nth p.1).zoom (inner p.2)) (entered hit g xs pre.length)
        (pre ++ xs, env) by
    simpa using h []
  induction xs generalizing e env with
  | nil => simp [forMatches, entered]
  | cons x xs ih =>
    intro pre
    have ht := fun y hy => hf y (List.mem_cons_of_mem x hy)
    cases hx : hit x with
    | true =>
      have h := @ih (f x env).1 (f x env).2.2 ht (pre ++ [(f x env).2.1])
      have hget : (Slot.nth pre.length).get (pre ++ x :: xs) = some x := by
        simp [Slot.nth, Slot.entry]
      have hz : Trace.fold (fun m => (Slot.nth pre.length).zoom (inner m)) (g x)
          (pre ++ x :: xs, env) = (pre ++ (f x env).2.1 :: xs, (f x env).2.2) := by
        rw [← Slot.zoom_fold, Slot.zoom_some _ hget, ← hf x List.mem_cons_self hx]
        simp [Slot.nth, Slot.entry]
      rw [entered, hx, if_pos rfl, Trace.fold_append, Trace.fold_map, hz]
      simpa [forMatches, hx] using h
    | false =>
      have h := @ih e env ht (pre ++ [x])
      simpa [forMatches, entered, hx] using h

end ForMatches
end MbedClient.Search
