import MbedClient.Trace
import Mathlib.Tactic.Linarith

/-! Forward walks over the positions of a framed buffer. A walk handles the item at a position,
then moves to the successor position while it is still below a limit, and answers with the result
of the last item it handled: results of earlier items are dropped, the state is threaded. -/
namespace MbedClient.Walk
variable {σ ε β : Type*}

/-- Every position has a strictly later successor. -/
structure Frame where
  next : Nat → Nat
  lt_next : ∀ o, o < next o

/-- `stop o` ends the walk at `o`, whatever follows it. -/
def run (F : Frame) (stop : Nat → Bool) (size : Nat) (body : Nat → σ → ε × σ)
    (o : Nat) (s : σ) : ε × σ :=
  if stop o then body o s
  else if F.next o < size then run F stop size body (F.next o) (body o s).2
  else body o s
termination_by size - o
decreasing_by have := F.lt_next o; omega

/-- The positions a walk from `o` handles. The first one is handled unconditionally. -/
def visited (F : Frame) (stop : Nat → Bool) (size : Nat) (o : Nat) : List Nat :=
  if stop o then [o]
  else if F.next o < size then o :: visited F stop size (F.next o)
  else [o]
termination_by size - o
decreasing_by have := F.lt_next o; omega

/-- The positions of the items that start in `[o, e)` when the first one starts at `o`. -/
def span (F : Frame) (o e : Nat) : List Nat :=
  if o < e then o :: span F (F.next o) e else []
termination_by e - o
decreasing_by have := F.lt_next o; omega

/-- The items that start in `[o, e)` fill it without a gap and none of them sticks out. -/
def Exact (F : Frame) (o e : Nat) : Prop := o ≤ e ∧ ∀ p ∈ span F o e, F.next p ≤ e

instance (F : Frame) (o e : Nat) : Decidable (Exact F o e) := inferInstanceAs (Decidable (_ ∧ _))

variable (F : Frame) (stop : Nat → Bool) (size : Nat) (body : Nat → σ → ε × σ)

theorem visited_ne_nil (o : Nat) : visited F stop size o ≠ [] := by
  unfold visited
  split_ifs <;> simp

theorem mem_visited_self (o : Nat) : o ∈ visited F stop size o := by
  unfold visited
  split_ifs <;> simp

/-- The last position a walk handles: the only one whose result it answers with. -/
def final (o : Nat) : Nat := (visited F stop size o).getLast (visited_ne_nil F stop size o)

theorem final_mem (o : Nat) : final F stop size o ∈ visited F stop size o :=
  List.getLast_mem _

theorem visited_step {o : Nat} (hs : stop o = false) (hn : F.next o < size) :
    visited F stop size o = o :: visited F stop size (F.next o) := by
  rw [visited, hs]
  simp [hn]

theorem visited_last {o : Nat} (h : stop o = true ∨ size ≤ F.next o) :
    visited F stop size o = [o] := by
  rw [visited]
  rcases h with h | h
  · simp [h]
  · simp [Nat.not_lt.mpr h]

/-- The state of a walk is the run over the positions it visits. -/
theorem run_snd (o : Nat) (s : σ) :
    (run F stop size body o s).2 =
      Trace.fold (fun p s => (body p s).2) (visited F stop size o) s := by
  induction o, s using run.induct F stop size body with
  | case1 o s h => simp [run, visited, h]
  | case2 o s h hn ih =>
    rw [run, visited_step F stop size (by simpa using h) hn]
    simpa [h, hn] using ih
  | case3 o s h hn => simp [run, visited, h, hn]

/-- Only the final position's result counts, in the state its predecessors leave. -/
theorem run_fst (o : Nat) (s : σ) :
    (run F stop size body o s).1 = (body (final F stop size o)
      (Trace.fold (fun p s => (body p s).2) (visited F stop size o).dropLast s)).1 := by
  unfold final
  induction o, s using run.induct F stop size body with
  | case1 o s h => simp [run, visited, h]
  | case2 o s h hn ih =>
    have hv := visited_step F stop size (by simpa using h : stop o = false) hn
    have hne := visited_ne_nil F stop size (F.next o)
    rw [run]
    simp only [h, hn, hv, List.getLast_cons hne, List.dropLast_cons_of_ne_nil hne]
    exact ih
  | case3 o s h hn => simp [run, visited, h, hn]

section Rules
variable {F stop size body} {I : σ → Prop} {o : Nat} {s : σ}

/-- Where each position's result does not depend on the state, the walk answers with the final
position's. -/
theorem run_result {v : Nat → ε}
    (hb : ∀ p ∈ visited F stop size o, ∀ s, I s → I (body p s).2)
    (hv : ∀ p ∈ visited F stop size o, ∀ s, I s → (body p s).1 = v p)
    (hs : I s) : (run F stop size body o s).1 = v (final F stop size o) := by
  rw [run_fst]
  refine hv _ (final_mem F stop size o) _ (Trace.fold_invariant (fun p hp => hb p ?_) hs)
  exact List.dropLast_subset _ hp

theorem mem_span {e p : Nat} (hp : p ∈ span F o e) : o ≤ p ∧ p < e := by
  induction o using span.induct F e with
  | case1 o h ih =>
    rw [span, if_pos h, List.mem_cons] at hp
    rcases hp with rfl | hp
    · exact ⟨le_refl _, h⟩
    · exact ⟨(F.lt_next o).le.trans (ih hp).1, (ih hp).2⟩
  | case2 o h => simp [span, h] at hp

theorem span_self (e : Nat) : span F e e = [] := by simp [span]

theorem span_cons {e : Nat} (h : o < e) : span F o e = o :: span F (F.next o) e := by
  rw [span, if_pos h]

theorem Exact.step {e : Nat} (h : Exact F o e) (ho : o < e) :
    F.next o ≤ e ∧ Exact F (F.next o) e := by
  have hn := h.2 o (by simp [span_cons ho])
  exact ⟨hn, hn, fun p hp => h.2 p (by simp [span_cons ho, hp])⟩

theorem Exact.cons {e : Nat} (h : Exact F (F.next o) e) : Exact F o e := by
  have ho : o < e := lt_of_lt_of_le (F.lt_next o) h.1
  refine ⟨ho.le, fun p hp => ?_⟩
  rw [span_cons ho, List.mem_cons] at hp
  rcases hp with rfl | hp
  · exact h.1
  · exact h.2 p hp

/-- The items of a filled region follow each other up to its end. -/
theorem next_mem_span {e p : Nat} (hp : p ∈ span F o e) (hn : F.next p < e) :
    F.next p ∈ span F o e := by
  induction o using span.induct F e with
  | case1 o h ih =>
    rw [span_cons h, List.mem_cons] at hp ⊢
    rcases hp with rfl | hp
    · exact Or.inr (by rw [span_cons hn]; exact List.mem_cons_self)
    · exact Or.inr (ih hp)
  | case2 o h => simp [span, h] at hp

theorem span_subset {e p q : Nat} (hp : p ∈ span F o e) (hq : q ∈ span F (F.next p) e) :
    q ∈ span F o e := by
  induction o using span.induct F e with
  | case1 o h ih =>
    rw [span_cons h, List.mem_cons] at hp ⊢
    rcases hp with rfl | hp
    · exact Or.inr hq
    · exact Or.inr (ih hp)
  | case2 o h => simp [span, h] at hp

theorem Exact.next {e p : Nat} (h : Exact F o e) (hp : p ∈ span F o e) : Exact F (F.next p) e := by
  induction o using span.induct F e with
  | case1 o ho ih =>
    obtain ⟨-, htl⟩ := h.step ho
    rw [span_cons ho, List.mem_cons] at hp
    rcases hp with rfl | hp
    · exact htl
    · exact ih htl hp
  | case2 o ho => simp [span, ho] at hp

/-- The last item of a filled region ends with it. -/
theorem Exact.getLast? {e : Nat} (h : Exact F o e) (ho : o < e) :
    ∃ p, (span F o e).getLast? = some p ∧ F.next p = e := by
  induction o using span.induct F e with
  | case1 o _ ih =>
    obtain ⟨hle, htl⟩ := h.step ho
    rw [span_cons ho]
    obtain hlt | rfl := hle.lt_or_eq
    · obtain ⟨p, hp, hnext⟩ := ih htl hlt
      refine ⟨p, ?_, hnext⟩
      rw [List.getLast?_cons, hp]
      rfl
    · exact ⟨o, by rw [span_self]; rfl, rfl⟩
  | case2 o hn => exact absurd ho hn

theorem exact_refl (e : Nat) : Exact F e e := ⟨le_refl e, by simp [span_self]⟩

/-- A walk that starts inside a filled region, or at its end, stays on the region's items until it
runs on behind the region. -/
theorem mem_visited {e p : Nat} (h : Exact F o e) (hsize : e ≤ size) (ho : o < size)
    (hp : p ∈ visited F stop size o) : p ∈ span F o e ∨ (e < size ∧ p ∈ visited F stop size e) := by
  induction o using visited.induct F stop size with
  | case1 o hs =>
    rw [visited_last F stop size (Or.inl hs), List.mem_singleton] at hp
    subst hp
    rcases h.1.lt_or_eq with hlt | rfl
    · exact Or.inl (by simp [span_cons hlt])
    · exact Or.inr ⟨ho, mem_visited_self F stop size _⟩
  | case2 o hs hn ih =>
    rcases h.1.lt_or_eq with hlt | rfl
    · rw [visited_step F stop size (by simpa using hs) hn, List.mem_cons] at hp
      rw [span_cons hlt, List.mem_cons]
      rcases hp with rfl | hp
      · exact Or.inl (Or.inl rfl)
      · exact (ih (h.step hlt).2 hn hp).imp_left Or.inr
    · exact Or.inr ⟨ho, hp⟩
  | case3 o hs hn =>
    rw [visited_last F stop size (Or.inr (Nat.not_lt.mp hn)), List.mem_singleton] at hp
    subst hp
    rcases h.1.lt_or_eq with hlt | rfl
    · exact Or.inl (by simp [span_cons hlt])
    · exact Or.inr ⟨ho, mem_visited_self F stop size _⟩

/-- A walk that starts on a filled region handles its items, then runs on behind the region. -/
theorem visited_eq_span_append {e : Nat} (h : Exact F o e) (ho : o < e) (he : e ≤ size)
    (hs : ∀ p ∈ span F o e, stop p = false) :
    visited F stop size o = span F o e ++ if e < size then visited F stop size e else [] := by
  induction o using span.induct F e with
  | case2 o hn => exact absurd ho hn
  | case1 o _ ih =>
    obtain ⟨hle, htl⟩ := h.step ho
    rw [span_cons ho] at hs ⊢
    have hso : stop o = false := hs o List.mem_cons_self
    rcases Nat.lt_or_ge (F.next o) e with hlt | hge
    · rw [visited_step F stop size hso (hlt.trans_le he),
        ih htl hlt (fun p hp => hs p (List.mem_cons_of_mem o hp)), List.cons_append]
    · obtain rfl : F.next o = e := le_antisymm hle hge
      rw [span_self]
      split_ifs with hsz
      · rw [visited_step F stop size hso hsz, List.singleton_append]
      · rw [visited_last F stop size (Or.inr (Nat.not_lt.mp hsz)), List.append_nil]

theorem visited_eq_span (h : Exact F o size) (ho : o < size)
    (hs : ∀ p ∈ span F o size, stop p = false) : visited F stop size o = span F o size := by
  simpa using visited_eq_span_append h ho (le_refl size) hs

end Rules
end MbedClient.Walk
