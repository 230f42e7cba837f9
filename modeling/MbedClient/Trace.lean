import Mathlib.Data.List.Basic
import Mathlib.Data.List.Induction

/-! Runs of a state machine over a list of events, and what such a run preserves. -/
namespace MbedClient.Trace
variable {σ ν μ β : Type*}

def fold (step : ν → σ → σ) (l : List ν) (s : σ) : σ := l.foldl (fun s v => step v s) s

section Basic
variable (step : ν → σ → σ) (s : σ)

@[simp] theorem fold_nil : fold step [] s = s := rfl

@[simp] theorem fold_cons (v : ν) (l : List ν) :
    fold step (v :: l) s = fold step l (step v s) := rfl

theorem fold_append (l m : List ν) : fold step (l ++ m) s = fold step m (fold step l s) :=
  List.foldl_append

theorem fold_map (f : μ → ν) (l : List μ) :
    fold step (l.map f) s = fold (fun v => step (f v)) l s := List.foldl_map

end Basic

variable {step : ν → σ → σ} {I : σ → Prop} {l : List ν} {s : σ}

theorem fold_invariant (hb : ∀ v ∈ l, ∀ s, I s → I (step v s)) (hs : I s) :
    I (fold step l s) := by
  induction l generalizing s with
  | nil => exact hs
  | cons v l ih =>
    exact ih (fun w hw => hb w (List.mem_cons_of_mem v hw)) (hb v List.mem_cons_self s hs)

/-- Two machines that take the same events in step. -/
theorem fold_simulates {R : σ → β → Prop} {step' : ν → β → β} {a : β}
    (hb : ∀ v s a, R s a → R (step v s) (step' v a)) (hs : R s a) :
    R (fold step l s) (fold step' l a) := by
  induction l generalizing s a with
  | nil => exact hs
  | cons v l ih => exact ih (hb v s a hs)

/-- Two machines that agree wherever the invariant holds make the same run. -/
theorem fold_congr {step' : ν → σ → σ} (hb : ∀ v ∈ l, ∀ s, I s → I (step v s))
    (he : ∀ v ∈ l, ∀ s, I s → step v s = step' v s) (hs : I s) :
    fold step l s = fold step' l s := by
  induction l generalizing s with
  | nil => rfl
  | cons v l ih =>
    have hv := List.mem_cons_self (a := v) (l := l)
    rw [fold_cons, fold_cons, ← he v hv s hs]
    exact ih (fun w hw => hb w (List.mem_cons_of_mem v hw))
      (fun w hw => he w (List.mem_cons_of_mem v hw)) (hb v hv s hs)

/-- Events that are themselves runs of a finer machine. -/
theorem fold_flatMap {fine : μ → σ → σ} {g : ν → List μ}
    (hb : ∀ v ∈ l, ∀ s, I s → I (step v s))
    (he : ∀ v ∈ l, ∀ s, I s → step v s = fold fine (g v) s) (hs : I s) :
    fold step l s = fold fine (l.flatMap g) s := by
  induction l generalizing s with
  | nil => rfl
  | cons v l ih =>
    have hv := List.mem_cons_self (a := v) (l := l)
    rw [fold_cons, List.flatMap_cons, fold_append, ← he v hv s hs]
    exact ih (fun w hw => hb w (List.mem_cons_of_mem v hw))
      (fun w hw => he w (List.mem_cons_of_mem v hw)) (hb v hv s hs)

/-- Every event of a run happens in some admissible state, and what it leaves behind is still
there in the end if no event takes anything back. -/
theorem fold_reach {R : σ → σ → Prop} (hrefl : ∀ s, R s s)
    (htrans : ∀ a b c, R a b → R b c → R a c)
    (hb : ∀ v ∈ l, ∀ s, I s → I (step v s) ∧ R s (step v s)) (hs : I s) {v : ν} (hv : v ∈ l) :
    ∃ s', I s' ∧ R s s' ∧ R (step v s') (fold step l s) := by
  induction l generalizing s with
  | nil => simp at hv
  | cons w l ih =>
    have hw := hb w List.mem_cons_self s hs
    have hl := fun u hu => hb u (List.mem_cons_of_mem w hu)
    rcases List.mem_cons.mp hv with rfl | hv
    · refine ⟨s, hs, hrefl s, ?_⟩
      exact (fold_invariant (I := fun t => I t ∧ R (step v s) t)
        (fun u hu t ht => ⟨(hl u hu t ht.1).1, htrans _ _ _ ht.2 (hl u hu t ht.1).2⟩)
        ⟨hw.1, hrefl _⟩).2
    · obtain ⟨s', hI, hR, hend⟩ := ih hl hw.1 hv
      exact ⟨s', hI, htrans _ _ _ hw.2 hR, hend⟩

/-- A component that only the events selected by `names` touch is untouched if there is none, and
otherwise is what the last of them made it. -/
theorem fold_last (proj : σ → β) (names : ν → Bool)
    (hb : ∀ v ∈ l, ∀ s, I s → I (step v s))
    (hf : ∀ v ∈ l, ∀ s, I s → names v = false → proj (step v s) = proj s) (hs : I s) :
    match (l.filter names).getLast? with
    | none => proj (fold step l s) = proj s
    | some v => ∃ s', I s' ∧ proj (fold step l s) = proj (step v s') := by
  induction l using List.reverseRecOn with
  | nil => simp
  | append_singleton l v ih =>
    have hl := ih (fun w hw => hb w (by simp [hw])) (fun w hw => hf w (by simp [hw]))
    have hI : I (fold step l s) := fold_invariant (fun w hw => hb w (by simp [hw])) hs
    rw [fold_append, List.filter_append, fold_cons, fold_nil]
    cases hn : names v with
    | true => simpa [hn] using ⟨_, hI, rfl⟩
    | false =>
      rw [hf v (by simp) _ hI hn]
      simpa [hn] using hl

section Along
variable {ok : ν → σ → Prop} {P : σ → Prop}

/-- Every event of a run happens in a state where it is admissible. -/
def Along (step : ν → σ → σ) (ok : ν → σ → Prop) : List ν → σ → Prop
  | [], _ => True
  | v :: l, s => ok v s ∧ Along step ok l (step v s)

/-- Every state that a run passes through, its first one included, satisfies a property. -/
def Always (step : ν → σ → σ) (P : σ → Prop) : List ν → σ → Prop
  | [], s => P s
  | v :: l, s => P s ∧ Always step P l (step v s)

instance decidableAlong [∀ v s, Decidable (ok v s)] (l : List ν) (s : σ) :
    Decidable (Along step ok l s) :=
  match l with
  | [] => inferInstanceAs (Decidable True)
  | v :: l => @instDecidableAnd _ _ _ (decidableAlong l (step v s))

instance decidableAlways [∀ s, Decidable (P s)] (l : List ν) (s : σ) :
    Decidable (Always step P l s) :=
  match l with
  | [] => inferInstanceAs (Decidable (P s))
  | v :: l => @instDecidableAnd _ _ _ (decidableAlways l (step v s))

theorem along_append (l m : List ν) (s : σ) :
    Along step ok (l ++ m) s ↔ Along step ok l s ∧ Along step ok m (fold step l s) := by
  induction l generalizing s with
  | nil => exact ⟨fun h => ⟨trivial, h⟩, fun h => h.2⟩
  | cons v l ih => exact (and_congr_right fun _ => ih _).trans and_assoc.symm

theorem Always.last (h : Always step P l s) : P (fold step l s) := by
  induction l generalizing s with
  | nil => exact h
  | cons v l ih => exact ih h.2

theorem always_of_invariant (hb : ∀ v s, I s → I (step v s)) (hP : ∀ s, I s → P s) (hs : I s) :
    Always step P l s := by
  induction l generalizing s with
  | nil => exact hP s hs
  | cons v l ih => exact ⟨hP s hs, ih (hb v s hs)⟩

theorem Along.always (hb : ∀ v s, I s → ok v s → I (step v s)) (hP : ∀ s, I s → P s) (hs : I s)
    (h : Along step ok l s) : Always step P l s := by
  induction l generalizing s with
  | nil => exact hP s hs
  | cons v l ih => exact ⟨hP s hs, ih (hb v s hs h.1) h.2⟩

/-- Where a step meets the property exactly if its event is admissible, so does a whole run. -/
theorem always_iff_along (hb : ∀ v s, I s → ok v s → I (step v s)) (hP : ∀ s, I s → P s)
    (hok : ∀ v s, I s → P (step v s) → ok v s) (hs : I s) :
    Always step P l s ↔ Along step ok l s := by
  refine ⟨fun h => ?_, Along.always hb hP hs⟩
  induction l generalizing s with
  | nil => trivial
  | cons v l ih =>
    have hv : ok v s := by
      apply hok v s hs
      cases l with
      | nil => exact h.2
      | cons w l => exact h.2.1
    exact ⟨hv, ih (hb v s hs hv) h.2⟩

/-- Conditions that agree in every state of a run admit the same runs. -/
theorem along_congr {ok' : ν → σ → Prop} {Q : σ → Prop} (hb : ∀ v s, I s → I (step v s))
    (hok : ∀ v s, I s → Q s → (ok v s ↔ ok' v s)) (hs : I s) (hQ : Always step Q l s) :
    Along step ok l s ↔ Along step ok' l s := by
  induction l generalizing s with
  | nil => exact Iff.rfl
  | cons v l ih => exact and_congr (hok v s hs hQ.1) (ih (hb v s hs) hQ.2)

end Along

end MbedClient.Trace
