import MbedClient.Callback

/-! Runs of programs that call out, with no result where a loop runs out of fuel: what is proved of
a program by `wp` includes that it comes to an end, if everything does that is called meanwhile. -/
namespace MbedClient.Callback

section Semantics
variable {σ ο ε μ α : Type} (M : Machine σ ο ε) (m : Monitor σ ο ε μ)

abbrev PartialReplies (σ ο μ : Type) := List (Bool × (ο → σ × μ → Option (σ × μ)))

def finish : Prog σ ο α → PartialReplies σ ο μ → σ × μ → Option (α × (σ × μ))
  | .ret a, _, t => some (a, t)
  | .look k, rs, t => finish (k t.1) rs t
  | .put s k, rs, t => finish k rs (s, t.2)
  | .call o k, [], t => finish (k false) [] (m.see (.answered o false) (m.see (.called o) t))
  | .call o k, r :: rs, t => do
    let t ← r.2 o (m.see (.called o) t)
    finish (k r.1) rs (m.see (.answered o r.1) t)
  | .diverge, _, _ => none

mutual
def finishScript : Script ε → σ × μ → Option (σ × μ)
  | .mk e replies, t => do
    let (_, t) ← finish m (M.code e) (finishReplies replies) (m.see (.entered e) t)
    some (m.see (.left e) t)
def finishReplies : List (Reply ε) → PartialReplies σ ο μ
  | [] => []
  | r :: rs => finishReply r :: finishReplies rs
def finishReply : Reply ε → Bool × (ο → σ × μ → Option (σ × μ))
  | .mk value meanwhile => (value, finishMeanwhile meanwhile value)
def finishMeanwhile : List (Script ε) → Bool → ο → σ × μ → Option (σ × μ)
  | [], _, _, t => some t
  | s :: l, value, o, t =>
    (if M.admits o value s.entry then finishScript s t else some t).bind (finishMeanwhile l value o)
end

end Semantics

section Rules
variable {σ ο ε μ α : Type} {M : Machine σ ο ε} {m : Monitor σ ο ε μ} {C : Contract σ ο μ}
variable {I : σ × μ → Prop} {Q : α → σ × μ → Prop} {t : σ × μ}

/-- An answer comes, and keeps what its contract says if its callee may call back; otherwise it
changes nothing. -/
def Answers (M : Machine σ ο ε) (C : Contract σ ο μ) (r : Bool × (ο → σ × μ → Option (σ × μ))) :
    Prop :=
  ∀ o t, (∀ I, C o r.1 I → I t → ∃ t', r.2 o t = some t' ∧ I t') ∧
    (M.reenters o r.1 = false → r.2 o t = some t)

theorem finish_wp {p : Prog σ ο α} {rs : PartialReplies σ ο μ} (hrs : ∀ r ∈ rs, Answers M C r)
    (h : wp M m C p Q t) : ∃ a t', finish m p rs t = some (a, t') ∧ Q a t' := by
  induction p generalizing rs t with
  | ret a => exact ⟨a, t, rfl, h⟩
  | look k ih => exact ih t.1 hrs h
  | put s k ih => exact ih hrs h
  | call o k ih =>
    cases rs with
    | nil =>
      have hb := h false
      split_ifs at hb
      · obtain ⟨J, -, hJ, hrest⟩ := hb
        exact ih false hrs (hrest _ hJ)
      · exact ih false hrs hb
    | cons r rs =>
      have hr := hrs r List.mem_cons_self o (m.see (.called o) t)
      have hrest := fun r' hr' => hrs r' (List.mem_cons_of_mem r hr')
      have hb := h r.1
      cases hre : M.reenters o r.1 with
      | true =>
        rw [hre, if_pos rfl] at hb
        obtain ⟨J, hC, hJ, hk⟩ := hb
        obtain ⟨t', ht', hJ'⟩ := hr.1 J hC hJ
        obtain ⟨a, t'', hfinish, hQ⟩ := ih r.1 hrest (hk t' hJ')
        exact ⟨a, t'', Option.bind_eq_some_iff.mpr ⟨t', ht', hfinish⟩, hQ⟩
      | false =>
        rw [hre, if_neg Bool.false_ne_true] at hb
        obtain ⟨a, t', hfinish, hQ⟩ := ih r.1 hrest hb
        exact ⟨a, t', Option.bind_eq_some_iff.mpr ⟨_, hr.2 hre, hfinish⟩, hQ⟩
  | diverge => exact h.elim

theorem finishMeanwhile_eq {o : ο} {b : Bool} (hre : M.reenters o b = false) (l : List (Script ε))
    (t : σ × μ) : finishMeanwhile M m l b o t = some t := by
  induction l generalizing t with
  | nil => rw [finishMeanwhile]
  | cons s l ih =>
    have hadm : ¬ M.admits o b s.entry = true := fun hadm => by
      rw [M.reenters_of_admits o b _ hadm] at hre
      cases hre
    rw [finishMeanwhile, if_neg hadm]
    exact ih t

mutual
theorem Honours.finishScript (hC : Honours M m C) :
    ∀ (s : Script ε) (I : σ × μ → Prop) (t : σ × μ), Keeps M m C I s.entry → I t →
      ∃ t', finishScript M m s t = some t' ∧ I t'
  | .mk e replies, I, t, he, ht => by
    obtain ⟨a, t', ht', hI⟩ := finish_wp (hC.finishReplies replies) (he t ht)
    rw [Callback.finishScript]
    exact ⟨_, Option.bind_eq_some_iff.mpr ⟨_, ht', rfl⟩, hI⟩
theorem Honours.finishReplies (hC : Honours M m C) :
    ∀ (rs : List (Reply ε)), ∀ r ∈ finishReplies M m rs, Answers M C r
  | [], r, hr => by
    rw [Callback.finishReplies] at hr
    cases hr
  | r' :: rs, r, hr => by
    rw [Callback.finishReplies] at hr
    cases List.mem_cons.mp hr with
    | inl heq => exact heq ▸ hC.finishReply r'
    | inr hmem => exact hC.finishReplies rs r hmem
theorem Honours.finishReply (hC : Honours M m C) : ∀ (r : Reply ε), Answers M C (finishReply M m r)
  | .mk value meanwhile => by
    rw [Callback.finishReply]
    exact fun o t => ⟨fun I hI ht => hC.finishMeanwhile meanwhile value o I t hI ht,
      fun hre => finishMeanwhile_eq hre meanwhile t⟩
theorem Honours.finishMeanwhile (hC : Honours M m C) :
    ∀ (l : List (Script ε)) (b : Bool) (o : ο) (I : σ × μ → Prop) (t : σ × μ), C o b I → I t →
      ∃ t', finishMeanwhile M m l b o t = some t' ∧ I t'
  | [], b, o, I, t, _, ht => by
    rw [Callback.finishMeanwhile]
    exact ⟨t, rfl, ht⟩
  | s :: l, b, o, I, t, hI, ht => by
    obtain ⟨t', ht', hI'⟩ :
      ∃ t', (if M.admits o b s.entry then Callback.finishScript M m s t else some t) =
        some t' ∧ I t' := by
      split_ifs with hadm
      · exact hC.finishScript s I t (hC o b I hI s.entry hadm) ht
      · exact ⟨t, rfl, ht⟩
    obtain ⟨t'', ht'', hI''⟩ := hC.finishMeanwhile l b o I t' hI hI'
    rw [Callback.finishMeanwhile]
    exact ⟨t'', Option.bind_eq_some_iff.mpr ⟨t', ht', ht''⟩, hI''⟩
end

end Rules

section Fuel
variable {σ ο ε μ α β : Type}

/-- The second program goes on where the first one has run out of fuel, and is the same
otherwise. -/
inductive Prog.Below : Prog σ ο α → Prog σ ο α → Prop where
  | ret (a : α) : Below (.ret a) (.ret a)
  | look {k k' : σ → Prog σ ο α} (h : ∀ s, Below (k s) (k' s)) : Below (.look k) (.look k')
  | put (s : σ) {k k' : Prog σ ο α} (h : Below k k') : Below (.put s k) (.put s k')
  | call (o : ο) {k k' : Bool → Prog σ ο α} (h : ∀ b, Below (k b) (k' b)) :
    Below (.call o k) (.call o k')
  | diverge (p : Prog σ ο α) : Below .diverge p

theorem Prog.Below.refl (p : Prog σ ο α) : Prog.Below p p := by
  induction p with
  | ret a => exact .ret a
  | look k ih => exact .look ih
  | put s k ih => exact .put s ih
  | call o k ih => exact .call o ih
  | diverge => exact .diverge _

theorem Prog.Below.bind {p p' : Prog σ ο α} {f f' : α → Prog σ ο β} (hp : Prog.Below p p')
    (hf : ∀ a, Prog.Below (f a) (f' a)) : Prog.Below (p >>= f) (p' >>= f') := by
  change Prog.Below (p.bind f) (p'.bind f')
  induction hp with
  | ret a => exact hf a
  | look _ ih => exact .look ih
  | put s _ ih => exact .put s ih
  | call o _ ih => exact .call o ih
  | diverge p => exact .diverge _

/-- A run that has come to an end does not change with more fuel. -/
theorem Prog.Below.finish {m : Monitor σ ο ε μ} {p p' : Prog σ ο α} (h : Prog.Below p p')
    {rs : PartialReplies σ ο μ} {t : σ × μ} {r : α × (σ × μ)} (hr : finish m p rs t = some r) :
    Callback.finish m p' rs t = some r := by
  induction h generalizing rs t with
  | ret a => exact hr
  | look _ ih => exact ih t.1 hr
  | put s _ ih => exact ih hr
  | call o _ ih =>
    cases rs with
    | nil => exact ih false hr
    | cons a rs =>
      obtain ⟨t', ht', hrest⟩ := Option.bind_eq_some_iff.mp hr
      exact Option.bind_eq_some_iff.mpr ⟨t', ht', ih a.1 hrest⟩
  | diverge p => cases hr

end Fuel
end MbedClient.Callback
