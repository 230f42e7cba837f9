import MbedClient.Trace

/-! Programs that call out to an environment, which may call back before it answers.

A script says what the environment does in a run: which entry points it calls, what it answers to
each call of theirs, and which entry points it calls meanwhile. -/
namespace MbedClient.Callback

/-- A program over a state of type `σ` with calls of type `ο`, each answered by a Boolean. -/
inductive Prog (σ ο α : Type) where
  | ret (a : α)
  | look (k : σ → Prog σ ο α)
  | put (s : σ) (k : Prog σ ο α)
  | call (o : ο) (k : Bool → Prog σ ο α)
  /-- a loop that has run out of fuel -/
  | diverge

namespace Prog
variable {σ ο α β : Type}

def bind : Prog σ ο α → (α → Prog σ ο β) → Prog σ ο β
  | .ret a, f => f a
  | .look k, f => .look fun s => (k s).bind f
  | .put s k, f => .put s (k.bind f)
  | .call o k, f => .call o fun b => (k b).bind f
  | .diverge, _ => .diverge

instance : Monad (Prog σ ο) where
  pure := .ret
  bind := .bind

def read : Prog σ ο σ := .look .ret
def modify (f : σ → σ) : Prog σ ο Unit := .look fun s => .put (f s) (.ret ())
def ask (o : ο) : Prog σ ο Bool := .call o .ret
def tell (o : ο) : Prog σ ο Unit := .call o fun _ => .ret ()

end Prog

/-- A component: its entry points, and which of them a callee calls before it answers. -/
structure Machine (σ ο ε : Type) where
  code : ε → Prog σ ο Unit
  admits : ο → Bool → ε → Bool
  reenters : ο → Bool → Bool
  reenters_of_admits : ∀ o b e, admits o b e = true → reenters o b = true

mutual
/-- A call of an entry point, with the answers to the calls that it makes. -/
inductive Script (ε : Type) where
  | mk (entry : ε) (replies : List (Reply ε))
inductive Reply (ε : Type) where
  | mk (value : Bool) (meanwhile : List (Script ε))
end

def Script.entry {ε : Type} : Script ε → ε
  | .mk e _ => e

inductive Signal (ο ε : Type) where
  | entered (e : ε)
  | called (o : ο)
  | answered (o : ο) (b : Bool)
  | left (e : ε)

section Semantics
variable {σ ο ε μ α β : Type}

abbrev Monitor (σ ο ε μ : Type) := Signal ο ε → σ → μ → μ

def Monitor.see (m : Monitor σ ο ε μ) (x : Signal ο ε) (t : σ × μ) : σ × μ := (t.1, m x t.1 t.2)

variable (M : Machine σ ο ε) (m : Monitor σ ο ε μ)

/-- The answers still to come, each with what happens meanwhile. -/
abbrev Replies (σ ο μ : Type) := List (Bool × (ο → σ × μ → σ × μ))

/-- An environment without an answer refuses. -/
def exec : Prog σ ο α → Replies σ ο μ → σ × μ → σ × μ
  | .ret _, _, t => t
  | .look k, rs, t => exec (k t.1) rs t
  | .put s k, rs, t => exec k rs (s, t.2)
  | .call o k, [], t => exec (k false) [] (m.see (.answered o false) (m.see (.called o) t))
  | .call o k, r :: rs, t => exec (k r.1) rs (m.see (.answered o r.1) (r.2 o (m.see (.called o) t)))
  | .diverge, _, t => t

mutual
def runScript : Script ε → σ × μ → σ × μ
  | .mk e replies, t =>
    m.see (.left e) (exec m (M.code e) (runReplies replies) (m.see (.entered e) t))
def runReplies : List (Reply ε) → Replies σ ο μ
  | [] => []
  | r :: rs => runReply r :: runReplies rs
def runReply : Reply ε → Bool × (ο → σ × μ → σ × μ)
  | .mk value meanwhile => (value, runMeanwhile meanwhile value)
def runMeanwhile : List (Script ε) → Bool → ο → σ × μ → σ × μ
  | [], _, _, t => t
  | s :: l, value, o, t =>
    runMeanwhile l value o (if M.admits o value s.entry then runScript s t else t)
end

def run (l : List (Script ε)) (t : σ × μ) : σ × μ := Trace.fold (runScript M m) l t

/-- Which conditions the callbacks that come before an answer keep. -/
abbrev Contract (σ ο μ : Type) := ο → Bool → (σ × μ → Prop) → Prop

/-- What must hold before a program for `Q` to hold after it, if callbacks are as the contract says:
at a call some condition of the contract must hold, and afterwards it is all that is known. -/
def wp (C : Contract σ ο μ) : Prog σ ο α → (α → σ × μ → Prop) → σ × μ → Prop
  | .ret a, Q, t => Q a t
  | .look k, Q, t => wp C (k t.1) Q t
  | .put s k, Q, t => wp C k Q (s, t.2)
  | .call o k, Q, t => ∀ b,
    if M.reenters o b then
      ∃ I, C o b I ∧ I (m.see (.called o) t) ∧ ∀ t', I t' → wp C (k b) Q (m.see (.answered o b) t')
    else wp C (k b) Q (m.see (.answered o b) (m.see (.called o) t))
  | .diverge, _, _ => False

end Semantics

section Rules
variable {σ ο ε μ α β : Type} {M : Machine σ ο ε} {m : Monitor σ ο ε μ} {C : Contract σ ο μ}
variable {I : σ × μ → Prop} {Q : α → σ × μ → Prop} {t : σ × μ}

@[simp] theorem wp_pure (a : α) : wp M m C (pure a) Q t ↔ Q a t := Iff.rfl

@[simp] theorem wp_read {Q : σ → σ × μ → Prop} : wp M m C .read Q t ↔ Q t.1 t := Iff.rfl

@[simp] theorem wp_modify {Q : Unit → σ × μ → Prop} (f : σ → σ) :
    wp M m C (.modify f) Q t ↔ Q () (f t.1, t.2) := Iff.rfl

theorem wp_bind (p : Prog σ ο α) (f : α → Prog σ ο β) (Q : β → σ × μ → Prop) (t : σ × μ) :
    wp M m C (p >>= f) Q t ↔ wp M m C p (fun a t => wp M m C (f a) Q t) t := by
  change wp M m C (p.bind f) Q t ↔ _
  induction p generalizing t with
  | ret a => rfl
  | look k ih => exact ih t.1 t
  | put s k ih => exact ih (s, t.2)
  | call o k ih =>
    refine forall_congr' fun b => ?_
    split_ifs
    · exact exists_congr fun J =>
        and_congr_right fun _ => and_congr_right fun _ => forall₂_congr fun t' _ => ih b _
    · exact ih b _
  | diverge => rfl

theorem wp_mono {Q' : α → σ × μ → Prop} {p : Prog σ ο α} (hQ : ∀ a t, Q a t → Q' a t)
    (h : wp M m C p Q t) : wp M m C p Q' t := by
  induction p generalizing t with
  | ret a => exact hQ a t h
  | look k ih => exact ih t.1 h
  | put s k ih => exact ih h
  | call o k ih =>
    intro b
    have hb := h b
    split_ifs at hb ⊢
    · obtain ⟨J, hC, hJ, hrest⟩ := hb
      exact ⟨J, hC, hJ, fun t' ht' => ih b (hrest t' ht')⟩
    · exact ih b hb
  | diverge => exact h

/-- A call whose callee does not call back. -/
theorem wp_ask {o : ο} {Q : Bool → σ × μ → Prop} (hre : ∀ b, M.reenters o b = false) :
    wp M m C (.ask o) Q t ↔ ∀ b, Q b (m.see (.answered o b) (m.see (.called o) t)) := by
  refine forall_congr' fun b => ?_
  rw [hre b, if_neg Bool.false_ne_true]
  rfl

theorem wp_tell {o : ο} {Q : Unit → σ × μ → Prop} (hre : ∀ b, M.reenters o b = false) :
    wp M m C (.tell o) Q t ↔ ∀ b, Q () (m.see (.answered o b) (m.see (.called o) t)) := by
  refine forall_congr' fun b => ?_
  rw [hre b, if_neg Bool.false_ne_true]
  rfl

/-- A call of any kind, where all that matters afterwards is what callbacks keep. -/
theorem wp_ask_keep {o : ο} {Q : Bool → σ × μ → Prop} (hC : ∀ b, C o b I)
    (ht : I (m.see (.called o) t)) (hQ : ∀ b t, I t → Q b (m.see (.answered o b) t)) :
    wp M m C (.ask o) Q t := by
  intro b
  split_ifs
  · exact ⟨I, hC b, ht, fun t' ht' => hQ b t' ht'⟩
  · exact hQ b _ ht

theorem wp_tell_keep {o : ο} {Q : Unit → σ × μ → Prop} (hC : ∀ b, C o b I)
    (ht : I (m.see (.called o) t)) (hQ : ∀ b t, I t → Q () (m.see (.answered o b) t)) :
    wp M m C (.tell o) Q t := by
  intro b
  split_ifs
  · exact ⟨I, hC b, ht, fun t' ht' => hQ b t' ht'⟩
  · exact hQ b _ ht

/-- An answer keeps what its contract says if its callee may call back, and otherwise changes
nothing. -/
def Harmless (M : Machine σ ο ε) (C : Contract σ ο μ) (r : Bool × (ο → σ × μ → σ × μ)) : Prop :=
  ∀ o t, (∀ I, C o r.1 I → I t → I (r.2 o t)) ∧ (M.reenters o r.1 = false → r.2 o t = t)

theorem exec_wp {p : Prog σ ο α} {rs : Replies σ ο μ} (hrs : ∀ r ∈ rs, Harmless M C r)
    (h : wp M m C p Q t) : ∃ a, Q a (exec m p rs t) := by
  induction p generalizing rs t with
  | ret a => exact ⟨a, h⟩
  | look k ih => exact ih t.1 hrs h
  | put s k ih => exact ih hrs h
  | call o k ih =>
    cases rs with
    | nil =>
      have hb := h false
      split_ifs at hb
      · obtain ⟨J, -, hJ, hrest⟩ := hb
        exact ih false hrs (hrest _ hJ)
      · exact ih false hrs hb
    | cons r rs =>
      have hr := hrs r List.mem_cons_self o (m.see (.called o) t)
      have hrest := fun r' hr' => hrs r' (List.mem_cons_of_mem r hr')
      have hb := h r.1
      cases hre : M.reenters o r.1 with
      | true =>
        rw [hre, if_pos rfl] at hb
        obtain ⟨J, hC, hJ, hk⟩ := hb
        exact ih r.1 hrest (hk _ (hr.1 J hC hJ))
      | false =>
        rw [hre, if_neg Bool.false_ne_true] at hb
        change ∃ a, Q a (exec m (k r.1) rs (m.see (.answered o r.1) (r.2 o (m.see (.called o) t))))
        rw [hr.2 hre]
        exact ih r.1 hrest hb
  | diverge => exact h.elim

theorem runMeanwhile_eq {o : ο} {b : Bool} (hre : M.reenters o b = false) (l : List (Script ε))
    (t : σ × μ) : runMeanwhile M m l b o t = t := by
  induction l generalizing t with
  | nil => rw [runMeanwhile]
  | cons s l ih =>
    have hadm : ¬ M.admits o b s.entry = true := fun hadm => by
      rw [M.reenters_of_admits o b _ hadm] at hre
      cases hre
    rw [runMeanwhile, if_neg hadm]
    exact ih t

def Keeps (M : Machine σ ο ε) (m : Monitor σ ο ε μ) (C : Contract σ ο μ) (I : σ × μ → Prop)
    (e : ε) : Prop :=
  ∀ t, I t → wp M m C (M.code e) (fun _ t' => I (m.see (.left e) t')) (m.see (.entered e) t)

/-- Who calls back when does not matter to what is proved of a program. -/
theorem wp_congr {M' : Machine σ ο ε} (hre : M.reenters = M'.reenters) (p : Prog σ ο α)
    (Q : α → σ × μ → Prop) (t : σ × μ) : wp M m C p Q t ↔ wp M' m C p Q t := by
  induction p generalizing t with
  | ret a => rfl
  | look k ih => exact ih t.1 t
  | put s k ih => exact ih (s, t.2)
  | call o k ih =>
    refine forall_congr' fun b => ?_
    rw [hre]
    split_ifs
    · exact exists_congr fun J =>
        and_congr_right fun _ => and_congr_right fun _ => forall₂_congr fun t' _ => ih b _
    · exact ih b _
  | diverge => rfl

theorem Keeps.congr {M' : Machine σ ο ε} {e : ε} (h : Keeps M m C I e) (hcode : M.code = M'.code)
    (hre : M.reenters = M'.reenters) : Keeps M' m C I e :=
  fun t ht => (wp_congr hre _ _ _).mp (hcode ▸ h t ht)

def Honours (M : Machine σ ο ε) (m : Monitor σ ο ε μ) (C : Contract σ ο μ) : Prop :=
  ∀ o b I, C o b I → ∀ e, M.admits o b e = true → Keeps M m C I e

mutual
theorem Honours.runScript (hC : Honours M m C) :
    ∀ (s : Script ε) (I : σ × μ → Prop) (t : σ × μ), Keeps M m C I s.entry → I t →
      I (runScript M m s t)
  | .mk e replies, I, t, he, ht => by
    rw [Callback.runScript]
    obtain ⟨-, h⟩ := exec_wp (hC.runReplies replies) (he t ht)
    exact h
theorem Honours.runReplies (hC : Honours M m C) :
    ∀ (rs : List (Reply ε)), ∀ r ∈ runReplies M m rs, Harmless M C r
  | [], r, hr => by
    rw [Callback.runReplies] at hr
    cases hr
  | r' :: rs, r, hr => by
    rw [Callback.runReplies] at hr
    cases List.mem_cons.mp hr with
    | inl heq => exact heq ▸ hC.runReply r'
    | inr hmem => exact hC.runReplies rs r hmem
theorem Honours.runReply (hC : Honours M m C) : ∀ (r : Reply ε), Harmless M C (runReply M m r)
  | .mk value meanwhile => by
    rw [Callback.runReply]
    exact fun o t => ⟨fun I hI ht => hC.runMeanwhile meanwhile value o I t hI ht,
      fun hre => runMeanwhile_eq hre meanwhile t⟩
theorem Honours.runMeanwhile (hC : Honours M m C) :
    ∀ (l : List (Script ε)) (b : Bool) (o : ο) (I : σ × μ → Prop) (t : σ × μ), C o b I → I t →
      I (runMeanwhile M m l b o t)
  | [], b, o, I, t, _, ht => by
    rw [Callback.runMeanwhile]
    exact ht
  | s :: l, b, o, I, t, hI, ht => by
    rw [Callback.runMeanwhile]
    refine hC.runMeanwhile l b o I _ hI ?_
    split_ifs with hadm
    · exact hC.runScript s I t (hC o b I hI s.entry hadm) ht
    · exact ht
end

/-- What every entry point keeps holds after every run. -/
theorem Honours.run (hC : Honours M m C) (hI : ∀ e, Keeps M m C I e) (l : List (Script ε))
    (ht : I t) : I (run M m l t) :=
  Trace.fold_invariant (fun s _ t ht => hC.runScript s I t (hI s.entry) ht) ht

end Rules
section Seen
variable {σ ο ε μ α : Type} {M : Machine σ ο ε} {m : Monitor σ ο ε μ} {P : μ → Prop}

/-- What no signal undoes holds from then on, whatever the programs do. -/
theorem exec_seen (hP : ∀ x s y, P y → P (m x s y)) (p : Prog σ ο α) {rs : Replies σ ο μ}
    (hrs : ∀ r ∈ rs, ∀ o t, P t.2 → P (r.2 o t).2) {t : σ × μ} (ht : P t.2) :
    P (exec m p rs t).2 := by
  induction p generalizing rs t with
  | ret a => exact ht
  | look k ih => exact ih t.1 hrs ht
  | put s k ih => exact ih hrs ht
  | call o k ih =>
    cases rs with
    | nil => exact ih false hrs (hP _ _ _ (hP _ _ _ ht))
    | cons r rs =>
      have hr := hrs r List.mem_cons_self o (m.see (.called o) t) (hP _ _ _ ht)
      exact ih r.1 (fun r' hr' => hrs r' (List.mem_cons_of_mem r hr')) (hP _ _ _ hr)
  | diverge => exact ht

mutual
theorem runScript_seen (hP : ∀ x s y, P y → P (m x s y)) :
    ∀ (s : Script ε) (t : σ × μ), P t.2 → P (runScript M m s t).2
  | .mk e replies, t, ht => by
    rw [Callback.runScript]
    exact hP _ _ _ (exec_seen hP _ (runReplies_seen hP replies) (hP _ _ _ ht))
theorem runReplies_seen (hP : ∀ x s y, P y → P (m x s y)) :
    ∀ (rs : List (Reply ε)), ∀ r ∈ runReplies M m rs, ∀ o t, P t.2 → P (r.2 o t).2
  | [], r, hr => by
    rw [Callback.runReplies] at hr
    cases hr
  | .mk value meanwhile :: rs, r, hr => by
    rw [Callback.runReplies] at hr
    cases List.mem_cons.mp hr with
    | inl heq =>
      rw [heq, runReply]
      exact fun o t ht => runMeanwhile_seen hP meanwhile value o t ht
    | inr hmem => exact runReplies_seen hP rs r hmem
theorem runMeanwhile_seen (hP : ∀ x s y, P y → P (m x s y)) :
    ∀ (l : List (Script ε)) (b : Bool) (o : ο) (t : σ × μ), P t.2 →
      P (runMeanwhile M m l b o t).2
  | [], b, o, t, ht => by
    rw [Callback.runMeanwhile]
    exact ht
  | s :: l, b, o, t, ht => by
    rw [Callback.runMeanwhile]
    refine runMeanwhile_seen hP l b o _ ?_
    split_ifs
    · exact runScript_seen hP s t ht
    · exact ht
end

/-- A call and then the rest, which has the answers that are left. -/
theorem exec_tell_bind (o : ο) (p : Prog σ ο α) (rs : Replies σ ο μ) (t : σ × μ) :
    exec m (Prog.tell o >>= fun _ => p) rs t = exec m p rs.tail (exec m (Prog.tell o) rs t) := by
  cases rs with
  | nil => rfl
  | cons r rs => rfl

end Seen
end MbedClient.Callback
