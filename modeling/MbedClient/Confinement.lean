import MbedClient.Callback

/-! Programs that leave a part of the state alone. What depends on that part only is kept by them,
whatever else is known of their runs and whoever calls back meanwhile. -/
namespace MbedClient.Callback
variable {σ ο ε μ α γ β : Type}

/-- In the state `s` the program does not write the part, and its calls are among those that are
allowed. When a call returns, callbacks may have changed the state. -/
def Prog.ConfinedAt (part : σ → β) (allowed : ο → Prop) : Prog σ ο α → σ → Prop
  | .ret _, _ => True
  | .look k, s => (k s).ConfinedAt part allowed s
  | .put s' k, s => part s' = part s ∧ k.ConfinedAt part allowed s'
  | .call o k, _ => allowed o ∧ ∀ v s, (k v).ConfinedAt part allowed s
  | .diverge, _ => True

def Prog.Confined (part : σ → β) (allowed : ο → Prop) (p : Prog σ ο α) : Prop :=
  ∀ s, p.ConfinedAt part allowed s

/-- What depends on the part only, and is not affected by the allowed calls as such. -/
structure Framed (m : Monitor σ ο ε μ) (part : σ → β) (allowed : ο → Prop) (J : σ × μ → Prop) :
    Prop where
  state : ∀ s s' y, part s' = part s → J (s, y) → J (s', y)
  called : ∀ o t, allowed o → J t → J (m.see (.called o) t)
  answered : ∀ o b t, allowed o → J t → J (m.see (.answered o b) t)

namespace Prog
variable {part : σ → β} {allowed : ο → Prop}

section Rules
variable {p : Prog σ ο α} {g : α → Prog σ ο γ}

theorem ConfinedAt.bind {s : σ} (hp : p.ConfinedAt part allowed s)
    (hg : ∀ a, (g a).Confined part allowed) : (p >>= g).ConfinedAt part allowed s := by
  change (p.bind g).ConfinedAt part allowed s
  induction p generalizing s with
  | ret a => exact hg a s
  | look k ih => exact ih s hp
  | put s' k ih => exact ⟨hp.1, ih hp.2⟩
  | call o k ih => exact ⟨hp.1, fun v s' => ih v (hp.2 v s')⟩
  | diverge => trivial

theorem Confined.bind (hp : p.Confined part allowed) (hg : ∀ a, (g a).Confined part allowed) :
    (p >>= g).Confined part allowed := fun s => (hp s).bind hg

theorem Confined.pure (a : α) : (pure a : Prog σ ο α).Confined part allowed := fun _ => trivial

theorem Confined.diverge : (.diverge : Prog σ ο α).Confined part allowed := fun _ => trivial

theorem Confined.read {g : σ → Prog σ ο γ} (hg : ∀ s, (g s).Confined part allowed) :
    (Prog.read >>= g).Confined part allowed := fun s => hg s s

theorem Confined.modify {f : σ → σ} (hf : ∀ s, part (f s) = part s) :
    (Prog.modify f : Prog σ ο Unit).Confined part allowed :=
  fun s => ⟨hf s, trivial⟩

theorem Confined.assign {f : σ → σ} {p : Prog σ ο α} (hf : ∀ s, part (f s) = part s)
    (hp : p.Confined part allowed) : (Prog.modify f >>= fun _ => p).Confined part allowed :=
  (Confined.modify hf).bind fun _ => hp

theorem Confined.last {o : ο} (ho : allowed o) :
    (Prog.tell o : Prog σ ο Unit).Confined part allowed := fun _ => ⟨ho, fun _ _ => trivial⟩

theorem Confined.tell {o : ο} {p : Prog σ ο α} (ho : allowed o) (hp : p.Confined part allowed) :
    (Prog.tell o >>= fun _ => p).Confined part allowed := (Confined.last ho).bind fun _ => hp

theorem Confined.ask {o : ο} {g : Bool → Prog σ ο γ} (ho : allowed o)
    (hg : ∀ v, (g v).Confined part allowed) : (Prog.ask o >>= g).Confined part allowed :=
  Confined.bind (fun _ => ⟨ho, fun _ _ => trivial⟩) hg

end Rules

section Frame
variable {M M' : Machine σ ο ε} {m : Monitor σ ο ε μ} {unwatched : Monitor σ ο ε Unit}
variable {C : Contract σ ο μ} {C' : Contract σ ο Unit} {J : σ × μ → Prop}

/-- What is proved of a program without a monitor, and for an environment that calls back at least
as often, holds together with whatever the program is confined to keep. -/
theorem ConfinedAt.wp {p : Prog σ ο α} {Q : α → σ × Unit → Prop} {t : σ × μ}
    (hp : p.ConfinedAt part allowed t.1) (hJ : Framed m part allowed J)
    (hre : ∀ o b, M.reenters o b = true → M'.reenters o b = true)
    (hC : ∀ o b I, C' o b I → C o b fun t => I (t.1, ()) ∧ J t)
    (h : Callback.wp M' unwatched C' p Q (t.1, ())) (ht : J t) :
    Callback.wp M m C p (fun a t => Q a (t.1, ()) ∧ J t) t := by
  induction p generalizing t with
  | ret a => exact ⟨h, ht⟩
  | look k ih => exact ih t.1 hp h ht
  | put s k ih =>
    have hs : J (s, t.2) := hJ.state t.1 s t.2 hp.1 ht
    exact ih (t := (s, t.2)) hp.2 h hs
  | call o k ih =>
    intro b
    have hb := h b
    have hgo : ∀ t', J t' → Callback.wp M' unwatched C' (k b) Q (t'.1, ()) →
        Callback.wp M m C (k b) (fun a t => Q a (t.1, ()) ∧ J t) (m.see (.answered o b) t') :=
      fun t' ht' h' => ih b (hp.2 b _) h' (hJ.answered o b t' hp.1 ht')
    have hcalled := hJ.called o t hp.1 ht
    cases hr : M.reenters o b with
    | true =>
      rw [if_pos (hre o b hr)] at hb
      obtain ⟨I, hI, hnow, hrest⟩ := hb
      rw [if_pos rfl]
      refine ⟨_, hC o b I hI, ⟨hnow, hcalled⟩, fun t' ht' => ?_⟩
      exact hgo t' ht'.2 (hrest (t'.1, ()) ht'.1)
    | false =>
      rw [if_neg Bool.false_ne_true]
      refine hgo _ hcalled ?_
      split_ifs at hb
      · obtain ⟨I, -, hnow, hrest⟩ := hb
        exact hrest _ hnow
      · exact hb
  | diverge => exact h

end Frame
end Prog
end MbedClient.Callback
