import MbedClient.Interface.Steady

/-! An attempt to connect: from the entering of its state to the call of the connection handler. -/
namespace MbedClient.Interface
open Callback Callback.Prog

/-- Calls on the way to the connection handler, during which nobody calls back. -/
def Output.preliminary : Output → Bool
  | .stopListening | .bindConnection _ | .createNsdlListStructure _ => true
  | _ => false

section Approach
variable {noisy : Bool} {μ : Type} {m : Monitor M2MInterfaceImpl Output Entry μ}
variable {C : Contract M2MInterfaceImpl Output μ} {I F G : M2MInterfaceImpl × μ → Prop}
variable {t : M2MInterfaceImpl × μ} {event : InternalEvent} {data : Option EventData}

/-- What is known on the way, and that it is enough where the connection handler is called. The
cache holds what it held before, or, if that was nothing, the object that the event data name. -/
structure Approach (noisy : Bool) (m : Monitor M2MInterfaceImpl Output Entry μ)
    (C : Contract M2MInterfaceImpl Output μ) (I G : M2MInterfaceImpl × μ → Prop)
    (data : Option EventData) : Prop where
  minor : ∀ t i, G t → Minor t.1 i → i.security = t.1.security → G (i, t.2)
  cached : ∀ t i e, data = some e → G t → t.1.security = none → Minor t.1 i →
    i.security = e.object → G (i, t.2)
  preliminary : ∀ o b t, o.preliminary = true → G t →
    G (m.see (.answered o b) (m.see (.called o) t))
  resolve : ∀ address port type t, G t → wp (machine noisy) m C
    (.tell (.resolveServerAddress address port type t.1.security)) (fun _ => I) t

/-- Either the server has been asked for, or nothing of note has happened. -/
theorem Approach.connect (ha : Approach noisy m C I G data) {type : ServerType}
    {flow : M2MTimerObserver} {security : M2MSecurity} (ht : G t) :
    wp (machine noisy) m C (connect type flow security)
      (fun b t' => if b then I t' else G t') t := by
  unfold Interface.connect
  cases security.serverAddress with
  | none => exact ht
  | some serverAddress =>
    simp only [wp_bind, wp_modify, wp_read]
    have hp := ha.minor t (
      { t.1 with
        serverIpAddress := (processAddress serverAddress t.1.serverIpAddress t.1.serverPort).1
        serverPort := (processAddress serverAddress t.1.serverIpAddress t.1.serverPort).2 })
      ht ⟨rfl, rfl, rfl, rfl, rfl, id⟩ rfl
    split_ifs
    · exact hp
    · simp only [wp_bind, wp_modify]
      exact ha.resolve _ _ type _ (ha.minor _ _ hp (Minor.startFlowTimer _ flow) rfl)

theorem Approach.stateBootstrap (ha : Approach noisy m C I G data) (h : Orderly m C I F)
    (hev : Raises noisy m C I F event 2) (ht : G t)
    (hF : t.1.security = none → ∀ t', G t' → F t') :
    wp (machine noisy) m C (stateBootstrap event data) (fun _ => I) t := by
  rw [Interface.stateBootstrap]
  simp only [wp_bind, wp_modify, wp_read]
  have hminor : Minor t.1 { t.1 with bootstrapped := false } := ⟨rfl, rfl, rfl, rfl, rfl, id⟩
  split_ifs with hs
  · have hfail := hF (Option.isNone_iff_eq_none.mp hs)
    refine h.giveUp hev ?_
    cases hd : data with
    | none => exact hfail _ (ha.minor t _ ht hminor rfl)
    | some e =>
      simp only [firstBootstrap, wp_bind, wp_modify]
      have hset := ha.cached t { t.1 with bootstrapped := false, security := e.object } e hd ht
        (Option.isNone_iff_eq_none.mp hs) ⟨rfl, rfl, rfl, rfl, rfl, id⟩ rfl
      generalize e.object = object at hset ⊢
      cases object with
      | none => exact hfail _ hset
      | some security =>
        dsimp only
        split_ifs
        · refine wp_mono (fun b t' ht' => ?_) (ha.connect hset)
          cases b with
          | true => exact ht'
          | false => exact hfail _ ht'
        · exact hfail _ hset
  · simp only [wp_bind, wp_modify]
    have hport := ha.minor t { t.1 with bootstrapped := false, listenPort := 0 } ht
      ⟨rfl, rfl, rfl, rfl, rfl, id⟩ rfl
    refine (wp_tell fun _ => rfl).mpr fun b =>
      (wp_tell fun _ => rfl).mpr fun b' => ?_
    have hbound :=
      ha.preliminary (.bindConnection 0) b' _ rfl (ha.preliminary .stopListening b _ rfl hport)
    exact ha.resolve _ _ .bootstrap _ (ha.minor _ _ hbound (Minor.startFlowTimer _ _) rfl)

theorem Approach.stateRegister (ha : Approach noisy m C I G data) (h : Orderly m C I F)
    (hev : Raises noisy m C I F event 2) (ht : G t)
    (hF : t.1.security = none → ∀ t', G t' → F t') :
    wp (machine noisy) m C (stateRegister event data) (fun _ => I) t := by
  rw [Interface.stateRegister]
  simp only [wp_bind, wp_read]
  split_ifs with hs
  · have hfail := hF (Option.isNone_iff_eq_none.mp hs)
    refine h.giveUp hev ?_
    cases hd : data with
    | none => exact hfail _ ht
    | some e =>
      simp only [firstRegister, wp_bind, wp_modify]
      have hset := ha.cached t { t.1 with security := e.object } e hd ht
        (Option.isNone_iff_eq_none.mp hs) ⟨rfl, rfl, rfl, rfl, rfl, id⟩ rfl
      generalize e.object = object at hset ⊢
      cases object with
      | none => exact hfail _ hset
      | some security =>
        dsimp only
        split_ifs
        · rw [wp_bind, wp_ask fun _ => rfl]
          intro created
          have hcreated := ha.preliminary (.createNsdlListStructure e.objectList) created _ rfl hset
          cases created with
          | true =>
            refine wp_mono (fun b t' ht' => ?_) (ha.connect hcreated)
            cases b with
            | true => exact ht'
            | false => exact hfail _ ht'
          | false => exact hfail _ hcreated
        · exact hfail _ hset
  · simp only [wp_bind, wp_modify]
    have hport := ha.minor t { t.1 with listenPort := 0 } ht ⟨rfl, rfl, rfl, rfl, rfl, id⟩ rfl
    rw [wp_tell fun _ => rfl]
    intro b
    have hstop := ha.preliminary .stopListening b _ rfl hport
    cases data with
    | none =>
      simp only [wp_bind, wp_modify]
      refine (wp_tell fun _ => rfl).mpr fun b' => ?_
      have hbound := ha.preliminary (.bindConnection 0) b' _ rfl hstop
      exact ha.resolve _ _ .lwm2mServer _ (ha.minor _ _ hbound (Minor.startFlowTimer _ _) rfl)
    | some e =>
      simp only [wp_bind, wp_modify]
      refine (wp_tell fun _ => rfl).mpr fun b'' =>
        (wp_tell fun _ => rfl).mpr fun b' => ?_
      have hlist := ha.preliminary (.createNsdlListStructure e.objectList) b'' _ rfl hstop
      have hbound := ha.preliminary (.bindConnection 0) b' _ rfl hlist
      exact ha.resolve _ _ .lwm2mServer _ (ha.minor _ _ hbound (Minor.startFlowTimer _ _) rfl)

theorem Approach.eventBootstrap (h : Orderly m C I F)
    (ha : ∀ b, Approach noisy m C I G data ∧ G (entering m .bootstrap data b t))
    (hF : t.1.security = none → ∀ t', G t' → F t') :
    wp (machine noisy) m C (internalEvent .bootstrap data) (fun _ => I) t :=
  h.eventAt fun b => (ha b).1.stateBootstrap h (h.raises 2 (by decide)) (ha b).2 hF

theorem Approach.eventRegister (h : Orderly m C I F)
    (ha : ∀ b, Approach noisy m C I G data ∧ G (entering m .register data b t))
    (hF : t.1.security = none → ∀ t', G t' → F t') :
    wp (machine noisy) m C (internalEvent .register data) (fun _ => I) t :=
  h.eventAt fun b => (ha b).1.stateRegister h (h.raises 2 (by decide)) (ha b).2 hF

end Approach
end MbedClient.Interface
