import MbedClient.Interface.Refusal

/-! Updates of the registration with a lifetime that is too short. -/
namespace MbedClient.Interface
open Callback Callback.Prog

section Update
variable {noisy : Bool} {replies : List (Reply Entry)} {t : M2MInterfaceImpl × List Output}

/-- `InvalidParameters` has been reported, and the application has returned from that. -/
def reported (noisy : Bool) (replies : List (Reply Entry)) (t : M2MInterfaceImpl × List Output) :
    M2MInterfaceImpl × List Output :=
  exec calls (Prog.tell (.error .invalidParameters)) (runReplies (machine noisy) calls replies) t

theorem calls_grow (y : List Output) (x : Signal Output Entry) (i : M2MInterfaceImpl)
    (y' : List Output) (h : y <+: y') : y <+: calls x i y' := by
  cases x with
  | called o => exact h.trans (List.prefix_append y' [o])
  | _ => exact h

/-- What is left of an update after the check of its lifetime asks its transition map. -/
theorem consults_map {rs : Replies M2MInterfaceImpl Output (List Output)}
    (hrs : ∀ y, ∀ r ∈ rs, ∀ o t, y <+: t.2 → y <+: (r.2 o t).2) (data : Option EventData)
    (rest : Code Unit) :
    t.2 ++ [.transition .updateRegistration] <+:
      (exec calls (externalEvent .updateRegistration data >>= fun _ => rest) rs t).2 := by
  obtain ⟨p, hsplit⟩ : ∃ p : Code Unit, (externalEvent .updateRegistration data >>= fun _ => rest) =
      (Prog.tell (.transition .updateRegistration) >>= fun _ => p) := ⟨_, rfl⟩
  have hgrow := calls_grow (t.2 ++ [.transition .updateRegistration])
  rw [hsplit, exec_tell_bind]
  refine exec_seen hgrow _ (fun r hr => hrs _ r (List.mem_of_mem_tail hr)) ?_
  cases rs with
  | nil => exact List.prefix_rfl
  | cons r rs => exact hrs _ r List.mem_cons_self _ _ List.prefix_rfl

theorem replies_grow (noisy : Bool) (replies : List (Reply Entry)) (y : List Output) :
    ∀ r ∈ runReplies (machine noisy) calls replies, ∀ o t, y <+: t.2 → y <+: (r.2 o t).2 :=
  runReplies_seen (calls_grow y) replies

/-- An update whose lifetime is too short reports that, and does the rest as well. -/
theorem short_update_eq {security : Option M2MSecurity} {objectList : M2MObjectList}
    {lifetime : UInt32} (hshort : 0 < lifetime ∧ lifetime < minimumRegistrationTime) :
    updateRegistration security objectList lifetime =
      (Prog.tell (.error .invalidParameters) >>= fun _ => do
        let i ← Prog.read
        if i.reconnecting then pure ()
        else do
          modify fun i => { i with reconnectionState := .withUpdate }
          externalEvent .updateRegistration (some (.updateRegister security lifetime objectList))
          refuse fun i => !i.reconnecting) := by
  have hne : (lifetime != 0) = true := bne_iff_ne.mpr (UInt32.pos_iff_ne_zero.mp hshort.1)
  rw [updateRegistration, hne, decide_eq_true hshort.2]
  rfl

end Update

/-- In every run, an update of the registration with a lifetime that is too short reports
`InvalidParameters` and does nothing besides if and only if the client is reconnecting when the
application has returned from that report. To consult the transition map counts as doing something,
also where the map ignores the operation: `Output.transition` is a ghost record of it. -/
theorem short_lifetime_iff (noisy : Bool) (config : Config) (endpointName domain : Bytes)
    (bindingMode : BindingMode) (listenPort : UInt16) (l : List (Script Entry))
    (security : Option M2MSecurity) (objectList : M2MObjectList) (lifetime : UInt32)
    (hshort : 0 < lifetime ∧ lifetime < minimumRegistrationTime) (replies : List (Reply Entry)) :
    let t := run (machine noisy) calls l
      (M2MInterfaceImpl.create config endpointName domain bindingMode listenPort, [])
    runScript (machine noisy) calls (.mk (.updateRegistration security objectList lifetime) replies)
        t = reported noisy replies t ↔
      (reported noisy replies t).1.reconnecting = true := by
  intro t
  have hrun : runScript (machine noisy) calls
      (.mk (.updateRegistration security objectList lifetime) replies) t =
      exec calls (updateRegistration security objectList lifetime)
        (runReplies (machine noisy) calls replies) t := by
    rw [runScript]
    rfl
  rw [hrun, short_update_eq hshort, exec_tell_bind]
  set told := reported noisy replies t with htold
  -- the rest of the update, from what the application has left
  change exec calls (if told.1.reconnecting then pure () else _) _ told = told ↔ _
  by_cases hrec : told.1.reconnecting = true
  · rw [if_pos hrec]
    exact iff_of_true rfl hrec
  · rw [if_neg hrec]
    refine iff_of_false (fun hsame => ?_) hrec
    have hgrown := consults_map (t := ({ told.1 with reconnectionState := .withUpdate }, told.2))
      (fun y r hr => replies_grow noisy replies y r (List.mem_of_mem_tail hr))
      (some (.updateRegister security lifetime objectList)) (refuse fun i => !i.reconnecting)
    have hlength : (told.2 ++ [Output.transition .updateRegistration]).length ≤ told.2.length :=
      hgrown.length_le.trans_eq (congrArg (fun t => t.2.length) hsame)
    rw [List.length_append, List.length_singleton] at hlength
    omega

/-- The connection has been lost and the client waits for its retry. -/
theorem short_lifetime_retrying :
    let server : M2MSecurity := ⟨1, .lwm2mServer, coapScheme ++ [0x61, 0x3A, 0x31], noSecurity⟩
    let yes : Reply Entry := .mk true []
    let t := run (machine true) calls
      [.mk (.registerObject (some server) []) [yes, yes, yes, yes], .mk (.socketError 1 true) []]
      (M2MInterfaceImpl.create {} [] [] .udp 0, [])
    runScript (machine true) calls (.mk (.updateRegistration none [] 30) []) t =
      reported true [] t :=
  (short_lifetime_iff true {} [] [] .udp 0
    [.mk (.registerObject (some ⟨1, .lwm2mServer, coapScheme ++ [0x61, 0x3A, 0x31], noSecurity⟩) [])
      [.mk true [], .mk true [], .mk true [], .mk true []], .mk (.socketError 1 true) []]
    none [] 30 (by decide) []).mpr (by decide +kernel)

/-- A registered client that is asked for a lifetime of 30 seconds reports the error and sends the
update. -/
theorem short_lifetime_sent :
    let server : M2MSecurity := ⟨1, .lwm2mServer, coapScheme ++ [0x61, 0x3A, 0x31], noSecurity⟩
    let address : SocketAddress := ⟨.lwipIPv4, [0x61], 1⟩
    let yes : Reply Entry := .mk true []
    let sent : Reply Entry := .mk true [.mk (.coapMessageReady []) [yes]]
    let t := run (machine true) calls
      [.mk (.registerObject (some server) []) [yes, yes, yes, yes],
        .mk (.addressReady address .lwm2mServer 1) [yes, yes, yes, sent],
        .mk .clientRegistered []]
      (M2MInterfaceImpl.create {} [] [] .udp 0, [])
    let t' :=
      runScript (machine true) calls (.mk (.updateRegistration none [] 30) [yes, yes, yes, yes]) t
    t.1.currentState = .registered ∧ t'.1.currentState = .updateRegistration ∧
      t'.2 = t.2 ++ [.error .invalidParameters, .transition .updateRegistration,
        .stateFunction .updateRegistration (some (.updateRegister none 30 [])),
        .sendUpdateRegistration 30] := by
  decide +kernel

end MbedClient.Interface
