import MbedClient.Confinement
import MbedClient.Interface.Rest
import MbedClient.Interface.Steady

/-! What governs the retries, and the parts of the interface that leave it alone. -/
namespace MbedClient.Interface
open Callback Callback.Prog

structure Retrying where
  config : Config
  retryCount : UInt8
  reconnecting : Bool
  retryTimer : M2MTimer

def M2MInterfaceImpl.retrying (i : M2MInterfaceImpl) : Retrying :=
  ⟨i.config, i.retryCount, i.reconnecting, i.retryTimer⟩

def EStates.succeeds : EStates → Bool
  | .registered | .bootstrapped => true
  | _ => false

def Output.succeeds : Output → Bool
  | .stateFunction state _ => state.succeeds
  | _ => false

/-- Neither the retries are touched nor is one of these states entered. -/
abbrev Aloof {α : Type} (p : Code α) : Prop :=
  p.Confined M2MInterfaceImpl.retrying fun o => o.succeeds = false

section StateFunctions
variable {event : InternalEvent} {data : Option EventData}

theorem Aloof.whenM {c : Bool} {p : Code Unit} (hp : Aloof p) : Aloof (whenM c p) := by
  cases c with
  | true => exact hp
  | false => exact Confined.pure ()

theorem Aloof.connect (type : ServerType) (flow : M2MTimerObserver) (security : M2MSecurity) :
    Aloof (connect type flow security) := by
  unfold Interface.connect
  cases security.serverAddress with
  | none => exact Confined.pure false
  | some serverAddress =>
    refine Confined.assign (fun _ => rfl) (Confined.read fun i => ?_)
    split_ifs
    · exact Confined.pure false
    · exact Confined.assign (fun _ => rfl) (Confined.tell rfl (Confined.pure true))

theorem Aloof.firstBootstrap (data : Option EventData) : Aloof (firstBootstrap data) := by
  cases data with
  | none => exact Confined.pure false
  | some event =>
    refine Confined.assign (fun _ => rfl) ?_
    cases event.object with
    | none => exact Confined.pure false
    | some security =>
      dsimp only
      split_ifs
      · exact Aloof.connect _ _ _
      · exact Confined.pure false

theorem Aloof.firstRegister (data : Option EventData) : Aloof (firstRegister data) := by
  cases data with
  | none => exact Confined.pure false
  | some event =>
    refine Confined.assign (fun _ => rfl) ?_
    cases event.object with
    | none => exact Confined.pure false
    | some security =>
      dsimp only
      split_ifs
      · refine Confined.ask rfl fun created => ?_
        cases created with
        | true => exact Aloof.connect _ _ _
        | false => exact Confined.pure false
      · exact Confined.pure false

theorem Aloof.fail (hidle : Aloof (event .idle none)) (error : Error) : Aloof (fail event error) :=
  Confined.bind hidle fun _ => Confined.last rfl

theorem Aloof.sendRegister (hidle : Aloof (event .idle none)) : Aloof (sendRegister event) :=
  Confined.ask rfl fun _ => (Aloof.fail hidle _).whenM

theorem Aloof.stateBootstrap (hidle : Aloof (event .idle none)) (data : Option EventData) :
    Aloof (stateBootstrap event data) := by
  refine Confined.assign (fun _ => rfl) (Confined.read fun i => ?_)
  split_ifs
  · exact Confined.bind (Aloof.firstBootstrap data) fun _ => (Aloof.fail hidle _).whenM
  · refine Confined.assign (fun _ => rfl) (Confined.tell rfl (Confined.tell rfl ?_))
    exact Confined.assign (fun _ => rfl) (Confined.last rfl)

theorem Aloof.stateBootstrapAddressResolved (hidle : Aloof (event .idle none))
    (hcreated : Aloof (event .bootstrapResourceCreated none)) (data : Option EventData) :
    Aloof (stateBootstrapAddressResolved event data) := by
  unfold Interface.stateBootstrapAddressResolved
  split
  · refine Confined.tell rfl (Confined.read fun i => ?_)
    cases bootstrapName i.endpointName i.domain with
    | none => exact Confined.last rfl
    | some name =>
      refine Confined.ask rfl fun created => ?_
      cases created with
      | true => exact hcreated
      | false => exact Aloof.fail hidle _
  · exact Confined.pure ()

theorem Aloof.stateRegister (hidle : Aloof (event .idle none)) (data : Option EventData) :
    Aloof (stateRegister event data) := by
  have hrest (i : M2MInterfaceImpl) : Aloof (do
      Prog.tell (.bindConnection 0)
      Prog.modify (·.startFlowTimer .registrationFlowTimer)
      Prog.tell (.resolveServerAddress i.serverIpAddress i.serverPort .lwm2mServer i.security) :
        Code Unit) :=
    Confined.tell rfl (Confined.assign (fun _ => rfl) (Confined.last rfl))
  refine Confined.read fun i => ?_
  split_ifs
  · exact Confined.bind (Aloof.firstRegister data) fun _ => (Aloof.fail hidle _).whenM
  · refine Confined.assign (fun _ => rfl) (Confined.tell rfl ?_)
    cases data with
    | none => exact hrest i
    | some _ => exact Confined.tell rfl (hrest i)

theorem Aloof.stateRegisterAddressResolved (hidle : Aloof (event .idle none))
    (hupdate : Aloof (event .updateRegistration none)) (data : Option EventData) :
    Aloof (stateRegisterAddressResolved event data) := by
  unfold Interface.stateRegisterAddressResolved
  split
  · refine Confined.tell rfl (Confined.tell rfl (Confined.read fun i => ?_))
    cases i.reconnectionState with
    | none => exact Aloof.sendRegister hidle
    | fullRegistration => exact Aloof.sendRegister hidle
    | withUpdate => exact hupdate
  · exact Confined.pure ()

theorem Aloof.stateUpdateRegistration (hidle : Aloof (event .idle none)) (data : Option EventData) :
    Aloof (stateUpdateRegistration event data) := by
  refine Confined.bind (Aloof.whenM (Confined.last rfl)) fun _ =>
    Confined.ask rfl fun success => Confined.read fun i => ?_
  split_ifs
  · exact Confined.assign (fun _ => rfl) (Aloof.sendRegister hidle)
  · exact Confined.pure ()

theorem Aloof.stateUnregister (hidle : Aloof (event .idle none))
    (hsending : Aloof (event .sendingCoapData none)) : Aloof (stateUnregister event) :=
  Confined.bind hsending fun _ => Confined.ask rfl fun _ => (Aloof.fail hidle _).whenM

theorem Aloof.stateCoapDataReceived (hprocessing : Aloof (event .processingCoapData none))
    (data : Option EventData) : Aloof (stateCoapDataReceived event data) := by
  unfold Interface.stateCoapDataReceived
  split
  · exact Confined.bind hprocessing fun _ => Confined.ask rfl fun _ =>
      Aloof.whenM (Confined.last rfl)
  · exact Confined.pure ()

/-- Of the state functions, only that of `STATE_REGISTERED` writes what governs the retries. -/
theorem Aloof.stateFunction {s : EStates} (hs : s.succeeds = false) (data : Option EventData)
    (hev : ∀ s' : EStates, s'.succeeds = false → Aloof (event s' none)) :
    Aloof (stateFunction event s data) := by
  have hidle := hev .idle rfl
  have hwaiting := hev .waiting rfl
  cases s with
  | idle => exact Confined.last rfl
  | bootstrap => exact Aloof.stateBootstrap hidle data
  | bootstrapAddressResolved =>
    exact Aloof.stateBootstrapAddressResolved hidle (hev .bootstrapResourceCreated rfl) data
  | register => exact Aloof.stateRegister hidle data
  | registerAddressResolved =>
    exact Aloof.stateRegisterAddressResolved hidle (hev .updateRegistration rfl) data
  | updateRegistration => exact Aloof.stateUpdateRegistration hidle data
  | unregister => exact Aloof.stateUnregister hidle (hev .sendingCoapData rfl)
  | unregistered => exact hidle
  | coapDataReceived => exact Aloof.stateCoapDataReceived (hev .processingCoapData rfl) data
  | sendingCoapData => exact hwaiting
  | coapDataSent => exact hwaiting
  | processingCoapData => exact hwaiting
  | coapDataProcessed => exact hwaiting
  | bootstrapResourceCreated => exact Confined.pure ()
  | bootstrapWait => exact Confined.pure ()
  | waiting => exact Confined.pure ()
  | registered => cases hs
  | bootstrapped => cases hs

end StateFunctions

section Events

/-- The engine calls the function of the state that the event has named. -/
theorem internalEventAt_aloof (n : Nat) {s : EStates} (hs : s.succeeds = false)
    (data : Option EventData) : Aloof (internalEventAt n s data) := by
  induction n generalizing s data with
  | zero => exact Confined.diverge
  | succ n ih =>
    have hfunction : Aloof (stateFunction (internalEventAt n) s data) :=
      Aloof.stateFunction hs data fun s' hs' => ih hs' none
    have hengine : Aloof (stateEngine (stateFunction (internalEventAt n)) 0) :=
      Confined.read fun i => Aloof.whenM Confined.diverge
    have hgo : Aloof (do
        stateFunction (internalEventAt n) s data
        stateEngine (stateFunction (internalEventAt n)) 0) :=
      Confined.bind hfunction fun _ => hengine
    intro i
    exact ⟨rfl, rfl, hs, fun _ => hgo⟩

theorem Aloof.event {s : EStates} (hs : s.succeeds = false) (data : Option EventData) :
    Aloof (internalEvent s data) := internalEventAt_aloof 4 hs data

theorem Aloof.external (operation : Operation) (data : Option EventData) :
    Aloof (externalEvent operation data) := by
  refine Confined.tell rfl (Confined.read fun i => ?_)
  cases hs : transition operation i.currentState with
  | none => exact Confined.modify fun _ => rfl
  | some s =>
    refine Aloof.event ?_ data
    obtain rfl | rfl | rfl | rfl := transition_target hs <;> rfl

end Events

section Entries

theorem Aloof.refuse (report : M2MInterfaceImpl → Bool) : Aloof (refuse report) := by
  refine Confined.read fun i => Aloof.whenM ?_
  exact Confined.assign (fun _ => rfl) (Confined.read fun i => Aloof.whenM (Confined.last rfl))

theorem Aloof.bootstrap (security : Option M2MSecurity) : Aloof (bootstrap security) := by
  cases security with
  | none => exact Confined.last rfl
  | some security => exact Confined.bind (Aloof.external _ _) fun _ => Aloof.refuse _

theorem Aloof.registerObject (security : Option M2MSecurity) (objectList : M2MObjectList) :
    Aloof (registerObject security objectList) := by
  cases security with
  | none => exact Confined.last rfl
  | some security =>
    refine Confined.assign (fun _ => rfl) ?_
    exact Confined.bind (Aloof.external _ _) fun _ => Aloof.refuse _

theorem Aloof.updateRegistration (security : Option M2MSecurity) (objectList : M2MObjectList)
    (lifetime : UInt32) : Aloof (updateRegistration security objectList lifetime) := by
  refine Confined.bind (Aloof.whenM (Confined.last rfl)) fun _ => Confined.read fun i => ?_
  split_ifs
  · exact Confined.pure ()
  · refine Confined.assign (fun _ => rfl) ?_
    exact Confined.bind (Aloof.external _ _) fun _ => Aloof.refuse _

theorem Aloof.coapMessageReady (data : Bytes) : Aloof (coapMessageReady data) := by
  refine Confined.read fun i => Aloof.whenM (Confined.bind (Aloof.event rfl _) fun _ => ?_)
  refine Confined.ask rfl fun sent => Aloof.whenM (Confined.bind (Aloof.event rfl _) fun _ => ?_)
  exact Confined.read fun i => Aloof.whenM (Confined.last rfl)

end Entries
end MbedClient.Interface
