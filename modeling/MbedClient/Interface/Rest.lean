import MbedClient.Interface.Fuel
import MbedClient.Interface.Rules

/-! The state machine runs to completion: whatever event is raised in whatever state, and whoever
calls back meanwhile, it comes to rest. -/
namespace MbedClient.Interface
open Callback Callback.Prog

def EStates.passing : EStates → Bool
  | .unregister | .unregistered | .sendingCoapData | .coapDataSent | .processingCoapData
  | .coapDataProcessed => true
  | _ => false

/-- No event is left over, and the state is one to stay in. -/
structure M2MInterfaceImpl.AtRest (i : M2MInterfaceImpl) : Prop where
  eventGenerated : i.eventGenerated = false
  eventData : i.eventData = none
  stays : i.currentState.passing = false

/-- Calls that leave the class. -/
def Output.outward : Output → Bool
  | .transition _ | .stateFunction _ _ => false
  | _ => true

/-- The interface in any surroundings: whatever it calls may call any entry point of it. -/
def anywhere : Machine M2MInterfaceImpl Output Entry where
  code := code
  admits o _ _ := o.outward
  reenters o _ := o.outward
  reenters_of_admits _ _ _ h := h

def unwatched : Monitor M2MInterfaceImpl Output Entry Unit := fun _ _ y => y

abbrev atRest : Contract M2MInterfaceImpl Output Unit := fun _ _ I => I = fun t => t.1.AtRest

section Rules
variable {α β : Type} {p : Code α} {f : α → Code β} {event : InternalEvent} {n : Nat}

def Settling (p : Code α) : Prop := ∀ t, wp anywhere unwatched atRest p (fun _ t => t.1.AtRest) t

def Resting (p : Code α) : Prop :=
  ∀ t : M2MInterfaceImpl × Unit, t.1.AtRest →
    wp anywhere unwatched atRest p (fun _ t => t.1.AtRest) t

theorem Settling.resting (hp : Settling p) : Resting p := fun t _ => hp t

theorem Settling.bind (hp : Settling p) (hf : ∀ a, Resting (f a)) : Settling (p >>= f) := by
  intro t
  rw [wp_bind]
  exact wp_mono (fun a t' ht' => hf a t' ht') (hp t)

theorem Resting.bind (hp : Resting p) (hf : ∀ a, Resting (f a)) : Resting (p >>= f) := by
  intro t ht
  rw [wp_bind]
  exact wp_mono (fun a t' ht' => hf a t' ht') (hp t ht)

theorem Resting.pure (a : α) : Resting (pure a : Code α) := fun _ ht => ht

theorem Resting.read {f : M2MInterfaceImpl → Code β} (hf : ∀ i, Resting (f i)) :
    Resting (Prog.read >>= f) :=
  fun t ht => hf t.1 t ht

/-- An assignment that leaves the machine itself alone. -/
theorem Resting.modify {g : M2MInterfaceImpl → M2MInterfaceImpl}
    (hg : ∀ i, (g i).eventGenerated = i.eventGenerated ∧ (g i).eventData = i.eventData ∧
      (g i).currentState = i.currentState) : Resting (Prog.modify g : Code Unit) := by
  intro t ht
  obtain ⟨hgenerated, hdata, hstate⟩ := hg t.1
  exact ⟨hgenerated.trans ht.eventGenerated, hdata.trans ht.eventData, hstate ▸ ht.stays⟩

theorem Resting.assign {g : M2MInterfaceImpl → M2MInterfaceImpl} {p : Code β}
    (hg : ∀ i, (g i).eventGenerated = i.eventGenerated ∧ (g i).eventData = i.eventData ∧
      (g i).currentState = i.currentState) (hp :
        Resting p) : Resting (Prog.modify g >>= fun _ => p) :=
  (Resting.modify hg).bind fun _ => hp

theorem Resting.last (o : Output) : Resting (Prog.tell o : Code Unit) :=
  fun _ ht => wp_tell_keep (fun _ => rfl) ht fun _ _ ht' => ht'

theorem Resting.tell {o : Output} {p : Code β} (hp : Resting p) :
    Resting (Prog.tell o >>= fun _ => p) :=
  (Resting.last o).bind fun _ => hp

theorem Resting.ask {o : Output} {f : Bool → Code β} (hf : ∀ b, Resting (f b)) :
    Resting (Prog.ask o >>= f) := by
  refine Resting.bind (fun _ ht => ?_) hf
  exact wp_ask_keep (fun _ => rfl) ht fun _ _ ht' => ht'

theorem Resting.whenM {c : Bool} {p : Code Unit} (hp : Resting p) : Resting (whenM c p) := by
  cases c with
  | true => exact hp
  | false => exact Resting.pure ()

end Rules

section StateFunctions
variable {event : InternalEvent}

theorem Resting.connect (type : ServerType) (flow : M2MTimerObserver) (security : M2MSecurity) :
    Resting (connect type flow security) := by
  unfold Interface.connect
  cases security.serverAddress with
  | none => exact Resting.pure false
  | some serverAddress =>
    refine Resting.assign (fun _ => ⟨rfl, rfl, rfl⟩) (Resting.read fun i => ?_)
    split_ifs
    · exact Resting.pure false
    · exact Resting.assign (fun _ => ⟨rfl, rfl, rfl⟩) (Resting.tell (Resting.pure true))

theorem Resting.firstBootstrap (data : Option EventData) : Resting (firstBootstrap data) := by
  cases data with
  | none => exact Resting.pure false
  | some event =>
    refine Resting.assign (fun _ => ⟨rfl, rfl, rfl⟩) ?_
    cases event.object with
    | none => exact Resting.pure false
    | some security =>
      dsimp only
      split_ifs
      · exact Resting.connect _ _ _
      · exact Resting.pure false

theorem Resting.firstRegister (data : Option EventData) : Resting (firstRegister data) := by
  cases data with
  | none => exact Resting.pure false
  | some event =>
    refine Resting.assign (fun _ => ⟨rfl, rfl, rfl⟩) ?_
    cases event.object with
    | none => exact Resting.pure false
    | some security =>
      dsimp only
      split_ifs
      · refine Resting.ask fun created => ?_
        cases created with
        | true => exact Resting.connect _ _ _
        | false => exact Resting.pure false
      · exact Resting.pure false

theorem Resting.fail (hidle : Settling (event .idle none)) (error : Error) :
    Resting (fail event error) :=
  Resting.bind hidle.resting fun _ => Resting.last _

theorem Resting.sendRegister (hidle : Settling (event .idle none)) : Resting (sendRegister event) :=
  Resting.ask fun _ => (Resting.fail hidle _).whenM

theorem Resting.stateBootstrap (hidle : Settling (event .idle none)) (data : Option EventData) :
    Resting (stateBootstrap event data) := by
  refine Resting.assign (fun _ => ⟨rfl, rfl, rfl⟩) (Resting.read fun i => ?_)
  split_ifs
  · exact Resting.bind (Resting.firstBootstrap data) fun _ => (Resting.fail hidle _).whenM
  · refine Resting.assign (fun _ => ⟨rfl, rfl, rfl⟩) (Resting.tell (Resting.tell ?_))
    exact Resting.assign (fun _ => ⟨rfl, rfl, rfl⟩) (Resting.last _)

theorem Resting.stateBootstrapAddressResolved (hidle : Settling (event .idle none))
    (hcreated : Settling (event .bootstrapResourceCreated none)) (data : Option EventData) :
    Resting (stateBootstrapAddressResolved event data) := by
  unfold Interface.stateBootstrapAddressResolved
  split
  · refine Resting.tell (Resting.read fun i => ?_)
    cases bootstrapName i.endpointName i.domain with
    | none => exact Resting.last _
    | some name =>
      refine Resting.ask fun created => ?_
      cases created with
      | true => exact hcreated.resting
      | false => exact Resting.fail hidle _
  · exact Resting.pure ()

theorem Resting.stateRegister (hidle : Settling (event .idle none)) (data : Option EventData) :
    Resting (stateRegister event data) := by
  have hrest (i : M2MInterfaceImpl) : Resting (do
      Prog.tell (.bindConnection 0)
      Prog.modify (·.startFlowTimer .registrationFlowTimer)
      Prog.tell (.resolveServerAddress i.serverIpAddress i.serverPort .lwm2mServer i.security) :
        Code Unit) :=
    Resting.tell (Resting.assign (fun _ => ⟨rfl, rfl, rfl⟩) (Resting.last _))
  refine Resting.read fun i => ?_
  split_ifs
  · exact Resting.bind (Resting.firstRegister data) fun _ => (Resting.fail hidle _).whenM
  · refine Resting.assign (fun _ => ⟨rfl, rfl, rfl⟩) (Resting.tell ?_)
    cases data with
    | none => exact hrest i
    | some _ => exact Resting.tell (hrest i)

theorem Resting.stateRegisterAddressResolved (hidle : Settling (event .idle none))
    (hupdate : Settling (event .updateRegistration none)) (data : Option EventData) :
    Resting (stateRegisterAddressResolved event data) := by
  unfold Interface.stateRegisterAddressResolved
  split
  · refine Resting.tell (Resting.tell (Resting.read fun i => ?_))
    cases i.reconnectionState with
    | none => exact Resting.sendRegister hidle
    | fullRegistration => exact Resting.sendRegister hidle
    | withUpdate => exact hupdate.resting
  · exact Resting.pure ()

theorem Resting.stateUpdateRegistration (hidle : Settling (event .idle none))
    (data : Option EventData) :
    Resting (stateUpdateRegistration event data) := by
  refine Resting.bind (Resting.last _).whenM fun _ => Resting.ask fun success =>
    Resting.read fun i => ?_
  split_ifs
  · exact Resting.assign (fun _ => ⟨rfl, rfl, rfl⟩) (Resting.sendRegister hidle)
  · exact Resting.pure ()

/-- It leaves its own state before anything is called. -/
theorem Settling.stateUnregister (hidle : Settling (event .idle none))
    (hsending : Settling (event .sendingCoapData none)) : Settling (stateUnregister event) :=
  hsending.bind fun _ => Resting.ask fun _ => (Resting.fail hidle _).whenM

theorem Resting.stateCoapDataReceived (hprocessing : Settling (event .processingCoapData none))
    (data : Option EventData) : Resting (stateCoapDataReceived event data) := by
  unfold Interface.stateCoapDataReceived
  split
  · exact Resting.bind hprocessing.resting fun _ => Resting.ask fun _ => (Resting.last _).whenM
  · exact Resting.pure ()

/-- The function of a state to pass through leaves it at once. -/
theorem stateFunction_settles {s : EStates} (data : Option EventData) (hs : s.passing = true)
    (hev : ∀ s' : EStates, s'.depth < s.depth → Settling (event s' none)) :
    Settling (stateFunction event s data) := by
  cases s with
  | unregister =>
    exact Settling.stateUnregister (hev .idle (by decide)) (hev .sendingCoapData (by decide))
  | unregistered => exact hev .idle (by decide)
  | sendingCoapData => exact hev .waiting (by decide)
  | coapDataSent => exact hev .waiting (by decide)
  | processingCoapData => exact hev .waiting (by decide)
  | coapDataProcessed => exact hev .waiting (by decide)
  | _ => cases hs

/-- That of any other state may rely on the machine being at rest when it begins. -/
theorem stateFunction_rests {s : EStates} (data : Option EventData) (hs : s.passing = false)
    (hev : ∀ s' : EStates, s'.depth < s.depth → Settling (event s' none)) :
    Resting (stateFunction event s data) := by
  cases s with
  | idle => exact Resting.last _
  | bootstrap => exact Resting.stateBootstrap (hev .idle (by decide)) data
  | bootstrapAddressResolved =>
    exact Resting.stateBootstrapAddressResolved (hev .idle (by decide))
      (hev .bootstrapResourceCreated (by decide)) data
  | bootstrapResourceCreated => exact Resting.pure ()
  | bootstrapWait => exact Resting.pure ()
  | bootstrapped => exact Resting.pure ()
  | register => exact Resting.stateRegister (hev .idle (by decide)) data
  | registerAddressResolved =>
    exact Resting.stateRegisterAddressResolved (hev .idle (by decide))
      (hev .updateRegistration (by decide)) data
  | registered => exact Resting.modify fun _ => ⟨rfl, rfl, rfl⟩
  | updateRegistration => exact Resting.stateUpdateRegistration (hev .idle (by decide)) data
  | coapDataReceived =>
    exact Resting.stateCoapDataReceived (hev .processingCoapData (by decide)) data
  | waiting => exact Resting.pure ()
  | _ => cases hs

end StateFunctions

section Events

/-- An event is followed by at most as many others as its state is deep. -/
theorem internalEventAt_settles {n : Nat} {s : EStates} (hs : s.depth ≤ n)
    (data : Option EventData) :
    Settling (internalEventAt n s data) := by
  induction n generalizing s data with
  | zero => cases s <;> exact absurd hs (by decide)
  | succ n ih =>
    intro t
    rw [wp_eventAt n fun _ => rfl]
    intro b
    have hev (s' : EStates) (hs' : s'.depth < s.depth) : Settling (internalEventAt n s' none) :=
      ih (Nat.le_of_lt_succ (hs'.trans_le hs)) none
    refine wp_mono (fun _ t' ht' => ⟨ht'.eventGenerated, ht'⟩) ?_
    cases hstays : s.passing with
    | true => exact stateFunction_settles data hstays hev _
    | false => exact stateFunction_rests data hstays hev _ ⟨rfl, rfl, hstays⟩

theorem internalEvent_settles (s : EStates) (data : Option EventData) :
    Settling (internalEvent s data) :=
  internalEventAt_settles (by cases s <;> decide) data

theorem Resting.event (s : EStates) (data : Option EventData) : Resting (internalEvent s data) :=
  (internalEvent_settles s data).resting

theorem Resting.external (operation : Operation) (data : Option EventData) :
    Resting (externalEvent operation data) := by
  refine Resting.tell (Resting.read fun i => ?_)
  cases transition operation i.currentState with
  | none => exact Resting.modify fun _ => ⟨rfl, rfl, rfl⟩
  | some newState => exact Resting.event _ _

end Events

section Entries

theorem Resting.refuse (report : M2MInterfaceImpl → Bool) : Resting (refuse report) := by
  refine Resting.read fun i => Resting.whenM ?_
  exact Resting.assign (fun _ => ⟨rfl, rfl, rfl⟩) (Resting.read fun i => (Resting.last _).whenM)

theorem Resting.bootstrap (security : Option M2MSecurity) : Resting (bootstrap security) := by
  cases security with
  | none => exact Resting.last _
  | some security => exact (Resting.external _ _).bind fun _ => Resting.refuse _

theorem Resting.registerObject (security : Option M2MSecurity) (objectList : M2MObjectList) :
    Resting (registerObject security objectList) := by
  cases security with
  | none => exact Resting.last _
  | some security =>
    refine Resting.assign (fun _ => ⟨rfl, rfl, rfl⟩) ?_
    exact (Resting.external _ _).bind fun _ => Resting.refuse _

theorem Resting.updateRegistration (security : Option M2MSecurity) (objectList : M2MObjectList)
    (lifetime : UInt32) : Resting (updateRegistration security objectList lifetime) := by
  refine Resting.bind (Resting.last _).whenM fun _ => Resting.read fun i => ?_
  split_ifs
  · exact Resting.pure ()
  · refine Resting.assign (fun _ => ⟨rfl, rfl, rfl⟩) ?_
    exact (Resting.external _ _).bind fun _ => Resting.refuse _

theorem Resting.countRetry (error : Error) : Resting (countRetry error) := by
  refine Resting.read fun i => ?_
  split_ifs
  · exact Resting.assign (fun _ => ⟨rfl, rfl, rfl⟩) (Resting.pure true)
  · exact Resting.assign (fun _ => ⟨rfl, rfl, rfl⟩) (Resting.tell (Resting.pure true))
  · exact Resting.tell (Resting.assign (fun _ => ⟨rfl, rfl, rfl⟩) (Resting.pure false))

theorem Resting.startRetry : Resting startRetry := by
  refine (Resting.event _ _).bind fun _ => Resting.assign (fun _ => ⟨rfl, rfl, rfl⟩) ?_
  exact Resting.tell (Resting.modify fun _ => ⟨rfl, rfl, rfl⟩)

theorem Resting.informApplication (error : Error) : Resting (informApplication error) := by
  refine Resting.tell (Resting.assign (fun _ => ⟨rfl, rfl, rfl⟩) ?_)
  exact Resting.tell (Resting.event _ _)

theorem Resting.socketError (code : UInt8) (retry : Bool) : Resting (socketError code retry) := by
  have hgo (retry : Bool) : Resting (if retry then Interface.startRetry
      else Interface.whenM (connectionError code != .errorNone)
        (Interface.informApplication (connectionError code))) := by
    split_ifs
    · exact Resting.startRetry
    · exact (Resting.informApplication _).whenM
  refine Resting.assign (fun _ => ⟨rfl, rfl, rfl⟩) (Resting.read fun i => ?_)
  split_ifs
  · exact Resting.pure ()
  · exact (Resting.countRetry _).bind hgo
  · exact (Resting.pure false).bind hgo

theorem Resting.registrationError (code : UInt8) (retry : Bool) :
    Resting (registrationError code retry) := by
  cases retry with
  | true => exact (Resting.socketError _ _).bind fun _ => Resting.modify fun _ => ⟨rfl, rfl, rfl⟩
  | false => exact Resting.fail (internalEvent_settles _ _) _

theorem Resting.coapMessageReady (data : Bytes) : Resting (coapMessageReady data) := by
  refine Resting.read fun i => Resting.whenM ?_
  refine (Resting.event _ _).bind fun _ => Resting.ask fun _ => Resting.whenM ?_
  exact (Resting.event _ _).bind fun _ => Resting.read fun _ => (Resting.last _).whenM

theorem Resting.bootstrapDone (security : Option M2MSecurity) :
    Resting (bootstrapDone security) := by
  refine Resting.assign (fun _ => ⟨rfl, rfl, rfl⟩) (Resting.assign (fun _ => ⟨rfl, rfl, rfl⟩) ?_)
  exact (Resting.event _ _).bind fun _ => Resting.last _

theorem Resting.bootstrapError : Resting bootstrapError :=
  Resting.assign (fun _ => ⟨rfl, rfl, rfl⟩)
    (Resting.assign (fun _ => ⟨rfl, rfl, rfl⟩) (Resting.socketError _ _))

theorem Resting.dataSent : Resting dataSent := by
  refine Resting.read fun i =>
    Resting.bind (Resting.whenM (Resting.modify fun _ => ⟨rfl, rfl, rfl⟩)) fun _ => ?_
  split_ifs
  · exact Resting.assign (fun _ => ⟨rfl, rfl, rfl⟩) (Resting.bootstrapDone _)
  · exact Resting.event _ _

theorem Resting.timerExpired (type : M2MTimerObserver) : Resting (timerExpired type) := by
  unfold Interface.timerExpired
  refine Resting.assign (fun _ => by cases type <;> exact ⟨rfl, rfl, rfl⟩) ?_
  split
  · exact Resting.read fun i => (Resting.last _).whenM
  · refine Resting.assign (fun _ => ⟨rfl, rfl, rfl⟩) (Resting.read fun i => ?_)
    split_ifs
    · exact Resting.event _ _
    · exact Resting.event _ _
  · exact Resting.bootstrapError
  · exact Resting.registrationError _ _
  · exact Resting.pure ()

/-- Every entry point. -/
theorem Resting.code (e : Entry) : Resting (code e) := by
  cases e with
  | bootstrap security => exact Resting.bootstrap security
  | registerObject security objectList => exact Resting.registerObject security objectList
  | updateRegistration security objectList lifetime =>
    exact Resting.updateRegistration security objectList lifetime
  | unregisterObject => exact (Resting.external _ _).bind fun _ => Resting.refuse _
  | setQueueSleepHandler handler => exact Resting.modify fun _ => ⟨rfl, rfl, rfl⟩
  | coapMessageReady data => exact Resting.coapMessageReady data
  | clientRegistered =>
    refine Resting.assign (fun _ => ⟨rfl, rfl, rfl⟩) (Resting.assign (fun _ => ⟨rfl, rfl, rfl⟩) ?_)
    exact (Resting.event _ _).bind fun _ => Resting.read fun i => Resting.last _
  | registrationUpdated =>
    exact (Resting.event _ _).bind fun _ => Resting.read fun i => Resting.last _
  | registrationError code retry => exact Resting.registrationError code retry
  | clientUnregistered =>
    exact (Resting.event _ _).bind fun _ => Resting.read fun i => Resting.last _
  | bootstrapDone security => exact Resting.bootstrapDone security
  | bootstrapWait security => exact Resting.assign (fun _ => ⟨rfl, rfl, rfl⟩) (Resting.event _ _)
  | bootstrapError => exact Resting.bootstrapError
  | coapDataProcessed => exact Resting.event _ _
  | valueUpdated base =>
    cases base with
    | none => exact Resting.pure ()
    | some base => exact Resting.last _
  | dataAvailable data address => exact Resting.event _ _
  | socketError code retry => exact Resting.socketError code retry
  | addressReady address type port => cases type <;> exact Resting.event _ _
  | dataSent => exact Resting.dataSent
  | timerExpired type => exact Resting.timerExpired type

theorem honours_atRest : Honours anywhere unwatched atRest := by
  intro o b I hI e _ t ht
  subst hI
  exact Resting.code e t ht

end Entries

/-- An internal event of any kind, raised in any state, comes to an end whatever the calls in its
course answer and whichever entry points they call before, and it leaves the machine at rest. More
fuel would not change where it ends. -/
theorem internalEvent_completes (state : EStates) (data : Option EventData)
    (replies : List (Reply Entry))
    (i : M2MInterfaceImpl) : ∃ i', i'.AtRest ∧
      finish unwatched (internalEvent state data) (finishReplies anywhere unwatched replies)
        (i, ()) =
        some ((), (i', ())) ∧
      ∀ n, finish unwatched (internalEventAt (4 + n) state data)
        (finishReplies anywhere unwatched replies) (i, ()) = some ((), (i', ())) := by
  obtain ⟨_, ⟨i', _⟩, hfinish, hrest⟩ :=
    finish_wp (honours_atRest.finishReplies replies) (internalEvent_settles state data (i, ()))
  exact ⟨i', hrest, hfinish, fun n => (below_internalEventAt 4 n state data).finish hfinish⟩

end MbedClient.Interface
