import MbedClient.Interface.Impl

/-! What an internal event does: the state function of its target, once, in whose course the
invariant of a monitor is kept if the monitor passes a few tests. -/
namespace MbedClient.Interface
open Callback Callback.Prog

def M2MInterfaceImpl.enter (i : M2MInterfaceImpl) (state : EStates) : M2MInterfaceImpl :=
  { i with eventData := none, eventGenerated := false, currentState := state }

/-- Internal events of the state functions lead to states of a smaller depth. -/
def EStates.depth : EStates → Nat
  | .idle | .bootstrapResourceCreated | .bootstrapWait | .bootstrapped | .registered | .waiting => 1
  | .registerAddressResolved | .unregister | .coapDataReceived => 3
  | _ => 2

section Engine
variable {noisy : Bool} {μ : Type} {m : Monitor M2MInterfaceImpl Output Entry μ}
variable {C : Contract M2MInterfaceImpl Output μ} {Q : Unit → M2MInterfaceImpl × μ → Prop}
variable {t : M2MInterfaceImpl × μ}

/-- A state has been entered, and the monitor has heard of it. -/
def entering (m : Monitor M2MInterfaceImpl Output Entry μ) (state : EStates)
    (data : Option EventData) (b : Bool) (t : M2MInterfaceImpl × μ) : M2MInterfaceImpl × μ :=
  m.see (.answered (.stateFunction state data) b)
    (m.see (.called (.stateFunction state data)) (t.1.enter state, t.2))

theorem wp_whenM {M : Machine M2MInterfaceImpl Output Entry} {c : Bool} {p : Code Unit} :
    wp M m C (whenM c p) Q t ↔ (c = true → wp M m C p Q t) ∧ (c = false → Q () t) := by
  cases c <;> simp [whenM]

/-- The engine runs one state function, since whatever events that raises are used up when it
returns. -/
theorem wp_eventAt {M : Machine M2MInterfaceImpl Output Entry} (n : Nat) {state : EStates}
    {data : Option EventData} (hre : ∀ b, M.reenters (.stateFunction state data) b = false) :
    wp M m C (internalEventAt (n + 1) state data) Q t ↔
      ∀ b, wp M m C (stateFunction (internalEventAt n) state data)
        (fun _ t' => t'.1.eventGenerated = false ∧ Q () t') (entering m state data b t) := by
  simp only [internalEventAt, stateEngine, wp_bind, wp_modify, wp_read, wp_whenM, forall_const,
    Bool.true_eq_false, IsEmpty.forall_iff, and_true]
  rw [wp_tell hre]
  refine forall_congr' fun b => ⟨wp_mono fun _ t' h => ?_, wp_mono fun _ t' h => ?_⟩
  · cases hg : t'.1.eventGenerated with
    | false => exact ⟨rfl, h.2 hg⟩
    | true => exact (h.1 hg).elim
  · exact ⟨fun hg => Bool.noConfusion (h.1.symm.trans hg), fun _ => h.2⟩

theorem wp_internalEventAt (n : Nat) (state : EStates) (data : Option EventData) :
    wp (machine noisy) m C (internalEventAt (n + 1) state data) Q t ↔
      ∀ b, wp (machine noisy) m C (stateFunction (internalEventAt n) state data)
        (fun _ t' => t'.1.eventGenerated = false ∧ Q () t') (entering m state data b t) :=
  wp_eventAt n fun _ => rfl

/-- The transition map of an operation has been looked at, and the monitor has heard of it. -/
def consulting (m : Monitor M2MInterfaceImpl Output Entry μ) (operation : Operation) (b : Bool)
    (t : M2MInterfaceImpl × μ) : M2MInterfaceImpl × μ :=
  m.see (.answered (.transition operation) b) (m.see (.called (.transition operation)) t)

/-- The map either ignores the operation or says which state to enter. -/
theorem wp_externalEvent {operation : Operation} {data : Option EventData}
    (hignored : transition operation t.1.currentState = none → ∀ b,
      Q () ({ t.1 with eventIgnored := true }, (consulting m operation b t).2))
    (htaken : ∀ s, transition operation t.1.currentState = some s → ∀ b,
      wp (machine noisy) m C (internalEvent s data) Q (consulting m operation b t)) :
    wp (machine noisy) m C (externalEvent operation data) Q t := by
  rw [externalEvent, wp_bind, wp_tell fun _ => rfl]
  intro b
  rw [wp_bind, wp_read]
  split
  · next hs => exact hignored hs b
  · next s hs => exact htaken s hs b

/-- Data that has been sent ends a bootstrap that waits for it; the timer of the queue mode may have
been set first. -/
theorem wp_dataSent
    (hdone : t.1.currentState = .bootstrapWait →
      ∀ timer, wp (machine noisy) m C (bootstrapDone t.1.security) Q
      ({ t.1 with queueSleepTimer := timer, security := none }, t.2))
    (hsent : t.1.currentState ≠ .bootstrapWait → ∀ timer, wp (machine noisy) m C
      (internalEvent .coapDataSent none) Q ({ t.1 with queueSleepTimer := timer }, t.2)) :
    wp (machine noisy) m C dataSent Q t := by
  have hgo (timer : M2MTimer) : wp (machine noisy) m C
      (if t.1.currentState = .bootstrapWait then do
        Prog.modify fun i => { i with security := none }
        bootstrapDone t.1.security
      else internalEvent .coapDataSent none) Q ({ t.1 with queueSleepTimer := timer }, t.2) := by
    split_ifs with hwait
    · rw [wp_bind, wp_modify]
      exact hdone hwait timer
    · exact hsent hwait timer
  rw [dataSent, wp_bind, wp_read, wp_bind, wp_whenM]
  exact ⟨fun _ => hgo _, fun _ => hgo t.1.queueSleepTimer⟩

end Engine

/-- States that a state function raises an event for, other than the idle state. -/
def EStates.raised : EStates → Bool
  | .bootstrapResourceCreated | .updateRegistration | .sendingCoapData | .processingCoapData
  | .waiting => true
  | _ => false

/-- Calls whose refusal takes the client back to the idle state. -/
def Output.decisive : Output → Bool
  | .createBootstrapResource _ _ _ _ | .sendRegisterMessage | .sendUnregisterMessage => true
  | _ => false

def Output.plain : Output → Bool
  | .transition _ | .stateFunction _ _ | .processReceivedData _ _ _ _
  | .resolveServerAddress _ _ _ _ => false
  | _ => true

/-- The same without the callbacks that tell of a success, which no state function makes. -/
def Output.tacit : Output → Bool
  | .objectRegistered _ | .registrationUpdated _ | .bootstrapDone _ => false
  | o => o.plain

theorem plain_of_tacit {o : Output} (h : o.tacit = true) : o.plain = true := by
  cases o <;> first | exact h | cases h

def M2MInterfaceImpl.flowArmed (i : M2MInterfaceImpl) : Bool :=
  (i.registrationFlowTimer.map (·.armed)).getD false

/-- What `process_address` has made of the URI it was last given. -/
def M2MInterfaceImpl.server (i : M2MInterfaceImpl) : Bytes × UInt16 :=
  (i.serverIpAddress, i.serverPort)

/-- An assignment that neither moves the state machine nor stops a timer. -/
structure Minor (i i' : M2MInterfaceImpl) : Prop where
  eventGenerated : i'.eventGenerated = i.eventGenerated
  currentState : i'.currentState = i.currentState
  reconnecting : i'.reconnecting = i.reconnecting
  retryTimer : i'.retryTimer = i.retryTimer
  config : i'.config = i.config
  flow : i.flowArmed = true → i'.flowArmed = true

theorem Minor.startFlowTimer (i : M2MInterfaceImpl) (type : M2MTimerObserver) :
    Minor i (i.startFlowTimer type) := by
  refine ⟨rfl, rfl, rfl, rfl, rfl, fun h => ?_⟩
  cases hf : i.registrationFlowTimer with
  | none => rw [M2MInterfaceImpl.flowArmed, hf] at h; cases h
  | some timer => simp [M2MInterfaceImpl.flowArmed, M2MInterfaceImpl.startFlowTimer, hf]

section Invariants
variable {noisy : Bool} {μ : Type} {m : Monitor M2MInterfaceImpl Output Entry μ}
variable {C : Contract M2MInterfaceImpl Output μ} {I F : M2MInterfaceImpl × μ → Prop}
variable {t : M2MInterfaceImpl × μ} {event : InternalEvent}

/-- An invariant that ordinary steps keep. `F` is what is known where a state function is about to
go back to the idle state. -/
structure Lawful (m : Monitor M2MInterfaceImpl Output Entry μ)
    (C : Contract M2MInterfaceImpl Output μ)
    (I F : M2MInterfaceImpl × μ → Prop) : Prop where
  quiet : ∀ t, I t → t.1.eventGenerated = false
  contract : ∀ o b, o.plain = true → C o b I
  called : ∀ o t, o.plain = true → I t → I (m.see (.called o) t)
  answered : ∀ o b t, o.plain = true → I t → I (m.see (.answered o b) t)
  refused : ∀ o t, o.decisive = true → I t → F (m.see (.answered o false) t)
  minor : ∀ t i, I t → Minor t.1 i → i.server = t.1.server → I (i, t.2)
  enter : ∀ s b t, s.raised = true → I t → I (entering m s none b t)
  idle : ∀ b t, F t → I (entering m .idle none b t)

theorem Lawful.tell {o : Output} (h : Lawful m C I F) (ho : o.plain = true) (ht : I t)
    {Q : Unit → M2MInterfaceImpl × μ → Prop} (hQ : ∀ t, I t → Q () t) :
    wp (machine noisy) m C (.tell o) Q t :=
  wp_tell_keep (fun b => h.contract o b ho) (h.called o t ho ht)
    fun b t' ht' => hQ _ (h.answered o b t' ho ht')

/-- The part of it that the walk through the state functions relies on. -/
structure Orderly (m : Monitor M2MInterfaceImpl Output Entry μ)
    (C : Contract M2MInterfaceImpl Output μ) (I F : M2MInterfaceImpl × μ → Prop) : Prop where
  quiet : ∀ t, I t → t.1.eventGenerated = false
  contract : ∀ o b, o.tacit = true → C o b I
  called : ∀ o t, o.tacit = true → I t → I (m.see (.called o) t)
  answered : ∀ o b t, o.tacit = true → I t → I (m.see (.answered o b) t)
  refused : ∀ o t, o.decisive = true → I t → F (m.see (.answered o false) t)
  minor : ∀ t i, I t → Minor t.1 i → i.server = t.1.server → i.security = t.1.security → I (i, t.2)
  enter : ∀ s b t, s.raised = true → I t → I (entering m s none b t)
  idle : ∀ b t, F t → I (entering m .idle none b t)

theorem Lawful.orderly (h : Lawful m C I F) : Orderly m C I F where
  quiet := h.quiet
  contract o b ho := h.contract o b (plain_of_tacit ho)
  called o t ho := h.called o t (plain_of_tacit ho)
  answered o b t ho := h.answered o b t (plain_of_tacit ho)
  refused := h.refused
  minor t i ht hi hs _ := h.minor t i ht hi hs
  enter := h.enter
  idle := h.idle

theorem Orderly.tell {o : Output} (h : Orderly m C I F) (ho : o.tacit = true) (ht : I t)
    {Q : Unit → M2MInterfaceImpl × μ → Prop} (hQ : ∀ t, I t → Q () t) :
    wp (machine noisy) m C (.tell o) Q t :=
  wp_tell_keep (fun b => h.contract o b ho) (h.called o t ho ht)
    fun b t' ht' => hQ _ (h.answered o b t' ho ht')

theorem Orderly.ask {o : Output} (h : Orderly m C I F) (ho : o.tacit = true) (ht : I t)
    {Q : Bool → M2MInterfaceImpl × μ → Prop} (hQ : ∀ b t, I t → Q b t) :
    wp (machine noisy) m C (.ask o) Q t :=
  wp_ask_keep (fun b => h.contract o b ho) (h.called o t ho ht)
    fun b t' ht' => hQ b _ (h.answered o b t' ho ht')

theorem Orderly.askDecisive {o : Output} (h : Orderly m C I F) (hp : o.tacit = true)
    (ho : o.decisive = true) (ht : I t) {Q : Bool → M2MInterfaceImpl × μ → Prop}
    (hQ : ∀ t, I t → Q true t) (hF : ∀ t, F t → Q false t) :
    wp (machine noisy) m C (.ask o) Q t :=
  wp_ask_keep (fun b => h.contract o b hp) (h.called o t hp ht) fun b t' ht' =>
    match b with
    | true => hQ _ (h.answered o true t' hp ht')
    | false => hF _ (h.refused o t' ho ht')

/-- What the state functions of a given depth rely on. -/
structure Raises (noisy : Bool) (m : Monitor M2MInterfaceImpl Output Entry μ)
    (C : Contract M2MInterfaceImpl Output μ) (I F : M2MInterfaceImpl × μ → Prop)
    (event : InternalEvent) (depth : Nat) : Prop where
  raised : ∀ s t, s.raised = true → s.depth < depth → I t →
    wp (machine noisy) m C (event s none) (fun _ => I) t
  idle : ∀ t, 1 < depth → F t → wp (machine noisy) m C (event .idle none) (fun _ => I) t

theorem Orderly.fail (h : Orderly m C I F) {d : Nat} (hev : Raises noisy m C I F event d)
    (hd : 1 < d)
    (error : Error) (ht : F t) : wp (machine noisy) m C (fail event error) (fun _ => I) t := by
  rw [Interface.fail, wp_bind]
  exact wp_mono (fun _ t' ht' => h.tell rfl ht' fun _ hI => hI) (hev.idle t hd ht)

theorem Orderly.sendRegister (h : Orderly m C I F) {d : Nat} (hev : Raises noisy m C I F event d)
    (hd : 1 < d) (ht : I t) : wp (machine noisy) m C (sendRegister event) (fun _ => I) t := by
  rw [Interface.sendRegister, wp_bind]
  refine h.askDecisive rfl rfl ht (fun t' ht' => ?_) fun t' ht' => ?_
  · exact ht'
  · exact h.fail hev hd .invalidParameters ht'

theorem Orderly.stateBootstrapAddressResolved (h : Orderly m C I F)
    (hev : Raises noisy m C I F event 2) (data : Option EventData) (ht : I t) :
    wp (machine noisy) m C (stateBootstrapAddressResolved event data) (fun _ => I) t := by
  unfold Interface.stateBootstrapAddressResolved
  split
  · simp only [wp_bind, wp_read]
    refine h.tell rfl ht fun t' ht' => ?_
    cases bootstrapName t'.1.endpointName t'.1.domain with
    | none => exact h.tell rfl ht' fun _ hI => hI
    | some name =>
      rw [wp_bind]
      refine h.askDecisive rfl rfl ht' (fun t'' ht'' => ?_) fun t'' ht'' => ?_
      · exact hev.raised _ t'' rfl (by decide) ht''
      · exact h.fail hev (by decide) .invalidParameters ht''
  · exact ht

theorem Orderly.stateRegisterAddressResolved (h : Orderly m C I F)
    (hev : Raises noisy m C I F event 3) (data : Option EventData) (ht : I t) :
    wp (machine noisy) m C (stateRegisterAddressResolved event data) (fun _ => I) t := by
  unfold Interface.stateRegisterAddressResolved
  split
  · simp only [wp_bind, wp_read]
    refine h.tell rfl ht fun t' ht' => h.tell rfl ht' fun t'' ht'' => ?_
    cases t''.1.reconnectionState with
    | none => exact h.sendRegister hev (by decide) ht''
    | fullRegistration => exact h.sendRegister hev (by decide) ht''
    | withUpdate => exact hev.raised _ t'' rfl (by decide) ht''
  · exact ht

theorem Orderly.stateUpdateRegistration (h : Orderly m C I F)
    (hev : Raises noisy m C I F event 2) (data : Option EventData) (ht : I t) :
    wp (machine noisy) m C (stateUpdateRegistration event data) (fun _ => I) t := by
  have hsend : ∀ t', I t' → wp (machine noisy) m C (do
      let success ← Prog.ask (.sendUpdateRegistration ((data.map (·.lifetime)).getD 0))
      let i ← Prog.read
      if !success && i.reconnectionState == .withUpdate then do
        Prog.modify fun i => { i with reconnectionState := .fullRegistration }
        Interface.sendRegister event
      else pure ()) (fun _ => I) t' := by
    intro t' ht'
    simp only [wp_bind, wp_read]
    refine h.ask rfl ht' fun b t'' ht'' => ?_
    split_ifs
    · rw [wp_bind, wp_modify]
      exact h.sendRegister hev (by decide)
        (h.minor t'' _ ht'' ⟨rfl, rfl, rfl, rfl, rfl, id⟩ rfl rfl)
    · exact ht''
  rw [Interface.stateUpdateRegistration, wp_bind, wp_whenM]
  exact ⟨fun _ => h.tell rfl ht fun t' ht' => hsend t' ht', fun _ => hsend t ht⟩

theorem Orderly.stateUnregister (h : Orderly m C I F) (hev : Raises noisy m C I F event 3)
    (ht : I t) : wp (machine noisy) m C (stateUnregister event) (fun _ => I) t := by
  rw [Interface.stateUnregister, wp_bind]
  refine wp_mono (fun _ t' ht' => ?_) (hev.raised .sendingCoapData t rfl (by decide) ht)
  rw [wp_bind]
  refine h.askDecisive rfl rfl ht' (fun t'' ht'' => ?_) fun t'' ht'' => ?_
  · exact ht''
  · exact h.fail hev (by decide) .notRegistered ht''

/-- What a monitor that does not care about addresses allows besides. -/
structure Connects (m : Monitor M2MInterfaceImpl Output Entry μ)
    (C : Contract M2MInterfaceImpl Output μ) (I F : M2MInterfaceImpl × μ → Prop) : Prop where
  weaken : ∀ t, F t → I t
  minor : ∀ t i, F t → Minor t.1 i → F (i, t.2)
  created : ∀ objectList b t, F t → F (m.see (.answered (.createNsdlListStructure objectList) b)
    (m.see (.called (.createNsdlListStructure objectList)) t))
  contract :
    ∀ address port type security b, C (.resolveServerAddress address port type security) b I
  called : ∀ address port type security t, I t →
    I (m.see (.called (.resolveServerAddress address port type security)) t)
  answered : ∀ address port type security b t, I t →
    I (m.see (.answered (.resolveServerAddress address port type security) b) t)

theorem Connects.resolve (hc : Connects m C I F) {address : Bytes} {port : UInt16}
    {type : ServerType}
    {security : Option M2MSecurity} (ht : I t) {Q : Unit → M2MInterfaceImpl × μ → Prop}
    (hQ : ∀ t, I t → Q () t) :
    wp (machine noisy) m C (.tell (.resolveServerAddress address port type security)) Q t :=
  wp_tell_keep (hc.contract address port type security) (hc.called _ _ _ _ t ht)
    fun b t' ht' => hQ _ (hc.answered _ _ _ _ b t' ht')

/-- Either the server has been asked for, or nothing of note has happened. -/
theorem Connects.connect (hc : Connects m C I F) {type : ServerType} {flow : M2MTimerObserver}
    {security : M2MSecurity} (ht : F t) {Q : Bool → M2MInterfaceImpl × μ → Prop}
    (hI : ∀ t, I t → Q true t) (hF : ∀ t, F t → Q false t) :
    wp (machine noisy) m C (connect type flow security) Q t := by
  unfold Interface.connect
  cases security.serverAddress with
  | none => exact hF t ht
  | some serverAddress =>
    simp only [wp_bind, wp_modify, wp_read]
    have hp := hc.minor t (
      { t.1 with
        serverIpAddress := (processAddress serverAddress t.1.serverIpAddress t.1.serverPort).1
        serverPort := (processAddress serverAddress t.1.serverIpAddress t.1.serverPort).2 })
      ht ⟨rfl, rfl, rfl, rfl, rfl, id⟩
    split_ifs
    · exact hF _ hp
    · simp only [wp_bind, wp_modify]
      exact hc.resolve (hc.weaken _ (hc.minor _ _ hp (Minor.startFlowTimer _ flow))) hI

theorem Orderly.giveUp (h : Orderly m C I F) (hev : Raises noisy m C I F event 2)
    {first : Code Bool}
    (hfirst : wp (machine noisy) m C first (fun b t' => if b then I t' else F t') t) :
    wp (machine noisy) m C (do
      let started ← first
      whenM (!started) (Interface.fail event .invalidParameters)) (fun _ => I) t := by
  rw [wp_bind]
  refine wp_mono (fun b t' ht' => ?_) hfirst
  cases b with
  | true => exact ht'
  | false => exact h.fail hev (by decide) .invalidParameters ht'

theorem Orderly.stateBootstrap (h : Orderly m C I F) (hc : Connects m C I F)
    (hev : Raises noisy m C I F event 2) (data : Option EventData) (ht : I t)
    (hF : t.1.security = none → F t) :
    wp (machine noisy) m C (stateBootstrap event data) (fun _ => I) t := by
  rw [Interface.stateBootstrap]
  simp only [wp_bind, wp_modify, wp_read]
  have hminor : Minor t.1 { t.1 with bootstrapped := false } := ⟨rfl, rfl, rfl, rfl, rfl, id⟩
  split_ifs with hs
  · refine h.giveUp hev ?_
    have hb := hc.minor t _ (hF (Option.isNone_iff_eq_none.mp hs)) hminor
    cases data with
    | none => exact hb
    | some event' =>
      simp only [firstBootstrap, wp_bind, wp_modify]
      have hset := hc.minor _ { t.1 with bootstrapped := false, security := event'.object } hb
        ⟨rfl, rfl, rfl, rfl, rfl, id⟩
      generalize event'.object = object at hset ⊢
      cases object with
      | none => exact hset
      | some security =>
        dsimp only
        split_ifs
        · exact hc.connect hset (fun _ h => h) fun _ h => h
        · exact hset
  · simp only [wp_bind, wp_modify]
    have hport := h.minor _ { t.1 with bootstrapped := false, listenPort := 0 }
      (h.minor t _ ht hminor rfl rfl) ⟨rfl, rfl, rfl, rfl, rfl, id⟩ rfl rfl
    refine h.tell rfl hport fun t' ht' => h.tell rfl ht' fun t'' ht'' => ?_
    exact hc.resolve (h.minor _ _ ht'' (Minor.startFlowTimer _ _) rfl rfl) fun _ hI => hI

theorem Orderly.stateRegister (h : Orderly m C I F) (hc : Connects m C I F)
    (hev : Raises noisy m C I F event 2) (data : Option EventData) (ht : I t)
    (hF : t.1.security = none → F t) :
    wp (machine noisy) m C (stateRegister event data) (fun _ => I) t := by
  rw [Interface.stateRegister]
  simp only [wp_bind, wp_read]
  split_ifs with hs
  · refine h.giveUp hev ?_
    have hb := hF (Option.isNone_iff_eq_none.mp hs)
    cases data with
    | none => exact hb
    | some event' =>
      simp only [firstRegister, wp_bind, wp_modify]
      have hset := hc.minor _ { t.1 with security := event'.object } hb
        ⟨rfl, rfl, rfl, rfl, rfl, id⟩
      generalize event'.object = object at hset ⊢
      cases object with
      | none => exact hset
      | some security =>
        dsimp only
        split_ifs
        · rw [wp_bind, wp_ask fun _ => rfl]
          intro created
          have hcreated := hc.created event'.objectList created _ hset
          cases created with
          | true => exact hc.connect hcreated (fun _ h => h) fun _ h => h
          | false => exact hcreated
        · exact hset
  · simp only [wp_bind, wp_modify]
    have hport := h.minor _ { t.1 with listenPort := 0 } ht ⟨rfl, rfl, rfl, rfl, rfl, id⟩ rfl rfl
    have hrest : ∀ t', I t' → wp (machine noisy) m C (.tell (.bindConnection 0)) (fun _ t'' =>
        wp (machine noisy) m C (.tell (.resolveServerAddress t.1.serverIpAddress t.1.serverPort
          .lwm2mServer t.1.security)) (fun _ => I)
          (t''.1.startFlowTimer .registrationFlowTimer, t''.2)) t' := fun t' ht' =>
      h.tell rfl ht' fun t'' ht'' =>
        hc.resolve (h.minor _ _ ht'' (Minor.startFlowTimer _ _) rfl rfl) fun _ hI => hI
    refine h.tell rfl hport fun t' ht' => ?_
    cases data with
    | none => exact hrest t' ht'
    | some event' =>
      simp only [wp_bind, wp_modify]
      exact h.tell rfl ht' fun t'' ht'' => hrest t'' ht''

theorem Raises.mono {d d' : Nat} (hev : Raises noisy m C I F event d) (hd : d' ≤ d) :
    Raises noisy m C I F event d' :=
  ⟨fun s t hs hlt => hev.raised s t hs (hlt.trans_le hd),
    fun t hlt => hev.idle t (hlt.trans_le hd)⟩

/-- States whose function the invariant passes through without more being known. -/
def EStates.ordinary : EStates → Bool
  | .bootstrap | .register | .registered | .unregistered | .coapDataReceived => false
  | _ => true

theorem Orderly.stateFunction (h : Orderly m C I F) (s : EStates) (hs : s.ordinary = true)
    (hev : Raises noisy m C I F event s.depth) (data : Option EventData) (ht : I t) :
    wp (machine noisy) m C (stateFunction event s data) (fun _ => I) t := by
  have hwait : 1 < s.depth → wp (machine noisy) m C (event .waiting none) (fun _ => I) t :=
    fun hd => hev.raised .waiting t rfl hd ht
  cases s with
  | idle => exact h.tell rfl ht fun _ hI => hI
  | bootstrapAddressResolved => exact h.stateBootstrapAddressResolved hev data ht
  | registerAddressResolved => exact h.stateRegisterAddressResolved hev data ht
  | updateRegistration => exact h.stateUpdateRegistration hev data ht
  | unregister => exact h.stateUnregister hev ht
  | sendingCoapData => exact hwait (by decide)
  | coapDataSent => exact hwait (by decide)
  | processingCoapData => exact hwait (by decide)
  | coapDataProcessed => exact hwait (by decide)
  | bootstrapResourceCreated => exact ht
  | bootstrapWait => exact ht
  | bootstrapped => exact ht
  | waiting => exact ht
  | bootstrap => cases hs
  | register => cases hs
  | registered => cases hs
  | unregistered => cases hs
  | coapDataReceived => cases hs

theorem Orderly.eventAt (h : Orderly m C I F) {n : Nat} {s : EStates} {data : Option EventData}
    (hs : ∀ b, wp (machine noisy) m C (Interface.stateFunction (internalEventAt n) s data)
      (fun _ => I) (entering m s data b t)) :
    wp (machine noisy) m C (internalEventAt (n + 1) s data) (fun _ => I) t :=
  (wp_internalEventAt n s data).mpr fun b =>
    wp_mono (fun _ t' ht' => ⟨h.quiet t' ht', ht'⟩) (hs b)

/-- The engine can be relied on for as many nested events as it has fuel for. -/
theorem Orderly.raisesAt (h : Orderly m C I F) (n : Nat) :
    Raises noisy m C I F (internalEventAt n) (n + 1) := by
  induction n with
  | zero =>
    exact ⟨fun s t _ hd => by cases s <;> simp [EStates.depth] at hd, fun t hd => by simp at hd⟩
  | succ n ih =>
    refine ⟨fun s t hs hd ht => h.eventAt fun b => ?_, fun t _ ht => h.eventAt fun b => ?_⟩
    · exact h.stateFunction s (by cases s <;> first | rfl | cases hs)
        (ih.mono (Nat.lt_succ_iff.mp hd)) none (h.enter s b t hs ht)
    · exact h.stateFunction .idle rfl (ih.mono (Nat.le_add_left 1 n)) none (h.idle b t ht)

theorem Orderly.raises (h : Orderly m C I F) (d : Nat) (hd : d ≤ 4) :
    Raises noisy m C I F (internalEventAt 3) d := (h.raisesAt 3).mono hd

theorem Orderly.eventOrdinary (h : Orderly m C I F) {s : EStates} {data : Option EventData}
    (hs : s.ordinary = true) (he : ∀ b, I (entering m s data b t)) :
    wp (machine noisy) m C (internalEvent s data) (fun _ => I) t :=
  h.eventAt fun b => h.stateFunction s hs (h.raises _ (by cases s <;> decide)) data (he b)

theorem Orderly.eventIdle (h : Orderly m C I F) (ht : F t) :
    wp (machine noisy) m C (internalEvent .idle none) (fun _ => I) t :=
  h.eventOrdinary rfl fun b => h.idle b t ht

/-- Data that the connection handler has not taken makes the client idle, with an error unless it is
reconnecting. -/
theorem Orderly.sendRefused (h : Orderly m C I F) (ht : F t) :
    wp (machine noisy) m C (do
      internalEvent .idle none
      let i ← Prog.read
      whenM (!i.reconnecting) (Prog.tell (.error .networkError))) (fun _ => I) t := by
  rw [wp_bind]
  refine wp_mono (fun _ t' ht' => ?_) (h.eventIdle ht)
  rw [wp_bind, wp_read, wp_whenM]
  exact ⟨fun _ => h.tell rfl ht' fun _ hI => hI, fun _ => ht'⟩

theorem Orderly.eventUnregistered (h : Orderly m C I F)
    (he : ∀ b, F (entering m .unregistered none b t)) :
    wp (machine noisy) m C (internalEvent .unregistered none) (fun _ => I) t :=
  h.eventAt fun b => (h.raises 2 (by decide)).idle _ (by decide) (he b)

theorem Orderly.eventRegistered (h : Orderly m C I F) (he : ∀ b, I
      ({ (entering m .registered none b t).1 with
          retryCount := 0, reconnecting := false, reconnectionState := .none },
        (entering m .registered none b t).2)) :
    wp (machine noisy) m C (internalEvent .registered none) (fun _ => I) t :=
  h.eventAt fun b => he b

theorem Orderly.eventBootstrap (h : Orderly m C I F) (hc : Connects m C I F)
    {data : Option EventData} (he : ∀ b, I (entering m .bootstrap data b t))
    (hF : t.1.security = none → ∀ b, F (entering m .bootstrap data b t)) :
    wp (machine noisy) m C (internalEvent .bootstrap data) (fun _ => I) t :=
  h.eventAt fun b => h.stateBootstrap hc (h.raises 2 (by decide)) data (he b) fun hs => hF hs b

theorem Orderly.eventRegister (h : Orderly m C I F) (hc : Connects m C I F)
    {data : Option EventData} (he : ∀ b, I (entering m .register data b t))
    (hF : t.1.security = none → ∀ b, F (entering m .register data b t)) :
    wp (machine noisy) m C (internalEvent .register data) (fun _ => I) t :=
  h.eventAt fun b => h.stateRegister hc (h.raises 2 (by decide)) data (he b) fun hs => hF hs b

/-- What is received goes to the nsdl layer, whose callbacks may need a contract of their own. -/
theorem Orderly.eventReceived (h : Orderly m C I F) {J : M2MInterfaceImpl × μ → Prop}
    {data : Option EventData} (he : ∀ b, I (entering m .coapDataReceived data b t))
    (hJ : ∀ t, I t → J t) (hquiet : ∀ t, J t → t.1.eventGenerated = false)
    (hprocess : ∀ bytes type port address t, I t → wp (machine noisy) m C (do
      let parsed ← Prog.ask (.processReceivedData bytes type port address)
      whenM (!parsed) (Prog.tell (.error .responseParseFailed))) (fun _ => J) t) :
    wp (machine noisy) m C (internalEvent .coapDataReceived data) (fun _ => J) t := by
  refine (wp_internalEventAt 3 .coapDataReceived data).mpr fun b =>
    wp_mono (fun _ t' ht' => ⟨hquiet t' ht', ht'⟩) ?_
  change wp (machine noisy) m C (stateCoapDataReceived (internalEventAt 3) data) (fun _ => J) _
  unfold stateCoapDataReceived
  split
  · rw [wp_bind]
    exact wp_mono (fun _ t' ht' => hprocess _ _ _ _ t' ht')
      ((h.raises 3 (by decide)).raised .processingCoapData _ rfl (by decide) (he b))
  · exact hJ _ (he b)

end Invariants
end MbedClient.Interface
