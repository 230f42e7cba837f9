import MbedClient.Interface.Rules

/-! Invariants of a monitor through every entry point. -/
namespace MbedClient.Interface
open Callback Callback.Prog

/-- `NULL`, or the class that the state function casts to. -/
def wellTyped : EStates → Option EventData → Bool
  | _, none => true
  | .bootstrap, some (.security _) => true
  | .bootstrapAddressResolved, some (.resolvedAddress _ _) => true
  | .register, some (.register _ _) => true
  | .registerAddressResolved, some (.resolvedAddress _ _) => true
  | .updateRegistration, some (.updateRegister _ _ _) => true
  | .coapDataReceived, some (.received _ _) => true
  | _, some _ => false

/-- The class of the data that an operation hands to `external_event`. -/
def Operation.carries : Operation → Option EventData → Bool
  | .bootstrap, some (.security _) => true
  | .registerObject, some (.register _ _) => true
  | .updateRegistration, some (.updateRegister _ _ _) => true
  | .unregisterObject, none => true
  | _, _ => false

theorem Operation.carries_bootstrap {data : Option EventData}
    (h : carries .bootstrap data = true) : ∃ security, data = some (.security security) := by
  cases data with
  | none => cases h
  | some event => cases event <;> first | exact ⟨_, rfl⟩ | cases h

theorem Operation.carries_registerObject {data : Option EventData}
    (h : carries .registerObject data = true) :
    ∃ security objectList, data = some (.register security objectList) := by
  cases data with
  | none => cases h
  | some event => cases event <;> first | exact ⟨_, _, rfl⟩ | cases h

theorem Operation.carries_updateRegistration {data : Option EventData}
    (h : carries .updateRegistration data = true) :
    ∃ security lifetime objectList, data = some (.updateRegister security lifetime objectList) := by
  cases data with
  | none => cases h
  | some event => cases event <;> first | exact ⟨_, _, _, rfl⟩ | cases h

theorem Operation.carries_unregisterObject {data : Option EventData}
    (h : carries .unregisterObject data = true) : data = none := by
  cases data with
  | none => rfl
  | some event => cases event <;> cases h

section Steady
variable {noisy : Bool} {μ : Type} {m : Monitor M2MInterfaceImpl Output Entry μ}
variable {C : Contract M2MInterfaceImpl Output μ} {I : M2MInterfaceImpl × μ → Prop}
variable {t : M2MInterfaceImpl × μ}

/-- What the calls of the application need of an invariant. -/
structure Calm (noisy : Bool) (m : Monitor M2MInterfaceImpl Output Entry μ)
    (C : Contract M2MInterfaceImpl Output μ) (I : M2MInterfaceImpl × μ → Prop) : Prop where
  tell : ∀ o t, o.tacit = true → I t → wp (machine noisy) m C (.tell o) (fun _ => I) t
  assign : ∀ t i, I t → Minor t.1 i → i.server = t.1.server → i.security = t.1.security → I (i, t.2)
  external : ∀ operation data t, operation.carries data = true → I t →
    wp (machine noisy) m C (externalEvent operation data) (fun _ => I) t

theorem Calm.refuse (h : Calm noisy m C I) (report : M2MInterfaceImpl → Bool) (ht : I t) :
    wp (machine noisy) m C (refuse report) (fun _ => I) t := by
  rw [Interface.refuse, wp_bind, wp_read, wp_whenM]
  refine ⟨fun _ => ?_, fun _ => ht⟩
  rw [wp_bind, wp_modify, wp_bind, wp_read, wp_whenM]
  have hi := h.assign t { t.1 with eventIgnored := false } ht ⟨rfl, rfl, rfl, rfl, rfl, id⟩ rfl rfl
  exact ⟨fun _ => h.tell _ _ rfl hi, fun _ => hi⟩

theorem Calm.bootstrap (h : Calm noisy m C I) (security : Option M2MSecurity) (ht : I t) :
    wp (machine noisy) m C (bootstrap security) (fun _ => I) t := by
  cases security with
  | none => exact h.tell _ t rfl ht
  | some security =>
    rw [Interface.bootstrap, wp_bind]
    exact wp_mono (fun _ t' ht' => h.refuse _ ht') (h.external _ _ t rfl ht)

theorem Calm.registerObject (h : Calm noisy m C I) (security : Option M2MSecurity)
    (objectList : M2MObjectList) (ht : I t) :
    wp (machine noisy) m C (registerObject security objectList) (fun _ => I) t := by
  cases security with
  | none => exact h.tell _ t rfl ht
  | some security =>
    rw [Interface.registerObject, wp_bind, wp_modify, wp_bind]
    exact wp_mono (fun _ t' ht' => h.refuse _ ht')
      (h.external _ _ _ rfl (h.assign t _ ht ⟨rfl, rfl, rfl, rfl, rfl, id⟩ rfl rfl))

theorem Calm.updateRegistration (h : Calm noisy m C I) (security : Option M2MSecurity)
    (objectList : M2MObjectList) (lifetime : UInt32) (ht : I t) :
    wp (machine noisy) m C (updateRegistration security objectList lifetime) (fun _ => I) t := by
  have hgo : ∀ t', I t' → wp (machine noisy) m C (do
      let i ← Prog.read
      if i.reconnecting then pure ()
      else do
        Prog.modify fun i => { i with reconnectionState := .withUpdate }
        Interface.externalEvent .updateRegistration
          (some (.updateRegister security lifetime objectList))
        Interface.refuse fun i => !i.reconnecting) (fun _ => I) t' := by
    intro t' ht'
    simp only [wp_bind, wp_read]
    split_ifs
    · exact ht'
    · simp only [wp_bind, wp_modify]
      exact wp_mono (fun _ t'' ht'' => h.refuse _ ht'')
        (h.external _ _ _ rfl (h.assign t' _ ht' ⟨rfl, rfl, rfl, rfl, rfl, id⟩ rfl rfl))
  rw [Interface.updateRegistration, wp_bind, wp_whenM]
  exact ⟨fun _ => wp_mono (fun _ t' ht' => hgo t' ht') (h.tell _ t rfl ht), fun _ => hgo t ht⟩

theorem Calm.unregisterObject (h : Calm noisy m C I) (ht : I t) :
    wp (machine noisy) m C unregisterObject (fun _ => I) t := by
  rw [Interface.unregisterObject, wp_bind]
  exact wp_mono (fun _ t' ht' => h.refuse _ ht') (h.external _ _ t rfl ht)

theorem Calm.valueUpdated (h : Calm noisy m C I) (base : Option Nat) (ht : I t) :
    wp (machine noisy) m C (valueUpdated base) (fun _ => I) t := by
  cases base with
  | none => exact ht
  | some base => exact h.tell _ t rfl ht

/-- An invariant that depends on the current state only, and what it needs to be kept throughout. -/
structure Steady (noisy : Bool) (m : Monitor M2MInterfaceImpl Output Entry μ)
    (C : Contract M2MInterfaceImpl Output μ) (I : M2MInterfaceImpl × μ → Prop) : Prop where
  lawful : Lawful m C I I
  assign : ∀ t i, I t → i.eventGenerated = t.1.eventGenerated →
    i.currentState = t.1.currentState → i.server = t.1.server → I (i, t.2)
  consulted : ∀ operation b t, operation ≠ .updateRegistration → I t →
    I (m.see (.answered (.transition operation) b) (m.see (.called (.transition operation)) t))
  update : ∀ security lifetime objectList t, I t → wp (machine noisy) m C
    (externalEvent .updateRegistration (some (.updateRegister security lifetime objectList)))
    (fun _ => I) t
  event : ∀ s data t, s ≠ .bootstrapWait → s ≠ .coapDataReceived → wellTyped s data = true → I t →
    wp (machine noisy) m C (internalEvent s data) (fun _ => I) t

/-- The part of it that leaves `_security` and the end of a bootstrap to be looked at. -/
structure Steadfast (noisy : Bool) (m : Monitor M2MInterfaceImpl Output Entry μ)
    (C : Contract M2MInterfaceImpl Output μ) (I : M2MInterfaceImpl × μ → Prop) : Prop where
  orderly : Orderly m C I I
  assign : ∀ t i, I t → i.eventGenerated = t.1.eventGenerated →
    i.currentState = t.1.currentState → i.server = t.1.server → i.security = t.1.security →
    I (i, t.2)
  registered : ∀ security t, I t →
    wp (machine noisy) m C (.tell (.objectRegistered security)) (fun _ => I) t
  updated : ∀ security t, I t →
    wp (machine noisy) m C (.tell (.registrationUpdated security)) (fun _ => I) t
  consulted : ∀ operation b t, operation ≠ .updateRegistration → I t →
    I (m.see (.answered (.transition operation) b) (m.see (.called (.transition operation)) t))
  update : ∀ security lifetime objectList t, I t → wp (machine noisy) m C
    (externalEvent .updateRegistration (some (.updateRegister security lifetime objectList)))
    (fun _ => I) t
  event : ∀ s data t, s ≠ .bootstrapWait → s ≠ .coapDataReceived → wellTyped s data = true → I t →
    wp (machine noisy) m C (internalEvent s data) (fun _ => I) t

theorem Steady.steadfast (h : Steady noisy m C I) : Steadfast noisy m C I where
  orderly := h.lawful.orderly
  assign t i ht hg hs hc _ := h.assign t i ht hg hs hc
  registered _ _ ht := h.lawful.tell rfl ht fun _ hI => hI
  updated _ _ ht := h.lawful.tell rfl ht fun _ hI => hI
  consulted := h.consulted
  update := h.update
  event := h.event

theorem Steadfast.idle (h : Steadfast noisy m C I) (ht : I t) :
    wp (machine noisy) m C (internalEvent .idle none) (fun _ => I) t :=
  h.event .idle none t nofun nofun rfl ht

theorem Steadfast.tellLast (h : Steadfast noisy m C I) {o : Output} (ho : o.tacit = true)
    (ht : I t) :
    wp (machine noisy) m C (.tell o) (fun _ => I) t :=
  h.orderly.tell ho ht fun _ hI => hI

theorem Steadfast.fail (h : Steadfast noisy m C I) (error : Error) (ht : I t) :
    wp (machine noisy) m C (fail internalEvent error) (fun _ => I) t := by
  rw [Interface.fail, wp_bind]
  exact wp_mono (fun _ t' ht' => h.tellLast rfl ht') (h.idle ht)

/-- Where the transition maps lead. -/
theorem transition_target {operation : Operation} {s s' : EStates}
    (hs : transition operation s = some s') :
    s' = .bootstrap ∨ s' = .register ∨ s' = .updateRegistration ∨ s' = .unregister := by
  cases operation <;> cases s <;> cases hs <;> simp

/-- What the transition maps other than that of the update lead to takes the data that comes
along. -/
theorem wellTyped_transition {operation : Operation} {s s' : EStates} {data : Option EventData}
    (hop : operation ≠ .updateRegistration) (hdata : operation.carries data = true)
    (hs : transition operation s = some s') :
    s' ≠ .bootstrapWait ∧ s' ≠ .coapDataReceived ∧ wellTyped s' data = true := by
  cases operation with
  | bootstrap =>
    obtain ⟨security, rfl⟩ := Operation.carries_bootstrap hdata
    cases s <;> cases hs
    exact ⟨nofun, nofun, rfl⟩
  | registerObject =>
    obtain ⟨security, objectList, rfl⟩ := Operation.carries_registerObject hdata
    cases s <;> cases hs <;> exact ⟨nofun, nofun, rfl⟩
  | updateRegistration => exact (hop rfl).elim
  | unregisterObject =>
    obtain rfl := Operation.carries_unregisterObject hdata
    cases s <;> cases hs <;> exact ⟨nofun, nofun, rfl⟩

theorem Steadfast.externalEvent (h : Steadfast noisy m C I) {operation : Operation}
    {data : Option EventData} (hdata : operation.carries data = true) (ht : I t) :
    wp (machine noisy) m C (externalEvent operation data) (fun _ => I) t := by
  by_cases hop : operation = .updateRegistration
  · obtain ⟨security, lifetime, objectList, rfl⟩ :=
      Operation.carries_updateRegistration (hop ▸ hdata)
    exact hop ▸ h.update security lifetime objectList t ht
  have hc := fun b => h.consulted operation b t hop ht
  apply wp_externalEvent
  · exact fun _ b => h.assign _ _ (hc b) rfl rfl rfl rfl
  · intro s hs b
    obtain ⟨hw, hr, hd⟩ := wellTyped_transition hop hdata hs
    exact h.event s data _ hw hr hd (hc b)

theorem Steadfast.calm (h : Steadfast noisy m C I) : Calm noisy m C I where
  tell _ _ ho ht := h.tellLast ho ht
  assign t i ht hi hc hs := h.assign t i ht hi.eventGenerated hi.currentState hc hs
  external _ _ _ hdata ht := h.externalEvent hdata ht

theorem Steadfast.countRetry (h : Steadfast noisy m C I) (error : Error) (ht : I t) :
    wp (machine noisy) m C (countRetry error) (fun _ => I) t := by
  rw [Interface.countRetry, wp_bind, wp_read]
  split_ifs
  · exact h.assign t _ ht rfl rfl rfl rfl
  · simp only [wp_bind, wp_modify]
    exact h.orderly.tell rfl (h.assign t { t.1 with retryCount := 1 } ht rfl rfl rfl rfl)
      fun _ hI => hI
  · rw [wp_bind]
    exact h.orderly.tell rfl ht fun t' ht' => h.assign t' _ ht' rfl rfl rfl rfl

theorem Steadfast.startRetry (h : Steadfast noisy m C I) (ht : I t) :
    wp (machine noisy) m C startRetry (fun _ => I) t := by
  rw [Interface.startRetry, wp_bind]
  refine wp_mono (fun _ t' ht' => ?_) (h.idle ht)
  simp only [wp_bind, wp_modify]
  exact h.orderly.tell rfl (h.assign t' { t'.1 with reconnecting := true } ht' rfl rfl rfl rfl)
    fun t'' ht'' => h.assign t'' _ ht'' rfl rfl rfl rfl

theorem Steadfast.informApplication (h : Steadfast noisy m C I) (error : Error) (ht : I t) :
    wp (machine noisy) m C (informApplication error) (fun _ => I) t := by
  rw [Interface.informApplication, wp_bind]
  refine h.orderly.tell rfl ht fun t' ht' => ?_
  simp only [wp_bind, wp_modify]
  have hi := h.assign t' t'.1.stopRetrying ht' rfl rfl rfl rfl
  exact h.orderly.tell rfl hi fun t'' ht'' => h.idle ht''

theorem Steadfast.socketError (h : Steadfast noisy m C I) (code : UInt8) (retry : Bool) (ht : I t) :
    wp (machine noisy) m C (socketError code retry) (fun _ => I) t := by
  have hgo : ∀ (retry : Bool) t', I t' → wp (machine noisy) m C (if retry then Interface.startRetry
      else whenM (connectionError code != .errorNone)
        (Interface.informApplication (connectionError code))) (fun _ => I) t' := by
    intro retry t' ht'
    split_ifs
    · exact h.startRetry ht'
    · exact wp_whenM.mpr ⟨fun _ => h.informApplication _ ht', fun _ => ht'⟩
  rw [Interface.socketError, wp_bind, wp_modify, wp_bind, wp_read]
  have hu := h.assign t { t.1 with reconnectionState := .withUpdate } ht rfl rfl rfl rfl
  split_ifs
  · exact hu
  · rw [wp_bind]
    exact wp_mono (fun b t' ht' => hgo b t' ht') (h.countRetry _ hu)
  · rw [wp_bind]
    exact hgo false _ hu

theorem Steadfast.registrationError (h : Steadfast noisy m C I) (code : UInt8) (retry : Bool)
    (ht : I t) : wp (machine noisy) m C (registrationError code retry) (fun _ => I) t := by
  cases retry with
  | true =>
    rw [Interface.registrationError, if_pos rfl, wp_bind]
    exact wp_mono (fun _ t' ht' => h.assign t' _ ht' rfl rfl rfl rfl) (h.socketError _ _ ht)
  | false => exact h.fail _ ht

theorem Steadfast.bootstrapError (h : Steadfast noisy m C I) (ht : I t) :
    wp (machine noisy) m C bootstrapError (fun _ => I) t := by
  rw [Interface.bootstrapError]
  simp only [wp_bind, wp_modify]
  exact h.socketError _ _ (h.assign t _ ht rfl rfl rfl rfl)

theorem Steadfast.coapMessageReady (h : Steadfast noisy m C I) (data : Bytes) (ht : I t) :
    wp (machine noisy) m C (coapMessageReady data) (fun _ => I) t := by
  rw [Interface.coapMessageReady, wp_bind, wp_read, wp_whenM]
  refine ⟨fun _ => ?_, fun _ => ht⟩
  rw [wp_bind]
  refine wp_mono (fun _ t' ht' => ?_) (h.event .sendingCoapData none t nofun nofun rfl ht)
  rw [wp_bind]
  refine h.orderly.ask rfl ht' fun b t'' ht'' => wp_whenM.mpr ⟨fun _ => ?_, fun _ => ht''⟩
  exact h.orderly.sendRefused ht''

theorem Steadfast.timerExpired (h : Steadfast noisy m C I) (type : M2MTimerObserver) (ht : I t) :
    wp (machine noisy) m C (timerExpired type) (fun _ => I) t := by
  have hi : I (t.1.ranOut type, t.2) := h.assign t _ ht (by cases type <;> rfl)
    (by cases type <;> rfl) (by cases type <;> rfl) (by cases type <;> rfl)
  unfold Interface.timerExpired
  rw [wp_bind, wp_modify]
  split
  · rw [wp_bind, wp_read, wp_whenM]
    exact ⟨fun _ => h.tellLast rfl hi, fun _ => hi⟩
  · simp only [wp_bind, wp_modify, wp_read]
    have he :=
      h.assign _ { (t.1.ranOut .retryTimer) with retryTimerExpired := true } hi rfl rfl rfl rfl
    split_ifs
    · exact h.event .register none _ (by decide) (by decide) rfl he
    · exact h.event .bootstrap none _ (by decide) (by decide) rfl he
  · exact h.bootstrapError hi
  · exact h.registrationError _ _ hi
  · exact hi

/-- Entry points that do nothing but raise an event, of which more may be known. -/
def Entry.special : Entry → Bool
  | .bootstrapWait _ | .dataAvailable _ _ => true
  | _ => false

/-- Entry points at which a bootstrap comes to its end. -/
def Entry.finishes : Entry → Bool
  | .bootstrapDone _ | .dataSent => true
  | _ => false

theorem Steadfast.code (h : Steadfast noisy m C I) {e : Entry} (he : e.special = false)
    (hf : e.finishes = false) (ht : I t) :
    wp (machine noisy) m C (code e) (fun _ => I) t := by
  cases e with
  | bootstrap security => exact h.calm.bootstrap security ht
  | registerObject security objectList => exact h.calm.registerObject security objectList ht
  | updateRegistration security objectList lifetime =>
    exact h.calm.updateRegistration security objectList lifetime ht
  | unregisterObject => exact h.calm.unregisterObject ht
  | setQueueSleepHandler handler => exact h.assign t _ ht rfl rfl rfl rfl
  | coapMessageReady data => exact h.coapMessageReady data ht
  | clientRegistered =>
    change wp (machine noisy) m C Interface.clientRegistered (fun _ => I) t
    rw [Interface.clientRegistered]
    simp only [wp_bind, wp_modify, wp_read]
    exact wp_mono (fun _ t' ht' => h.registered _ t' ht')
      (h.event .registered none _ (by decide) (by decide) rfl (h.assign t _ ht rfl rfl rfl rfl))
  | registrationUpdated =>
    change wp (machine noisy) m C Interface.registrationUpdated (fun _ => I) t
    rw [Interface.registrationUpdated]
    simp only [wp_bind, wp_read]
    exact wp_mono (fun _ t' ht' => h.updated _ t' ht')
      (h.event .registered none t (by decide) (by decide) rfl ht)
  | registrationError code retry => exact h.registrationError code retry ht
  | clientUnregistered =>
    change wp (machine noisy) m C Interface.clientUnregistered (fun _ => I) t
    rw [Interface.clientUnregistered]
    simp only [wp_bind, wp_read]
    exact wp_mono (fun _ t' ht' => h.tellLast rfl ht')
      (h.event .unregistered none t (by decide) (by decide) rfl ht)
  | bootstrapDone security => cases hf
  | bootstrapError => exact h.bootstrapError ht
  | coapDataProcessed => exact h.event .coapDataProcessed none t (by decide) (by decide) rfl ht
  | valueUpdated base => exact h.calm.valueUpdated base ht
  | socketError code retry => exact h.socketError code retry ht
  | addressReady address type port =>
    cases type with
    | bootstrap => exact h.event .bootstrapAddressResolved _ t (by decide) (by decide) rfl ht
    | lwm2mServer => exact h.event .registerAddressResolved _ t (by decide) (by decide) rfl ht
  | dataSent => cases hf
  | timerExpired type => exact h.timerExpired type ht
  | bootstrapWait security => cases he
  | dataAvailable data address => cases he

theorem Steady.bootstrapDone (h : Steady noisy m C I) (security : Option M2MSecurity) (ht : I t) :
    wp (machine noisy) m C (bootstrapDone security) (fun _ => I) t := by
  rw [Interface.bootstrapDone]
  simp only [wp_bind, wp_modify]
  exact wp_mono (fun _ t' ht' => h.lawful.tell rfl ht' fun _ hI => hI)
    (h.event .bootstrapped none _ (by decide) (by decide) rfl (h.assign t _ ht rfl rfl rfl))

theorem Steady.dataSent (h : Steady noisy m C I) (ht : I t) :
    wp (machine noisy) m C dataSent (fun _ => I) t := by
  refine wp_dataSent (fun _ timer => ?_) fun _ timer => ?_
  · exact h.bootstrapDone _ (h.assign t _ ht rfl rfl rfl)
  · exact h.event .coapDataSent none _ nofun nofun rfl (h.assign t _ ht rfl rfl rfl)

theorem Steady.code (h : Steady noisy m C I) {e : Entry} (he : e.special = false) (ht : I t) :
    wp (machine noisy) m C (code e) (fun _ => I) t := by
  by_cases hf : e.finishes = false
  · exact h.steadfast.code he hf ht
  cases e with
  | bootstrapDone security => exact h.bootstrapDone security ht
  | dataSent => exact h.dataSent ht
  | _ => exact (hf rfl).elim

/-- Every entry point, the two that are special by what is known of their events. -/
theorem Steady.codeAll (h : Steady noisy m C I)
    (hwait : ∀ t, I t → wp (machine noisy) m C (internalEvent .bootstrapWait none) (fun _ => I) t)
    (hdata : ∀ bytes address t, I t → wp (machine noisy) m C
      (internalEvent .coapDataReceived (some (.received bytes address))) (fun _ => I) t)
    (e : Entry) (ht : I t) : wp (machine noisy) m C (Interface.code e) (fun _ => I) t := by
  by_cases he : e.special = false
  · exact h.code he ht
  cases e with
  | bootstrapWait security =>
    exact hwait ({ t.1 with security := security }, t.2) (h.assign t _ ht rfl rfl rfl)
  | dataAvailable data address => exact hdata data address t ht
  | _ => exact (he rfl).elim

/-- An event of any kind: those that start an attempt are left to the invariant. -/
theorem Orderly.event (h : Orderly m C I I)
    (hregistered : ∀ t, I t → I ({ t.1 with
      retryCount := 0, reconnecting := false, reconnectionState := .none }, t.2))
    (hreceived : ∀ bytes type port address t, I t → wp (machine noisy) m C
      (.ask (.processReceivedData bytes type port address)) (fun _ => I) t)
    {s : EStates} {data : Option EventData}
    (he : s ≠ .register ∧ s ≠ .bootstrap → ∀ b, I (entering m s data b t))
    (hattempt : s = .register ∨ s = .bootstrap →
      wp (machine noisy) m C (internalEvent s data) (fun _ => I) t) :
    wp (machine noisy) m C (internalEvent s data) (fun _ => I) t := by
  by_cases hs : s = .register ∨ s = .bootstrap
  · exact hattempt hs
  obtain ⟨hr, hb⟩ := not_or.mp hs
  have hin := he ⟨hr, hb⟩
  by_cases ho : s.ordinary = true
  · exact h.eventOrdinary ho hin
  cases s with
  | register => exact absurd rfl hr
  | bootstrap => exact absurd rfl hb
  | registered => exact h.eventAt fun b => hregistered _ (hin b)
  | unregistered => exact h.eventAt fun b =>
      (h.raises 2 (by decide)).idle _ (by decide) (hin b)
  | coapDataReceived =>
    refine h.eventReceived hin (fun _ hI => hI) h.quiet fun bytes type port address t' ht' => ?_
    rw [wp_bind]
    refine wp_mono (fun b t'' ht'' => ?_) (hreceived bytes type port address t' ht')
    exact wp_whenM.mpr ⟨fun _ => h.tell rfl ht'' fun _ hI => hI, fun _ => ht''⟩
  | _ => exact absurd rfl ho

/-- An attempt is nothing special to an invariant that depends on the current state only. -/
theorem Lawful.event (h : Lawful m C I I) (hc : Connects m C I I)
    (hassign : ∀ t i, I t → i.eventGenerated = t.1.eventGenerated →
      i.currentState = t.1.currentState → I (i, t.2))
    (hreceived : ∀ bytes type port address t, I t → wp (machine noisy) m C
      (.ask (.processReceivedData bytes type port address)) (fun _ => I) t)
    {s : EStates} {data : Option EventData} (he : ∀ b, I (entering m s data b t)) :
    wp (machine noisy) m C (internalEvent s data) (fun _ => I) t := by
  apply h.orderly.event _ hreceived fun _ => he
  · intro hs
    obtain rfl | rfl := hs
    · exact h.orderly.eventRegister hc he fun _ => he
    · exact h.orderly.eventBootstrap hc he fun _ => he
  · exact fun t' ht' => hassign t' _ ht' rfl rfl

end Steady
end MbedClient.Interface
