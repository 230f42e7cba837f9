import MbedClient.Interface.Steady

/-! Reconnecting: in the idle state a timer goes on with it, or the application has been told. -/
namespace MbedClient.Interface
open Callback Callback.Prog

/-- Reconnecting with neither timer armed that would go on with it. -/
def M2MInterfaceImpl.stranded (i : M2MInterfaceImpl) : Bool :=
  i.reconnecting && !(i.retryTimer.armed || i.flowArmed)

/-- Whether reconnecting has ended without either a success or an error that the application was
told; and whether one of the failures that lead to the idle state has met a stranded client. -/
structure Reconnection where
  owing : Bool := false
  unfit : Bool := false
deriving DecidableEq

def Reconnection.note (y : Reconnection) (i : M2MInterfaceImpl) : Reconnection :=
  { y with unfit := y.unfit || i.stranded }

/-- Calls whose refusal takes a handler back to the idle state. -/
def Output.refusable : Output → Bool
  | .sendData _ => true
  | o => o.decisive

def reconnection : Monitor M2MInterfaceImpl Output Entry Reconnection
  | .entered (.registrationError _ false), i, y => y.note i
  | .entered .clientUnregistered, i, y => y.note i
  | .called (.stateFunction .registered _), _, y => { y with owing := false }
  | .called (.stateFunction .bootstrapped _), _, y => { y with owing := false }
  | .called (.stateFunction .register _), i, y => if i.security.isNone then y.note i else y
  | .called (.stateFunction .bootstrap _), i, y => if i.security.isNone then y.note i else y
  | .called (.error _), i, y => { y with owing := y.owing && i.reconnecting }
  | .answered o false, i, y => if o.refusable then y.note i else y
  | .left _, i, y => { y with owing := y.owing || i.reconnecting }
  | _, _, y => y

/-- What every invariant here has in common. -/
structure Owed (t : M2MInterfaceImpl × Reconnection) : Prop where
  quiet : t.1.eventGenerated = false
  loop : t.1.config.reconnectionLoop = true
  owed : t.2.owing = true → t.1.reconnecting = true

/-- A condition on the timers, as far as it depends on what the state machine does to them. -/
structure Timed (p : M2MInterfaceImpl → Reconnection → Prop) : Prop where
  resting : ∀ i y, i.reconnecting = false → p i y
  armed : ∀ i y, i.retryTimer.armed = true → p i y
  minor : ∀ i i' y, p i y → Minor i i' → p i' y
  enter : ∀ i s y, s ≠ .idle → p i y → p (i.enter s) y
  enterIdle : ∀ i y, (i.stranded = true → y.unfit = true) → p i y → p (i.enter .idle) y
  noted : ∀ i y y', (y.unfit = true → y'.unfit = true) → p i y → p i y'

structure Kept (p : M2MInterfaceImpl → Reconnection → Prop) (t : M2MInterfaceImpl × Reconnection) :
    Prop extends Owed t where
  timed : p t.1 t.2

/-- On the way to the idle state. -/
structure Excused (p : M2MInterfaceImpl → Reconnection → Prop)
    (t : M2MInterfaceImpl × Reconnection) : Prop extends Kept p t where
  excused : t.1.stranded = true → t.2.unfit = true

/-- Nobody is stranded in the idle state without a note of it. -/
def live (i : M2MInterfaceImpl) (y : Reconnection) : Prop :=
  i.currentState = .idle → i.stranded = true → y.unfit = true

/-- Between two expiries of the retry timer. -/
def rearmed (i : M2MInterfaceImpl) (_ : Reconnection) : Prop :=
  i.reconnecting = true → i.retryTimer.armed = true

def anyTime (_ : M2MInterfaceImpl) (_ : Reconnection) : Prop := True

theorem stranded_of_minor {i i' : M2MInterfaceImpl} (h : Minor i i') (hs : i'.stranded = true) :
    i.stranded = true := by
  obtain ⟨hr, ha⟩ := Bool.and_eq_true_iff.mp hs
  rw [h.retryTimer] at ha
  refine Bool.and_eq_true_iff.mpr ⟨h.reconnecting ▸ hr, ?_⟩
  cases hf : i.flowArmed with
  | true => rw [h.flow hf, Bool.or_true] at ha; cases ha
  | false =>
    rw [Bool.or_false]
    cases hretry : i.retryTimer.armed with
    | true => rw [hretry, Bool.true_or] at ha; cases ha
    | false => rfl

theorem not_stranded_of_resting {i : M2MInterfaceImpl} (h : i.reconnecting = false) :
    i.stranded = false := by
  rw [M2MInterfaceImpl.stranded, h, Bool.false_and]

theorem not_stranded_of_armed {i : M2MInterfaceImpl} (h : i.retryTimer.armed = true) :
    i.stranded = false := by
  rw [M2MInterfaceImpl.stranded, h, Bool.true_or, Bool.not_true, Bool.and_false]

theorem timed_live : Timed live where
  resting _ _ h _ hs := nomatch (not_stranded_of_resting h).symm.trans hs
  armed _ _ h _ hs := nomatch (not_stranded_of_armed h).symm.trans hs
  minor _ _ _ hp h hidle hs := hp (h.currentState ▸ hidle) (stranded_of_minor h hs)
  enter _ _ _ hs _ hidle := (hs hidle).elim
  enterIdle _ _ hex _ _ hs := hex hs
  noted _ _ _ hy hp hidle hs := hy (hp hidle hs)

theorem timed_rearmed : Timed rearmed where
  resting _ _ h hr := nomatch h.symm.trans hr
  armed _ _ h _ := h
  minor _ _ _ hp h hr := h.retryTimer ▸ hp (h.reconnecting ▸ hr)
  enter _ _ _ _ hp := hp
  enterIdle _ _ _ hp := hp
  noted _ _ _ _ hp := hp

theorem timed_anyTime : Timed anyTime where
  resting _ _ _ := trivial
  armed _ _ _ := trivial
  minor _ _ _ _ _ := trivial
  enter _ _ _ _ _ := trivial
  enterIdle _ _ _ _ := trivial
  noted _ _ _ _ _ := trivial

section Kept
variable {noisy : Bool} {t : M2MInterfaceImpl × Reconnection}
variable {p : M2MInterfaceImpl → Reconnection → Prop}

/-- Callbacks keep each of the three conditions. -/
abbrev byKept : Contract M2MInterfaceImpl Output Reconnection := fun _ _ I =>
  I = Kept live ∨ I = Kept rearmed ∨ I = Kept anyTime

/-- The conditions that the contract lists. -/
structure Listed (p : M2MInterfaceImpl → Reconnection → Prop) : Prop extends Timed p where
  listed : ∀ o b, byKept o b (Kept p)

theorem listed_live : Listed live := ⟨timed_live, fun _ _ => Or.inl rfl⟩
theorem listed_rearmed : Listed rearmed := ⟨timed_rearmed, fun _ _ => Or.inr (Or.inl rfl)⟩
theorem listed_anyTime : Listed anyTime := ⟨timed_anyTime, fun _ _ => Or.inr (Or.inr rfl)⟩

theorem Owed.minor (ht : Owed t) {i : M2MInterfaceImpl} (hi : Minor t.1 i) : Owed (i, t.2) :=
  ⟨hi.eventGenerated.trans ht.quiet, (congrArg (·.reconnectionLoop) hi.config).trans ht.loop,
    fun h => hi.reconnecting.trans (ht.owed h)⟩

theorem Kept.minor (hp : Timed p) (ht : Kept p t) {i : M2MInterfaceImpl} (hi : Minor t.1 i) :
    Kept p (i, t.2) := ⟨ht.toOwed.minor hi, hp.minor _ _ _ ht.timed hi⟩

theorem Excused.minor (hp : Timed p) (ht : Excused p t) {i : M2MInterfaceImpl} (hi : Minor t.1 i) :
    Excused p (i, t.2) := ⟨ht.toKept.minor hp hi, fun hs => ht.excused (stranded_of_minor hi hs)⟩

/-- What a monitor may do to its own state. -/
theorem Kept.noted (hp : Timed p) (ht : Kept p t) {y : Reconnection}
    (ho : y.owing = true → t.2.owing = true) (hu : t.2.unfit = true → y.unfit = true) :
    Kept p (t.1, y) :=
  ⟨⟨ht.quiet, ht.loop, fun h => ht.owed (ho h)⟩, hp.noted _ _ _ hu ht.timed⟩

theorem Kept.note (hp : Timed p) (ht : Kept p t) : Excused p (t.1, t.2.note t.1) :=
  ⟨ht.noted hp id fun h => Bool.or_eq_true_iff.mpr (Or.inl h),
    fun h => Bool.or_eq_true_iff.mpr (Or.inr h)⟩

theorem Kept.called (hp : Timed p) (ht : Kept p t) {o : Output}
    (ho : ∀ s data, o ≠ .stateFunction s data) : Kept p (reconnection.see (.called o) t) := by
  cases o with
  | stateFunction s data => exact (ho s data rfl).elim
  | error error => exact ht.noted hp (fun h => (Bool.and_eq_true_iff.mp h).1) id
  | _ => exact ht

theorem Kept.answered (hp : Timed p) (ht : Kept p t) (o : Output) (b : Bool) :
    Kept p (reconnection.see (.answered o b) t) := by
  cases b with
  | true => exact ht
  | false =>
    change Kept p (t.1, if o.refusable then t.2.note t.1 else t.2)
    split_ifs
    · exact (ht.note hp).toKept
    · exact ht

theorem Kept.refused (hp : Timed p) (ht : Kept p t) {o : Output} (ho : o.refusable = true) :
    Excused p (reconnection.see (.answered o false) t) := by
  change Excused p (t.1, if o.refusable then t.2.note t.1 else t.2)
  rw [if_pos ho]
  exact ht.note hp

/-- Entering a state from which a failure leads back takes a note where one is due. -/
theorem Kept.enter (hp : Timed p) {s : EStates} (ht : Kept p (t.1.enter s, t.2))
    (data : Option EventData) (b : Bool) : Kept p (entering reconnection s data b t) := by
  refine Kept.answered hp ?_ _ b
  cases s with
  | registered => exact ht.noted hp nofun id
  | bootstrapped => exact ht.noted hp nofun id
  | register =>
    change Kept p (_, if t.1.security.isNone then _ else _)
    split_ifs
    · exact (ht.note hp).toKept
    · exact ht
  | bootstrap =>
    change Kept p (_, if t.1.security.isNone then _ else _)
    split_ifs
    · exact (ht.note hp).toKept
    · exact ht
  | _ => exact ht

theorem Excused.enter (hp : Timed p) {s : EStates} (ht : Excused p (t.1.enter s, t.2))
    (hs : s ≠ .register ∧ s ≠ .bootstrap ∧ s ≠ .registered ∧ s ≠ .bootstrapped)
    (data : Option EventData) (b : Bool) : Excused p (entering reconnection s data b t) := by
  refine ⟨ht.toKept.enter hp data b, ?_⟩
  obtain ⟨h1, h2, h3, h4⟩ := hs
  cases b <;> cases s <;> first | exact ht.excused | contradiction

theorem Kept.toState (hp : Timed p) (ht : Kept p t) {s : EStates} (hs : s ≠ .idle) :
    Kept p (t.1.enter s, t.2) := ⟨⟨rfl, ht.loop, ht.owed⟩, hp.enter _ _ _ hs ht.timed⟩

theorem Excused.toIdle (hp : Timed p) (ht : Excused p t) : Kept p (t.1.enter .idle, t.2) :=
  ⟨⟨rfl, ht.loop, ht.owed⟩, hp.enterIdle _ _ ht.excused ht.timed⟩

theorem kept_lawful (hp : Listed p) : Lawful reconnection byKept (Kept p) (Excused p) where
  quiet _ ht := ht.quiet
  contract o b _ := hp.listed o b
  called o _ ho ht := ht.called hp.toTimed (by rintro s data rfl; cases ho)
  answered o b _ _ ht := ht.answered hp.toTimed o b
  refused o _ ho ht := ht.refused hp.toTimed (by cases o <;> first | exact ho | cases ho)
  minor _ _ ht hi _ := ht.minor hp.toTimed hi
  enter _ b _ hs ht :=
    (ht.toState hp.toTimed (by rintro rfl; cases hs)).enter hp.toTimed none b
  idle b _ ht := (ht.toIdle hp.toTimed).enter hp.toTimed none b

theorem kept_connects (hp : Listed p) : Connects reconnection byKept (Kept p) (Excused p) where
  weaken _ ht := ht.toKept
  minor _ _ ht hi := ht.minor hp.toTimed hi
  created _ b _ ht := by cases b <;> exact ht
  contract _ _ _ _ _ := hp.listed _ _
  called _ _ _ _ _ ht := ht
  answered _ _ _ _ b _ ht := by cases b <;> exact ht

theorem Kept.event (hp : Listed p) {s : EStates} {data : Option EventData} (ht : Kept p t)
    (ho : s.ordinary = true) (hs : s ≠ .idle) :
    wp (machine noisy) reconnection byKept (internalEvent s data) (fun _ => Kept p) t :=
  (kept_lawful hp).orderly.eventOrdinary ho ((ht.toState hp.toTimed hs).enter hp.toTimed data)

theorem Excused.fail (hp : Listed p) (ht : Excused p t) (error : Error) :
    wp (machine noisy) reconnection byKept (fail internalEvent error) (fun _ => Kept p) t := by
  rw [Interface.fail, wp_bind]
  exact wp_mono (fun _ t' ht' => (kept_lawful hp).tell rfl ht' fun _ h => h)
    ((kept_lawful hp).orderly.eventIdle ht)

/-- A connection that fails where no security object is left has been noted. -/
theorem Kept.startRegister (hp : Listed p) {data : Option EventData}
    (ht : Kept p (t.1.enter .register, t.2)) :
    wp (machine noisy) reconnection byKept (internalEvent .register data) (fun _ => Kept p) t := by
  refine (kept_lawful hp).orderly.eventRegister (kept_connects hp) (ht.enter hp.toTimed data)
    fun hs b => ?_
  have hn : entering reconnection .register data b t =
      (t.1.enter .register, t.2.note (t.1.enter .register)) := by
    have hnone : (t.1.enter .register).security.isNone = true := Option.isNone_iff_eq_none.mpr hs
    cases b <;> exact Prod.ext rfl (if_pos hnone)
  exact hn ▸ ht.note hp.toTimed

theorem Kept.startBootstrap (hp : Listed p) {data : Option EventData}
    (ht : Kept p (t.1.enter .bootstrap, t.2)) :
    wp (machine noisy) reconnection byKept (internalEvent .bootstrap data) (fun _ => Kept p) t := by
  refine (kept_lawful hp).orderly.eventBootstrap (kept_connects hp) (ht.enter hp.toTimed data)
    fun hs b => ?_
  have hn : entering reconnection .bootstrap data b t =
      (t.1.enter .bootstrap, t.2.note (t.1.enter .bootstrap)) := by
    have hnone : (t.1.enter .bootstrap).security.isNone = true := Option.isNone_iff_eq_none.mpr hs
    cases b <;> exact Prod.ext rfl (if_pos hnone)
  exact hn ▸ ht.note hp.toTimed

/-- Success ends reconnecting, whatever the timers were like before. -/
theorem Owed.registered (hp : Listed p) (ht : Owed t) :
    wp (machine noisy) reconnection byKept (internalEvent .registered none)
      (fun _ => Kept p) t := by
  refine (kept_lawful hp).orderly.eventRegistered fun b => ?_
  refine ⟨⟨rfl, ht.loop, fun h => ?_⟩, hp.resting _ _ rfl⟩
  cases b <;> exact nomatch (show false = true from h)

theorem Kept.external (hp : Listed p) {operation : Operation} {data : Option EventData}
    (ht : Kept p t) :
    wp (machine noisy) reconnection byKept (externalEvent operation data) (fun _ => Kept p) t := by
  have hb : ∀ b, Kept p (consulting reconnection operation b t) := fun b => by cases b <;> exact ht
  apply wp_externalEvent
  · exact fun _ b => (hb b).minor hp.toTimed ⟨rfl, rfl, rfl, rfl, rfl, id⟩
  · intro s hs b
    have hst : s ≠ .idle := fun h => absurd (h ▸ transition_target hs) (by decide)
    obtain rfl | rfl | rfl | rfl := transition_target hs
    · exact Kept.startBootstrap hp ((hb b).toState hp.toTimed hst)
    · exact Kept.startRegister hp ((hb b).toState hp.toTimed hst)
    · exact (hb b).event hp rfl hst
    · exact (hb b).event hp rfl hst

theorem kept_calm (hp : Listed p) : Calm noisy reconnection byKept (Kept p) where
  tell _ _ ho ht := (kept_lawful hp).orderly.tell ho ht fun _ h => h
  assign _ _ ht hi _ _ := ht.minor hp.toTimed hi
  external _ _ _ _ ht := ht.external hp

/-- A retry is under way, whatever the timers were like before. -/
theorem Owed.startRetry (hp : Listed p) (ht : Owed t) :
    wp (machine noisy) reconnection byKept startRetry (fun _ => Kept p) t := by
  rw [Interface.startRetry, wp_bind]
  refine (wp_internalEventAt 3 .idle none).mpr fun b => ?_
  have hidle : Owed (entering reconnection .idle none b t) := by
    cases b <;> exact ⟨rfl, ht.loop, ht.owed⟩
  refine (wp_tell fun _ => rfl).mpr fun b' => ⟨by cases b' <;> rfl, ?_⟩
  simp only [wp_bind, wp_modify]
  refine (wp_tell fun _ => rfl).mpr fun b'' => ?_
  refine ⟨⟨?_, ?_, fun _ => ?_⟩, hp.armed _ _ ?_⟩ <;> cases b'' <;> cases b' <;> cases b <;>
    first | rfl | exact ht.loop

/-- With the reconnection loop there is always another retry. -/
theorem Owed.socketError (hp : Listed p) (ht : Owed t) (code : UInt8) :
    wp (machine noisy) reconnection byKept (socketError code true) (fun _ => Kept p) t := by
  have hretry : ∀ t', Owed t' →
      wp (machine noisy) reconnection byKept (countRetry (connectionError code))
        (fun b t'' => b = true ∧ Owed t'') t' := by
    intro t' ht'
    rw [countRetry, wp_bind, wp_read]
    split_ifs with hcount hloop
    · exact ⟨rfl, ht'.minor ⟨rfl, rfl, rfl, rfl, rfl, id⟩⟩
    · simp only [wp_bind, wp_modify]
      have hany : Kept anyTime ({ t'.1 with retryCount := 1 }, t'.2) :=
        ⟨ht'.minor ⟨rfl, rfl, rfl, rfl, rfl, id⟩, trivial⟩
      exact (kept_lawful listed_anyTime).tell rfl hany fun t'' ht'' => ⟨rfl, ht''.toOwed⟩
    · exact (hloop ht'.loop).elim
  have hloop : (!t.1.config.reconnectionLoop && (!t.1.retryTimerExpired && t.1.reconnecting)) =
      false := by
    rw [ht.loop, Bool.not_true, Bool.false_and]
  rw [Interface.socketError]
  simp only [wp_bind, wp_modify, wp_read, hloop, Bool.false_eq_true, if_false, if_true]
  refine wp_mono (fun b t' ht' => ?_) (hretry _ (ht.minor ⟨rfl, rfl, rfl, rfl, rfl, id⟩))
  rw [if_pos ht'.1]
  exact ht'.2.startRetry hp

/-- The application hears of the end of reconnecting at once. -/
theorem Owed.informApplication (hp : Listed p) (ht : Owed t) (error : Error) :
    wp (machine noisy) reconnection byKept (informApplication error) (fun _ => Kept p) t := by
  rw [Interface.informApplication, wp_bind]
  refine (wp_tell fun _ => rfl).mpr fun b => ?_
  simp only [wp_bind, wp_modify]
  refine wp_tell_keep (I := Kept rearmed) (fun b => listed_rearmed.listed _ b) ?_ fun b' t' ht' =>
    ?_
  · refine ⟨⟨?_, ?_, fun h => ?_⟩, fun h => nomatch h⟩
    · cases b <;> exact ht.quiet
    · cases b <;> exact ht.loop
    · exact nomatch (Bool.and_false _).symm.trans h
  · have hr := ht'.answered timed_rearmed (.error error) b'
    refine (kept_lawful hp).orderly.eventIdle ⟨⟨hr.toOwed, ?_⟩, fun hs => ?_⟩
    · cases hrec : (reconnection.see (.answered (.error error) b') t').1.reconnecting with
      | false => exact hp.resting _ _ hrec
      | true => exact hp.armed _ _ (hr.timed hrec)
    · have hrec := (Bool.and_eq_true_iff.mp hs).1
      exact nomatch (not_stranded_of_armed (hr.timed hrec)).symm.trans hs

theorem Kept.socketError (hp : Listed p) (ht : Kept p t) (code : UInt8) (retry : Bool) :
    wp (machine noisy) reconnection byKept (socketError code retry) (fun _ => Kept p) t := by
  cases retry with
  | true => exact ht.toOwed.socketError hp code
  | false =>
    have hloop : (!t.1.config.reconnectionLoop &&
        (!t.1.retryTimerExpired && t.1.reconnecting)) = false := by
      rw [ht.loop, Bool.not_true, Bool.false_and]
    have hi : Minor t.1 { t.1 with reconnectionState := .withUpdate } :=
      ⟨rfl, rfl, rfl, rfl, rfl, id⟩
    rw [Interface.socketError]
    simp only [wp_bind, wp_modify, wp_read, wp_pure, hloop, Bool.false_eq_true, if_false]
    exact wp_whenM.mpr ⟨fun _ => (ht.toOwed.minor hi).informApplication hp _,
      fun _ => ht.minor hp.toTimed hi⟩

theorem Owed.registrationError (hp : Listed p) (ht : Owed t) (code : UInt8) :
    wp (machine noisy) reconnection byKept (registrationError code true) (fun _ => Kept p) t := by
  rw [Interface.registrationError, if_pos rfl, wp_bind]
  exact wp_mono (fun _ t' ht' => ht'.minor hp.toTimed ⟨rfl, rfl, rfl, rfl, rfl, id⟩)
    (ht.socketError hp _)

theorem Owed.bootstrapError (hp : Listed p) (ht : Owed t) :
    wp (machine noisy) reconnection byKept bootstrapError (fun _ => Kept p) t := by
  rw [Interface.bootstrapError]
  simp only [wp_bind, wp_modify]
  exact Owed.socketError (t := (({ t.1 with bootstrapped := false }).stopFlowTimer, t.2)) hp
    ⟨ht.quiet, ht.loop, ht.owed⟩ _

theorem Kept.coapMessageReady (hp : Listed p) (ht : Kept p t) (data : Bytes) :
    wp (machine noisy) reconnection byKept (coapMessageReady data) (fun _ => Kept p) t := by
  rw [Interface.coapMessageReady, wp_bind, wp_read, wp_whenM]
  refine ⟨fun _ => ?_, fun _ => ht⟩
  rw [wp_bind]
  refine wp_mono (fun _ t' ht' => ?_) (ht.event hp (s := .sendingCoapData) rfl (by decide))
  rw [wp_bind]
  refine wp_ask_keep (I := Kept p) (fun _ => hp.listed _ _) ht' fun b t'' ht'' => ?_
  cases b with
  | true => exact ht''
  | false => exact (kept_lawful hp).orderly.sendRefused (ht''.refused hp.toTimed rfl)

/-- The end of a bootstrap ends reconnecting, whatever the timers were like before. -/
theorem Owed.bootstrapDone (hp : Listed p) (ht : Owed t) (security : Option M2MSecurity) :
    wp (machine noisy) reconnection byKept (bootstrapDone security) (fun _ => Kept p) t := by
  rw [Interface.bootstrapDone]
  simp only [wp_bind, wp_modify]
  refine wp_mono (fun _ t' ht' => (kept_lawful hp).tell rfl ht' fun _ h => h)
    ((kept_lawful hp).orderly.eventOrdinary rfl fun b => ?_)
  refine ⟨⟨rfl, ht.loop, fun h => ?_⟩, hp.resting _ _ rfl⟩
  cases b <;> exact nomatch (show false = true from h)

theorem Kept.dataSent (hp : Listed p) (ht : Kept p t) :
    wp (machine noisy) reconnection byKept dataSent (fun _ => Kept p) t := by
  refine wp_dataSent (fun _ timer => ?_) fun _ timer => ?_
  · have hi := ht.minor hp.toTimed (i := { t.1 with queueSleepTimer := timer, security := none })
      ⟨rfl, rfl, rfl, rfl, rfl, id⟩
    exact hi.toOwed.bootstrapDone hp _
  · have hi :=
      ht.minor hp.toTimed (i := { t.1 with queueSleepTimer := timer }) ⟨rfl, rfl, rfl, rfl, rfl, id⟩
    exact hi.event hp rfl nofun

theorem Kept.dataAvailable (hp : Listed p) (ht : Kept p t) (data : Bytes)
    (address : SocketAddress) :
    wp (machine noisy) reconnection byKept (dataAvailable data address) (fun _ => Kept p) t := by
  have h := kept_lawful hp
  have he := ht.toState hp.toTimed (s := .coapDataReceived) nofun
  refine h.orderly.eventReceived (he.enter hp.toTimed _)
    (fun _ h => h) (fun _ h => h.quiet) fun bytes type port address t' ht' => ?_
  rw [wp_bind]
  refine wp_ask_keep (I := Kept p) (fun _ => hp.listed _ _) ht' fun b t'' ht'' => ?_
  have hb := ht''.answered hp.toTimed (.processReceivedData bytes type port address) b
  exact wp_whenM.mpr ⟨fun _ => h.tell rfl hb fun _ hI => hI, fun _ => hb⟩

/-- A call that leaves does not hide that the client is reconnecting. -/
theorem Kept.left (hp : Timed p) (ht : Kept p t) (e : Entry) :
    Kept p (reconnection.see (.left e) t) :=
  ⟨⟨ht.quiet, ht.loop, fun h => (Bool.or_eq_true_iff.mp h).elim ht.owed id⟩,
    hp.noted _ t.2 _ id ht.timed⟩

theorem kept_keeps (hp : Listed p) {e : Entry} (he : ∀ type, e ≠ .timerExpired type) :
    Keeps (machine noisy) reconnection byKept (Kept p) e := by
  intro t ht
  refine wp_mono (Q := fun _ => Kept p) (fun _ t' ht' => ht'.left hp.toTimed e) ?_
  have h := kept_lawful hp
  have hcalm : Calm noisy reconnection byKept (Kept p) := kept_calm hp
  cases e with
  | bootstrap security => exact hcalm.bootstrap security ht
  | registerObject security objectList => exact hcalm.registerObject security objectList ht
  | updateRegistration security objectList lifetime =>
    exact hcalm.updateRegistration security objectList lifetime ht
  | unregisterObject => exact hcalm.unregisterObject ht
  | setQueueSleepHandler handler => exact ht.minor hp.toTimed ⟨rfl, rfl, rfl, rfl, rfl, id⟩
  | coapMessageReady data => exact ht.coapMessageReady hp data
  | clientRegistered =>
    change wp (machine noisy) reconnection byKept clientRegistered _ t
    rw [clientRegistered]
    simp only [wp_bind, wp_modify, wp_read]
    have hstop : Owed (({ t.1 with retryCount := 0 }).stopFlowTimer, t.2) :=
      ⟨ht.quiet, ht.loop, ht.owed⟩
    exact wp_mono (fun _ t' ht' => h.tell rfl ht' fun _ hI => hI) (hstop.registered hp)
  | registrationUpdated =>
    change wp (machine noisy) reconnection byKept registrationUpdated _ t
    rw [registrationUpdated]
    simp only [wp_bind, wp_read]
    exact wp_mono (fun _ t' ht' => h.tell rfl ht' fun _ hI => hI) (ht.toOwed.registered hp)
  | registrationError code retry =>
    cases retry with
    | true => exact ht.toOwed.registrationError hp code
    | false => exact (ht.note hp.toTimed).fail hp _
  | clientUnregistered =>
    change wp (machine noisy) reconnection byKept clientUnregistered _ (t.1, t.2.note t.1)
    rw [clientUnregistered]
    simp only [wp_bind, wp_read]
    refine wp_mono (fun _ t' ht' => h.tell rfl ht' fun _ hI => hI)
      (h.orderly.eventUnregistered fun b => ?_)
    have hn := ht.note hp.toTimed
    exact Excused.enter hp.toTimed (s := .unregistered)
      ⟨hn.toKept.toState hp.toTimed (by decide), hn.excused⟩ (by decide) none b
  | bootstrapDone security => exact ht.toOwed.bootstrapDone hp security
  | bootstrapWait security =>
    exact Kept.event hp (t := ({ t.1 with security := security }, t.2))
      (ht.minor hp.toTimed ⟨rfl, rfl, rfl, rfl, rfl, id⟩) rfl (by decide)
  | bootstrapError => exact ht.toOwed.bootstrapError hp
  | coapDataProcessed => exact ht.event hp rfl (by decide)
  | valueUpdated base => exact hcalm.valueUpdated base ht
  | dataAvailable data address => exact ht.dataAvailable hp data address
  | socketError code retry => exact ht.socketError hp code retry
  | addressReady address type port => cases type <;> exact ht.event hp rfl (by decide)
  | dataSent => exact ht.dataSent hp
  | timerExpired type => exact (he type rfl).elim

/-- The retry timer takes the client out of the idle state, and the other two start a retry. -/
theorem live_timerExpired (ht : Kept live t) (type : M2MTimerObserver) :
    wp (machine noisy) reconnection byKept (timerExpired type) (fun _ => Kept live) t := by
  have hlaw := kept_lawful listed_live
  have howed : Owed (t.1.ranOut type, t.2) := by
    cases type <;> exact ⟨ht.quiet, ht.loop, ht.owed⟩
  unfold timerExpired
  rw [wp_bind, wp_modify]
  cases type with
  | queueSleep =>
    have hi : Kept live (t.1.ranOut .queueSleep, t.2) :=
      ht.minor timed_live ⟨rfl, rfl, rfl, rfl, rfl, id⟩
    rw [wp_bind, wp_read, wp_whenM]
    exact ⟨fun _ => hlaw.tell rfl hi fun _ h => h, fun _ => hi⟩
  | retryTimer =>
    simp only [wp_bind, wp_modify, wp_read]
    split_ifs
    · exact Kept.startRegister listed_live ⟨⟨rfl, ht.loop, ht.owed⟩, fun hc => by cases hc⟩
    · exact Kept.startBootstrap listed_live ⟨⟨rfl, ht.loop, ht.owed⟩, fun hc => by cases hc⟩
  | bootstrapFlowTimer => exact howed.bootstrapError listed_live
  | registrationFlowTimer => exact howed.registrationError listed_live _
  | _ => exact ht

theorem live_keeps (e : Entry) : Keeps (machine noisy) reconnection byKept (Kept live) e := by
  by_cases he : ∀ type, e ≠ .timerExpired type
  · exact kept_keeps listed_live he
  · push Not at he
    obtain ⟨type, rfl⟩ := he
    exact fun t ht => wp_mono (fun _ t' ht' => ht'.left timed_live _) (live_timerExpired ht type)

theorem kept_honours : Honours (machine noisy) reconnection byKept := by
  intro o b I hI e hadm
  have he : ∀ type, e ≠ .timerExpired type := by
    rintro type rfl
    cases o <;> cases hadm
  obtain rfl | rfl | rfl := hI
  · exact kept_keeps listed_live he
  · exact kept_keeps listed_rearmed he
  · exact kept_keeps listed_anyTime he

end Kept

/-- In every run with the reconnection loop, as long as none of the failures that lead to the idle
state has met a stranded client: a client in the idle state has a timer that goes on with
reconnecting, or it is not reconnecting, and the application knows how reconnecting has ended. -/
theorem reconnection_live (noisy : Bool) (config : Config)
    (hconfig : config.reconnectionLoop = true)
    (endpointName domain : Bytes) (bindingMode : BindingMode) (listenPort : UInt16)
    (l : List (Script Entry)) :
    let t := run (machine noisy) reconnection l
      (M2MInterfaceImpl.create config endpointName domain bindingMode listenPort, {})
    t.2.unfit = false → t.1.currentState = .idle →
      t.1.retryTimer.armed = true ∨ t.1.flowArmed = true ∨
        (t.1.reconnecting = false ∧ t.2.owing = false) := by
  intro t hu hidle
  have ht : Kept live t := kept_honours.run live_keeps l
    ⟨⟨rfl, hconfig, nofun⟩, fun _ h => nomatch h⟩
  by_cases harmed : t.1.retryTimer.armed = true ∨ t.1.flowArmed = true
  · exact harmed.imp_right Or.inl
  rw [not_or, Bool.not_eq_true, Bool.not_eq_true] at harmed
  have hrest : t.1.reconnecting = false := by
    cases hr : t.1.reconnecting with
    | false => rfl
    | true =>
      have hs : t.1.stranded = true := by
        rw [M2MInterfaceImpl.stranded, hr, harmed.1, harmed.2]
        rfl
      exact nomatch hu.symm.trans (ht.timed hidle hs)
  refine Or.inr (Or.inr ⟨hrest, ?_⟩)
  exact Bool.eq_false_iff.mpr fun ho => nomatch hrest.symm.trans (ht.owed ho)

/-- A connection that is lost: the client is idle, and the retry timer runs. -/
theorem reconnection_live_lost :
    let server : M2MSecurity := ⟨1, .lwm2mServer, coapScheme ++ [0x61, 0x3A, 0x31], noSecurity⟩
    let yes : Reply Entry := .mk true []
    let t := run (machine false) reconnection
      [.mk (.registerObject (some server) []) [yes, yes, yes, yes], .mk (.socketError 4 true) []]
      (M2MInterfaceImpl.create {} [] [] .udp 0, {})
    t.1.retryTimer.armed = true ∨ t.1.flowArmed = true ∨
      (t.1.reconnecting = false ∧ t.2.owing = false) :=
  reconnection_live false {} rfl [] [] .udp 0
    [.mk (.registerObject (some ⟨1, .lwm2mServer, coapScheme ++ [0x61, 0x3A, 0x31], noSecurity⟩) [])
        [.mk true [], .mk true [], .mk true [], .mk true []],
      .mk (.socketError 4 true) []]
    (by decide +kernel) (by decide +kernel)

/-- The update that is to restore the registration cannot be sent: the client is idle, no timer
runs, and updates of the registration are ignored. -/
theorem stranded_for_ever :
    let server : M2MSecurity := ⟨1, .lwm2mServer, coapScheme ++ [0x61, 0x3A, 0x31], noSecurity⟩
    let address : SocketAddress := ⟨.lwipIPv4, [0x7F, 0, 0, 1], 1⟩
    let yes : Reply Entry := .mk true []
    let no : Reply Entry := .mk false []
    let lost : Reply Entry := .mk true [.mk (.coapMessageReady []) [yes, yes, no]]
    let t := run (machine false) reconnection
      [.mk (.registerObject (some server) []) [yes, yes, yes, yes], .mk (.socketError 4 true) [],
        .mk (.timerExpired .retryTimer) [],
        .mk (.addressReady address .lwm2mServer 1) [yes, yes, yes, yes, lost]]
      (M2MInterfaceImpl.create {} [] [] .udp 0, {})
    t.1.currentState = .idle ∧ t.1.reconnecting = true ∧ t.1.retryTimer.armed = false ∧
      t.1.flowArmed = false ∧
      (runScript (machine false) reconnection (.mk (.updateRegistration none [] 0) []) t).1 =
        t.1 := by
  decide +kernel

end MbedClient.Interface
