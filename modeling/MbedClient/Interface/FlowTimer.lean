import MbedClient.Interface.Attempt
import MbedClient.Interface.Reconnection

/-! The timer that watches a registration or a bootstrap over TCP, and how what it watches ends. -/
namespace MbedClient.Interface
open Callback Callback.Prog

/-- Whether the timer runs; whether an error has been reported since it was started, and whether an
outcome has been delivered since; for each call under way whether it gives up reconnecting; whether
the timer has expired after an outcome; and whether an attempt has ended in a way that leaves the
timer running. -/
structure FlowTimer where
  started : Bool := false
  told : Bool := false
  settled : Bool := false
  calls : List Bool := []
  late : Bool := false
  unfit : Bool := false
deriving DecidableEq

/-- `socket_error` is not ignored, and there is not going to be another retry. -/
def M2MInterfaceImpl.givesUp (i : M2MInterfaceImpl) (code : UInt8) (retry : Bool) : Bool :=
  !(!i.config.reconnectionLoop && (!i.retryTimerExpired && i.reconnecting)) &&
    connectionError code != .errorNone &&
    (!retry ||
      !(decide (i.retryCount.toNat < i.config.reconnectionCount) || i.config.reconnectionLoop))

def Entry.givesUp (i : M2MInterfaceImpl) : Entry → Bool
  | .socketError code retry => i.givesUp code retry
  | .registrationError _ true => i.givesUp socketSendError true
  | .timerExpired .registrationFlowTimer => i.givesUp socketSendError true
  | .bootstrapError => i.givesUp bootstrapFailedCode true
  | .timerExpired .bootstrapFlowTimer => i.givesUp bootstrapFailedCode true
  | _ => false

/-- Callbacks that end an attempt and do not stop the timer. -/
def Entry.strays (i : M2MInterfaceImpl) : Entry → Bool
  | .registrationUpdated => true
  | .registrationError _ false => !i.reconnecting
  | .clientUnregistered => !i.reconnecting
  | .registrationError _ true => i.givesUp socketSendError true
  | .socketError code retry => i.givesUp code retry
  | _ => false

/-- The timer expires, whichever of the two it has been started as. -/
def Entry.expires : Entry → Bool
  | .timerExpired .bootstrapFlowTimer => true
  | .timerExpired .registrationFlowTimer => true
  | _ => false

namespace FlowTimer

/-- A timer that was stopped does not run. -/
def sync (y : FlowTimer) (i : M2MInterfaceImpl) : FlowTimer :=
  { y with started := y.started && i.flowArmed }

/-- An attempt is about to end while the timer runs. -/
def note (y : FlowTimer) (i : M2MInterfaceImpl) : FlowTimer :=
  { y with unfit := y.unfit || (y.started && !i.reconnecting) }

/-- The timer is started right before the server is asked for. -/
def hear : Signal Output Entry → M2MInterfaceImpl → FlowTimer → FlowTimer
  | .entered e, i, y =>
    { y with
      calls := e.givesUp i :: y.calls
      late := y.late || (e.expires && (y.started && y.settled))
      unfit := y.unfit || (y.started && e.strays i) }
  | .called (.resolveServerAddress _ _ _ _), i, y =>
    { y with started := i.flowArmed, told := false, settled := false }
  | .called (.objectRegistered _), _, y => { y with settled := true }
  | .called (.registrationUpdated _), _, y => { y with settled := true }
  | .called (.bootstrapDone _), _, y => { y with settled := true }
  | .called (.stateFunction .register _), i, y => if i.security.isNone then y.note i else y
  | .called (.stateFunction .bootstrap _), i, y => if i.security.isNone then y.note i else y
  | .called (.stateFunction .idle _), i, y => if y.calls.head? = some true then y.note i else y
  | .called (.error _), _, y => { y with told := true }
  | .answered o false, i, y => if o.refusable then y.note i else y
  | .left _, i, y =>
    { y with
      calls := y.calls.tail
      settled := y.settled || (y.told && (decide (i.currentState = .idle) && !i.reconnecting)) }
  | _, _, y => y

end FlowTimer

def flowTimer : Monitor M2MInterfaceImpl Output Entry FlowTimer :=
  fun x i y => FlowTimer.hear x i (y.sync i)

/-- A note is an excuse for what comes next. -/
theorem FlowTimer.unfit_of_note {y : FlowTimer} {i : M2MInterfaceImpl} (hr : i.reconnecting = false)
    (hs : (y.note i).started = true) : (y.note i).unfit = true := by
  refine Bool.or_eq_true_iff.mpr (Or.inr ?_)
  rw [hr, Bool.not_false, Bool.and_true]
  exact hs

/-- What a monitor may do to its own state, other than at the beginning and the end of something. -/
structure FlowTimer.Onward (y y' : FlowTimer) : Prop where
  started : y'.started = true → y.started = true
  settled : y'.settled = true → y.settled = true
  calls : y'.calls = y.calls
  late : y'.late = true → y.late = true
  unfit : y.unfit = true → y'.unfit = true

namespace FlowTimer.Onward
variable {y y' y'' : FlowTimer}

theorem trans (h : Onward y y') (h' : Onward y' y'') : Onward y y'' where
  started := h.started ∘ h'.started
  settled := h.settled ∘ h'.settled
  calls := h'.calls.trans h.calls
  late := h.late ∘ h'.late
  unfit := h'.unfit ∘ h.unfit

theorem sync (y : FlowTimer) (i : M2MInterfaceImpl) : Onward y (y.sync i) :=
  ⟨fun h => (Bool.and_eq_true_iff.mp h).1, id, rfl, id, id⟩

theorem note (y : FlowTimer) (i : M2MInterfaceImpl) : Onward y (y.note i) :=
  ⟨id, id, rfl, id, fun h => Bool.or_eq_true_iff.mpr (Or.inl h)⟩

theorem noteIf (c : Prop) [Decidable c] (y : FlowTimer) (i : M2MInterfaceImpl) :
    Onward y (if c then y.note i else y) := by
  split_ifs
  · exact note y i
  · exact ⟨id, id, rfl, id, id⟩

end FlowTimer.Onward

def Output.marking : Output → Bool
  | .resolveServerAddress _ _ _ _ => true
  | .objectRegistered _ => true
  | .registrationUpdated _ => true
  | .bootstrapDone _ => true
  | _ => false

theorem onward_called {o : Output} (ho : o.marking = false) (i : M2MInterfaceImpl)
    (y : FlowTimer) : (y.sync i).Onward (flowTimer (.called o) i y) := by
  cases o with
  | stateFunction s data =>
    cases s <;> first
      | exact FlowTimer.Onward.noteIf _ _ i
      | exact ⟨id, id, rfl, id, id⟩
  | _ => first
    | exact Bool.noConfusion ho
    | exact ⟨id, id, rfl, id, id⟩

theorem onward_answered (o : Output) (b : Bool) (i : M2MInterfaceImpl) (y : FlowTimer) :
    y.Onward (flowTimer (.answered o b) i y) := by
  refine (FlowTimer.Onward.sync y i).trans ?_
  cases b with
  | true => exact ⟨id, id, rfl, id, id⟩
  | false => exact FlowTimer.Onward.noteIf _ _ i

/-- The monitor has kept up with the interface, and an outcome that has been delivered has stopped
the timer, if nothing else is to blame. `c` are the calls under way. -/
structure Tracked (c : List Bool) (t : M2MInterfaceImpl × FlowTimer) : Prop where
  quiet : t.1.eventGenerated = false
  calls : t.2.calls = c
  late : t.2.late = true → t.2.unfit = true
  settled : t.2.settled = true → t.2.started = true → t.2.unfit = true

/-- The same between any two calls: the timer does not run in the idle state, unless to go on with
reconnecting. -/
structure Punctual (c : List Bool) (t : M2MInterfaceImpl × FlowTimer) :
    Prop extends Tracked c t where
  resting : t.1.currentState = .idle → t.1.reconnecting = false → t.2.started = true →
    t.2.unfit = true

/-- On the way to the idle state. -/
structure Spent (c : List Bool) (t : M2MInterfaceImpl × FlowTimer) : Prop extends Punctual c t where
  spent : t.1.reconnecting = false → t.2.started = true → t.2.unfit = true

section Punctual
variable {noisy : Bool} {t : M2MInterfaceImpl × FlowTimer} {c : List Bool} {g : Bool}

abbrev byPunctual : Contract M2MInterfaceImpl Output FlowTimer := fun _ _ I => ∃ c, I = Punctual c

theorem Tracked.onward (ht : Tracked c t) {y : FlowTimer} (h : t.2.Onward y) :
    Tracked c (t.1, y) where
  quiet := ht.quiet
  calls := h.calls.trans ht.calls
  late hl := h.unfit (ht.late (h.late hl))
  settled hs hst := h.unfit (ht.settled (h.settled hs) (h.started hst))

theorem Punctual.onward (ht : Punctual c t) {y : FlowTimer} (h : t.2.Onward y) :
    Punctual c (t.1, y) :=
  ⟨ht.toTracked.onward h, fun hi hr hst => h.unfit (ht.resting hi hr (h.started hst))⟩

theorem Spent.onward (ht : Spent c t) {y : FlowTimer} (h : t.2.Onward y) : Spent c (t.1, y) :=
  ⟨ht.toPunctual.onward h, fun hr hst => h.unfit (ht.spent hr (h.started hst))⟩

theorem Tracked.assign (ht : Tracked c t) {i : M2MInterfaceImpl}
    (hi : i.eventGenerated = t.1.eventGenerated) : Tracked c (i, t.2) :=
  ⟨hi.trans ht.quiet, ht.calls, ht.late, ht.settled⟩

theorem Punctual.assign (ht : Punctual c t) {i : M2MInterfaceImpl}
    (hg : i.eventGenerated = t.1.eventGenerated) (hs : i.currentState = t.1.currentState)
    (hr : i.reconnecting = t.1.reconnecting) : Punctual c (i, t.2) :=
  ⟨ht.toTracked.assign hg, fun hidle hrest => ht.resting (hs ▸ hidle) (hr ▸ hrest)⟩

theorem Punctual.minor (ht : Punctual c t) {i : M2MInterfaceImpl} (hi : Minor t.1 i) :
    Punctual c (i, t.2) := ht.assign hi.eventGenerated hi.currentState hi.reconnecting

theorem Spent.minor (ht : Spent c t) {i : M2MInterfaceImpl} (hi : Minor t.1 i) :
    Spent c (i, t.2) := ⟨ht.toPunctual.minor hi, fun hr => ht.spent (hi.reconnecting ▸ hr)⟩

theorem Punctual.of_active (ht : Tracked c t) (hs : t.1.currentState ≠ .idle) : Punctual c t :=
  ⟨ht, fun hidle => (hs hidle).elim⟩

theorem Punctual.refused (ht : Punctual c t) {o : Output} (ho : o.refusable = true) :
    Spent c (flowTimer.see (.answered o false) t) := by
  refine ⟨ht.onward (onward_answered o false t.1 t.2), fun hr hst => ?_⟩
  have hy : flowTimer (.answered o false) t.1 t.2 = (t.2.sync t.1).note t.1 := if_pos ho
  change (flowTimer (.answered o false) t.1 t.2).started = true at hst
  rw [hy] at hst
  exact (congrArg FlowTimer.unfit hy).trans (FlowTimer.unfit_of_note hr hst)

theorem Punctual.called (ht : Punctual c t) {o : Output} (ho : o.marking = false) :
    Punctual c (flowTimer.see (.called o) t) :=
  ht.onward ((FlowTimer.Onward.sync t.2 t.1).trans (onward_called ho t.1 t.2))

theorem Punctual.answered (ht : Punctual c t) (o : Output) (b : Bool) :
    Punctual c (flowTimer.see (.answered o b) t) := ht.onward (onward_answered o b t.1 t.2)

/-- A call during which nobody calls back. -/
theorem Tracked.told (ht : Tracked c t) {o : Output} (ho : o.marking = false) (b : Bool) :
    Tracked c (flowTimer.see (.answered o b) (flowTimer.see (.called o) t)) :=
  (ht.onward ((FlowTimer.Onward.sync t.2 t.1).trans (onward_called ho t.1 t.2))).onward
    (onward_answered o b _ _)

theorem Tracked.enter (ht : Tracked c t) {s : EStates} {data : Option EventData} (b : Bool) :
    Tracked c (entering flowTimer s data b t) := by
  have he : Tracked c (t.1.enter s, t.2) := ht.assign ht.quiet.symm
  exact he.told rfl b

theorem Tracked.toState (ht : Tracked c t) {s : EStates} {data : Option EventData} (hs : s ≠ .idle)
    (b : Bool) : Punctual c (entering flowTimer s data b t) := Punctual.of_active (ht.enter b) hs

theorem Spent.enter (ht : Spent c t) {s : EStates} {data : Option EventData} (b : Bool) :
    Spent c (entering flowTimer s data b t) := by
  have he : Spent c (t.1.enter s, t.2) :=
    ⟨⟨ht.toTracked.assign ht.quiet.symm, fun _ => ht.spent⟩, ht.spent⟩
  have hcalled := (FlowTimer.Onward.sync t.2 (t.1.enter s)).trans
    (onward_called (o := .stateFunction s data) rfl (t.1.enter s) t.2)
  exact (he.onward hcalled).onward (onward_answered _ b _ _)

/-- Whoever gives up has a note of it when the idle state is entered. -/
theorem Punctual.toIdle (ht : Punctual (true :: c) t) (b : Bool) :
    Punctual (true :: c) (entering flowTimer .idle none b t) := by
  refine ⟨ht.toTracked.enter b, fun _ hr hst => ?_⟩
  have hanswered := onward_answered (.stateFunction .idle none) b (t.1.enter .idle)
    (flowTimer (.called (.stateFunction .idle none)) (t.1.enter .idle) t.2)
  have hy : flowTimer (.called (.stateFunction .idle none)) (t.1.enter .idle) t.2 =
      (t.2.sync (t.1.enter .idle)).note (t.1.enter .idle) :=
    if_pos (congrArg List.head? ht.calls)
  have hstarted := hanswered.started hst
  rw [hy] at hstarted
  exact hanswered.unfit ((congrArg FlowTimer.unfit hy).trans (FlowTimer.unfit_of_note hr hstarted))

theorem punctual_orderly (c : List Bool) :
    Orderly flowTimer byPunctual (Punctual c) (Spent c) where
  quiet _ ht := ht.quiet
  contract _ _ _ := ⟨c, rfl⟩
  called o _ ho ht := ht.called (by cases o <;> first | rfl | cases ho)
  answered o b _ _ ht := ht.answered o b
  refused o _ ho ht := ht.refused (by cases o <;> first | exact ho | cases ho)
  minor _ _ ht hi _ _ := ht.minor hi
  enter s b _ hs ht := ht.toTracked.toState (by rintro rfl; cases hs) b
  idle b _ ht := (ht.enter b).toPunctual

/-- The call of the connection handler finds the timer started anew. -/
theorem Punctual.resolve (ht : Punctual c t) (hs : t.1.currentState ≠ .idle) (address : Bytes)
    (port : UInt16) (type : ServerType) (security : Option M2MSecurity) :
    wp (machine noisy) flowTimer byPunctual
      (.tell (.resolveServerAddress address port type security)) (fun _ => Punctual c) t := by
  refine wp_tell_keep (I := Punctual c) (fun _ => ⟨c, rfl⟩) ?_ fun b t' ht' => ht'.answered _ b
  exact ⟨⟨ht.quiet, ht.calls, ht.late, nofun⟩, fun hidle => (hs hidle).elim⟩

/-- On the way to the connection handler, where a failure has its note if there was no security
object in the cache. -/
structure Attempting (c : List Bool) (first : Prop) (t : M2MInterfaceImpl × FlowTimer) : Prop
    extends Punctual c t where
  active : t.1.currentState ≠ .idle
  spent : first → Spent c t

theorem Attempting.onward {first : Prop} (ht : Attempting c first t) {y : FlowTimer}
    (h : t.2.Onward y) : Attempting c first (t.1, y) :=
  ⟨ht.toPunctual.onward h, ht.active, fun hf => (ht.spent hf).onward h⟩

theorem Attempting.minor {first : Prop} (ht : Attempting c first t) {i : M2MInterfaceImpl}
    (hi : Minor t.1 i) : Attempting c first (i, t.2) :=
  ⟨ht.toPunctual.minor hi, fun h => ht.active (hi.currentState ▸ h),
    fun hf => (ht.spent hf).minor hi⟩

theorem attempting_approach (first : Prop) (data : Option EventData) :
    Approach noisy flowTimer byPunctual (Punctual c) (Attempting c first) data where
  minor _ _ ht hi _ := ht.minor hi
  cached _ _ _ _ ht _ hi _ := ht.minor hi
  preliminary o b t ho ht := (ht.onward ((FlowTimer.Onward.sync t.2 t.1).trans
    (onward_called (by cases o <;> first | rfl | cases ho) t.1 t.2))).onward
      (onward_answered o b t.1 _)
  resolve _ _ _ _ ht := ht.toPunctual.resolve ht.active _ _ _ _

/-- A connection that fails where no security object is left has been noted. -/
theorem Tracked.attempting (ht : Tracked c t) {s : EStates} (hs : s = .register ∨ s = .bootstrap)
    (data : Option EventData) (b : Bool) :
    Attempting c (t.1.security = none) (entering flowTimer s data b t) := by
  have hk : Punctual c (entering flowTimer s data b t) := by
    obtain rfl | rfl := hs
    · exact ht.toState (s := .register) nofun b
    · exact ht.toState (s := .bootstrap) nofun b
  have hactive : s ≠ .idle := by obtain rfl | rfl := hs <;> decide
  refine ⟨hk, hactive, fun hnone => ⟨hk, fun hr hst => ?_⟩⟩
  have hanswered := onward_answered (.stateFunction s data) b (t.1.enter s)
    (flowTimer (.called (.stateFunction s data)) (t.1.enter s) t.2)
  have hy : flowTimer (.called (.stateFunction s data)) (t.1.enter s) t.2 =
      (t.2.sync (t.1.enter s)).note (t.1.enter s) := by
    have hi : (t.1.enter s).security.isNone = true := Option.isNone_iff_eq_none.mpr hnone
    obtain rfl | rfl := hs <;> exact if_pos hi
  have hstarted := hanswered.started hst
  rw [hy] at hstarted
  exact hanswered.unfit ((congrArg FlowTimer.unfit hy).trans (FlowTimer.unfit_of_note hr hstarted))

theorem Tracked.startRegister (ht : Tracked c t) {data : Option EventData} :
    wp (machine noisy) flowTimer byPunctual (internalEvent .register data)
      (fun _ => Punctual c) t :=
  Approach.eventRegister (punctual_orderly c)
    (fun b => ⟨attempting_approach _ data, ht.attempting (Or.inl rfl) data b⟩)
    fun hnone _ ht' => ht'.spent hnone

theorem Tracked.startBootstrap (ht : Tracked c t) {data : Option EventData} :
    wp (machine noisy) flowTimer byPunctual (internalEvent .bootstrap data)
      (fun _ => Punctual c) t :=
  Approach.eventBootstrap (punctual_orderly c)
    (fun b => ⟨attempting_approach _ data, ht.attempting (Or.inr rfl) data b⟩)
    fun hnone _ ht' => ht'.spent hnone

theorem Punctual.event (ht : Punctual c t) {s : EStates} {data : Option EventData}
    (ho : s.ordinary = true) (hs : s ≠ .idle) :
    wp (machine noisy) flowTimer byPunctual (internalEvent s data) (fun _ => Punctual c) t :=
  (punctual_orderly c).eventOrdinary ho (ht.toTracked.toState hs)

theorem Spent.fail (ht : Spent c t) (error : Error) :
    wp (machine noisy) flowTimer byPunctual (fail internalEvent error) (fun _ => Punctual c) t := by
  rw [Interface.fail, wp_bind]
  exact wp_mono (fun _ t' ht' => (punctual_orderly c).tell rfl ht' fun _ h => h)
    ((punctual_orderly c).eventIdle ht)

theorem Punctual.external (ht : Punctual c t) {operation : Operation} {data : Option EventData} :
    wp (machine noisy) flowTimer byPunctual (externalEvent operation data)
      (fun _ => Punctual c) t := by
  have hb : ∀ b, Punctual c (consulting flowTimer operation b t) :=
    (ht.called (o := .transition operation) rfl).answered _
  apply wp_externalEvent
  · exact fun _ b => (hb b).minor ⟨rfl, rfl, rfl, rfl, rfl, id⟩
  · intro s hs b
    obtain rfl | rfl | rfl | rfl := transition_target hs
    · exact (hb b).toTracked.startBootstrap
    · exact (hb b).toTracked.startRegister
    · exact (hb b).event rfl nofun
    · exact (hb b).event rfl nofun

theorem punctual_calm (c : List Bool) : Calm noisy flowTimer byPunctual (Punctual c) where
  tell _ _ ho ht := (punctual_orderly c).tell ho ht fun _ h => h
  assign _ _ ht hi _ _ := ht.minor hi
  external _ _ _ _ ht := ht.external

theorem flowArmed_stopFlowTimer (i : M2MInterfaceImpl) : i.stopFlowTimer.flowArmed = false := by
  cases hf : i.registrationFlowTimer <;>
    simp [M2MInterfaceImpl.flowArmed, M2MInterfaceImpl.stopFlowTimer, hf]

/-- A timer that runs has an excuse for it. -/
def Vouched (t : M2MInterfaceImpl × FlowTimer) : Prop :=
  (t.2.sync t.1).started = true → t.2.unfit = true

theorem vouched_of_stopped (h : t.1.flowArmed = false) : Vouched t := by
  intro hs
  change (t.2.started && t.1.flowArmed) = true at hs
  rw [h, Bool.and_false] at hs
  cases hs

/-- The monitor hears of a timer that was stopped with the next call. -/
theorem Vouched.told (hx : Vouched t) {o : Output} (ho : o.marking = false) (b : Bool)
    (hst : (flowTimer.see (.answered o b) (flowTimer.see (.called o) t)).2.started = true) :
    (flowTimer.see (.answered o b) (flowTimer.see (.called o) t)).2.unfit = true := by
  have hcalled := onward_called ho t.1 t.2
  have hanswered := onward_answered o b t.1 (flowTimer (.called o) t.1 t.2)
  exact hanswered.unfit (hcalled.unfit (hx (hcalled.started (hanswered.started hst))))

/-- Success ends reconnecting, and must find the timer stopped. -/
theorem Tracked.succeed (ht : Tracked c t) {s : EStates} (hs : s ≠ .idle) (hx : Vouched t)
    (b : Bool) : Spent c (entering flowTimer s none b t) := by
  have hacc : Vouched (t.1.enter s, t.2) := hx
  exact ⟨ht.toState hs b, fun _ => hacc.told rfl b⟩

/-- The observer hears of a success. -/
theorem Spent.deliver (ht : Spent c t) (hr : t.1.reconnecting = false) {o : Output}
    (ho : o = .objectRegistered t.1.registerServer ∨ o = .registrationUpdated t.1.registerServer ∨
      ∃ security, o = .bootstrapDone security) :
    wp (machine noisy) flowTimer byPunctual (.tell o) (fun _ => Punctual c) t := by
  refine wp_tell_keep (I := Punctual c) (fun _ => ⟨c, rfl⟩) ?_ fun b t' ht' => ht'.answered o b
  have hs := ht.onward (FlowTimer.Onward.sync t.2 t.1)
  have hset : Punctual c (t.1, { t.2.sync t.1 with settled := true }) :=
    ⟨⟨hs.quiet, hs.calls, hs.late, fun _ => hs.spent hr⟩, hs.resting⟩
  obtain rfl | rfl | ⟨security, rfl⟩ := ho <;> exact hset

theorem Tracked.registered (ht : Tracked c t) (hx : Vouched t) :
    wp (machine noisy) flowTimer byPunctual (internalEvent .registered none)
      (fun _ t' => Spent c t' ∧ t'.1.reconnecting = false) t := by
  refine (wp_internalEventAt 3 .registered none).mpr fun b => ?_
  have hb := ht.succeed (s := .registered) nofun hx b
  have hacc : Vouched (t.1.enter .registered, t.2) := hx
  have hactive : (t.1.enter .registered).currentState ≠ .idle :=
    fun h => nomatch (show EStates.registered = .idle from h)
  have hk : Spent c ({ (entering flowTimer .registered none b t).1 with
        retryCount := 0, reconnecting := false, reconnectionState := .none },
      (entering flowTimer .registered none b t).2) :=
    ⟨Punctual.of_active (hb.toTracked.assign rfl) hactive, fun _ => hacc.told rfl b⟩
  exact ⟨hk.quiet, hk, rfl⟩

theorem Tracked.bootstrapDone (ht : Tracked c t) (security : Option M2MSecurity) :
    wp (machine noisy) flowTimer byPunctual (bootstrapDone security) (fun _ => Punctual c) t := by
  rw [Interface.bootstrapDone]
  simp only [wp_bind, wp_modify]
  have hstop : Tracked c (({ t.1 with retryCount := 0, reconnecting := false
                                      reconnectionState := .none, bootstrapped := true
                           }).stopFlowTimer, t.2) := ht.assign rfl
  refine (wp_internalEventAt 3 .bootstrapped none).mpr fun b => ?_
  have hb := hstop.succeed (s := .bootstrapped) nofun
    (vouched_of_stopped (flowArmed_stopFlowTimer _)) b
  exact ⟨hb.quiet, hb.deliver rfl (Or.inr (Or.inr ⟨security, rfl⟩))⟩

/-- Reconnecting goes on in the idle state. -/
theorem Tracked.startRetry (ht : Tracked c t) :
    wp (machine noisy) flowTimer byPunctual startRetry (fun _ => Punctual c) t := by
  rw [Interface.startRetry, wp_bind]
  refine (wp_internalEventAt 3 .idle none).mpr fun b => ?_
  refine (wp_tell fun _ => rfl).mpr fun b' => ?_
  have hidle : Tracked c (entering flowTimer .idle none b t) := ht.enter b
  have hstop := hidle.told (o := .stopTimers) rfl b'
  refine ⟨hstop.quiet, ?_⟩
  simp only [wp_bind, wp_modify]
  refine (wp_tell fun _ => rfl).mpr fun b'' => ?_
  have hretry := hstop.assign (i := { t.1.enter .idle with reconnecting := true }) rfl
  exact ⟨(hretry.told (o := .stopListening) rfl b'').assign rfl, fun _ hr => Bool.noConfusion hr⟩

/-- Where no retry follows, the application hears of it before the idle state is entered. -/
theorem Tracked.informApplication (ht : Tracked (true :: c) t) (hx : Vouched t)
    (error : Error) :
    wp (machine noisy) flowTimer byPunctual (informApplication error)
      (fun _ => Punctual (true :: c)) t := by
  have h := punctual_orderly (true :: c)
  rw [Interface.informApplication, wp_bind]
  refine (wp_tell fun _ => rfl).mpr fun b => ?_
  simp only [wp_bind, wp_modify]
  have hstop : Punctual (true :: c) (t.1.stopRetrying, (flowTimer.see (.answered .stopListening b)
      (flowTimer.see (.called .stopListening) t)).2) :=
    ⟨(ht.told (o := .stopListening) rfl b).assign rfl, fun _ _ => hx.told rfl b⟩
  refine h.tell rfl hstop fun t' ht' => ?_
  exact h.eventOrdinary rfl fun b' => ht'.toIdle b'

theorem Punctual.countRetry (ht : Punctual c t) (error : Error) :
    wp (machine noisy) flowTimer byPunctual (countRetry error) (fun b t' => Punctual c t' ∧
      (b = false → (decide (t.1.retryCount.toNat < t.1.config.reconnectionCount) ||
        t.1.config.reconnectionLoop) = false ∧ (Vouched t → Vouched t'))) t := by
  rw [Interface.countRetry, wp_bind, wp_read]
  split_ifs with hcount hloop
  · exact ⟨ht.minor ⟨rfl, rfl, rfl, rfl, rfl, id⟩, fun hb => by cases hb⟩
  · simp only [wp_bind, wp_modify]
    refine (punctual_orderly c).tell rfl ?_ fun t' ht' => ⟨ht', fun hb => by cases hb⟩
    exact ht.minor ⟨rfl, rfl, rfl, rfl, rfl, id⟩
  · rw [wp_bind, wp_tell fun _ => rfl]
    intro b
    have hstop := (ht.called (o := .stopListening) rfl).answered .stopListening b
    refine ⟨hstop.assign rfl rfl rfl, fun _ => ⟨?_, fun hx hst => ?_⟩⟩
    · rw [decide_eq_false hcount, Bool.false_or]
      exact Bool.eq_false_iff.mpr hloop
    · exact hx.told (o := .stopListening) rfl b (Bool.and_eq_true_iff.mp hst).1

theorem givesUp_eq {i : M2MInterfaceImpl} {code : UInt8} {retry : Bool}
    (hloop : (!i.config.reconnectionLoop && (!i.retryTimerExpired && i.reconnecting)) = false)
    (herror : (connectionError code != .errorNone) = true)
    (hretry : retry = true → (decide (i.retryCount.toNat < i.config.reconnectionCount) ||
      i.config.reconnectionLoop) = false) : i.givesUp code retry = true := by
  rw [M2MInterfaceImpl.givesUp, hloop, herror]
  cases retry with
  | false => rfl
  | true => rw [hretry rfl]; rfl

/-- Whoever gives up has an excuse for a timer that runs. -/
theorem Punctual.socketError {code : UInt8} {retry : Bool}
    (ht : Punctual (t.1.givesUp code retry :: c) t)
    (hx : t.1.givesUp code retry = true → Vouched t) :
    wp (machine noisy) flowTimer byPunctual (socketError code retry)
      (fun _ => Punctual (t.1.givesUp code retry :: c)) t := by
  have hu := ht.minor (i := { t.1 with reconnectionState := .withUpdate })
    ⟨rfl, rfl, rfl, rfl, rfl, id⟩
  rw [Interface.socketError, wp_bind, wp_modify, wp_bind, wp_read]
  split_ifs with hloop hretry
  · exact hu
  · rw [wp_bind]
    refine wp_mono (fun b t' ht' => ?_) (hu.countRetry (connectionError code))
    cases b with
    | true => exact ht'.1.toTracked.startRetry
    | false =>
      refine wp_whenM.mpr ⟨fun herror => ?_, fun _ => ht'.1⟩
      obtain ⟨hlast, hacc⟩ := ht'.2 rfl
      have hg : t.1.givesUp code retry = true :=
        givesUp_eq (Bool.eq_false_iff.mpr hloop) herror fun _ => hlast
      rw [hg] at ht' ⊢
      exact ht'.1.toTracked.informApplication (hacc (hx hg)) _
  · refine wp_whenM.mpr ⟨fun herror => ?_, fun _ => hu⟩
    have hg : t.1.givesUp code retry = true :=
      givesUp_eq (Bool.eq_false_iff.mpr hloop) herror fun h => (hretry h).elim
    rw [hg] at hu ⊢
    exact hu.toTracked.informApplication (hx hg) _

theorem Punctual.registrationError (ht : Punctual (t.1.givesUp socketSendError true :: c) t)
    (hx : t.1.givesUp socketSendError true = true → Vouched t) (code : UInt8) :
    wp (machine noisy) flowTimer byPunctual (registrationError code true)
      (fun _ => Punctual (t.1.givesUp socketSendError true :: c)) t := by
  rw [Interface.registrationError, if_pos rfl, wp_bind]
  exact wp_mono (fun _ t' ht' => ht'.minor ⟨rfl, rfl, rfl, rfl, rfl, id⟩) (ht.socketError hx)

theorem Punctual.bootstrapError (ht : Punctual (t.1.givesUp bootstrapFailedCode true :: c) t) :
    wp (machine noisy) flowTimer byPunctual bootstrapError
      (fun _ => Punctual (t.1.givesUp bootstrapFailedCode true :: c)) t := by
  rw [Interface.bootstrapError]
  simp only [wp_bind, wp_modify]
  have hstop : Punctual (t.1.givesUp bootstrapFailedCode true :: c)
      (({ t.1 with bootstrapped := false }).stopFlowTimer, t.2) := ht.assign rfl rfl rfl
  exact hstop.socketError fun _ => vouched_of_stopped (flowArmed_stopFlowTimer _)

theorem Punctual.coapMessageReady (ht : Punctual c t) (data : Bytes) :
    wp (machine noisy) flowTimer byPunctual (coapMessageReady data) (fun _ => Punctual c) t := by
  rw [Interface.coapMessageReady, wp_bind, wp_read, wp_whenM]
  refine ⟨fun _ => ?_, fun _ => ht⟩
  rw [wp_bind]
  refine wp_mono (fun _ t' ht' => ?_) (ht.event (s := .sendingCoapData) rfl (by decide))
  rw [wp_bind]
  refine wp_ask_keep (I := Punctual c) (fun _ => ⟨c, rfl⟩) (ht'.called rfl) fun b t'' ht'' => ?_
  cases b with
  | true => exact ht''.answered _ true
  | false => exact (punctual_orderly c).sendRefused (ht''.refused rfl)

theorem Punctual.dataSent (ht : Punctual c t) :
    wp (machine noisy) flowTimer byPunctual dataSent (fun _ => Punctual c) t := by
  refine wp_dataSent (fun _ timer => ?_) fun _ timer => ?_
  · have hi :=
      ht.toTracked.assign (i := { t.1 with queueSleepTimer := timer, security := none }) rfl
    exact hi.bootstrapDone _
  · have hi := ht.minor (i := { t.1 with queueSleepTimer := timer }) ⟨rfl, rfl, rfl, rfl, rfl, id⟩
    exact hi.event rfl nofun

theorem Punctual.dataAvailable (ht : Punctual c t) (data : Bytes) (address : SocketAddress) :
    wp (machine noisy) flowTimer byPunctual (dataAvailable data address)
      (fun _ => Punctual c) t := by
  have h := punctual_orderly c
  refine h.eventReceived (ht.toTracked.toState nofun) (fun _ h => h) (fun _ h => h.quiet)
    fun bytes type port address t' ht' => ?_
  rw [wp_bind]
  refine wp_ask_keep (I := Punctual c) (fun _ => ⟨c, rfl⟩) (ht'.called rfl) fun b t'' ht'' => ?_
  have hb := ht''.answered (.processReceivedData bytes type port address) b
  exact wp_whenM.mpr ⟨fun _ => h.tell rfl hb fun _ hI => hI, fun _ => hb⟩

theorem Punctual.timerExpired {type : M2MTimerObserver}
    (ht : Punctual ((Entry.timerExpired type).givesUp t.1 :: c) t) :
    wp (machine noisy) flowTimer byPunctual (timerExpired type)
      (fun _ => Punctual ((Entry.timerExpired type).givesUp t.1 :: c)) t := by
  have hi : ∀ type, Punctual ((Entry.timerExpired type).givesUp t.1 :: c) t →
      Punctual ((Entry.timerExpired type).givesUp t.1 :: c) (t.1.ranOut type, t.2) :=
    fun type ht => ht.assign (by cases type <;> rfl) (by cases type <;> rfl) (by cases type <;> rfl)
  unfold Interface.timerExpired
  rw [wp_bind, wp_modify]
  cases type with
  | queueSleep =>
    rw [wp_bind, wp_read, wp_whenM]
    exact ⟨fun _ => (punctual_orderly _).tell rfl (hi _ ht) fun _ h => h, fun _ => hi _ ht⟩
  | retryTimer =>
    simp only [wp_bind, wp_modify, wp_read]
    have hexpired := (hi _ ht).toTracked.assign
      (i := { t.1.ranOut .retryTimer with retryTimerExpired := true }) rfl
    split_ifs
    · exact hexpired.startRegister
    · exact hexpired.startBootstrap
  | bootstrapFlowTimer =>
    exact Punctual.bootstrapError (t := (t.1.ranOut .bootstrapFlowTimer, t.2)) (hi _ ht)
  | registrationFlowTimer =>
    exact Punctual.registrationError (t := (t.1.ranOut .registrationFlowTimer, t.2)) (hi _ ht)
      (fun _ => vouched_of_stopped (flowArmed_stopFlowTimer _)) _
  | _ => exact ht

/-- An expiry after an outcome has its excuse already. -/
theorem Punctual.entered (ht : Punctual c t) (e : Entry) :
    Punctual (e.givesUp t.1 :: c) (flowTimer.see (.entered e) t) := by
  have hs := ht.onward (FlowTimer.Onward.sync t.2 t.1)
  have hu : ∀ {b}, t.2.unfit = true → (t.2.unfit || b) = true :=
    fun h => Bool.or_eq_true_iff.mpr (Or.inl h)
  refine ⟨⟨hs.quiet, congrArg (List.cons _) hs.calls, fun hl => hu ?_, fun hset hst => hu ?_⟩,
    fun hidle hr hst => hu (hs.resting hidle hr hst)⟩
  · obtain hl | hl := Bool.or_eq_true_iff.mp hl
    · exact hs.late hl
    · obtain ⟨hst, hset⟩ := Bool.and_eq_true_iff.mp (Bool.and_eq_true_iff.mp hl).2
      exact hs.settled hset hst
  · exact hs.settled hset hst

theorem vouched_of_strays {e : Entry} (h : e.strays t.1 = true) :
    Vouched (flowTimer.see (.entered e) t) := by
  intro hst
  have hs : (t.2.sync t.1).started = true := (Bool.and_eq_true_iff.mp hst).1
  refine Bool.or_eq_true_iff.mpr (Or.inr ?_)
  rw [h, Bool.and_true]
  exact hs

theorem Punctual.spent {e : Entry} (ht : Punctual c (flowTimer.see (.entered e) t))
    (h : t.1.reconnecting = false → e.strays t.1 = true) :
    Spent c (flowTimer.see (.entered e) t) := by
  refine ⟨ht, fun hr hst => vouched_of_strays (h hr) (Bool.and_eq_true_iff.mpr ⟨hst, ?_⟩)⟩
  exact (Bool.and_eq_true_iff.mp hst).2

/-- A call that leaves the client in the idle state leaves no timer running. -/
theorem Punctual.left (ht : Punctual (g :: c) t) (e : Entry) :
    Punctual c (flowTimer.see (.left e) t) := by
  have hs := ht.onward (FlowTimer.Onward.sync t.2 t.1)
  refine ⟨⟨hs.quiet, congrArg List.tail hs.calls, hs.late, fun hset hst => ?_⟩, hs.resting⟩
  obtain hset | hset := Bool.or_eq_true_iff.mp hset
  · exact hs.settled hset hst
  · obtain ⟨hidle, hr⟩ := Bool.and_eq_true_iff.mp (Bool.and_eq_true_iff.mp hset).2
    exact hs.resting (of_decide_eq_true hidle) ((Bool.not_eq_true' _).mp hr) hst

theorem punctual_keeps (c : List Bool) (e : Entry) :
    Keeps (machine noisy) flowTimer byPunctual (Punctual c) e := by
  intro t ht
  have he := ht.entered e
  have hx : e.strays t.1 = true → Vouched (flowTimer.see (.entered e) t) := vouched_of_strays
  have h := punctual_orderly (e.givesUp t.1 :: c)
  have hcalm : Calm noisy flowTimer byPunctual (Punctual (e.givesUp t.1 :: c)) := punctual_calm _
  refine wp_mono (Q := fun _ => Punctual (e.givesUp t.1 :: c)) (fun _ t' ht' => ht'.left e) ?_
  cases e with
  | bootstrap security => exact hcalm.bootstrap security he
  | registerObject security objectList => exact hcalm.registerObject security objectList he
  | updateRegistration security objectList lifetime =>
    exact hcalm.updateRegistration security objectList lifetime he
  | unregisterObject => exact hcalm.unregisterObject he
  | setQueueSleepHandler handler => exact he.minor ⟨rfl, rfl, rfl, rfl, rfl, id⟩
  | coapMessageReady data => exact he.coapMessageReady data
  | clientRegistered =>
    change wp (machine noisy) flowTimer byPunctual clientRegistered _ _
    rw [clientRegistered]
    simp only [wp_bind, wp_modify, wp_read]
    have hstop : Tracked (false :: c) (({ t.1 with retryCount := 0 }).stopFlowTimer,
        (flowTimer.see (.entered .clientRegistered) t).2) := he.toTracked.assign rfl
    exact wp_mono (fun _ t' ht' => ht'.1.deliver ht'.2 (Or.inl rfl))
      (hstop.registered (vouched_of_stopped (flowArmed_stopFlowTimer _)))
  | registrationUpdated =>
    change wp (machine noisy) flowTimer byPunctual registrationUpdated _ _
    rw [registrationUpdated]
    simp only [wp_bind, wp_read]
    exact wp_mono (fun _ t' ht' => ht'.1.deliver ht'.2 (Or.inr (Or.inl rfl)))
      (he.toTracked.registered (hx rfl))
  | registrationError code retry =>
    cases retry with
    | true => exact Punctual.registrationError (t := flowTimer.see (.entered _) t) he hx code
    | false => exact (he.spent fun hr => (Bool.not_eq_true' _).mpr hr).fail _
  | clientUnregistered =>
    change wp (machine noisy) flowTimer byPunctual clientUnregistered _ _
    rw [clientUnregistered]
    simp only [wp_bind, wp_read]
    have hspent := he.spent fun hr => (Bool.not_eq_true' _).mpr hr
    exact wp_mono (fun _ t' ht' => h.tell rfl ht' fun _ hI => hI)
      (h.eventUnregistered fun b => hspent.enter b)
  | bootstrapDone security => exact he.toTracked.bootstrapDone security
  | bootstrapWait security =>
    have hset := he.minor (i := { t.1 with security := security }) ⟨rfl, rfl, rfl, rfl, rfl, id⟩
    exact hset.event (s := .bootstrapWait) rfl (by decide)
  | bootstrapError => exact Punctual.bootstrapError (t := flowTimer.see (.entered _) t) he
  | coapDataProcessed => exact he.event rfl (by decide)
  | valueUpdated base => exact hcalm.valueUpdated base he
  | dataAvailable data address => exact he.dataAvailable data address
  | socketError code retry => exact Punctual.socketError (t := flowTimer.see (.entered _) t) he hx
  | addressReady address type port => cases type <;> exact he.event rfl (by decide)
  | dataSent => exact he.dataSent
  | timerExpired type => exact he.timerExpired

theorem punctual_honours : Honours (machine noisy) flowTimer byPunctual := by
  rintro o b I ⟨c, rfl⟩ e -
  exact punctual_keeps c e

end Punctual

/-- In every run, as long as no attempt has ended in a way that leaves the timer running: the timer
has not expired after an outcome had been delivered. -/
theorem expires_before_outcome (noisy : Bool) (config : Config) (endpointName domain : Bytes)
    (bindingMode : BindingMode) (listenPort : UInt16) (l : List (Script Entry)) :
    let t := run (machine noisy) flowTimer l
      (M2MInterfaceImpl.create config endpointName domain bindingMode listenPort, {})
    t.2.unfit = false → t.2.late = false := by
  intro t hu
  have ht : Punctual [] t :=
    punctual_honours.run (punctual_keeps []) l ⟨⟨rfl, rfl, nofun, nofun⟩, nofun⟩
  exact Bool.eq_false_iff.mpr fun hl => Bool.false_ne_true (hu.symm.trans (ht.late hl))

/-- A registration over TCP, and a connection that is lost: the timer is stopped, started again, and
expires before the server answers. -/
theorem expires_before_outcome_lost :
    let server : M2MSecurity := ⟨1, .lwm2mServer, coapScheme ++ [0x61, 0x3A, 0x31], noSecurity⟩
    let yes : Reply Entry := .mk true []
    let t := run (machine true) flowTimer
      [.mk (.registerObject (some server) []) [yes, yes, yes, yes], .mk .clientRegistered [],
        .mk (.socketError 4 true) [], .mk (.timerExpired .retryTimer) [],
        .mk (.timerExpired .registrationFlowTimer) []]
      (M2MInterfaceImpl.create {} [] [] .tcp 0, {})
    t.2.late = false :=
  expires_before_outcome true {} [] [] .tcp 0
    [.mk (.registerObject (some ⟨1, .lwm2mServer, coapScheme ++ [0x61, 0x3A, 0x31], noSecurity⟩) [])
        [.mk true [], .mk true [], .mk true [], .mk true []],
      .mk .clientRegistered [], .mk (.socketError 4 true) [], .mk (.timerExpired .retryTimer) [],
      .mk (.timerExpired .registrationFlowTimer) []]
    (by decide +kernel)

/-- A connection is lost and restored by an update of the registration, which does not stop the
timer: the timer expires, and the client that is registered reconnects once more. -/
theorem expires_after_update :
    let server : M2MSecurity := ⟨1, .lwm2mServer, coapScheme ++ [0x61, 0x3A, 0x31], noSecurity⟩
    let address : SocketAddress := ⟨.lwipIPv4, [0x7F, 0, 0, 1], 1⟩
    let yes : Reply Entry := .mk true []
    let sent : Reply Entry := .mk true [.mk (.coapMessageReady []) [yes, yes, yes]]
    let t := run (machine true) flowTimer
      [.mk (.registerObject (some server) []) [yes, yes, yes, yes],
        .mk (.addressReady address .lwm2mServer 1) [yes, yes, yes, sent],
        .mk (.dataAvailable [] address) [yes, yes, yes, .mk true [.mk .clientRegistered []]],
        .mk (.socketError 4 true) [], .mk (.timerExpired .retryTimer) [],
        .mk (.addressReady address .lwm2mServer 1) [yes, yes, yes, yes, sent],
        .mk (.dataAvailable [] address) [yes, yes, yes, .mk true [.mk .registrationUpdated []]]]
      (M2MInterfaceImpl.create {} [] [] .tcp 0, {})
    let t' := runScript (machine true) flowTimer (.mk (.timerExpired .registrationFlowTimer) []) t
    t.1.currentState = .registered ∧ t.1.flowArmed = true ∧ t.2.settled = true ∧ t'.2.late = true ∧
      t'.1.currentState = .idle ∧ t'.1.reconnecting = true := by
  decide +kernel

end MbedClient.Interface
