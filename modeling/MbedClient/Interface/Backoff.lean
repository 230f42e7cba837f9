import MbedClient.Interface.Aloof

/-! How long the client waits between its attempts. -/
namespace MbedClient.Interface
open Callback Callback.Prog

namespace Config

/-- The count of retries after `n` failures in a row; it starts again behind its maximum. -/
def retries (config : Config) : Nat → Nat
  | 0 => 0
  | n + 1 => n % config.reconnectionCount + 1

/-- How long the client waits after `n` failures in a row, in milliseconds. -/
def wait (config : Config) (n : Nat) : UInt64 := UInt64.ofNat
  (config.reconnectionInterval * config.reconnectionCount * config.retries n * 1000)

/-- The reconnection loop, with a count that an `uint8_t` holds, and a longest wait whose
milliseconds are an `int`. -/
structure Loops (config : Config) : Prop where
  loop : config.reconnectionLoop = true
  pos : 0 < config.reconnectionCount
  small : config.reconnectionCount < 2 ^ 8
  bounded : config.reconnectionInterval * config.reconnectionCount *
    config.reconnectionCount * 1000 < 2 ^ 31

theorem retries_le {config : Config} (h : config.Loops) (n : Nat) :
    config.retries n ≤ config.reconnectionCount := by
  cases n with
  | zero => exact Nat.zero_le _
  | succ n => exact Nat.mod_lt n h.pos

theorem seconds_retries {config : Config} (h : config.Loops) (n : Nat) :
    seconds (config.reconnectionInterval * config.reconnectionCount * config.retries n) =
      config.wait n := by
  refine seconds_eq (lt_of_le_of_lt ?_ h.bounded)
  exact Nat.mul_le_mul_right 1000 (Nat.mul_le_mul_left _ (retries_le h n))

theorem retries_succ {config : Config} (h : config.Loops) (n : Nat) :
    config.retries (n + 1) =
      if config.retries n < config.reconnectionCount then config.retries n + 1 else 1 := by
  cases n with
  | zero => rw [retries, retries, if_pos h.pos, Nat.zero_mod]
  | succ n =>
    have hlt := Nat.mod_lt n h.pos
    have hmod := Nat.mod_add_mod n config.reconnectionCount 1
    have hnow : config.retries (n + 1) = n % config.reconnectionCount + 1 := rfl
    have hnext : config.retries (n + 1 + 1) = (n + 1) % config.reconnectionCount + 1 := rfl
    rw [hnow, hnext]
    by_cases hless : n % config.reconnectionCount + 1 < config.reconnectionCount
    · rw [if_pos hless, ← hmod, Nat.mod_eq_of_lt hless]
    · have hend : n % config.reconnectionCount + 1 = config.reconnectionCount := by omega
      rw [if_neg hless, ← hmod, hend, Nat.mod_self]

end Config

/-- The failures in a row after which the client retries. Success ends the row, and so does an error
that the application is told of at once. -/
def failures : Monitor M2MInterfaceImpl Output Entry Nat
  | .entered (.socketError code retry), _, n =>
    if retry then n + 1 else if connectionError code = .errorNone then n else 0
  | .entered (.registrationError _ true), _, n => n + 1
  | .entered .bootstrapError, _, n => n + 1
  | .entered (.timerExpired .bootstrapFlowTimer), _, n => n + 1
  | .entered (.timerExpired .registrationFlowTimer), _, n => n + 1
  | .called (.stateFunction state _), _, n => if state.succeeds then 0 else n
  | _, _, n => n

structure Counts (c : Config) (t : M2MInterfaceImpl × Nat) : Prop where
  config : t.1.config = c
  count : t.1.retryCount.toNat = c.retries t.2

/-- A client that reconnects waits as long as the failures say, if it waits. -/
def Waits (c : Config) (t : M2MInterfaceImpl × Nat) : Prop :=
  t.1.reconnecting = true → ∀ r, t.1.retryTimer.running = some r → r = (c.wait t.2, .retryTimer)

/-- While an error is reported in the course of a failure, only the count is up to date. -/
def Paces (c : Config) (whole : Bool) (t : M2MInterfaceImpl × Nat) : Prop :=
  Counts c t ∧ (whole = true → Waits c t)

def Paced (c : Config) (whole : Bool) (t : M2MInterfaceImpl × Nat) : Prop :=
  t.1.AtRest ∧ Paces c whole t

abbrev byPaced (c : Config) : Contract M2MInterfaceImpl Output Nat :=
  fun _ _ I => ∃ whole, I = Paced c whole

theorem M2MInterfaceImpl.AtRest.assign {i i' : M2MInterfaceImpl} (h : i.AtRest)
    (hi : i'.eventGenerated = i.eventGenerated ∧ i'.eventData = i.eventData ∧
      i'.currentState = i.currentState) : i'.AtRest :=
  ⟨hi.1.trans h.eventGenerated, hi.2.1.trans h.eventData, hi.2.2 ▸ h.stays⟩

section Paced
variable {noisy : Bool} {c : Config} {whole : Bool} {t : M2MInterfaceImpl × Nat} {n : Nat}

theorem paces_framed (c : Config) (whole : Bool) :
    Framed failures M2MInterfaceImpl.retrying (fun o => o.succeeds = false) (Paces c whole) where
  state i i' n hi ht := by
    simp only [M2MInterfaceImpl.retrying, Retrying.mk.injEq] at hi
    obtain ⟨hconfig, hcount, hreconnecting, htimer⟩ := hi
    refine ⟨⟨hconfig.trans ht.1.config, ?_⟩, fun hw hr r hrun => ?_⟩
    · exact (congrArg UInt8.toNat hcount).trans ht.1.count
    · exact ht.2 hw (hreconnecting ▸ hr) r (htimer ▸ hrun)
  called o t ho ht := by
    cases o with
    | stateFunction s data =>
      have hsee : failures.see (.called (.stateFunction s data)) t = t :=
        Prod.ext rfl (if_neg (Bool.eq_false_iff.mp ho))
      rw [hsee]
      exact ht
    | _ => exact ht
  answered o b t _ ht := ht

theorem reenters_anywhere (o : Output) (b : Bool) (h : (machine noisy).reenters o b = true) :
    anywhere.reenters o b = true := by
  cases o <;> first | rfl | cases h

/-- Whatever leaves the retries alone and the machine at rest keeps the pace. -/
theorem Paced.keep {p : Code Unit} (ht : Paced c whole t) (hp : Resting p) (ha : Aloof p) :
    wp (machine noisy) failures (byPaced c) p (fun _ => Paced c whole) t := by
  have hrest : wp anywhere unwatched atRest p (fun _ t => t.1.AtRest) (t.1, ()) := hp (t.1, ()) ht.1
  have hcallbacks : ∀ (o : Output) b I, atRest o b I →
      byPaced c o b fun t => I (t.1, ()) ∧ Paces c whole t := by
    rintro o b I rfl
    exact ⟨whole, rfl⟩
  exact (ha t.1).wp (paces_framed c whole) reenters_anywhere hcallbacks hrest ht.2

theorem Paced.event (ht : Paced c whole t) {s : EStates} (hs : s.succeeds = false)
    (data : Option EventData) :
    wp (machine noisy) failures (byPaced c) (internalEvent s data) (fun _ => Paced c whole) t :=
  ht.keep (Resting.event s data) (Aloof.event hs data)

theorem Paced.last (ht : Paced c whole t) {o : Output} (ho : o.succeeds = false) :
    wp (machine noisy) failures (byPaced c) (Prog.tell o) (fun _ => Paced c whole) t :=
  ht.keep (Resting.last o) (Confined.last ho)

theorem Paced.weaken (ht : Paced c true t) : Paced c whole t := ⟨ht.1, ht.2.1, fun _ => ht.2.2 rfl⟩

/-- One more failure than the count of retries says. -/
structure Failing (c : Config) (t : M2MInterfaceImpl × Nat) : Prop where
  rest : t.1.AtRest
  config : t.1.config = c
  count : ∃ n, t.2 = n + 1 ∧ t.1.retryCount.toNat = c.retries n

/-- With the loop there is always another retry. The application may hear of the error before the
timer has been started. -/
theorem Failing.countRetry (ht : Failing c t) (h : c.Loops) (error : Error) :
    wp (machine noisy) failures (byPaced c) (countRetry error)
      (fun b t' => b = true ∧ Paced c false t') t := by
  obtain ⟨hrest, hconfig, n, hn, hcount⟩ := ht
  have hsucc := Config.retries_succ h n
  have hsmall := h.small
  rw [Interface.countRetry, wp_bind, wp_read]
  rw [hconfig, hcount]
  split_ifs at hsucc ⊢ with hless hloop
  · refine ⟨rfl, hrest.assign ⟨rfl, rfl, rfl⟩, ⟨hconfig, ?_⟩, fun hw => by cases hw⟩
    change (t.1.retryCount + 1).toNat = c.retries t.2
    rw [hn, hsucc, UInt8.toNat_add, hcount, UInt8.toNat_one]
    exact Nat.mod_eq_of_lt (by omega)
  · simp only [wp_bind, wp_modify]
    have hreset : Paced c false ({ t.1 with retryCount := 1 }, t.2) := by
      refine ⟨hrest.assign ⟨rfl, rfl, rfl⟩, ⟨hconfig, ?_⟩, fun hw => by cases hw⟩
      change (1 : UInt8).toNat = c.retries t.2
      rw [hn, hsucc]
      rfl
    exact wp_mono (fun _ t' ht' => ⟨rfl, ht'⟩) (hreset.last (o := .error error) rfl)
  · exact absurd h.loop hloop

theorem Paced.startRetry (ht : Paced c false t) (h : c.Loops) :
    wp (machine noisy) failures (byPaced c) startRetry (fun _ => Paced c true) t := by
  rw [Interface.startRetry, wp_bind]
  refine wp_mono (fun _ t' ht' => ?_) (ht.event rfl none)
  obtain ⟨hrest, ⟨hconfig, hcount⟩, -⟩ := ht'
  simp only [wp_bind, wp_modify]
  refine (wp_tell fun _ => rfl).mpr fun b => ?_
  refine ⟨hrest.assign ⟨rfl, rfl, rfl⟩, ⟨hconfig, hcount⟩, fun _ _ r hr => ?_⟩
  obtain rfl := Option.some.inj hr
  change (seconds (t'.1.config.reconnectionInterval * t'.1.config.reconnectionCount *
    t'.1.retryCount.toNat), _) = (c.wait t'.2, _)
  rw [hconfig, hcount, Config.seconds_retries h]

theorem Failing.socketError (ht : Failing c t) (h : c.Loops) (code : UInt8) :
    wp (machine noisy) failures (byPaced c) (socketError code true) (fun _ => Paced c true) t := by
  have hloop : (!t.1.config.reconnectionLoop && (!t.1.retryTimerExpired && t.1.reconnecting)) =
      false := by rw [ht.config, h.loop, Bool.not_true, Bool.false_and]
  have hstate : Failing c ({ t.1 with reconnectionState := .withUpdate }, t.2) :=
    ⟨ht.rest.assign ⟨rfl, rfl, rfl⟩, ht.config, ht.count⟩
  rw [Interface.socketError]
  simp only [wp_bind, wp_modify, wp_read, hloop, Bool.false_eq_true, if_false, if_true]
  refine wp_mono (fun b t' ht' => ?_) (hstate.countRetry h (connectionError code))
  rw [if_pos ht'.1]
  exact ht'.2.startRetry h

theorem Failing.registrationError (ht : Failing c t) (h : c.Loops) (code : UInt8) :
    wp (machine noisy) failures (byPaced c) (registrationError code true)
      (fun _ => Paced c true) t := by
  rw [Interface.registrationError, if_pos rfl, wp_bind]
  refine wp_mono (fun _ t' ht' => ?_) (ht.socketError h _)
  exact ⟨ht'.1.assign ⟨rfl, rfl, rfl⟩, ⟨ht'.2.1.config, ht'.2.1.count⟩, ht'.2.2⟩

theorem Failing.bootstrapError (ht : Failing c t) (h : c.Loops) :
    wp (machine noisy) failures (byPaced c) bootstrapError (fun _ => Paced c true) t := by
  rw [Interface.bootstrapError]
  simp only [wp_bind, wp_modify]
  exact Failing.socketError (t := (({ t.1 with bootstrapped := false }).stopFlowTimer, t.2))
    ⟨ht.rest.assign ⟨rfl, rfl, rfl⟩, ht.config, ht.count⟩ h _

/-- An error without a retry ends the row. -/
theorem informApplication_paced (hrest : t.1.AtRest) (hconfig : t.1.config = c) (hn : t.2 = 0)
    (error : Error) : wp (machine noisy) failures (byPaced c) (informApplication error)
      (fun _ => Paced c true) t := by
  have hstop : Paced c true (t.1.stopRetrying, t.2) := by
    refine ⟨hrest.assign ⟨rfl, rfl, rfl⟩, ⟨hconfig, ?_⟩, fun _ hr => by cases hr⟩
    rw [hn]
    rfl
  rw [Interface.informApplication, wp_bind]
  refine (wp_tell fun _ => rfl).mpr fun b => ?_
  simp only [wp_bind, wp_modify]
  exact wp_mono (fun _ t' ht' => ht'.event rfl none) (hstop.last (o := .error error) rfl)

/-- An error of no known kind is not even told. -/
theorem socketError_told (h : c.Loops) (hrest : t.1.AtRest) (hconfig : t.1.config = c)
    (code : UInt8)
    (ht : Paced c whole t) : wp (machine noisy) failures (byPaced c) (socketError code false)
      (fun _ => Paced c whole) (failures.see (.entered (.socketError code false)) t) := by
  have hloop : (!t.1.config.reconnectionLoop && (!t.1.retryTimerExpired && t.1.reconnecting)) =
      false := by rw [hconfig, h.loop, Bool.not_true, Bool.false_and]
  rw [Interface.socketError]
  simp only [wp_bind, wp_modify, wp_read, wp_pure, Monitor.see, hloop, Bool.false_eq_true, if_false]
  refine wp_whenM.mpr ⟨fun herror => ?_, fun herror => ?_⟩
  · have hne : connectionError code ≠ .errorNone := bne_iff_ne.mp herror
    have hended : failures (.entered (.socketError code false)) t.1 t.2 = 0 := if_neg hne
    have hrest' : M2MInterfaceImpl.AtRest { t.1 with reconnectionState := .withUpdate } :=
      hrest.assign ⟨rfl, rfl, rfl⟩
    rw [hended]
    exact wp_mono (fun _ t' ht' => ht'.weaken)
      (informApplication_paced (t := (_, 0)) hrest' hconfig rfl _)
  · have heq : connectionError code = .errorNone := by simpa using herror
    have hsame : failures (.entered (.socketError code false)) t.1 t.2 = t.2 := if_pos heq
    rw [hsame]
    exact ⟨hrest.assign ⟨rfl, rfl, rfl⟩, ⟨hconfig, ht.2.1.count⟩, ht.2.2⟩

/-- Success ends it as well. -/
theorem registered_paced (hconfig : t.1.config = c) :
    wp (machine noisy) failures (byPaced c) (internalEvent .registered none)
      (fun _ => Paced c true) t :=
  (wp_internalEventAt 3 .registered none).mpr fun _ =>
    ⟨rfl, ⟨rfl, rfl, rfl⟩, ⟨hconfig, rfl⟩, fun _ hr => by cases hr⟩

theorem bootstrapDone_paced (hconfig : t.1.config = c) (security : Option M2MSecurity) :
    wp (machine noisy) failures (byPaced c) (bootstrapDone security) (fun _ => Paced c true) t := by
  rw [Interface.bootstrapDone]
  simp only [wp_bind, wp_modify]
  refine wp_mono (fun _ t' (ht' : Paced c true t') => ht'.last rfl)
    ((wp_internalEventAt 3 .bootstrapped none).mpr fun b => ?_)
  exact ⟨rfl, ⟨rfl, rfl, rfl⟩, ⟨hconfig, rfl⟩, fun _ hr => by cases hr⟩

theorem Paced.dataSent (ht : Paced c whole t) :
    wp (machine noisy) failures (byPaced c) dataSent (fun _ => Paced c whole) t := by
  refine wp_dataSent (fun _ timer => ?_) fun _ timer => ?_
  · have hconfig :
      ({ t.1 with queueSleepTimer := timer, security := none } : M2MInterfaceImpl).config =
        c := ht.2.1.config
    exact wp_mono (fun _ t' ht' => ht'.weaken) (bootstrapDone_paced (t := (_, t.2)) hconfig _)
  · have hi : Paced c whole ({ t.1 with queueSleepTimer := timer }, t.2) :=
      ⟨ht.1.assign ⟨rfl, rfl, rfl⟩, ⟨ht.2.1.config, ht.2.1.count⟩, ht.2.2⟩
    exact hi.event rfl none

/-- The retry timer has run out, and the attempt begins. -/
theorem Paced.retry (ht : Paced c whole t) :
    wp (machine noisy) failures (byPaced c) (timerExpired .retryTimer)
      (fun _ => Paced c whole) t := by
  have hi : Paced c whole ({ t.1.ranOut .retryTimer with retryTimerExpired := true }, t.2) :=
    ⟨ht.1.assign ⟨rfl, rfl, rfl⟩, ⟨ht.2.1.config, ht.2.1.count⟩, fun _ _ r hr => by cases hr⟩
  unfold Interface.timerExpired
  simp only [wp_bind, wp_modify, wp_read]
  split_ifs
  · exact hi.event rfl none
  · exact hi.event rfl none

theorem paced_keeps (h : c.Loops) (whole : Bool) (e : Entry) :
    Keeps (machine noisy) failures (byPaced c) (Paced c whole) e := by
  intro t ht
  have ⟨hrest, ⟨hconfig, hcount⟩, _⟩ := ht
  have hfails : Failing c (t.1, t.2 + 1) := ⟨hrest, hconfig, t.2, rfl, hcount⟩
  have hkeep : ∀ p : Code Unit, Resting p → Aloof p →
      wp (machine noisy) failures (byPaced c) p (fun _ => Paced c whole) t :=
    fun p hp ha => ht.keep hp ha
  have hrests : Resting (code e) := Resting.code e
  cases e with
  | bootstrap security => exact hkeep _ hrests (Aloof.bootstrap security)
  | registerObject security objectList =>
    exact hkeep _ hrests (Aloof.registerObject security objectList)
  | updateRegistration security objectList lifetime =>
    exact hkeep _ hrests (Aloof.updateRegistration security objectList lifetime)
  | unregisterObject =>
    exact hkeep _ hrests (Confined.bind (Aloof.external _ _) fun _ => Aloof.refuse _)
  | setQueueSleepHandler handler => exact hkeep _ hrests (Confined.modify fun _ => rfl)
  | coapMessageReady data => exact hkeep _ hrests (Aloof.coapMessageReady data)
  | clientRegistered =>
    change wp (machine noisy) failures (byPaced c) clientRegistered _ t
    rw [clientRegistered]
    simp only [wp_bind, wp_modify, wp_read]
    refine wp_mono (fun _ t' ht' => ?_) (registered_paced hconfig)
    exact wp_mono (fun _ t'' ht'' => ht''.weaken) (Paced.last ht' rfl)
  | registrationUpdated =>
    change wp (machine noisy) failures (byPaced c) registrationUpdated _ t
    rw [registrationUpdated]
    simp only [wp_bind, wp_read]
    refine wp_mono (fun _ t' ht' => ?_) (registered_paced hconfig)
    exact wp_mono (fun _ t'' ht'' => ht''.weaken) (Paced.last ht' rfl)
  | registrationError code retry =>
    cases retry with
    | true => exact wp_mono (fun _ t' ht' => ht'.weaken) (hfails.registrationError h code)
    | false => exact hkeep _ hrests (Aloof.fail (Aloof.event rfl none) _)
  | clientUnregistered =>
    exact hkeep _ hrests (Confined.bind (Aloof.event rfl none) fun _ =>
      Confined.read fun i => Confined.last rfl)
  | bootstrapDone security =>
    exact wp_mono (fun _ t' ht' => ht'.weaken) (bootstrapDone_paced hconfig security)
  | bootstrapWait security =>
    exact hkeep _ hrests (Confined.assign (fun _ => rfl) (Aloof.event rfl none))
  | bootstrapError => exact wp_mono (fun _ t' ht' => ht'.weaken) (hfails.bootstrapError h)
  | coapDataProcessed => exact hkeep _ hrests (Aloof.event rfl none)
  | valueUpdated base =>
    cases base with
    | none => exact hkeep _ hrests (Confined.pure ())
    | some base => exact hkeep _ hrests (Confined.last rfl)
  | dataAvailable data address => exact hkeep _ hrests (Aloof.event rfl _)
  | socketError code retry =>
    cases retry with
    | true => exact wp_mono (fun _ t' ht' => ht'.weaken) (hfails.socketError h code)
    | false => exact socketError_told h hrest hconfig code ht
  | addressReady address type port => cases type <;> exact hkeep _ hrests (Aloof.event rfl _)
  | dataSent => exact ht.dataSent
  | timerExpired type =>
    cases type with
    | queueSleep =>
      refine hkeep _ hrests (Confined.assign (fun _ => rfl) (Confined.read fun i => ?_))
      exact Aloof.whenM (Confined.last rfl)
    | retryTimer => exact ht.retry
    | bootstrapFlowTimer =>
      have hi : Failing c (t.1.ranOut .bootstrapFlowTimer, t.2 + 1) :=
        ⟨hrest.assign ⟨rfl, rfl, rfl⟩, hconfig, t.2, rfl, hcount⟩
      exact wp_mono (fun _ t' ht' => ht'.weaken) (hi.bootstrapError h)
    | registrationFlowTimer =>
      have hi : Failing c (t.1.ranOut .registrationFlowTimer, t.2 + 1) :=
        ⟨hrest.assign ⟨rfl, rfl, rfl⟩, hconfig, t.2, rfl, hcount⟩
      exact wp_mono (fun _ t' ht' => ht'.weaken) (hi.registrationError h timeoutCode)
    | _ => exact hkeep _ hrests (Confined.assign (fun _ => rfl) (Confined.pure ()))

theorem paced_honours (h : c.Loops) : Honours (machine noisy) failures (byPaced c) := by
  intro o b I hI e _
  obtain ⟨whole, rfl⟩ := hI
  exact paced_keeps h whole e

end Paced

/-- In every run with the reconnection loop, whoever calls back when: the count of retries is that
of the failures in a row, from one to its maximum and then from one again, and a client that
reconnects waits for as many of its intervals as that count. -/
theorem backoff (noisy : Bool) (c : Config) (h : c.Loops) (endpointName domain : Bytes)
    (bindingMode : BindingMode) (listenPort : UInt16) (l : List (Script Entry)) :
    let t := run (machine noisy) failures l
      (M2MInterfaceImpl.create c endpointName domain bindingMode listenPort, 0)
    t.1.retryCount.toNat = c.retries t.2 ∧ t.1.retryCount.toNat ≤ c.reconnectionCount ∧
      (t.1.reconnecting = true → ∀ r, t.1.retryTimer.running = some r →
        r = (c.wait t.2, .retryTimer)) := by
  intro t
  have hfirst :
      Paced c true (M2MInterfaceImpl.create c endpointName domain bindingMode listenPort, 0) :=
    ⟨⟨rfl, rfl, rfl⟩, ⟨rfl, rfl⟩, fun _ hr => by cases hr⟩
  have ht : Paced c true t := (paced_honours h).run (paced_keeps h true) l hfirst
  refine ⟨ht.2.1.count, ?_, ht.2.2 rfl⟩
  rw [ht.2.1.count]
  exact Config.retries_le h t.2

/-- The fourth failure in a row: a wait of fifteen seconds, as after the first. -/
theorem backoff_fourth :
    let server : M2MSecurity := ⟨1, .lwm2mServer, coapScheme ++ [0x61, 0x3A, 0x31], noSecurity⟩
    let yes : Reply Entry := .mk true []
    let lost : List (Script Entry) :=
      [.mk (.socketError 4 true) [], .mk (.timerExpired .retryTimer) []]
    let t :=
      run (machine true) failures (.mk (.registerObject (some server) []) [yes, yes, yes, yes] ::
      (lost ++ lost ++ lost ++ [.mk (.socketError 4 true) []]))
      (M2MInterfaceImpl.create {} [] [] .tcp 0, 0)
    t.1.retryTimer.running = some (15000, .retryTimer) ∧ t.1.retryCount.toNat =
      Config.retries {} t.2 := by
  intro server yes lost t
  have hloops : Config.Loops {} := ⟨rfl, by decide, by decide, by decide⟩
  exact ⟨by decide +kernel, (backoff true {} hloops [] [] .tcp 0 _).1⟩

end MbedClient.Interface
