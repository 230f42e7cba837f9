import MbedClient.Report.Runs

/-! The minimum period: no notification until an interval started at or after the last one is over.

The flag `_pmin_exceeded` says so only while neither a value out of range nor equal periods have
set it early. -/
namespace MbedClient.Report
variable {F : Type*} [CFloat F]

/-- What an observer of the notifications and of the timer that ends the minimum period knows. -/
structure Wait where
  waiting : Bool := false
  /-- the running interval was started at or after the last notification -/
  fresh : Bool := false
  early : Bool := false
deriving DecidableEq

namespace Wait

def call (awaited : M2MTimerObserver) : Call → Wait → Wait
  | .observationToBeSent _ _ _, w => ⟨true, false, w.early || w.waiting⟩
  | .startTimer type _, w => if type = awaited then { w with fresh := true } else w
  | .stopTimer type, w => if type = awaited then { w with fresh := false } else w

def event (awaited : M2MTimerObserver) : Event F → Wait → Wait
  | .timerExpired type, w =>
    if type = awaited then ⟨w.waiting && !w.fresh, false, w.early⟩ else w
  | _, w => w

end Wait

def M2MReportHandler.awaited (h : M2MReportHandler F) : M2MTimerObserver :=
  if h.pmin = h.pmax then .pMaxTimer else .pMinTimer

abbrev Watched (F : Type*) [CFloat F] := M2MReportHandler F × Wait

def watch (e : Event F) (s : Watched F) : Watched F :=
  ((s.1.occur e).1,
    Trace.fold (Wait.call s.1.awaited) (s.1.occur e).2 (Wait.event s.1.awaited e s.2))

/-- A timer that expires was running. -/
def Fires : Event F → Watched F → Prop
  | .timerExpired .pMinTimer, s => s.1.pminTimer.armed = true
  | .timerExpired .pMaxTimer, s => s.1.pmaxTimer.armed = true
  | _, _ => True

/-- The steps that do not set `_pmin_exceeded` early: while the minimum period of a notification
runs, no change of the value out of range, and with equal periods no other change either. -/
def Honest : Event F → Watched F → Prop
  | .setValue value, s => s.2.waiting = true → CFloat.eq value s.1.lastValue = false →
      ({ s.1 with currentValue := value }.checkThresholdValues = true ↔ s.1.pmin ≠ s.1.pmax)
  | .setNotificationTrigger _, s => s.2.waiting = true → s.1.pmin ≠ s.1.pmax
  | .timerExpired _, _ => True

instance (e : Event F) (s : Watched F) : Decidable (Fires e s) :=
  match e with
  | .timerExpired .pMinTimer => inferInstanceAs (Decidable (_ = _))
  | .timerExpired .pMaxTimer => inferInstanceAs (Decidable (_ = _))
  | .timerExpired .notdefined | .timerExpired .registration | .timerExpired .nsdlExecution
  | .timerExpired .dtls | .timerExpired .queueSleep | .timerExpired .retryTimer
  | .timerExpired .bootstrapFlowTimer | .timerExpired .registrationFlowTimer
  | .setValue _ | .setNotificationTrigger _ => inferInstanceAs (Decidable True)

instance (e : Event F) (s : Watched F) : Decidable (Honest e s) :=
  match e with
  | .setValue _ => inferInstanceAs (Decidable (_ → _ → _))
  | .setNotificationTrigger _ => inferInstanceAs (Decidable (_ → _))
  | .timerExpired _ => inferInstanceAs (Decidable True)

/-- What an observation keeps, as far as the minimum period is concerned. -/
structure Kept (h : M2MReportHandler F) (w : Wait) : Prop where
  flag : h.has pminFlag = true
  early : w.early = false
  fresh : h.pmin ≠ h.pmax → w.waiting = true → h.pminTimer.armed = true → w.fresh = true
  same : h.pmin = h.pmax → w.waiting = true → h.pmaxTimer.armed = true → w.fresh = true
  waits : h.pmin ≠ h.pmax → w.waiting = true → h.pminExceeded = false
  alone : h.pmin = h.pmax → h.pminTimer.armed = false
  unused : h.startsPmax = false → h.pmaxTimer.armed = false

section Steps
variable {h : M2MReportHandler F} {w : Wait}

/-- Starting the timers keeps the observation, whatever has been sent just before. -/
theorem Kept.timers (hk : h.has pminFlag = true) (hearly : w.early = false)
    (halone : h.pmin = h.pmax → h.pminTimer.armed = false)
    (hunused : h.startsPmax = false → h.pmaxTimer.armed = false) :
    Kept h.restarted (Trace.fold (Wait.call h.awaited) h.timerCalls w) := by
  have hx : h.restarted.startsPmax = h.startsPmax := rfl
  have hoff : h.startsPmax = false → h.restarted.pmaxTimer.armed = false := fun hf => by
    rw [h.restarted_pmaxTimer hf, hunused hf]
  by_cases he : h.pmin = h.pmax
  · have hs : h.startsPmin = false := by simp [M2MReportHandler.startsPmin, he]
    have hmin : h.restarted.pminTimer.armed = false := by
      rw [h.restarted_pminTimer hs, halone he]
    cases hp : h.startsPmax with
    | false =>
      have hw : Trace.fold (Wait.call h.awaited) h.timerCalls w = w := by
        simp [M2MReportHandler.timerCalls, hs, hp]
      rw [hw]
      refine ⟨hk, hearly, fun hne => absurd he hne, fun _ _ ha => ?_, fun hne => absurd he hne,
        fun _ => hmin, fun _ => hoff hp⟩
      rw [hoff hp] at ha
      cases ha
    | true =>
      have hw : Trace.fold (Wait.call h.awaited) h.timerCalls w = { w with fresh := true } := by
        simp [M2MReportHandler.timerCalls, hs, hp, Wait.call, M2MReportHandler.awaited, he]
      rw [hw]
      exact ⟨hk, hearly, fun hne => absurd he hne, fun _ _ _ => rfl, fun hne => absurd he hne,
        fun _ => hmin, fun hf => hoff (hx ▸ hf)⟩
  · have hs : h.startsPmin = true := by simp [M2MReportHandler.startsPmin, he, hk]
    have hw : Trace.fold (Wait.call h.awaited) h.timerCalls w = { w with fresh := true } := by
      cases hp : h.startsPmax <;>
        simp [M2MReportHandler.timerCalls, hs, hp, Wait.call, M2MReportHandler.awaited, he]
    rw [hw]
    exact ⟨hk, hearly, fun _ _ _ => rfl, fun h' => absurd h' he,
      fun _ _ => by simp [M2MReportHandler.restarted, hk, he], fun h' => absurd h' he,
      fun hf => hoff (hx ▸ hf)⟩

/-- A report that comes after the minimum period keeps the observation. -/
theorem Kept.report (hk : Kept h w) (hw : w.waiting = false) :
    Kept h.report.1 (Trace.fold (Wait.call h.awaited) h.report.2 w) := by
  have hr := h.report_cases
  generalize h.report = r at hr ⊢
  cases hr with
  | value hne hn =>
    rw [Trace.fold_append]
    refine Kept.timers (h := { h with
      pminExceeded := false, pmaxExceeded := false, notify := false
      observationNumber := h.observationNumber + 1
      changedInstanceIds := ChangedIds.empty
      pmaxTimer := h.pmaxTimer.stopTimer
      lastValue := h.currentValue }) hk.flag ?_ hk.alone (fun _ => rfl)
    simp only [Trace.fold_cons, Trace.fold_nil, Wait.call]
    split_ifs <;> simp [hk.early, hw]
  | pmax hno hx =>
    rw [Trace.fold_cons]
    refine Kept.timers (h := { h with
      observationNumber := h.observationNumber + 1
      changedInstanceIds := ChangedIds.empty
      lastValue := h.currentValue }) hk.flag ?_ hk.alone hk.unused
    simp [Wait.call, hk.early, hw]
  | nothing hno hx =>
    exact Kept.timers (h := { h with lastValue := h.currentValue }) hk.flag hk.early hk.alone
      hk.unused

theorem Kept.scheduleReport (hk : Kept h w) (hw : w.waiting = true → h.pmin ≠ h.pmax) :
    Kept h.scheduleReport.1 (Trace.fold (Wait.call h.awaited) h.scheduleReport.2 w) := by
  have hk' : Kept { h with notify := true } w :=
    ⟨hk.flag, hk.early, hk.fresh, hk.same, hk.waits, hk.alone, hk.unused⟩
  obtain ⟨-, -, heq⟩ | ⟨hx, heq⟩ := h.scheduleReport_cases
  · rw [heq]
    exact hk'
  · rw [heq]
    refine Kept.report hk' (eq_false_of_ne_true fun hwait => ?_)
    have hfalse := hk.waits (hw hwait) hwait
    rw [hx hk.flag] at hfalse
    cases hfalse

theorem Kept.setValue (hk : Kept h w) {value : F} (hh : Honest (.setValue value) (h, w)) :
    Kept (h.setValue value).1 (Trace.fold (Wait.call h.awaited) (h.setValue value).2 w) := by
  have hr := h.setValue_cases value
  generalize h.setValue value = r at hr ⊢
  have hk' : Kept { h with currentValue := value } w :=
    ⟨hk.flag, hk.early, hk.fresh, hk.same, hk.waits, hk.alone, hk.unused⟩
  cases hr with
  | same heq => exact hk'
  | inRange hne hin high low =>
    have hs := hk'.scheduleReport fun hwait => (hh hwait hne).mp hin
    exact ⟨hs.flag, hs.early, hs.fresh, hs.same, hs.waits, hs.alone, hs.unused⟩
  | outOfRange hne hout high low =>
    have hsame : w.waiting = true → h.pmin = h.pmax := fun hwait => by
      by_contra hp
      have hin := (hh hwait hne).mpr hp
      rw [hout] at hin
      cases hin
    simp only [Trace.fold_cons, Trace.fold_nil, Wait.call]
    by_cases he : h.pmin = h.pmax
    · rw [if_neg (by simp [M2MReportHandler.awaited, he])]
      exact ⟨hk.flag, hk.early, fun hne => absurd he hne, hk.same, fun hne => absurd he hne,
        fun _ => rfl, hk.unused⟩
    · rw [if_pos (by simp [M2MReportHandler.awaited, he])]
      exact ⟨hk.flag, hk.early, fun _ hwait => absurd (hsame hwait) he, fun h' => absurd h' he,
        fun _ hwait => absurd (hsame hwait) he, fun _ => rfl, hk.unused⟩

theorem Kept.trigger (hk : Kept h w) {id : UInt16}
    (hh : Honest (.setNotificationTrigger id : Event F) (h, w)) :
    Kept (h.setNotificationTrigger id).1
      (Trace.fold (Wait.call h.awaited) (h.setNotificationTrigger id).2 w) :=
  Kept.scheduleReport (h := { h with
    changedInstanceIds := h.changedInstanceIds.add id
    currentValue := CFloat.ofInt 0
    lastValue := CFloat.ofInt 1 })
    ⟨hk.flag, hk.early, hk.fresh, hk.same, hk.waits, hk.alone, hk.unused⟩ hh

omit [CFloat F] in
/-- The end of the awaited interval ends the waiting, for it is the interval of the last
notification. -/
theorem Wait.event_awaited (hearly : w.early = false) (hfresh : w.waiting = true → w.fresh = true)
    (awaited : M2MTimerObserver) :
    Wait.event awaited (.timerExpired awaited : Event F) w = ⟨false, false, false⟩ := by
  simp only [Wait.event, if_true, hearly]
  cases hwait : w.waiting with
  | false => rfl
  | true => rw [hfresh hwait]; rfl

theorem Kept.pminExpired (hk : Kept h w) (ha : h.pminTimer.armed = true) :
    Kept (h.occur (.timerExpired .pMinTimer)).1
      (Trace.fold (Wait.call h.awaited) (h.occur (.timerExpired .pMinTimer)).2
        (Wait.event h.awaited (.timerExpired .pMinTimer : Event F) w)) := by
  have he : h.pmin ≠ h.pmax := fun he => by rw [hk.alone he] at ha; cases ha
  have hw : Wait.event h.awaited (.timerExpired .pMinTimer : Event F) w =
      ⟨false, false, false⟩ := by
    rw [show h.awaited = .pMinTimer from if_neg he]
    exact Wait.event_awaited hk.early (fun hwait => hk.fresh he hwait ha) _
  have hk' : Kept h.pminOver ⟨false, false, false⟩ :=
    ⟨hk.flag, rfl, nofun, nofun, nofun, fun _ => rfl, hk.unused⟩
  rw [hw]
  obtain ⟨-, heq⟩ | ⟨-, heq⟩ := h.pmin_cases
  · rw [heq]
    exact hk'.report rfl
  · rw [heq]
    exact hk'

theorem Kept.pmaxExpired (hk : Kept h w) (ha : h.pmaxTimer.armed = true) :
    Kept (h.occur (.timerExpired .pMaxTimer)).1
      (Trace.fold (Wait.call h.awaited) (h.occur (.timerExpired .pMaxTimer)).2
        (Wait.event h.awaited (.timerExpired .pMaxTimer : Event F) w)) := by
  by_cases he : h.pmin = h.pmax
  · have hw : Wait.event h.awaited (.timerExpired .pMaxTimer : Event F) w =
        ⟨false, false, false⟩ := by
      rw [show h.awaited = .pMaxTimer from if_pos he]
      exact Wait.event_awaited hk.early (fun hwait => hk.same he hwait ha) _
    have hk' : Kept h.pmaxOver ⟨false, false, false⟩ :=
      ⟨hk.flag, rfl, nofun, nofun, nofun, hk.alone, fun _ => rfl⟩
    rw [hw]
    obtain ⟨-, heq⟩ | ⟨-, heq⟩ := h.pmax_cases
    · rw [heq]
      exact hk'.report rfl
    · rw [heq]
      exact hk'
  · have hw : Wait.event h.awaited (.timerExpired .pMaxTimer : Event F) w = w := by
      simp [Wait.event, M2MReportHandler.awaited, he]
    have hk' : Kept h.pmaxOver w :=
      ⟨hk.flag, hk.early, hk.fresh, fun h' => absurd h' he, hk.waits, hk.alone, fun _ => rfl⟩
    rw [hw]
    obtain ⟨hx, heq⟩ | ⟨-, heq⟩ := h.pmax_cases
    · rw [heq]
      -- the minimum period is over, so nobody waits
      refine hk'.report (eq_false_of_ne_true fun hwait => ?_)
      rw [hk.waits he hwait, hk.flag] at hx
      cases hx
    · rw [heq]
      exact hk'

theorem watch_other {type : M2MTimerObserver} (hmin : type ≠ .pMinTimer) (hmax : type ≠ .pMaxTimer)
    (s : Watched F) : watch (.timerExpired type) s = s := by
  have hw : Wait.event s.1.awaited (.timerExpired type : Event F) s.2 = s.2 := by
    rw [Wait.event, M2MReportHandler.awaited, if_neg]
    split_ifs <;> assumption
  rw [watch, s.1.occur_other hmin hmax, hw]
  rfl

end Steps

/-- One step keeps the observation. -/
theorem Kept.step (e : Event F) (s : Watched F) (hk : Kept s.1 s.2) (hok : Fires e s ∧ Honest e s) :
    Kept (watch e s).1 (watch e s).2 := by
  cases e with
  | setValue value => exact hk.setValue hok.2
  | setNotificationTrigger id => exact hk.trigger hok.2
  | timerExpired type =>
    by_cases hmin : type = .pMinTimer
    · subst hmin
      exact hk.pminExpired hok.1
    · by_cases hmax : type = .pMaxTimer
      · subst hmax
        exact hk.pmaxExpired hok.1
      · rw [watch_other hmin hmax]
        exact hk

theorem Kept.observed {h : M2MReportHandler F} (hp : h.has pminFlag = true) :
    Kept h.observed {} := by
  rw [h.observed_eq]
  refine ⟨hp, rfl, nofun, nofun, nofun, fun he => ?_, fun hx => ?_⟩
  · have he' : h.pmin = h.pmax := he
    rw [h.unstarted.restarted_pminTimer (by simp [M2MReportHandler.startsPmin,
      M2MReportHandler.unstarted, he'])]
    rfl
  · rw [h.unstarted.restarted_pmaxTimer hx]
    rfl

/-- In a run that never sets `_pmin_exceeded` early, no notification comes before its time. -/
theorem pmin_honoured (h : M2MReportHandler F) (hp : h.has pminFlag = true) (l : List (Event F))
    (hl : Trace.Along watch (fun e s => Fires e s ∧ Honest e s) l (h.observed, {})) :
    Trace.Always watch (fun s => s.2.early = false) l (h.observed, {}) :=
  hl.always (I := fun s => Kept s.1 s.2) (fun e s hk hok => hk.step e s hok) (fun _ hk => hk.early)
    (Kept.observed hp)

theorem pmin_honoured_deferred :
    let h : M2MReportHandler Int :=
      { attributeState := pminFlag ||| pmaxFlag, pmin := 2, pmax := 10 }
    h.checkAttributeValidity = true ∧
    Trace.Always watch (fun s => s.2.early = false)
      [.setValue 3, .timerExpired .pMinTimer, .setValue 4, .setNotificationTrigger 0,
        .timerExpired .pMinTimer, .setValue 5, .timerExpired .pMinTimer, .timerExpired .pMaxTimer]
      (h.observed, {}) :=
  ⟨by decide, pmin_honoured _ (by decide) _ (by decide +kernel)⟩

/-- A value out of range stops the running minimum period, and the next one is sent at once. -/
theorem early_after_outOfRange : ¬ ∀ (h : M2MReportHandler Int) (l : List (Event Int)),
    h.has pminFlag = true → 0 < h.pmin → h.checkAttributeValidity = true →
    Trace.Along watch Fires l (h.observed, {}) →
    Trace.Always watch (fun s => s.2.early = false) l (h.observed, {}) := by
  intro hall
  have hbad := hall { attributeState := pminFlag ||| gtFlag, pmin := 60, gt := 10 }
    [.setValue 20, .timerExpired .pMinTimer, .setValue 5, .setValue 30]
    (by decide) (by decide) (by decide) (by decide +kernel)
  exact absurd hbad (by decide +kernel)

end MbedClient.Report
