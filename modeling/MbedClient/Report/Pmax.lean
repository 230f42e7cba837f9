import MbedClient.Report.Trigger

/-! The maximum period: every expiry of the `pmax` timer is answered, and none is answered twice. -/
namespace MbedClient.Report
variable {F : Type*} [CFloat F]

/-- What an observer of the `pmax` timer and of the notifications knows. -/
structure Beat where
  /-- the timer has expired since the last notification -/
  pending : Bool := false
  missed : Bool := false
  spurious : Bool := false
deriving DecidableEq

namespace Beat

def call : Call → Beat → Beat
  | .observationToBeSent _ _ sendObject, b =>
    ⟨false, b.missed, b.spurious || (sendObject && !b.pending)⟩
  | _, b => b

def before : Event F → Beat → Beat
  | .timerExpired .pMaxTimer, b => { b with pending := true }
  | _, b => b

/-- An expiry still pending when the minimum period ends has been missed. -/
def after : Event F → Beat → Beat
  | .timerExpired .pMinTimer, b => { b with missed := b.missed || b.pending }
  | _, b => b

end Beat

def beat (e : Event F) (s : M2MReportHandler F × Beat) : M2MReportHandler F × Beat :=
  ((s.1.occur e).1, Beat.after e (Trace.fold Beat.call (s.1.occur e).2 (Beat.before e s.2)))

/-- No expiry is missed or answered twice, and one that is pending waits for a timer that runs. -/
def Exact (s : M2MReportHandler F × Beat) : Prop :=
  s.2.missed = false ∧ s.2.spurious = false ∧ (s.2.pending = true → s.1.pminTimer.armed = true)

/-- The steps that answer a pending expiry, and only that: no value out of range while one is
pending, and the end of the minimum period finds a report asked for if one is pending, and finds no
`_pmax_exceeded` left over from an earlier one to report a value that has not changed. -/
def InTime : Event F → M2MReportHandler F × Beat → Prop
  | .setValue value, s => s.2.pending = true → CFloat.eq value s.1.lastValue = false →
      { s.1 with currentValue := value }.checkThresholdValues = true
  | .timerExpired .pMinTimer, s => (s.2.pending = true → s.1.notify = true) ∧
      (s.1.notify = true → CFloat.eq s.1.currentValue s.1.lastValue = true →
        s.1.pmaxExceeded = true → s.2.pending = true)
  | _, _ => True

instance (s : M2MReportHandler F × Beat) : Decidable (Exact s) :=
  inferInstanceAs (Decidable (_ ∧ _ ∧ _))

instance (e : Event F) (s : M2MReportHandler F × Beat) : Decidable (InTime e s) :=
  match e with
  | .setValue _ => inferInstanceAs (Decidable (_ → _ → _))
  | .timerExpired .pMinTimer => inferInstanceAs (Decidable (_ ∧ _))
  | .timerExpired .notdefined | .timerExpired .registration | .timerExpired .nsdlExecution
  | .timerExpired .pMaxTimer | .timerExpired .dtls | .timerExpired .queueSleep
  | .timerExpired .retryTimer | .timerExpired .bootstrapFlowTimer
  | .timerExpired .registrationFlowTimer
  | .setNotificationTrigger _ => inferInstanceAs (Decidable True)

/-- What a run keeps as long as its steps are in time. -/
structure Paced (h : M2MReportHandler F) (b : Beat) : Prop where
  flag : h.has pmaxFlag = true
  supervised : Supervised h
  missed : b.missed = false
  spurious : b.spurious = false
  exceeded : b.pending = true → h.pmaxExceeded = true
  pmin : b.pending = true → h.has pminFlag = true
  running : b.pending = true → h.pminExceeded = false

section Steps
variable {h : M2MReportHandler F} {b : Beat}

theorem Paced.exact (hp : Paced h b) : Exact (h, b) := by
  refine ⟨hp.missed, hp.spurious, fun hpend => ?_⟩
  cases hp.supervised (hp.pmin hpend) with
  | inl hx => rw [hp.running hpend] at hx; cases hx
  | inr ha => exact ha

theorem fold_timerCalls (h : M2MReportHandler F) (b : Beat) :
    Trace.fold Beat.call h.timerCalls b = b := by
  simp only [M2MReportHandler.timerCalls]
  split_ifs <;> rfl

/-- A report keeps the pace, if it says twice what the `pmax` timer said once only where that is
pending. -/
theorem Paced.report (hf : h.has pmaxFlag = true) (hm : b.missed = false) (hs : b.spurious = false)
    (hx : b.pending = true → h.pmaxExceeded = true)
    (honce : (h.notify = true → CFloat.eq h.currentValue h.lastValue = true) →
      h.pmaxExceeded = true → b.pending = true) :
    Paced h.report.1 (Trace.fold Beat.call h.report.2 b) ∧
      (Trace.fold Beat.call h.report.2 b).pending = false := by
  have hsup : Supervised h.report.1 := Supervised.report
  have hr := h.report_cases
  generalize h.report = r at hr hsup ⊢
  cases hr with
  | value hne hn =>
    rw [Trace.fold_append, fold_timerCalls]
    exact ⟨⟨hf, hsup, hm, by simp [Beat.call, hs], nofun, nofun, nofun⟩, rfl⟩
  | pmax hno hx' =>
    rw [Trace.fold_cons, fold_timerCalls]
    exact ⟨⟨hf, hsup, hm, by simp [Beat.call, hs, honce hno hx'], nofun, nofun, nofun⟩, rfl⟩
  | nothing hno hx' =>
    have hpend : ¬ b.pending = true := fun hp => by
      rw [hx hp] at hx'
      cases hx'
    rw [fold_timerCalls]
    exact ⟨⟨hf, hsup, hm, hs, fun hp => absurd hp hpend, fun hp => absurd hp hpend,
      fun hp => absurd hp hpend⟩, eq_false_of_ne_true hpend⟩

theorem Paced.scheduleReport (hp : Paced h b)
    (hne : CFloat.eq h.currentValue h.lastValue = false) :
    Paced h.scheduleReport.1 (Trace.fold Beat.call h.scheduleReport.2 b) := by
  obtain ⟨-, -, heq⟩ | ⟨hx, heq⟩ := h.scheduleReport_cases
  · rw [heq]
    exact ⟨hp.flag, hp.supervised, hp.missed, hp.spurious, hp.exceeded, hp.pmin, hp.running⟩
  · rw [heq]
    refine (Paced.report (h := { h with notify := true }) hp.flag hp.missed hp.spurious hp.exceeded
      fun hno => ?_).1
    have heq' : CFloat.eq h.currentValue h.lastValue = true := hno rfl
    rw [hne] at heq'
    cases heq'

theorem Paced.setValue (hp : Paced h b) {value : F} (hok : InTime (.setValue value) (h, b)) :
    Paced (h.setValue value).1 (Trace.fold Beat.call (h.setValue value).2 b) := by
  have hr := h.setValue_cases value
  generalize h.setValue value = r at hr ⊢
  have hp' : Paced { h with currentValue := value } b :=
    ⟨hp.flag, hp.supervised, hp.missed, hp.spurious, hp.exceeded, hp.pmin, hp.running⟩
  cases hr with
  | same heq => exact hp'
  | inRange hne hin high low =>
    have hs := hp'.scheduleReport hne
    exact ⟨hs.flag, hs.supervised, hs.missed, hs.spurious, hs.exceeded, hs.pmin, hs.running⟩
  | outOfRange hne hout high low =>
    have hpend : ¬ b.pending = true := fun hpend => by
      rw [hok hpend hne] at hout
      cases hout
    exact ⟨hp.flag, fun _ => Or.inl rfl, hp.missed, hp.spurious, hp.exceeded, hp.pmin,
      fun hf => absurd hf hpend⟩

theorem Paced.pminExpired (hp : Paced h b)
    (hok : InTime (.timerExpired .pMinTimer : Event F) (h, b)) :
    Paced (beat (.timerExpired .pMinTimer) (h, b)).1
      (beat (.timerExpired .pMinTimer) (h, b)).2 := by
  obtain ⟨hn, heq⟩ | ⟨hn, heq⟩ := h.pmin_cases
  · rw [hp.flag, Bool.not_true, Bool.and_false, Bool.or_false] at hn
    obtain ⟨hs, hpend⟩ := Paced.report (h := h.pminOver) hp.flag hp.missed hp.spurious hp.exceeded
      fun hno => hok.2 hn (hno hn)
    rw [beat, heq]
    refine ⟨hs.flag, hs.supervised, ?_, hs.spurious, hs.exceeded, hs.pmin, hs.running⟩
    change ((Trace.fold Beat.call h.pminOver.report.2 b).missed ||
      (Trace.fold Beat.call h.pminOver.report.2 b).pending) = false
    rw [hs.missed, hpend]
    rfl
  · have hpend : ¬ b.pending = true := fun hpend => by
      rw [hok.1 hpend] at hn
      cases hn
    rw [beat, heq]
    refine ⟨hp.flag, fun _ => Or.inl rfl, ?_, hp.spurious, hp.exceeded, hp.pmin,
      fun hf => absurd hf hpend⟩
    change (b.missed || b.pending) = false
    rw [hp.missed, eq_false_of_ne_true hpend]
    rfl

theorem Paced.pmaxExpired (hp : Paced h b) :
    Paced (beat (.timerExpired .pMaxTimer) (h, b)).1
      (beat (.timerExpired .pMaxTimer) (h, b)).2 := by
  obtain ⟨-, heq⟩ | ⟨hx, heq⟩ := h.pmax_cases
  · rw [beat, heq]
    exact (Paced.report (h := h.pmaxOver) (b := { b with pending := true }) hp.flag hp.missed
      hp.spurious (fun _ => rfl) fun _ _ => rfl).1
  · rw [beat, heq]
    simp only [Bool.or_eq_false_iff, Bool.not_eq_false'] at hx
    exact ⟨hp.flag, hp.supervised, hp.missed, hp.spurious, fun _ => rfl, fun _ => hx.2,
      fun _ => hx.1⟩

theorem beat_other {type : M2MTimerObserver} (hmin : type ≠ .pMinTimer) (hmax : type ≠ .pMaxTimer) :
    beat (.timerExpired type) (h, b) = (h, b) := by
  have hafter : ∀ b, Beat.after (.timerExpired type : Event F) b = b := by
    intro b
    cases type <;> first | rfl | contradiction
  have hbefore : Beat.before (.timerExpired type : Event F) b = b := by
    cases type <;> first | rfl | contradiction
  rw [beat, h.occur_other hmin hmax, hafter, hbefore]
  rfl

/-- One step that is in time keeps the pace. -/
theorem Paced.step (e : Event F) (s : M2MReportHandler F × Beat) (hp : Paced s.1 s.2)
    (hok : InTime e s) : Paced (beat e s).1 (beat e s).2 := by
  cases e with
  | setValue value => exact hp.setValue hok
  | setNotificationTrigger id =>
    exact Paced.scheduleReport (h := { s.1 with
      changedInstanceIds := s.1.changedInstanceIds.add id
      currentValue := CFloat.ofInt 0
      lastValue := CFloat.ofInt 1 })
      ⟨hp.flag, hp.supervised, hp.missed, hp.spurious, hp.exceeded, hp.pmin, hp.running⟩
      CFloat.zero_ne_one
  | timerExpired type =>
    by_cases hmin : type = .pMinTimer
    · subst hmin
      exact hp.pminExpired hok
    · by_cases hmax : type = .pMaxTimer
      · subst hmax
        exact hp.pmaxExpired
      · rw [beat_other hmin hmax]
        exact hp

theorem setValue_inTime {value : F} (he : Exact (beat (.setValue value) (h, b))) :
    InTime (.setValue value) (h, b) := by
  intro hpend hne
  have hr := h.setValue_cases value
  have hstop : Exact ((h.setValue value).1, Trace.fold Beat.call (h.setValue value).2 b) := he
  generalize h.setValue value = r at hr hstop
  cases hr with
  | same heq =>
    rw [hne] at heq
    cases heq
  | inRange _ hin high low => exact hin
  | outOfRange _ hout high low => cases hstop.2.2 hpend

theorem Paced.pminExpired_inTime (hp : Paced h b)
    (he : Exact (beat (.timerExpired .pMinTimer) (h, b))) :
    InTime (.timerExpired .pMinTimer : Event F) (h, b) := by
  obtain ⟨hmiss, hspur, -⟩ := he
  refine ⟨fun hpend => ?_, fun hn heq hx => ?_⟩
  · by_contra hn
    obtain ⟨hn', -⟩ | ⟨-, heq⟩ := h.pmin_cases
    · rw [hp.flag, Bool.not_true, Bool.and_false, Bool.or_false] at hn'
      exact hn hn'
    · rw [beat, heq] at hmiss
      have hmiss' : (b.missed || b.pending) = false := hmiss
      rw [hpend, Bool.or_true] at hmiss'
      cases hmiss'
  · by_contra hpend
    obtain ⟨-, heq'⟩ | ⟨hn', -⟩ := h.pmin_cases
    · have hspur' : (Trace.fold Beat.call h.pminOver.report.2 b).spurious = false := by
        rw [← heq']
        exact hspur
      have hr := h.pminOver.report_cases
      generalize h.pminOver.report = r at hr hspur'
      cases hr with
      | value hne _ =>
        have hne' : CFloat.eq h.currentValue h.lastValue = false := hne
        rw [heq] at hne'
        cases hne'
      | pmax _ _ =>
        rw [Trace.fold_cons, fold_timerCalls] at hspur'
        simp [Beat.call, hpend] at hspur'
      | nothing _ hx' =>
        have hx'' : h.pmaxExceeded = false := hx'
        rw [hx] at hx''
        cases hx''
    · have hn'' : (h.notify || _) = false := hn'
      rw [hn] at hn''
      cases hn''

/-- A step that is not in time shows at once. -/
theorem Paced.inTime (e : Event F) (s : M2MReportHandler F × Beat) (hp : Paced s.1 s.2)
    (he : Exact (beat e s)) : InTime e s := by
  cases e with
  | setValue value => exact setValue_inTime he
  | setNotificationTrigger id => trivial
  | timerExpired type =>
    cases type with
    | pMinTimer => exact hp.pminExpired_inTime he
    | _ => trivial

end Steps

/-- The answers to the `pmax` timer are exact in every state of a run if and only if every step of
it is in time. -/
theorem pmax_exact_iff (h : M2MReportHandler F) (hp : h.has pmaxFlag = true) (l : List (Event F)) :
    Trace.Always beat Exact l (h.observed, {}) ↔ Trace.Along beat InTime l (h.observed, {}) := by
  refine Trace.always_iff_along (I := fun s : M2MReportHandler F × Beat => Paced s.1 s.2) Paced.step
    (fun _ hs => hs.exact) (fun e s hs he => hs.inTime e s he) ?_
  rw [h.observed_eq]
  exact ⟨hp, Supervised.restarted, rfl, rfl, nofun, nofun, nofun⟩

theorem pmax_exact_heartbeats :
    let h : M2MReportHandler Int :=
      { attributeState := pminFlag ||| pmaxFlag, pmin := 2, pmax := 10 }
    Trace.Always beat Exact
      [.timerExpired .pMinTimer, .timerExpired .pMaxTimer, .setValue 5, .timerExpired .pMinTimer,
        .setNotificationTrigger 0, .timerExpired .pMaxTimer, .timerExpired .pMinTimer]
      (h.observed, {}) :=
  (pmax_exact_iff _ (by decide) _).mpr (by decide +kernel)

/-- A deferred value that returns to the reported one is reported as an expiry of the `pmax` timer,
which has been answered before. -/
theorem answered_twice : ¬ ∀ (h : M2MReportHandler Int) (l : List (Event Int)),
    h.has pmaxFlag = true → 0 < h.pmax → h.checkAttributeValidity = true →
    Trace.Always beat Exact l (h.observed, {}) := by
  intro hall
  have hbad := hall { attributeState := pminFlag ||| pmaxFlag, pmin := 2, pmax := 10 }
    [.timerExpired .pMinTimer, .timerExpired .pMaxTimer, .setValue 5, .setValue 0,
      .timerExpired .pMinTimer] (by decide) (by decide) (by decide)
  exact absurd hbad (by decide +kernel)

end MbedClient.Report
