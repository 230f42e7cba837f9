import MbedClient.Report.Runs

/-! Triggers: a changed id is reported at once, or by the end of the running minimum period. -/
namespace MbedClient.Report
variable {F : Type*} [CFloat F]

/-- The events of an entity that is told of changes, not of values. -/
inductive Stimulus where
  | setNotificationTrigger (objInstanceId : UInt16)
  | timerExpired (type : M2MTimerObserver)
deriving DecidableEq

def Stimulus.event : Stimulus → Event F
  | .setNotificationTrigger id => .setNotificationTrigger id
  | .timerExpired type => .timerExpired type

def respond (t : Stimulus) (s : M2MReportHandler F × List Call) : M2MReportHandler F × List Call :=
  ((s.1.occur t.event).1, s.2 ++ (s.1.occur t.event).2)

def Delivered (id : UInt16) (calls : List Call) : Prop :=
  ∃ ids number sendObject, Call.observationToBeSent ids number sendObject ∈ calls ∧
    id ∈ ids.1 ∧ ids.1.Nodup

section Steps
variable {h : M2MReportHandler F}

/-- The minimum period is over, or its timer will say so. -/
def Supervised (h : M2MReportHandler F) : Prop :=
  h.has pminFlag = true → h.pminExceeded = true ∨ h.pminTimer.armed = true

theorem Supervised.restarted : Supervised h.restarted := by
  intro hp
  have hp' : h.has pminFlag = true := hp
  by_cases he : h.pmin = h.pmax
  · exact Or.inl (by simp [M2MReportHandler.restarted, hp', he])
  · refine Or.inr ?_
    simp [M2MReportHandler.restarted, M2MReportHandler.startsPmin, hp', he]

theorem Supervised.report : Supervised h.report.1 := by
  have hr := h.report_cases
  generalize h.report = r at hr ⊢
  cases hr with
  | value hne hn => exact Supervised.restarted
  | pmax hno hx => exact Supervised.restarted
  | nothing hno hx => exact Supervised.restarted

theorem Supervised.scheduleReport (hs : Supervised h) : Supervised h.scheduleReport.1 := by
  obtain ⟨-, -, heq⟩ | ⟨-, heq⟩ := h.scheduleReport_cases
  · rw [heq]
    exact hs
  · rw [heq]
    exact Supervised.report

theorem Supervised.occur (hs : Supervised h) (e : Event F) : Supervised (h.occur e).1 := by
  cases e with
  | setValue value =>
    have hr := h.setValue_cases value
    change Supervised (h.setValue value).1
    generalize h.setValue value = r at hr ⊢
    cases hr with
    | same heq => exact hs
    | inRange hne hin high low =>
      exact Supervised.scheduleReport (h := { h with currentValue := value }) hs
    | outOfRange hne hout high low => exact fun _ => Or.inl rfl
  | setNotificationTrigger id =>
    exact Supervised.scheduleReport (h := { h with
      changedInstanceIds := h.changedInstanceIds.add id
      currentValue := CFloat.ofInt 0
      lastValue := CFloat.ofInt 1 }) hs
  | timerExpired type =>
    by_cases hmin : type = .pMinTimer
    · subst hmin
      obtain ⟨-, heq⟩ | ⟨-, heq⟩ := h.pmin_cases
      · rw [heq]
        exact Supervised.report
      · rw [heq]
        exact fun _ => Or.inl rfl
    · by_cases hmax : type = .pMaxTimer
      · subst hmax
        obtain ⟨-, heq⟩ | ⟨-, heq⟩ := h.pmax_cases
        · rw [heq]
          exact Supervised.report
        · rw [heq]
          exact hs
      · rw [h.occur_other hmin hmax]
        exact hs

/-- Ids are collected for a report that has been asked for. -/
def Announced (h : M2MReportHandler F) : Prop :=
  h.changedInstanceIds ≠ ChangedIds.empty → h.notify = true

theorem Announced.report (hs : Announced h) : Announced h.report.1 := by
  have hr := h.report_cases
  generalize h.report = r at hr ⊢
  cases hr with
  | value hne hn => exact fun hne => absurd rfl hne
  | pmax hno hx => exact fun hne => absurd rfl hne
  | nothing hno hx => exact hs

theorem Announced.respond (hs : Announced h) (t : Stimulus) :
    Announced (h.occur (t.event : Event F)).1 := by
  cases t with
  | setNotificationTrigger id =>
    change Announced (M2MReportHandler.scheduleReport _).1
    obtain ⟨-, -, heq⟩ | ⟨-, heq⟩ := M2MReportHandler.scheduleReport_cases { h with
      changedInstanceIds := h.changedInstanceIds.add id
      currentValue := CFloat.ofInt 0
      lastValue := CFloat.ofInt 1 }
    · rw [heq]
      exact fun _ => rfl
    · rw [heq]
      exact Announced.report fun _ => rfl
  | timerExpired type =>
    change Announced (h.occur (.timerExpired type)).1
    by_cases hmin : type = .pMinTimer
    · subst hmin
      obtain ⟨-, heq⟩ | ⟨-, heq⟩ := h.pmin_cases
      · rw [heq]
        exact Announced.report (h := h.pminOver) hs
      · rw [heq]
        exact hs
    · by_cases hmax : type = .pMaxTimer
      · subst hmax
        obtain ⟨-, heq⟩ | ⟨-, heq⟩ := h.pmax_cases
        · rw [heq]
          exact Announced.report (h := h.pmaxOver) hs
        · rw [heq]
          exact hs
      · rw [h.occur_other hmin hmax]
        exact hs

/-- An id whose report waits for the end of the minimum period. -/
structure Deferred (id : UInt16) (h : M2MReportHandler F) : Prop where
  flag : h.has pminFlag = true
  running : h.pminExceeded = false
  notify : h.notify = true
  changed : CFloat.eq h.currentValue h.lastValue = false
  mem : id ∈ h.changedInstanceIds.1

/-- A report of a changed value takes the collected ids with it. -/
theorem report_delivers (hne : CFloat.eq h.currentValue h.lastValue = false) (hn : h.notify = true)
    {id : UInt16} (hid : id ∈ h.changedInstanceIds.1) : Delivered id h.report.2 := by
  have hr := h.report_cases
  generalize h.report = r at hr ⊢
  cases hr with
  | value _ _ => exact ⟨_, _, _, List.mem_cons_self, hid, h.changedInstanceIds.2⟩
  | pmax hno hx =>
    rw [hno hn] at hne
    cases hne
  | nothing hno hx =>
    rw [hno hn] at hne
    cases hne

theorem Deferred.respond {id : UInt16} (hd : Deferred id h) {t : Stimulus}
    (ht : t ≠ .timerExpired .pMinTimer) : Deferred id (h.occur (t.event : Event F)).1 := by
  cases t with
  | setNotificationTrigger id' =>
    change Deferred id (M2MReportHandler.scheduleReport _).1
    obtain ⟨-, -, heq⟩ | ⟨hx, -⟩ := M2MReportHandler.scheduleReport_cases { h with
      changedInstanceIds := h.changedInstanceIds.add id'
      currentValue := CFloat.ofInt 0
      lastValue := CFloat.ofInt 1 }
    · rw [heq]
      exact ⟨hd.flag, hd.running, rfl, CFloat.zero_ne_one, ChangedIds.mem_add_of_mem hd.mem id'⟩
    · have hx' : h.pminExceeded = true := hx hd.flag
      rw [hd.running] at hx'
      cases hx'
  | timerExpired type =>
    change Deferred id (h.occur (.timerExpired type)).1
    have hmin : type ≠ .pMinTimer := fun he => ht (congrArg _ he)
    by_cases hmax : type = .pMaxTimer
    · subst hmax
      obtain ⟨hx, -⟩ | ⟨-, heq⟩ := h.pmax_cases
      · rw [hd.running, hd.flag] at hx
        cases hx
      · rw [heq]
        exact ⟨hd.flag, hd.running, hd.notify, hd.changed, hd.mem⟩
    · rw [h.occur_other hmin hmax]
      exact hd

theorem Deferred.delivers {id : UInt16} (hd : Deferred id h) :
    Delivered id (h.occur (.timerExpired .pMinTimer)).2 := by
  obtain ⟨-, heq⟩ | ⟨hn, -⟩ := h.pmin_cases
  · rw [heq]
    exact report_delivers (h := h.pminOver) hd.changed hd.notify hd.mem
  · rw [hd.notify] at hn
    cases hn

end Steps

theorem Delivered.mono {id : UInt16} {calls calls' : List Call} (h : Delivered id calls)
    (hsub : ∀ c ∈ calls, c ∈ calls') : Delivered id calls' := by
  obtain ⟨ids, number, sendObject, hmem, hid⟩ := h
  exact ⟨ids, number, sendObject, hsub _ hmem, hid⟩

/-- Calls made stay made. -/
theorem calls_kept {l : List Stimulus} {s : M2MReportHandler F × List Call} :
    ∀ c ∈ s.2, c ∈ (Trace.fold respond l s).2 :=
  Trace.fold_invariant (I := fun s' : M2MReportHandler F × List Call => ∀ c ∈ s.2, c ∈ s'.2)
    (fun _ _ _ hs' c hc => List.mem_append_left _ (hs' c hc)) fun _ hc => hc

section Deferral
variable {h : M2MReportHandler F} {id : UInt16} {calls : List Call}

theorem delivered_at_once (hx : h.has pminFlag = true → h.pminExceeded = true) :
    Delivered id (respond (.setNotificationTrigger id) (h, calls)).2 := by
  have hcall : Delivered id (h.setNotificationTrigger id).2 := by
    change Delivered id (M2MReportHandler.scheduleReport _).2
    obtain ⟨hp, hx', -⟩ | ⟨-, heq⟩ := M2MReportHandler.scheduleReport_cases { h with
      changedInstanceIds := h.changedInstanceIds.add id
      currentValue := CFloat.ofInt 0
      lastValue := CFloat.ofInt 1 }
    · have hx'' : h.pminExceeded = false := hx'
      rw [hx hp] at hx''
      cases hx''
    · rw [heq]
      exact report_delivers (h := { h with
        changedInstanceIds := h.changedInstanceIds.add id
        currentValue := CFloat.ofInt 0
        lastValue := CFloat.ofInt 1
        notify := true }) CFloat.zero_ne_one rfl (ChangedIds.mem_add _ id)
  exact hcall.mono fun c hc => List.mem_append_right _ hc

theorem deferred_otherwise (hp : h.has pminFlag = true) (hx : h.pminExceeded = false) :
    Deferred id (respond (.setNotificationTrigger id) (h, calls)).1 := by
  change Deferred id (M2MReportHandler.scheduleReport _).1
  obtain ⟨-, -, heq⟩ | ⟨hx', -⟩ := M2MReportHandler.scheduleReport_cases { h with
    changedInstanceIds := h.changedInstanceIds.add id
    currentValue := CFloat.ofInt 0
    lastValue := CFloat.ofInt 1 }
  · rw [heq]
    exact ⟨hp, hx, rfl, CFloat.zero_ne_one, ChangedIds.mem_add _ id⟩
  · have hx'' : h.pminExceeded = true := hx' hp
    rw [hx] at hx''
    cases hx''

theorem delivered_by_end (h : M2MReportHandler F) {meanwhile : List Stimulus}
    (hm : .timerExpired .pMinTimer ∉ meanwhile) :
    Delivered id (Trace.fold respond
      (.setNotificationTrigger id :: meanwhile ++ [.timerExpired .pMinTimer]) (h, calls)).2 := by
  rw [List.cons_append, Trace.fold_cons]
  by_cases hx : h.has pminFlag = true → h.pminExceeded = true
  · exact (delivered_at_once hx).mono calls_kept
  · simp only [Classical.not_imp, Bool.not_eq_true] at hx
    have hd : Deferred id (Trace.fold respond meanwhile
        (respond (.setNotificationTrigger id) (h, calls))).1 :=
      Trace.fold_invariant (I := fun s : M2MReportHandler F × List Call => Deferred id s.1)
        (fun t ht s hs => hs.respond fun he => hm (he ▸ ht)) (deferred_otherwise hx.1 hx.2)
    rw [Trace.fold_append, Trace.fold_cons, Trace.fold_nil]
    exact hd.delivers.mono fun c hc => List.mem_append_right _ hc

end Deferral

/-- Every trigger of a run is delivered, at once or by the end of the running minimum period; and
in every state of the run that end is going to come. -/
theorem trigger_delivered (h : M2MReportHandler F) (before : List Stimulus) :
    let s := (Trace.fold respond before (h.observed, [])).1
    (s.has pminFlag = true → s.pminExceeded = true ∨ s.pminTimer.armed = true) ∧
    ((h.changedInstanceIds ≠ ChangedIds.empty → h.notify = true) →
      s.changedInstanceIds ≠ ChangedIds.empty → s.notify = true) ∧
    ∀ id : UInt16,
      ((s.has pminFlag = true → s.pminExceeded = true) →
        Delivered id (respond (.setNotificationTrigger id) (s, [])).2) ∧
      ∀ meanwhile : List Stimulus, .timerExpired .pMinTimer ∉ meanwhile →
        Delivered id (Trace.fold respond
          (.setNotificationTrigger id :: meanwhile ++ [.timerExpired .pMinTimer]) (s, [])).2 := by
  refine ⟨?_, fun hquiet => ?_, fun id => ⟨delivered_at_once, fun _ => delivered_by_end _⟩⟩
  · refine Trace.fold_invariant (I := fun s : M2MReportHandler F × List Call => Supervised s.1)
      (fun t _ s hs => hs.occur t.event) ?_
    rw [h.observed_eq]
    exact Supervised.restarted
  · refine Trace.fold_invariant (I := fun s : M2MReportHandler F × List Call => Announced s.1)
      (fun t _ s hs => hs.respond t) ?_
    rw [h.observed_eq]
    exact hquiet

end MbedClient.Report
