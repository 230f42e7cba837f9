import MbedClient.Report.Collected

/-! What a notification is sent for. It tells of a value only if the value has become another one
since the last notification, or the last value has been set back, and it names ids only that were
triggered since. -/
namespace MbedClient.Report
open M2MReportHandler

section News
variable {F : Type} [CFloatText F]

/-- What is new since the last notification, and whether the handler has had any value yet. -/
structure News where
  given : Bool := false
  value : Bool := false
  ids : List UInt16 := []

/-- The end of an observation and a query that is not taken forget which value was sent last. -/
def setsBack (h : M2MReportHandler F) : Input F → Bool
  | .event _ => false
  | .setUnderObservation observed => !observed
  | .query query type resourceType =>
    (h.handleObservationAttribute query.1 type resourceType).value.any fun r => !r.1

/-- A trigger plants a value. -/
def gives : Input F → Bool
  | .event (.setValue _) => true
  | .event (.setNotificationTrigger _) => true
  | _ => false

/-- The first value, or one that is not the value there is. -/
def changes (h : M2MReportHandler F) (n : News) : Input F → Bool
  | .event (.setValue value) => !n.given || !CFloat.eq value h.currentValue
  | .event (.setNotificationTrigger _) => true
  | _ => false

def triggered : Input F → List UInt16
  | .event (.setNotificationTrigger id) => [id]
  | _ => []

variable (h : M2MReportHandler F) (n : News)

def News.hear (i : Input F) : News where
  given := n.given || gives i
  value := n.value || changes h n i || setsBack h i
  ids := triggered i ++ n.ids

/-- Nothing is new once a notification has been sent. -/
def News.left (calls : List Call) : News := if numbers calls = [] then n else { given := n.given }

/-- The notifications among some calls are about something new. -/
def News.Covers (calls : List Call) : Prop :=
  ∀ ids obsNumber sendObject, Call.observationToBeSent ids obsNumber sendObject ∈ calls →
    (sendObject = false → n.value = true) ∧ ∀ id ∈ ids.1, id ∈ n.ids

/-- What the handler keeps to be sent is new, and so is a value other than the last one. -/
structure Known : Prop where
  value : h.notify = true → CFloat.eq h.currentValue h.lastValue = false → n.value = true
  differs : n.given = true → CFloat.eq h.currentValue h.lastValue = false →
    CFloat.eq h.currentValue h.currentValue = true → n.value = true
  ids : ∀ id ∈ h.changedInstanceIds.1, id ∈ n.ids

/-- What a function of the handler sends is new, and so is what it keeps. -/
structure Tells (r : M2MReportHandler F × List Call) : Prop where
  covers : n.Covers r.2
  known : Known r.1 (n.left r.2)

variable {h} {n}

theorem covers_timerCalls : n.Covers h.timerCalls := by
  intro ids obsNumber sendObject hmem
  unfold timerCalls at hmem
  split_ifs at hmem <;> simp at hmem

/-- A function that sends nothing. -/
theorem Tells.silent {r : M2MReportHandler F × List Call} (hcalls : numbers r.2 = [])
    (hk : Known r.1 n) : Tells n r where
  covers ids obsNumber sendObject hmem := by
    have hnumber : obsNumber ∈ numbers r.2 := List.mem_filterMap.mpr ⟨_, hmem, rfl⟩
    rw [hcalls] at hnumber
    cases hnumber
  known := by rwa [News.left, if_pos hcalls]

theorem Known.empty {given : Bool} (hlast : h.lastValue = h.currentValue)
    (hn : h.notify = true → CFloat.eq h.currentValue h.currentValue = true)
    (hids : h.changedInstanceIds = ChangedIds.empty) : Known h { given } where
  value hnotify hne := by
    rw [hlast, hn hnotify] at hne
    cases hne
  differs _ hne hsame := by
    rw [hlast, hsame] at hne
    cases hne
  ids id hid := by
    rw [hids] at hid
    cases hid

theorem Known.congr {h' : M2MReportHandler F} (hk : Known h n) (hn : h'.notify = h.notify)
    (hcurrent : h'.currentValue = h.currentValue) (hlast : h'.lastValue = h.lastValue)
    (hids : h'.changedInstanceIds = h.changedInstanceIds) : Known h' n where
  value := by
    rw [hn, hcurrent, hlast]
    exact hk.value
  differs := by
    rw [hcurrent, hlast]
    exact hk.differs
  ids := by
    rw [hids]
    exact hk.ids

theorem Known.of_value (hv : n.value = true) (hids : ∀ id ∈ h.changedInstanceIds.1, id ∈ n.ids) :
    Known h n := ⟨fun _ _ => hv, fun _ _ _ => hv, hids⟩

/-- Equality need not be reflexive, as it is not for NaN. -/
structure Partial (F : Type) [CFloatText F] : Prop where
  symm : ∀ a b : F, CFloat.eq a b = true → CFloat.eq b a = true
  trans : ∀ a b c : F, CFloat.eq a b = true → CFloat.eq b c = true → CFloat.eq a c = true

theorem Partial.refl (hF : Partial F) {a b : F} (h : CFloat.eq a b = true) :
    CFloat.eq a a = true := hF.trans a b a h (hF.symm a b h)

/-- A value that is not the last one is new, or has been since it was set. -/
theorem Known.changed (hF : Partial F) (hk : Known h n) {value : F}
    (hne : CFloat.eq value h.lastValue = false) :
    (n.hear h (.event (.setValue value))).value = true := by
  cases hgiven : n.given with
  | false => simp [News.hear, changes, hgiven]
  | true =>
    cases hsame : CFloat.eq value h.currentValue with
    | false => simp [News.hear, changes, hsame]
    | true =>
      have hback := hF.symm _ _ hsame
      have hlast : CFloat.eq h.currentValue h.lastValue = false := by
        refine Bool.eq_false_iff.mpr fun heq => ?_
        rw [hF.trans _ _ _ hsame heq] at hne
        cases hne
      simp [News.hear, hk.differs hgiven hlast (hF.refl hback)]

section Tell
variable (hF : Partial F) (hk : Known h n)
include hF hk

theorem Known.report : Tells n h.report := by
  have hr := h.report_cases
  generalize h.report = r at hr ⊢
  cases hr with
  | value hne hn =>
    refine ⟨?_, ?_⟩
    · intro ids obsNumber sendObject hmem
      rcases List.mem_append.mp hmem with hmem | hmem
      · simp only [List.mem_cons, Call.observationToBeSent.injEq, reduceCtorEq, List.not_mem_nil,
          or_false] at hmem
        obtain ⟨rfl, -, -⟩ := hmem
        exact ⟨fun _ => hk.value hn hne, hk.ids⟩
      · exact covers_timerCalls ids obsNumber sendObject hmem
    · rw [News.left, if_neg (by simp [numbers, Call.number])]
      exact Known.empty rfl (fun hnotify => by cases hnotify) rfl
  | pmax hno hx =>
    refine ⟨?_, ?_⟩
    · intro ids obsNumber sendObject hmem
      rcases List.mem_cons.mp hmem with heq | hmem
      · obtain ⟨rfl, -, rfl⟩ := Call.observationToBeSent.inj heq
        exact ⟨fun hwhole => absurd hwhole.symm Bool.false_ne_true, hk.ids⟩
      · exact covers_timerCalls ids obsNumber sendObject hmem
    · rw [News.left, if_neg (by simp [numbers, Call.number])]
      exact Known.empty rfl (fun hnotify => hF.refl (hno hnotify)) rfl
  | nothing hno hx =>
    refine Tells.silent (numbers_timerCalls h)
      ⟨fun hnotify hne => ?_, fun _ hne hsame => ?_, hk.ids⟩
    · have hsame : CFloat.eq h.currentValue h.currentValue = true := hF.refl (hno hnotify)
      exact absurd (hne.symm.trans hsame) Bool.false_ne_true
    · exact absurd (hne.symm.trans hsame) Bool.false_ne_true

omit hk in
theorem Tells.scheduleReport (hv : n.value = true)
    (hids : ∀ id ∈ h.changedInstanceIds.1, id ∈ n.ids) : Tells n h.scheduleReport := by
  obtain ⟨-, -, heq⟩ | ⟨-, heq⟩ := h.scheduleReport_cases
  · rw [heq]
    exact Tells.silent rfl (Known.of_value hv hids)
  · rw [heq]
    exact (Known.of_value (h := { h with notify := true }) hv hids).report hF

omit hk in
theorem Tells.setValue {value : F} (hv : CFloat.eq value h.lastValue = false → n.value = true)
    (hids : ∀ id ∈ h.changedInstanceIds.1, id ∈ n.ids) : Tells n (h.setValue value) := by
  have hw := h.setValue_cases value
  generalize h.setValue value = r at hw ⊢
  cases hw with
  | same heq =>
    refine Tells.silent rfl ⟨fun _ hne => ?_, fun _ hne _ => ?_, hids⟩
    · exact absurd (hne.symm.trans heq) Bool.false_ne_true
    · exact absurd (hne.symm.trans heq) Bool.false_ne_true
  | inRange hne hr high low =>
    have hsent : Tells n { h with currentValue := value }.scheduleReport :=
      Tells.scheduleReport hF (hv hne) hids
    exact ⟨hsent.covers, hsent.known.congr rfl rfl rfl rfl⟩
  | outOfRange hne hr high low => exact Tells.silent rfl (Known.of_value (hv hne) hids)

omit hk in
theorem Tells.trigger (hv : n.value = true) {id : UInt16} (hid : id ∈ n.ids)
    (hids : ∀ id ∈ h.changedInstanceIds.1, id ∈ n.ids) : Tells n (h.setNotificationTrigger id) := by
  refine Tells.scheduleReport hF hv fun id' hid' => ?_
  have hadded : id' ∈ (h.changedInstanceIds.add id).1 := hid'
  rw [ChangedIds.add] at hadded
  split_ifs at hadded
  · exact hids id' hadded
  · obtain hold | hnew := List.mem_append.mp hadded
    · exact hids id' hold
    · rwa [List.mem_singleton.mp hnew]

theorem Known.timerExpired (type : M2MTimerObserver) : Tells n (h.occur (.timerExpired type)) := by
  by_cases hmin : type = .pMinTimer
  · subst hmin
    have hover : Known h.pminOver n := hk.congr rfl rfl rfl rfl
    obtain ⟨-, heq⟩ | ⟨-, heq⟩ := h.pmin_cases
    · rw [heq]
      exact hover.report hF
    · rw [heq]
      exact Tells.silent rfl hover
  · by_cases hmax : type = .pMaxTimer
    · subst hmax
      have hover : Known h.pmaxOver n := hk.congr rfl rfl rfl rfl
      obtain ⟨-, heq⟩ | ⟨-, heq⟩ := h.pmax_cases
      · rw [heq]
        exact hover.report hF
      · rw [heq]
        exact Tells.silent rfl hover
    · rw [h.occur_other hmin hmax]
      exact Tells.silent rfl hk

omit hF in
theorem Known.setUnderObservation (observed : Bool) (hv : observed = false → n.value = true) :
    Tells n (h.setUnderObservation observed) := by
  cases observed with
  | false =>
    refine Tells.silent rfl (Known.of_value (hv rfl) fun id hid => ?_)
    cases hid
  | true =>
    have hsilent : numbers (h.setUnderObservation true).2 = [] := by
      rw [M2MReportHandler.setUnderObservation, if_pos rfl, handleTimers_eq]
      show numbers (_ ++ _) = []
      rw [numbers_append, numbers_timerCalls]
      rfl
    have hobserved : Known h.observed n := by
      rw [h.observed_eq]
      exact hk.congr rfl rfl rfl rfl
    exact Tells.silent hsilent hobserved

end Tell

/-- Whatever the handler is asked, it has heard of what it sends. -/
theorem Known.accept (hF : Partial F) (hk : Known h n) (i : Input F) :
    Tells (n.hear h i) (h.accept i) := by
  have hids : ∀ id ∈ h.changedInstanceIds.1, id ∈ (n.hear h i).ids :=
    fun id hid => List.mem_append_right _ (hk.ids id hid)
  have hheard : gives i = false → Known h (n.hear h i) := fun hgives =>
    ⟨fun hn hne => by simp [News.hear, hk.value hn hne],
      fun hgiven hne hsame => by
        simp only [News.hear, hgives, Bool.or_false] at hgiven
        simp [News.hear, hk.differs hgiven hne hsame],
      hids⟩
  cases i with
  | event e =>
    cases e with
    | setValue value => exact Tells.setValue hF (hk.changed hF) hids
    | setNotificationTrigger id =>
      exact Tells.trigger hF (by simp [News.hear, changes]) List.mem_cons_self hids
    | timerExpired type => exact (hheard rfl).timerExpired hF type
  | setUnderObservation observed =>
    refine (hheard rfl).setUnderObservation observed fun hend => ?_
    simp [News.hear, setsBack, hend]
  | query query type resourceType =>
    rw [M2MReportHandler.accept]
    cases hr : (h.handleObservationAttribute query.1 type resourceType).value with
    | none => exact Tells.silent rfl (hheard rfl)
    | some r =>
      dsimp only
      obtain ⟨h', hsame, hcases⟩ := h.handled_cases hr
      have hsame := hsame h
      have htaken : Known h' (n.hear h (.query query type resourceType)) :=
        (hheard rfl).congr (congrArg notify hsame :) (congrArg currentValue hsame :)
          (congrArg lastValue hsame :) (congrArg changedInstanceIds hsame :)
      obtain ⟨-, -, heq⟩ | ⟨-, heq⟩ | ⟨hno, heq⟩ := hcases
      · rw [heq]
        exact htaken.setUnderObservation true fun hend => absurd hend.symm Bool.false_ne_true
      · rw [heq]
        exact Tells.silent rfl htaken
      · rw [heq]
        refine Tells.silent rfl (Known.of_value ?_ fun id hid => ?_)
        · simp [News.hear, setsBack, hr, hno]
        · cases hid

def follow (i : Input F) (s : M2MReportHandler F × News) : M2MReportHandler F × News :=
  ((s.1.accept i).1, (s.2.hear s.1 i).left (s.1.accept i).2)

/-- Whatever a handler is asked from its construction on, and in whatever order, it tells of a value
only if the value has become another one since its last notification, or the last value has been set
back, and it names no id that has not been triggered since. -/
theorem only_news (hF : Partial F) (before : List (Input F)) (i : Input F) :
    let s := Trace.fold follow before ({}, {})
    (s.2.hear s.1 i).Covers (s.1.accept i).2 := by
  have hfirst : Known ({} : M2MReportHandler F) {} := by
    refine ⟨fun hnotify => ?_, fun hgiven => ?_, fun id hid => ?_⟩
    · cases hnotify
    · cases hgiven
    · cases hid
  have hknown : Known (Trace.fold follow before (({} : M2MReportHandler F), ({} : News))).1
      (Trace.fold follow before (({} : M2MReportHandler F), ({} : News))).2 := by
    exact Trace.fold_invariant (I := fun s : M2MReportHandler F × News => Known s.1 s.2)
      (fun i _ s hs => (hs.accept hF i).known) hfirst
  exact (hknown.accept hF i).covers

/-- Two values without write attributes, the second one twice. -/
theorem only_news_two :
    let s := Trace.fold follow [.event (.setValue 5)] (({} : M2MReportHandler Int), ({} : News))
    let value : Input Int := .event (.setValue 7)
    numbers (s.1.accept value).2 = [2] ∧ (s.2.hear s.1 value).Covers (s.1.accept value).2 ∧
      changes (follow value s).1 (follow value s).2 value = false := by
  refine ⟨by decide, only_news ⟨fun a b h => ?_, fun a b c h h' => ?_⟩ _ _, by decide⟩
  · exact beq_iff_eq.mpr (beq_iff_eq.mp h).symm
  · exact beq_iff_eq.mpr ((beq_iff_eq.mp h).trans (beq_iff_eq.mp h'))

end News
end MbedClient.Report
