import MbedClient.Report.Plain
import MbedClient.Report.Rejection
import MbedClient.Report.Trigger

/-! Everything that a report handler can be asked, in any order. An id that was collected stays
until a notification takes it along, and the notifications are numbered one after the other. -/
namespace MbedClient.Report
open Observe (BaseType)
open Copying

section Collected
variable {F : Type} [CFloatText F]

/-- What a report handler can be asked. A query is for the write attributes. -/
inductive Input (F : Type) where
  | event (e : Event F)
  | setUnderObservation (observed : Bool)
  | query (query : CString) (type : BaseType) (resourceType : ResourceType)

namespace M2MReportHandler
variable (h : M2MReportHandler F)

/-- A query that leaves the arrays it is copied to has no result, and is left out. -/
def accept (i : Input F) : M2MReportHandler F × List Call :=
  match i with
  | .event e => h.occur e
  | .setUnderObservation observed => h.setUnderObservation observed
  | .query query type resourceType =>
    match (h.handleObservationAttribute query.1 type resourceType).value with
    | none => (h, [])
    | some r => r.2

theorem adopt_withAttributes (resourceType : ResourceType) (a : Option (Assignment F))
    (x : M2MReportHandler F) :
    (h.adopt resourceType a).2.withAttributes x = h.withAttributes x := by
  cases a with
  | none => rfl
  | some a => exact h.assign_withAttributes x

theorem adoptAll_withAttributes (type : BaseType) (resourceType : ResourceType) (success : Bool)
    (options : List Bytes) (x : M2MReportHandler F) :
    (adoptAll type resourceType success h options).2.withAttributes x = h.withAttributes x := by
  induction options generalizing h success with
  | nil => rfl
  | cons option options ih =>
    rw [adoptAll]
    split_ifs
    · rw [ih, adopt_withAttributes]
    · exact h.adopt_withAttributes resourceType _ x

/-- A query touches nothing but the write attributes. -/
theorem parse_withAttributes {query : CString} {type : BaseType} {resourceType : ResourceType}
    {r : Bool × M2MReportHandler F}
    (hr : (h.parseNotificationAttribute query.1 type resourceType).value = some r)
    (x : M2MReportHandler F) : r.2.withAttributes x = h.withAttributes x := by
  by_cases hmem : ampersand ∈ query.1
  · rw [(h.parse_many type resourceType query hmem).1] at hr
    obtain rfl := Option.some.inj hr
    have hall := h.adoptAll_withAttributes type resourceType false (considered query.1) x
    split_ifs
    · exact hall
    · exact hall
  · rw [(h.parse_one type resourceType query hmem).1] at hr
    split_ifs at hr
    obtain rfl := Option.some.inj hr
    have hone := h.adopt_withAttributes resourceType (requested type query.1) x
    split_ifs
    · exact hone
    · exact hone

/-- The ways through a query: the attributes are taken, and timers restarted if somebody observes,
or everything is set back. -/
theorem handled_cases {query : CString} {type : BaseType} {resourceType : ResourceType}
    {r : Bool × M2MReportHandler F × List Call}
    (hr : (h.handleObservationAttribute query.1 type resourceType).value = some r) :
    ∃ h' : M2MReportHandler F, (∀ x, h'.withAttributes x = h.withAttributes x) ∧
      (r.1 = true ∧ h'.isUnderObservation = true ∧ r.2 = h'.setUnderObservation true ∨
        r.1 = true ∧ r.2 = (h', []) ∨ r.1 = false ∧ r.2 = (h'.setDefaultValues, [])) := by
  rw [handleObservationAttribute, value_bind] at hr
  obtain ⟨p, hp, hr⟩ := Option.bind_eq_some_iff.mp hr
  refine ⟨p.2, fun x => h.parse_withAttributes hp x, ?_⟩
  dsimp only at hr
  split_ifs at hr with hsuccess hunder
  · obtain rfl := Option.some.inj hr
    exact .inl ⟨hsuccess, hunder, rfl⟩
  · obtain rfl := Option.some.inj hr
    exact .inr (.inl ⟨hsuccess, rfl⟩)
  · obtain rfl := Option.some.inj hr
    exact .inr (.inr ⟨Bool.eq_false_iff.mpr hsuccess, rfl⟩)

theorem timerExpired_passing (type : M2MTimerObserver) :
    Passing (F := F) (·.occur (.timerExpired type)) := by
  intro h
  dsimp only
  by_cases hmin : type = .pMinTimer
  · subst hmin
    obtain ⟨-, heq⟩ | ⟨-, heq⟩ := h.pmin_cases
    · rw [heq]
      exact report_passing h.pminOver
    · rw [heq]
      exact ⟨rfl, rfl⟩
  · by_cases hmax : type = .pMaxTimer
    · subst hmax
      obtain ⟨-, heq⟩ | ⟨-, heq⟩ := h.pmax_cases
      · rw [heq]
        exact report_passing h.pmaxOver
      · rw [heq]
        exact ⟨rfl, rfl⟩
    · rw [h.occur_other hmin hmax]
      exact ⟨rfl, rfl⟩

end M2MReportHandler

/-! Ids that were collected. -/
section Carried
open M2MReportHandler
variable {h : M2MReportHandler F} {id : UInt16}

/-- An id that was collected is still there, or a notification has it. -/
def Carried (id : UInt16) (r : M2MReportHandler F × List Call) : Prop :=
  id ∈ r.1.changedInstanceIds.1 ∨ Delivered id r.2

theorem Carried.report (hid : id ∈ h.changedInstanceIds.1) : Carried id h.report := by
  have hr := h.report_cases
  generalize h.report = r at hr
  cases hr with
  | value hne hn =>
    exact .inr ⟨_, _, _, List.mem_cons_self, hid, h.changedInstanceIds.2⟩
  | pmax hno hx =>
    exact .inr ⟨_, _, _, List.mem_cons_self, hid, h.changedInstanceIds.2⟩
  | nothing hno hx => exact .inl hid

theorem Carried.scheduleReport (hid : id ∈ h.changedInstanceIds.1) :
    Carried id h.scheduleReport := by
  obtain ⟨-, -, heq⟩ | ⟨-, heq⟩ := h.scheduleReport_cases
  · rw [heq]
    exact .inl hid
  · rw [heq]
    exact Carried.report (h := { h with notify := true }) hid

theorem Carried.trigger (hid : id ∈ h.changedInstanceIds.1) (id' : UInt16) :
    Carried id (h.setNotificationTrigger id') :=
  Carried.scheduleReport (h := { h with
    changedInstanceIds := h.changedInstanceIds.add id'
    currentValue := CFloat.ofInt 0
    lastValue := CFloat.ofInt 1 }) (ChangedIds.mem_add_of_mem hid id')

/-- The id of a trigger joins them. -/
theorem Carried.triggered (h : M2MReportHandler F) (id : UInt16) :
    Carried id (h.setNotificationTrigger id) :=
  Carried.scheduleReport (h := { h with
    changedInstanceIds := h.changedInstanceIds.add id
    currentValue := CFloat.ofInt 0
    lastValue := CFloat.ofInt 1 }) (ChangedIds.mem_add _ id)

theorem Carried.timerExpired (hid : id ∈ h.changedInstanceIds.1) (type : M2MTimerObserver) :
    Carried id (h.occur (.timerExpired type)) := by
  by_cases hmin : type = .pMinTimer
  · subst hmin
    obtain ⟨-, heq⟩ | ⟨-, heq⟩ := h.pmin_cases
    · rw [heq]
      exact Carried.report (h := h.pminOver) hid
    · rw [heq]
      exact .inl hid
  · by_cases hmax : type = .pMaxTimer
    · subst hmax
      obtain ⟨-, heq⟩ | ⟨-, heq⟩ := h.pmax_cases
      · rw [heq]
        exact Carried.report (h := h.pmaxOver) hid
      · rw [heq]
        exact .inl hid
    · rw [h.occur_other hmin hmax]
      exact .inl hid

theorem changedInstanceIds_of_withAttributes {h' : M2MReportHandler F}
    (hsame : ∀ x, h'.withAttributes x = h.withAttributes x) :
    h'.changedInstanceIds = h.changedInstanceIds := by
  have hids := congrArg changedInstanceIds (hsame h)
  exact hids

/-- The start of an observation keeps what was collected. -/
theorem observed_changedInstanceIds (h : M2MReportHandler F) :
    (h.setUnderObservation true).1.changedInstanceIds = h.changedInstanceIds := by
  have hids := congrArg changedInstanceIds h.observed_eq
  exact hids

theorem observed_observationNumber (h : M2MReportHandler F) :
    (h.setUnderObservation true).1.observationNumber = h.observationNumber := by
  have hnumber := congrArg observationNumber h.observed_eq
  exact hnumber

end Carried

/-! Ids that are collected are due: the report that takes them along has been asked for. -/
section Due
open M2MReportHandler
variable {h : M2MReportHandler F}

/-- Ids are collected only for a report that is going to be sent. -/
def Due (h : M2MReportHandler F) : Prop :=
  h.changedInstanceIds ≠ ChangedIds.empty →
    h.notify = true ∧ CFloat.eq h.currentValue h.lastValue = false

theorem Due.of_empty (hnone : h.changedInstanceIds = ChangedIds.empty) : Due h :=
  fun hne => absurd hnone hne

theorem Due.report (hd : Due h) : h.report.1.changedInstanceIds = ChangedIds.empty := by
  have hr := h.report_cases
  generalize h.report = r at hr
  cases hr with
  | value hne hn => rfl
  | pmax hno hx => rfl
  | nothing hno hx =>
    by_contra hids
    obtain ⟨hn, hne⟩ := hd hids
    rw [hno hn] at hne
    cases hne

theorem Due.trigger (h : M2MReportHandler F) (id : UInt16) :
    Due (h.setNotificationTrigger id).1 := by
  have hasked : Due { h with
      changedInstanceIds := h.changedInstanceIds.add id
      currentValue := CFloat.ofInt 0
      lastValue := CFloat.ofInt 1
      notify := true } := fun _ => ⟨rfl, CFloat.zero_ne_one⟩
  change Due (M2MReportHandler.scheduleReport _).1
  obtain ⟨-, -, heq⟩ | ⟨-, heq⟩ := M2MReportHandler.scheduleReport_cases { h with
    changedInstanceIds := h.changedInstanceIds.add id
    currentValue := CFloat.ofInt 0
    lastValue := CFloat.ofInt 1 }
  · rw [heq]
    exact hasked
  · rw [heq]
    exact Due.of_empty hasked.report

/-- At the end of the minimum period nothing stays collected. -/
theorem Due.pmin (hd : Due h) :
    (h.occur (.timerExpired .pMinTimer)).1.changedInstanceIds = ChangedIds.empty := by
  obtain ⟨-, heq⟩ | ⟨hn, heq⟩ := h.pmin_cases
  · rw [heq]
    exact Due.report (h := h.pminOver) hd
  · rw [heq]
    by_contra hids
    have hnotify : h.notify = true := (hd hids).1
    rw [hnotify] at hn
    cases hn

theorem Due.timerExpired (hd : Due h) (type : M2MTimerObserver) :
    Due (h.occur (.timerExpired type)).1 := by
  by_cases hmin : type = .pMinTimer
  · subst hmin
    exact Due.of_empty hd.pmin
  · by_cases hmax : type = .pMaxTimer
    · subst hmax
      obtain ⟨-, heq⟩ | ⟨-, heq⟩ := h.pmax_cases
      · rw [heq]
        exact Due.of_empty (Due.report (h := h.pmaxOver) hd)
      · rw [heq]
        exact hd
    · rw [h.occur_other hmin hmax]
      exact hd

theorem Due.of_withAttributes {h' : M2MReportHandler F} (hd : Due h)
    (hsame : ∀ x, h'.withAttributes x = h.withAttributes x) : Due h' := by
  have hids := congrArg changedInstanceIds (hsame h)
  have hnotify := congrArg notify (hsame h)
  have hcurrent := congrArg currentValue (hsame h)
  have hlast := congrArg lastValue (hsame h)
  dsimp only [withAttributes] at hids hnotify hcurrent hlast
  rwa [Due, hids, hnotify, hcurrent, hlast]

theorem Due.setUnderObservation (hd : Due h) (observed : Bool) :
    Due (h.setUnderObservation observed).1 := by
  cases observed with
  | false => exact Due.of_empty rfl
  | true =>
    have hobserved : Due h.observed := by
      rw [h.observed_eq]
      exact hd
    exact hobserved

end Due

/-! The numbers of the notifications. -/
section Numbers
open M2MReportHandler
variable {h : M2MReportHandler F}

def Call.number : Call → Option UInt16
  | .observationToBeSent _ obsNumber _ => some obsNumber
  | .startTimer _ _ => none
  | .stopTimer _ => none

def numbers (calls : List Call) : List UInt16 := calls.filterMap Call.number

@[simp] theorem numbers_nil : numbers [] = [] := rfl

theorem numbers_append (calls calls' : List Call) :
    numbers (calls ++ calls') = numbers calls ++ numbers calls' := List.filterMap_append

@[simp] theorem numbers_timerCalls (h : M2MReportHandler F) : numbers h.timerCalls = [] := by
  unfold M2MReportHandler.timerCalls
  split_ifs <;> rfl

/-- At most one notification is sent, with the next number. -/
def CountsOn (h : M2MReportHandler F) (r : M2MReportHandler F × List Call) : Prop :=
  numbers r.2 = [] ∧ r.1.observationNumber = h.observationNumber ∨
    numbers r.2 = [h.observationNumber + 1] ∧ r.1.observationNumber = h.observationNumber + 1

theorem CountsOn.congr {h' : M2MReportHandler F} {r : M2MReportHandler F × List Call}
    (hr : CountsOn h r) (heq : h.observationNumber = h'.observationNumber) : CountsOn h' r := by
  unfold CountsOn at *
  rwa [heq] at hr

theorem CountsOn.report : CountsOn h h.report := by
  have hr := h.report_cases
  generalize h.report = r at hr
  cases hr with
  | value hne hn =>
    refine .inr ⟨?_, rfl⟩
    rw [numbers_append, numbers_timerCalls]
    rfl
  | pmax hno hx =>
    refine .inr ⟨?_, rfl⟩
    show (h.observationNumber + 1) :: numbers h.timerCalls = _
    rw [numbers_timerCalls]
  | nothing hno hx => exact .inl ⟨numbers_timerCalls h, rfl⟩

theorem CountsOn.scheduleReport : CountsOn h h.scheduleReport := by
  obtain ⟨-, -, heq⟩ | ⟨-, heq⟩ := h.scheduleReport_cases
  · rw [heq]
    exact .inl ⟨rfl, rfl⟩
  · rw [heq]
    exact CountsOn.report.congr rfl

theorem CountsOn.occur (e : Event F) : CountsOn h (h.occur e) := by
  cases e with
  | setValue value =>
    have hw := h.setValue_cases value
    change CountsOn h (h.setValue value)
    generalize h.setValue value = r at hw ⊢
    cases hw with
    | same heq => exact .inl ⟨rfl, rfl⟩
    | inRange hne hr high low =>
      exact CountsOn.scheduleReport (h := { h with currentValue := value }).congr rfl
    | outOfRange hne hr high low => exact .inl ⟨rfl, rfl⟩
  | setNotificationTrigger id =>
    exact CountsOn.scheduleReport (h := { h with
      changedInstanceIds := h.changedInstanceIds.add id
      currentValue := CFloat.ofInt 0
      lastValue := CFloat.ofInt 1 }).congr rfl
  | timerExpired type =>
    by_cases hmin : type = .pMinTimer
    · subst hmin
      obtain ⟨-, heq⟩ | ⟨-, heq⟩ := h.pmin_cases
      · rw [heq]
        exact CountsOn.report.congr rfl
      · rw [heq]
        exact .inl ⟨rfl, rfl⟩
    · by_cases hmax : type = .pMaxTimer
      · subst hmax
        obtain ⟨-, heq⟩ | ⟨-, heq⟩ := h.pmax_cases
        · rw [heq]
          exact CountsOn.report.congr rfl
        · rw [heq]
          exact .inl ⟨rfl, rfl⟩
      · rw [h.occur_other hmin hmax]
        exact .inl ⟨rfl, rfl⟩

theorem CountsOn.setUnderObservation (observed : Bool) :
    CountsOn h (h.setUnderObservation observed) := by
  cases observed with
  | false => exact .inl ⟨rfl, rfl⟩
  | true =>
    refine .inl ⟨?_, observed_observationNumber h⟩
    rw [M2MReportHandler.setUnderObservation, if_pos rfl, handleTimers_eq]
    show numbers (_ ++ _) = []
    rw [numbers_append, numbers_timerCalls]
    rfl

theorem CountsOn.accept (i : Input F) : CountsOn h (h.accept i) := by
  cases i with
  | event e => exact CountsOn.occur e
  | setUnderObservation observed => exact CountsOn.setUnderObservation observed
  | query query type resourceType =>
    rw [M2MReportHandler.accept]
    cases hr : (h.handleObservationAttribute query.1 type resourceType).value with
    | none => exact .inl ⟨rfl, rfl⟩
    | some r =>
      dsimp only
      obtain ⟨h', hsame, hcases⟩ := h.handled_cases hr
      have hnumber : h'.observationNumber = h.observationNumber := by
        have hkept := congrArg observationNumber (hsame h)
        exact hkept
      obtain ⟨-, -, heq⟩ | ⟨-, heq⟩ | ⟨-, heq⟩ := hcases
      · rw [heq]
        exact (CountsOn.setUnderObservation true).congr hnumber
      · rw [heq]
        exact .inl ⟨rfl, hnumber⟩
      · rw [heq]
        exact .inl ⟨rfl, hnumber⟩

def takeIn (i : Input F) (s : M2MReportHandler F × List Call) : M2MReportHandler F × List Call :=
  ((s.1.accept i).1, s.2 ++ (s.1.accept i).2)

/-- The first `n` numbers after a given one. -/
def numbersFrom (first : UInt16) (n : Nat) : List UInt16 :=
  (List.range n).map fun k => first + UInt16.ofNat (k + 1)

theorem numbersFrom_succ (first : UInt16) (n : Nat) :
    numbersFrom first (n + 1) = numbersFrom first n ++ [first + UInt16.ofNat (n + 1)] := by
  rw [numbersFrom, numbersFrom, List.range_succ, List.map_append]
  rfl

/-- Whatever a handler is asked, its notifications are numbered without a gap, also across the end
of one observation and the start of the next. -/
theorem numbers_consecutive (h : M2MReportHandler F) (inputs : List (Input F)) :
    let s := Trace.fold takeIn inputs (h, [])
    ∃ n, numbers s.2 = numbersFrom h.observationNumber n ∧
      s.1.observationNumber = h.observationNumber + UInt16.ofNat n := by
  refine Trace.fold_invariant (I := fun s : M2MReportHandler F × List Call =>
    ∃ n, numbers s.2 = numbersFrom h.observationNumber n ∧
      s.1.observationNumber = h.observationNumber + UInt16.ofNat n) (fun i _ s hs => ?_) ?_
  · obtain ⟨n, hnumbers, hlast⟩ := hs
    have hnext : s.1.observationNumber + 1 = h.observationNumber + UInt16.ofNat (n + 1) := by
      rw [hlast, UInt16.ofNat_add, UInt16.add_assoc]
      rfl
    obtain ⟨hnone, hsame⟩ | ⟨hone, hnew⟩ := CountsOn.accept (h := s.1) i
    · refine ⟨n, ?_, hsame.trans hlast⟩
      rw [takeIn, numbers_append, hnone, List.append_nil, hnumbers]
    · refine ⟨n + 1, ?_, hnew.trans hnext⟩
      rw [takeIn, numbers_append, hone, hnumbers, hnext, numbersFrom_succ]
  · refine ⟨0, rfl, ?_⟩
    exact (UInt16.add_zero _).symm

end Numbers
end Collected
end MbedClient.Report
