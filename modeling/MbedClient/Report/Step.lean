import Mathlib.Algebra.Order.Ring.Abs
import Mathlib.Algebra.Order.Ring.Rat
import Mathlib.Tactic.Linarith
import MbedClient.Report.Plain

/-! The step attribute: a value is sent when it differs enough from the value before it, which need
not be the value that was sent last. -/
namespace MbedClient.Report

/-- Values that are exact numbers. -/
instance (priority := low) exactNumbers {F : Type*} [CommRing F] [LinearOrder F]
    [IsStrictOrderedRing F] : CFloat F where
  ofInt n := n
  add := (· + ·)
  sub := (· - ·)
  mul := (· * ·)
  eq a b := decide (a = b)
  lt a b := decide (a < b)
  le a b := decide (a ≤ b)
  zero_ne_one := by simp

namespace M2MReportHandler
variable {F : Type*} [CommRing F] [LinearOrder F] [IsStrictOrderedRing F]

/-- Of the write attributes only a positive step is set. -/
structure StepOnly (h : M2MReportHandler F) : Prop where
  underObservation : h.isUnderObservation = true
  attributeState : h.attributeState = stFlag
  positive : 0 < h.st

/-- The handler after a value that differs from the one before. -/
structure Stepped (h : M2MReportHandler F) (value : F) (h' : M2MReportHandler F) : Prop where
  currentValue : h'.currentValue = value
  lastValue : h'.lastValue = value
  st : h'.st = h.st
  highStep : h'.highStep = value + h.st
  lowStep : h'.lowStep = value - h.st
  notify : h'.notify = false
  isUnderObservation : h'.isUnderObservation = h.isUnderObservation
  attributeState : h'.attributeState = h.attributeState

section StepOnly
variable {h : M2MReportHandler F}

theorem has_of_stFlag (ha : h.attributeState = stFlag) (flag : UInt8) :
    h.has flag = (stFlag &&& flag == flag) := by
  rw [has, ha]

/-- Without other attributes no timer is started. -/
theorem restarted_of_stFlag (ha : h.attributeState = stFlag) : h.restarted = h := by
  have hmin : h.has pminFlag = false := has_of_stFlag ha _
  have hmax : h.has pmaxFlag = false := has_of_stFlag ha _
  simp [restarted, startsPmin, startsPmax, hmin, hmax]

theorem checkThresholdValues_iff (ha : h.attributeState = stFlag) :
    h.checkThresholdValues = true ↔ h.highStep ≤ h.currentValue ∨ h.currentValue ≤ h.lowStep := by
  have hst : h.has stFlag = true := has_of_stFlag ha _
  have hlt : h.has ltFlag = false := has_of_stFlag ha _
  have hgt : h.has gtFlag = false := has_of_stFlag ha _
  simp [checkThresholdValues, hst, hlt, hgt, CFloat.le]

/-- A report of a changed value is sent, and the handler remembers the value. -/
theorem scheduleReport_of_stFlag (ha : h.attributeState = stFlag)
    (hv : h.currentValue ≠ h.lastValue) :
    Sends h.scheduleReport.2 ∧ h.scheduleReport.1 =
      { h with
        pminExceeded := false, pmaxExceeded := false, notify := false
        observationNumber := h.observationNumber + 1
        changedInstanceIds := ChangedIds.empty
        pmaxTimer := h.pmaxTimer.stopTimer
        lastValue := h.currentValue } := by
  have hp : h.has pminFlag = false := has_of_stFlag ha _
  rw [scheduleReport_eq, if_pos (by rw [hp]; rfl)]
  have hr := report_cases { h with notify := true }
  generalize report { h with notify := true } = r at hr
  cases hr with
  | value hne hn =>
    exact ⟨⟨_, _, _, List.mem_append_left _ List.mem_cons_self⟩, restarted_of_stFlag ha⟩
  | pmax hno hx => exact absurd (of_decide_eq_true (hno rfl)) hv
  | nothing hno hx => exact absurd (of_decide_eq_true (hno rfl)) hv

/-- The ways through `set_value` if only the step counts. -/
theorem setValue_stepOnly (ha : h.attributeState = stFlag) (value : F) :
    (value = h.lastValue ∧ h.setValue value = ({ h with currentValue := value }, [])) ∨
    (value ≠ h.lastValue ∧ h.Stepped value (h.setValue value).1 ∧
      (Sends (h.setValue value).2 ↔ h.highStep ≤ value ∨ value ≤ h.lowStep)) := by
  by_cases heq : value = h.lastValue
  · refine Or.inl ⟨heq, ?_⟩
    unfold setValue
    exact if_pos (decide_eq_true heq)
  refine Or.inr ⟨heq, ?_⟩
  have hcheck := checkThresholdValues_iff (h := { h with currentValue := value }) ha
  simp only at hcheck
  unfold setValue
  rw [if_neg (by simpa [CFloat.eq] using heq), ← hcheck]
  by_cases hr : { h with currentValue := value }.checkThresholdValues = true
  · obtain ⟨hsends, hstate⟩ :=
      scheduleReport_of_stFlag (h := { h with currentValue := value }) ha heq
    simp only [if_pos hr]
    rw [hstate]
    exact ⟨⟨rfl, rfl, rfl, rfl, rfl, rfl, rfl, rfl⟩, iff_of_true hsends hr⟩
  · have hflags := flags_of_checkThresholdValues _ (eq_false_of_ne_true hr)
    have hnone : ¬Sends [Call.stopTimer .pMinTimer] := by simp [Sends]
    simp only [if_neg hr]
    rw [if_pos hflags]
    exact ⟨⟨rfl, rfl, rfl, rfl, rfl, rfl, rfl, rfl⟩, iff_of_false hnone hr⟩

end StepOnly

end M2MReportHandler

open M2MReportHandler

/-- A handler, and the value that was sent last. -/
structure Told (F : Type*) [CFloat F] where
  handler : M2MReportHandler F
  sent : F

section Told
variable {F : Type*} [CommRing F] [LinearOrder F] [IsStrictOrderedRing F]

def Call.isNotification : Call → Bool
  | observationToBeSent .. => true
  | _ => false

theorem any_isNotification_iff (calls : List Call) :
    calls.any Call.isNotification = true ↔ Sends calls := by
  rw [List.any_eq_true]
  constructor
  · rintro ⟨call, hmem, hcall⟩
    cases call with
    | observationToBeSent ids number sendObject => exact ⟨ids, number, sendObject, hmem⟩
    | startTimer | stopTimer => cases hcall
  · rintro ⟨ids, number, sendObject, hmem⟩
    exact ⟨_, hmem, rfl⟩

instance (calls : List Call) : Decidable (Sends calls) :=
  decidable_of_iff _ (any_isNotification_iff calls)

/-- `set_value`; a notification carries the value that is current when it is sent. -/
def Told.setValue (value : F) (s : Told F) : Told F :=
  let p := s.handler.setValue value
  { handler := p.1, sent := if Sends p.2 then value else s.sent }

/-- A value that differs by at least the step from the value sent last has been sent or is
pending. -/
def Informed (s : Told F) : Prop :=
  s.handler.st ≤ |s.handler.currentValue - s.sent| →
    s.sent = s.handler.currentValue ∨ s.handler.notify = true

/-- A value that differs by less than the step from the value before it does so from the value
sent last. -/
def StaysNear (value : F) (s : Told F) : Prop :=
  |value - s.handler.currentValue| < s.handler.st → |value - s.sent| < s.handler.st

/-- What holds after a report as long as no value drifts away. -/
structure Settled (s : Told F) : Prop extends StepOnly s.handler where
  lastValue : s.handler.lastValue = s.handler.currentValue
  highStep : s.handler.highStep = s.handler.currentValue + s.handler.st
  lowStep : s.handler.lowStep = s.handler.currentValue - s.handler.st
  near : |s.handler.currentValue - s.sent| < s.handler.st

theorem Settled.informed {s : Told F} (hs : Settled s) : Informed s :=
  fun hfar => absurd hs.near (not_lt.mpr hfar)

/-- The thresholds lie one step around the value before. -/
theorem outside_iff {current st value : F} :
    current + st ≤ value ∨ value ≤ current - st ↔ ¬|value - current| < st := by
  rw [abs_lt, not_and_or, not_lt, not_lt]
  constructor
  · rintro (h | h)
    · exact Or.inr (by linarith)
    · exact Or.inl (by linarith)
  · rintro (h | h)
    · exact Or.inr (by linarith)
    · exact Or.inl (by linarith)

variable {s : Told F} {value : F}

/-- A value that stays near the value sent last is told or remembered. -/
theorem Settled.setValue (hs : Settled s) (hok : StaysNear value s) :
    Settled (s.setValue value) := by
  obtain ⟨heq, hset⟩ | ⟨hne, hstep, hsends⟩ := setValue_stepOnly hs.attributeState value
  · have hcur : value = s.handler.currentValue := heq.trans hs.lastValue
    have hnone : ¬Sends ([] : List Call) := by simp [Sends]
    have hsame : s.setValue value = s := by
      rw [Told.setValue, hset, if_neg hnone, hcur]
    rw [hsame]
    exact hs
  · rw [hs.highStep, hs.lowStep, outside_iff] at hsends
    refine ⟨⟨hstep.isUnderObservation.trans hs.underObservation,
      hstep.attributeState.trans hs.attributeState, ?_⟩, ?_, ?_, ?_, ?_⟩
    · exact hstep.st ▸ hs.positive
    · exact hstep.lastValue.trans hstep.currentValue.symm
    · simp only [Told.setValue, hstep.highStep, hstep.currentValue, hstep.st]
    · simp only [Told.setValue, hstep.lowStep, hstep.currentValue, hstep.st]
    · simp only [Told.setValue, hstep.currentValue, hstep.st]
      split_ifs with hsent
      · simpa using hs.positive
      · exact hok (not_not.mp (mt hsends.mpr hsent))

/-- Where the value written last is told or pending, it has stayed near. -/
theorem Settled.staysNear (hs : Settled s) (h : Informed (s.setValue value)) :
    StaysNear value s := by
  intro hnear
  obtain ⟨heq, hset⟩ | ⟨hne, hstep, hsends⟩ := setValue_stepOnly hs.attributeState value
  · have hcur : value = s.handler.currentValue := heq.trans hs.lastValue
    rw [hcur]
    exact hs.near
  · rw [hs.highStep, hs.lowStep, outside_iff] at hsends
    have hnot : ¬Sends (s.handler.setValue value).2 := fun hsent => hsends.mp hsent hnear
    simp only [Informed, Told.setValue, hstep.currentValue, hstep.st, hstep.notify,
      if_neg hnot, or_false, Bool.false_eq_true] at h
    by_contra hfar
    have hsent := h (not_lt.mp hfar)
    rw [hsent, sub_self, abs_zero] at hfar
    exact hfar hs.positive

/-- The first value that is reported settles the handler. -/
theorem settled_of_sends {h : M2MReportHandler F} (hs : StepOnly h)
    (hfirst : Sends (h.setValue value).2) : Settled ⟨(h.setValue value).1, value⟩ := by
  obtain ⟨heq, hset⟩ | ⟨hne, hstep, hsends⟩ := setValue_stepOnly hs.attributeState value
  · rw [hset] at hfirst
    simp [Sends] at hfirst
  · refine ⟨⟨hstep.isUnderObservation.trans hs.underObservation,
      hstep.attributeState.trans hs.attributeState, ?_⟩, ?_, ?_, ?_, ?_⟩
    · exact hstep.st ▸ hs.positive
    · exact hstep.lastValue.trans hstep.currentValue.symm
    · simp only [hstep.highStep, hstep.currentValue, hstep.st]
    · simp only [hstep.lowStep, hstep.currentValue, hstep.st]
    · simpa only [hstep.currentValue, hstep.st, sub_self, abs_zero] using hs.positive

/-- After a first report the server is informed throughout a run, exactly if no value drifts. -/
theorem informed_iff {h : M2MReportHandler F} (hs : StepOnly h) {first : F}
    (hfirst : Sends (h.setValue first).2) (values : List F) :
    Trace.Always Told.setValue Informed values ⟨(h.setValue first).1, first⟩ ↔
      Trace.Along Told.setValue StaysNear values ⟨(h.setValue first).1, first⟩ :=
  Trace.always_iff_along (I := Settled) (fun _ _ hs hok => hs.setValue hok)
    (fun _ hs => hs.informed) (fun _ _ hs h => hs.staysNear h) (settled_of_sends hs hfirst)

/-- An observed resource whose step was set to ten at the value zero. -/
def tenSteps : M2MReportHandler ℚ :=
  { isUnderObservation := true, attributeState := stFlag, st := 10, highStep := 10, lowStep := -10 }

theorem informed_tenSteps :
    Trace.Always Told.setValue Informed [26, 22, 40] ⟨(tenSteps.setValue 20).1, 20⟩ ↔
      Trace.Along Told.setValue StaysNear [26, 22, 40] ⟨(tenSteps.setValue 20).1, 20⟩ :=
  informed_iff ⟨rfl, rfl, by decide +kernel⟩ (by decide +kernel) _

/-- Two changes by six, a step of ten: neither is told, and no report is pending. -/
theorem drift_untold :
    let s := Trace.fold Told.setValue [26, 32] ⟨(tenSteps.setValue 20).1, 20⟩
    StepOnly tenSteps ∧ Sends (tenSteps.setValue 20).2 ∧ s.sent = 20 ∧
      s.handler.currentValue = 32 ∧ s.handler.notify = false ∧ ¬Informed s := by
  refine ⟨⟨rfl, rfl, by decide +kernel⟩, by decide +kernel, by decide +kernel, by decide +kernel,
    by decide +kernel, fun h => ?_⟩
  exact absurd (h (by decide +kernel)) (by decide +kernel)

end Told
end MbedClient.Report
