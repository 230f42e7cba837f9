import MbedClient.Report.Handler
import MbedClient.Trace

/-! The events of an observation with fixed attributes, and what each function of the handler can
do on one. -/
namespace MbedClient.Report
variable {F : Type*} [CFloat F]

inductive Event (F : Type*) where
  | setValue (value : F)
  | setNotificationTrigger (objInstanceId : UInt16)
  | timerExpired (type : M2MTimerObserver)

namespace M2MReportHandler

/-- A single-shot timer that expires is not running when its observer hears of it. -/
def ranOut (h : M2MReportHandler F) : M2MTimerObserver → M2MReportHandler F
  | .pMinTimer => { h with pminTimer := h.pminTimer.stopTimer }
  | .pMaxTimer => { h with pmaxTimer := h.pmaxTimer.stopTimer }
  | _ => h

def occur (e : Event F) (h : M2MReportHandler F) : M2MReportHandler F × List Call :=
  match e with
  | .setValue value => h.setValue value
  | .setNotificationTrigger id => h.setNotificationTrigger id
  | .timerExpired type => (h.ranOut type).timerExpired type

variable (h : M2MReportHandler F)

def startsPmin : Bool := h.has pminFlag && decide (h.pmin ≠ h.pmax)
def startsPmax : Bool := h.has pmaxFlag && decide (0 < h.pmax)

def timerCalls : List Call :=
  (if h.startsPmin then [.startTimer .pMinTimer (interval h.pmin)] else []) ++
    if h.startsPmax then [.startTimer .pMaxTimer (interval h.pmax)] else []

def restarted : M2MReportHandler F :=
  { h with
    pminExceeded := if h.has pminFlag then decide (h.pmin = h.pmax) else h.pminExceeded
    pminTimer := if h.startsPmin then h.pminTimer.startTimer (interval h.pmin) .pMinTimer
      else h.pminTimer
    pmaxTimer := if h.startsPmax then h.pmaxTimer.startTimer (interval h.pmax) .pMaxTimer
      else h.pmaxTimer }

theorem handleTimers_eq : h.handleTimers = (h.restarted, h.timerCalls) := by
  cases h with
  | mk =>
    simp only [handleTimers, restarted, timerCalls, startsPmin, startsPmax, has]
    split_ifs <;> simp_all [-Int32.not_lt]

theorem restarted_pminTimer (hs : h.startsPmin = false) : h.restarted.pminTimer = h.pminTimer := by
  simp [restarted, hs]

theorem restarted_pmaxTimer (hs : h.startsPmax = false) : h.restarted.pmaxTimer = h.pmaxTimer := by
  simp [restarted, hs]

/-- The three ways through `report`: a changed value, an expired `pmax`, or nothing to send. -/
inductive Reported : M2MReportHandler F × List Call → Prop where
  | value (hne : CFloat.eq h.currentValue h.lastValue = false) (hn : h.notify = true) :
      Reported ({ h with
          pminExceeded := false, pmaxExceeded := false, notify := false
          observationNumber := h.observationNumber + 1
          changedInstanceIds := ChangedIds.empty
          pmaxTimer := h.pmaxTimer.stopTimer
          lastValue := h.currentValue }.restarted,
        [.observationToBeSent h.changedInstanceIds (h.observationNumber + 1) false,
          .stopTimer .pMaxTimer] ++ h.timerCalls)
  | pmax (hno : h.notify = true → CFloat.eq h.currentValue h.lastValue = true)
      (hx : h.pmaxExceeded = true) :
      Reported ({ h with
          observationNumber := h.observationNumber + 1
          changedInstanceIds := ChangedIds.empty
          lastValue := h.currentValue }.restarted,
        .observationToBeSent h.changedInstanceIds (h.observationNumber + 1) true :: h.timerCalls)
  | nothing (hno : h.notify = true → CFloat.eq h.currentValue h.lastValue = true)
      (hx : h.pmaxExceeded = false) :
      Reported ({ h with lastValue := h.currentValue }.restarted, h.timerCalls)

theorem report_cases : h.Reported h.report := by
  unfold report
  by_cases hv : (!CFloat.eq h.currentValue h.lastValue && h.notify) = true
  · rw [if_pos hv]
    simp only [handleTimers_eq]
    simp only [Bool.and_eq_true, Bool.not_eq_true'] at hv
    exact Reported.value hv.1 hv.2
  · have hno : h.notify = true → CFloat.eq h.currentValue h.lastValue = true := by
      intro hn
      simpa [hn] using hv
    by_cases hx : h.pmaxExceeded
    · rw [if_neg hv, if_pos hx]
      simp only [handleTimers_eq]
      exact Reported.pmax hno hx
    · rw [if_neg hv, if_neg hx]
      simp only [handleTimers_eq]
      exact Reported.nothing hno (by simpa using hx)

theorem has_lt_of_both (hb : h.attributeState &&& (ltFlag ||| gtFlag) = ltFlag ||| gtFlag) :
    h.has ltFlag = true := by
  have ha : h.attributeState &&& ltFlag = ltFlag := calc
    h.attributeState &&& ltFlag = h.attributeState &&& ((ltFlag ||| gtFlag) &&& ltFlag) := rfl
    _ = (h.attributeState &&& (ltFlag ||| gtFlag)) &&& ltFlag := (UInt8.and_assoc _ _ _).symm
    _ = ltFlag := by rw [hb]; rfl
  simp [has, ha]

/-- Only a threshold keeps a value out of range. -/
theorem flags_of_checkThresholdValues (hr : h.checkThresholdValues = false) :
    (h.has ltFlag || h.has gtFlag || h.has stFlag) = true := by
  by_cases hs : h.has stFlag
  · simp [hs]
  · rw [checkThresholdValues, if_neg hs, checkGtLtParams] at hr
    split_ifs at hr with hb hl hg
    · simp [h.has_lt_of_both hb]
    · simp only [Bool.and_eq_true] at hl
      simp [hl.1]
    · simp only [Bool.and_eq_true] at hg
      simp [hg.1]

/-- The ways through `set_value`. -/
inductive Written (value : F) : M2MReportHandler F × List Call → Prop where
  | same (heq : CFloat.eq value h.lastValue = true) :
    Written value ({ h with currentValue := value }, [])
  | inRange (hne : CFloat.eq value h.lastValue = false)
      (hr : { h with currentValue := value }.checkThresholdValues = true) (high low : F) :
      Written value ({ { h with currentValue := value }.scheduleReport.1 with
          highStep := high, lowStep := low }, { h with currentValue := value }.scheduleReport.2)
  | outOfRange (hne : CFloat.eq value h.lastValue = false)
      (hr : { h with currentValue := value }.checkThresholdValues = false) (high low : F) :
      Written value ({ h with
          currentValue := value, notify := false, lastValue := value
          pminTimer := h.pminTimer.stopTimer, pminExceeded := true
          highStep := high, lowStep := low }, [.stopTimer .pMinTimer])

theorem setValue_cases (value : F) : h.Written value (h.setValue value) := by
  unfold setValue
  by_cases heq : CFloat.eq value h.lastValue
  · rw [if_pos heq]
    exact Written.same heq
  · rw [if_neg heq]
    simp only [Bool.not_eq_true] at heq
    by_cases hr : { h with currentValue := value }.checkThresholdValues = true
    · rw [if_pos hr]
      exact Written.inRange heq hr _ _
    · rw [if_neg hr]
      simp only [Bool.not_eq_true] at hr
      have hflags := flags_of_checkThresholdValues _ hr
      rw [if_pos hflags]
      exact Written.outOfRange heq hr _ _

theorem scheduleReport_eq : h.scheduleReport =
    if !h.has pminFlag || h.pminExceeded then { h with notify := true }.report
    else ({ h with notify := true }, []) := rfl

theorem scheduleReport_cases :
    (h.has pminFlag = true ∧ h.pminExceeded = false ∧
      h.scheduleReport = ({ h with notify := true }, [])) ∨
    ((h.has pminFlag = true → h.pminExceeded = true) ∧
      h.scheduleReport = { h with notify := true }.report) := by
  rw [scheduleReport_eq]
  cases hp : h.has pminFlag with
  | false => exact Or.inr ⟨by simp, rfl⟩
  | true =>
    cases hx : h.pminExceeded with
    | false => exact Or.inl ⟨rfl, rfl, rfl⟩
    | true => exact Or.inr ⟨by simp, rfl⟩

/-- The handler on the expiry of its `pmin` timer, and on that of its `pmax` timer. -/
def pminOver : M2MReportHandler F :=
  { h with pminTimer := h.pminTimer.stopTimer, pminExceeded := true }

def pmaxOver : M2MReportHandler F :=
  { h with pmaxTimer := h.pmaxTimer.stopTimer, pmaxExceeded := true }

theorem pmin_cases :
    ((h.notify || (decide (0 < h.pmin) && !h.has pmaxFlag)) = true ∧
      h.occur (.timerExpired .pMinTimer) = h.pminOver.report) ∨
    ((h.notify || (decide (0 < h.pmin) && !h.has pmaxFlag)) = false ∧
      h.occur (.timerExpired .pMinTimer) = (h.pminOver, [])) := by
  have heq : h.occur (.timerExpired .pMinTimer) =
      if h.notify || (decide (0 < h.pmin) && !h.has pmaxFlag) then h.pminOver.report
      else (h.pminOver, []) := rfl
  rw [heq]
  split_ifs with hc
  · exact Or.inl ⟨hc, rfl⟩
  · exact Or.inr ⟨eq_false_of_ne_true hc, rfl⟩

theorem pmax_cases :
    ((h.pminExceeded || !h.has pminFlag) = true ∧
      h.occur (.timerExpired .pMaxTimer) = h.pmaxOver.report) ∨
    ((h.pminExceeded || !h.has pminFlag) = false ∧
      h.occur (.timerExpired .pMaxTimer) = (h.pmaxOver, [])) := by
  have heq : h.occur (.timerExpired .pMaxTimer) =
      if h.pminExceeded || !h.has pminFlag then h.pmaxOver.report else (h.pmaxOver, []) := rfl
  rw [heq]
  split_ifs with hc
  · exact Or.inl ⟨hc, rfl⟩
  · exact Or.inr ⟨eq_false_of_ne_true hc, rfl⟩

/-- The handler has no other timer. -/
theorem occur_other {type : M2MTimerObserver} (hmin : type ≠ .pMinTimer)
    (hmax : type ≠ .pMaxTimer) :
    h.occur (.timerExpired type) = (h, []) := by
  cases type <;> first | rfl | contradiction

/-- The state in which an observation begins, and the handler before its timers are started. -/
def observed : M2MReportHandler F := (h.setUnderObservation true).1

def unstarted : M2MReportHandler F :=
  { h with isUnderObservation := true
           pminExceeded := false, pminTimer := h.pminTimer.stopTimer
           pmaxExceeded := false, pmaxTimer := h.pmaxTimer.stopTimer }

theorem observed_eq : h.observed = h.unstarted.restarted := by
  simp only [observed, unstarted, setUnderObservation, stopTimers, if_true, handleTimers_eq]

end M2MReportHandler
end MbedClient.Report
