import Mathlib.Data.List.Nodup
import MbedClient.Timer

/-! The report handler of an observed entity: when a change of its value becomes a notification. -/
namespace MbedClient.Report

/-- What the handler asks of the type `float`: its operations, and that the constants it plants to
force a report differ. Nothing makes equality reflexive, so NaN is a value like any other. -/
class CFloat (F : Type*) where
  ofInt : Int → F
  add : F → F → F
  sub : F → F → F
  mul : F → F → F
  eq : F → F → Bool
  lt : F → F → Bool
  le : F → F → Bool
  zero_ne_one : eq (ofInt 0) (ofInt 1) = false

/-- The floats that are integers small enough to be exact. -/
instance : CFloat Int where
  ofInt := id
  add := (· + ·)
  sub := (· - ·)
  mul := (· * ·)
  eq := (· == ·)
  lt a b := decide (a < b)
  le a b := decide (a ≤ b)
  zero_ne_one := rfl

/-- The ids collected for the next notification, each of them once. -/
abbrev ChangedIds := { ids : List UInt16 // ids.Nodup }

namespace ChangedIds

def empty : ChangedIds := ⟨[], List.nodup_nil⟩

def add (ids : ChangedIds) (id : UInt16) : ChangedIds :=
  if h : id ∈ ids.1 then ids
  else ⟨ids.1 ++ [id], ids.2.append (List.nodup_singleton id) (by simpa using h)⟩

theorem mem_add (ids : ChangedIds) (id : UInt16) : id ∈ (ids.add id).1 := by
  by_cases h : id ∈ ids.1
  · rwa [add, dif_pos h]
  · rw [add, dif_neg h]
    simp

theorem mem_add_of_mem {ids : ChangedIds} {id : UInt16} (h : id ∈ ids.1) (id' : UInt16) :
    id ∈ (ids.add id').1 := by
  by_cases h' : id' ∈ ids.1
  · rwa [add, dif_pos h']
  · rw [add, dif_neg h']
    simp [h]

end ChangedIds

/-- The write attributes, as bits of `_attribute_state`. -/
def pminFlag : UInt8 := 2
def pmaxFlag : UInt8 := 4
def ltFlag : UInt8 := 8
def gtFlag : UInt8 := 16
def stFlag : UInt8 := 32

/-- What the handler asks of its observer and of its timers. -/
inductive Call where
  | observationToBeSent (changedInstanceIds : ChangedIds) (obsNumber : UInt16) (sendObject : Bool)
  | startTimer (type : M2MTimerObserver) (interval : UInt64)
  | stopTimer (type : M2MTimerObserver)
deriving DecidableEq

structure M2MReportHandler (F : Type*) [CFloat F] where
  isUnderObservation : Bool := false
  attributeState : UInt8 := 0
  notify : Bool := false
  pminExceeded : Bool := false
  pmaxExceeded : Bool := false
  observationNumber : UInt16 := 0
  pminTimer : M2MTimer := {}
  pmaxTimer : M2MTimer := {}
  pmax : Int32 := -1
  pmin : Int32 := 1
  currentValue : F := CFloat.ofInt 0
  gt : F := CFloat.ofInt 0
  lt : F := CFloat.ofInt 0
  st : F := CFloat.ofInt 0
  highStep : F := CFloat.ofInt 0
  lowStep : F := CFloat.ofInt 0
  lastValue : F := CFloat.ofInt (-1)
  changedInstanceIds : ChangedIds := ChangedIds.empty
deriving DecidableEq

namespace M2MReportHandler
variable {F : Type*} [CFloat F] (h : M2MReportHandler F)

def has (flag : UInt8) : Bool := h.attributeState &&& flag == flag

/-- `(uint64_t) ((uint64_t)_pmin * 1000)`, where the cast extends the sign. -/
def interval (seconds : Int32) : UInt64 := seconds.toInt64.toUInt64 * 1000

def handleTimers : M2MReportHandler F × List Call :=
  let p : M2MReportHandler F × List Call :=
    if h.has pminFlag then
      if h.pmin = h.pmax then ({ h with pminExceeded := true }, [])
      else
        ({ h with pminExceeded := false,
                  pminTimer := h.pminTimer.startTimer (interval h.pmin) .pMinTimer },
          [.startTimer .pMinTimer (interval h.pmin)])
    else (h, [])
  if p.1.has pmaxFlag && decide (0 < p.1.pmax) then
    ({ p.1 with pmaxTimer := p.1.pmaxTimer.startTimer (interval p.1.pmax) .pMaxTimer },
      p.2 ++ [.startTimer .pMaxTimer (interval p.1.pmax)])
  else p

def stopTimers : M2MReportHandler F × List Call :=
  ({ h with pminExceeded := false, pminTimer := h.pminTimer.stopTimer,
            pmaxExceeded := false, pmaxTimer := h.pmaxTimer.stopTimer },
    [.stopTimer .pMinTimer, .stopTimer .pMaxTimer])

def setDefaultValues : M2MReportHandler F :=
  { h with
    pmax := -1, pmin := 1
    gt := CFloat.ofInt 0, lt := CFloat.ofInt 0, st := CFloat.ofInt 0
    highStep := CFloat.ofInt 0, lowStep := CFloat.ofInt 0
    pminExceeded := false, pmaxExceeded := false
    lastValue := CFloat.ofInt (-1)
    attributeState := 0
    changedInstanceIds := ChangedIds.empty }

def setUnderObservation (observed : Bool) : M2MReportHandler F × List Call :=
  let p := { h with isUnderObservation := observed }.stopTimers
  if observed then (p.1.handleTimers.1, p.2 ++ p.1.handleTimers.2)
  else (p.1.setDefaultValues, p.2)

/-- The branches that send differ in what they clear: the one for `pmax` leaves `_pmax_exceeded`. -/
def report : M2MReportHandler F × List Call :=
  let p : M2MReportHandler F × List Call :=
    if !CFloat.eq h.currentValue h.lastValue && h.notify then
      ({ h with pminExceeded := false, pmaxExceeded := false, notify := false,
                observationNumber := h.observationNumber + 1,
                changedInstanceIds := ChangedIds.empty,
                pmaxTimer := h.pmaxTimer.stopTimer },
        [.observationToBeSent h.changedInstanceIds (h.observationNumber + 1) false,
          .stopTimer .pMaxTimer])
    else if h.pmaxExceeded then
      ({ h with observationNumber := h.observationNumber + 1,
                changedInstanceIds := ChangedIds.empty },
        [.observationToBeSent h.changedInstanceIds (h.observationNumber + 1) true])
    else (h, [])
  ({ p.1.handleTimers.1 with lastValue := p.1.handleTimers.1.currentValue },
    p.2 ++ p.1.handleTimers.2)

def scheduleReport : M2MReportHandler F × List Call :=
  let h := { h with notify := true }
  if !h.has pminFlag || h.pminExceeded then h.report else (h, [])

def checkGtLtParams : Bool :=
  if h.attributeState &&& (ltFlag ||| gtFlag) = ltFlag ||| gtFlag then
    CFloat.lt h.gt h.currentValue || CFloat.lt h.currentValue h.lt
  else if h.has ltFlag && h.attributeState &&& gtFlag == 0 then CFloat.lt h.currentValue h.lt
  else if h.has gtFlag && h.attributeState &&& ltFlag == 0 then CFloat.lt h.gt h.currentValue
  else true

def checkThresholdValues : Bool :=
  if h.has stFlag then
    if CFloat.le h.highStep h.currentValue || CFloat.le h.currentValue h.lowStep then true
    else if h.has ltFlag || h.has gtFlag then h.checkGtLtParams
    else false
  else h.checkGtLtParams

def setValue (value : F) : M2MReportHandler F × List Call :=
  let h := { h with currentValue := value }
  if CFloat.eq h.currentValue h.lastValue then (h, [])
  else
    let p : M2MReportHandler F × List Call :=
      if h.checkThresholdValues then h.scheduleReport
      else if h.has ltFlag || h.has gtFlag || h.has stFlag then
        ({ h with notify := false, lastValue := h.currentValue,
                  pminTimer := h.pminTimer.stopTimer, pminExceeded := true },
          [.stopTimer .pMinTimer])
      else ({ h with notify := false, lastValue := h.currentValue }, [])
    ({ p.1 with highStep := CFloat.add p.1.currentValue p.1.st,
                lowStep := CFloat.sub p.1.currentValue p.1.st }, p.2)

def setNotificationTrigger (objInstanceId : UInt16) : M2MReportHandler F × List Call :=
  { h with
    changedInstanceIds := h.changedInstanceIds.add objInstanceId
    currentValue := CFloat.ofInt 0
    lastValue := CFloat.ofInt 1 }.scheduleReport

def timerExpired (type : M2MTimerObserver) : M2MReportHandler F × List Call :=
  match type with
  | .pMinTimer =>
    let h := { h with pminExceeded := true }
    if h.notify || (decide (0 < h.pmin) && !h.has pmaxFlag) then h.report else (h, [])
  | .pMaxTimer =>
    let h := { h with pmaxExceeded := true }
    if h.pminExceeded || !h.has pminFlag then h.report else (h, [])
  | _ => (h, [])

def checkAttributeValidity : Bool :=
  let success := !(h.has pmaxFlag && (decide (-1 ≤ h.pmax) && decide (h.pmax < h.pmin)))
  let low := CFloat.add h.lt (CFloat.mul (CFloat.ofInt 2) h.st)
  success && !(h.has gtFlag && CFloat.le h.gt low)

end M2MReportHandler
end MbedClient.Report
