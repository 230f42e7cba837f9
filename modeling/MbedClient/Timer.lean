/-! The timers a component starts and stops. Only single-shot timers occur: one that has expired is
no longer running. -/
namespace MbedClient

inductive M2MTimerObserver where
  | notdefined
  | registration
  | nsdlExecution
  | pMinTimer
  | pMaxTimer
  | dtls
  | queueSleep
  | retryTimer
  | bootstrapFlowTimer
  | registrationFlowTimer
deriving DecidableEq, Repr

/-- A timer with the interval in milliseconds and the type it was last started with. -/
structure M2MTimer where
  running : Option (UInt64 × M2MTimerObserver) := none
deriving DecidableEq, Repr

namespace M2MTimer

def startTimer (_ : M2MTimer) (interval : UInt64) (type : M2MTimerObserver) : M2MTimer :=
  ⟨some (interval, type)⟩

def stopTimer (_ : M2MTimer) : M2MTimer := ⟨none⟩

def armed (t : M2MTimer) : Bool := t.running.isSome

@[simp] theorem armed_startTimer (t : M2MTimer) (interval : UInt64) (type : M2MTimerObserver) :
    (t.startTimer interval type).armed = true := rfl

@[simp] theorem armed_stopTimer (t : M2MTimer) : t.stopTimer.armed = false := rfl

end M2MTimer
end MbedClient
