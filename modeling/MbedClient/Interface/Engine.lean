import MbedClient.Callback
import MbedClient.Interface.State
import MbedClient.Membership
import MbedClient.Paths

/-! The state functions of `M2MInterfaceImpl`, and the engine that calls them. -/
namespace MbedClient.Interface
open Callback Callback.Prog

abbrev Code := Prog M2MInterfaceImpl Output

/-- `if` without an `else`. -/
def whenM (c : Bool) (p : Code Unit) : Code Unit := if c then p else pure ()

/-- `internal_event`, through which the state functions call one another. -/
abbrev InternalEvent := EStates → Option EventData → Code Unit

section Timers

/-- The milliseconds are computed in an `int`, whose overflow is taken to wrap around. -/
def seconds (n : Nat) : UInt64 := (Int32.ofNat (n * 1000)).toInt64.toUInt64

theorem seconds_eq {n : Nat} (h : n * 1000 < 2 ^ 31) : seconds n = UInt64.ofNat (n * 1000) := by
  have hmax : Int32.maxValue.toInt = 2 ^ 31 - 1 := rfl
  rw [seconds, Int32.toInt64_ofNat' (by omega)]
  rfl

/-- The timer of a flow runs eight times as long as a retry can. -/
def M2MInterfaceImpl.startFlowTimer (i : M2MInterfaceImpl) (type : M2MTimerObserver) :
    M2MInterfaceImpl :=
  { i with registrationFlowTimer := i.registrationFlowTimer.map (·.stopTimer.startTimer
      (seconds (i.config.reconnectionCount * i.config.reconnectionInterval * 8)) type) }

def M2MInterfaceImpl.stopFlowTimer (i : M2MInterfaceImpl) : M2MInterfaceImpl :=
  { i with registrationFlowTimer := i.registrationFlowTimer.map (·.stopTimer) }

end Timers

section StateFunctions
variable (internalEvent : InternalEvent)

def stateIdle : Code Unit := tell .stopTimers

/-- What both kinds of a first connection do once `_security` has been set: whether the server
could be asked for. -/
def connect (type : ServerType) (flow : M2MTimerObserver) (security : M2MSecurity) : Code Bool := do
  match security.serverAddress with
  | none => pure false
  | some serverAddress => do
    modify fun i =>
      let (ip, port) := processAddress serverAddress i.serverIpAddress i.serverPort
      { i with serverIpAddress := ip, serverPort := port }
    let i ← read
    if i.serverIpAddress.isEmpty then pure false
    else do
      modify (·.startFlowTimer flow)
      tell (.resolveServerAddress i.serverIpAddress i.serverPort type i.security)
      pure true

/-- The first connection of `state_bootstrap`: no error unless this is false. -/
def firstBootstrap (data : Option EventData) : Code Bool :=
  match data with
  | none => pure false
  | some event => do
    modify fun i => { i with security := event.object }
    match event.object with
    | none => pure false
    | some security =>
      if security.serverType = .bootstrap then connect .bootstrap .bootstrapFlowTimer security
      else pure false

def firstRegister (data : Option EventData) : Code Bool :=
  match data with
  | none => pure false
  | some event => do
    modify fun i => { i with security := event.object }
    match event.object with
    | none => pure false
    | some security =>
      if security.serverType = .lwm2mServer then do
        let created ← ask (.createNsdlListStructure event.objectList)
        if created then connect .lwm2mServer .registrationFlowTimer security else pure false
      else pure false

/-- An error takes the state functions back to the idle state. -/
def fail (error : Error) : Code Unit := do
  internalEvent .idle none
  tell (.error error)

def stateBootstrap (data : Option EventData) : Code Unit := do
  modify fun i => { i with bootstrapped := false }
  let i ← read
  if i.security.isNone then do
    let started ← firstBootstrap data
    whenM (!started) (fail internalEvent .invalidParameters)
  else do
    modify fun i => { i with listenPort := 0 }
    tell .stopListening
    tell (.bindConnection 0)
    modify (·.startFlowTimer .bootstrapFlowTimer)
    tell (.resolveServerAddress i.serverIpAddress i.serverPort .bootstrap i.security)

/-- `address.type` of the two states that leave it unset for other stacks. -/
def addressType : NetworkStack → AddressType
  | .lwipIPv4 => .ipv4
  | .lwipIPv6 | .nanostackIPv6 => .ipv6
  | _ => .none

def maxPathSize : Nat := 142

/-- The name and the domain in a `StringBuffer`: `none` if one of the checks of its space fails. -/
def bootstrapName (endpointName domain : Bytes) : Option Bytes :=
  let newEpName : StringBuffer maxPathSize := .new (by decide)
  if newEpName.ensureSpace (endpointName.length + 1) then
    let newEpName := (newEpName.append (cStr endpointName)).2
    if domain.isEmpty then some newEpName.text
    else if newEpName.ensureSpace (endpointName.length + 1 + domain.length + 1) then
      let newEpName := (newEpName.append [0x40]).2
      some (newEpName.append (cStr domain)).2.text
    else none
  else none

def stateBootstrapAddressResolved (data : Option EventData) : Code Unit :=
  match data with
  | some (.resolvedAddress address port) => do
    tell .startListeningForData
    let i ← read
    match bootstrapName i.endpointName i.domain with
    | none => tell (.error .invalidParameters)
    | some name => do
      let created ← ask
        (.createBootstrapResource (addressType address.stack) port address.address name)
      if created then internalEvent .bootstrapResourceCreated none
      else fail internalEvent .invalidParameters
  | _ => pure ()

def stateRegister (data : Option EventData) : Code Unit := do
  let i ← read
  if i.security.isNone then do
    let started ← firstRegister data
    whenM (!started) (fail internalEvent .invalidParameters)
  else do
    modify fun i => { i with listenPort := 0 }
    tell .stopListening
    match data with
    | none => pure ()
    | some event => tell (.createNsdlListStructure event.objectList)
    tell (.bindConnection 0)
    modify (·.startFlowTimer .registrationFlowTimer)
    tell (.resolveServerAddress i.serverIpAddress i.serverPort .lwm2mServer i.security)

def sendRegister : Code Unit := do
  let sent ← ask .sendRegisterMessage
  whenM (!sent) (fail internalEvent .invalidParameters)

def stateRegisterAddressResolved (data : Option EventData) : Code Unit :=
  match data with
  | some (.resolvedAddress address port) => do
    tell .startListeningForData
    -- the type of the address is IPv6 unless the stack says otherwise
    tell (.setServerAddress (if address.stack = .lwipIPv4 then .ipv4 else .ipv6) port
      address.address)
    let i ← read
    match i.reconnectionState with
    | .none | .fullRegistration => sendRegister internalEvent
    | .withUpdate => internalEvent .updateRegistration none
  | _ => pure ()

def stateRegistered : Code Unit :=
  modify fun i => { i with retryCount := 0, reconnecting := false, reconnectionState := .none }

def EventData.lifetime : EventData → UInt32
  | .updateRegister _ lifetime _ => lifetime
  | _ => 0

def EventData.newObjects : EventData → M2MObjectList
  | .updateRegister _ _ objectList => objectList
  | _ => []

def stateUpdateRegistration (data : Option EventData) : Code Unit := do
  let newObjects := (data.map (·.newObjects)).getD []
  whenM (!newObjects.isEmpty) (tell (.createNsdlListStructure (some newObjects)))
  let success ← ask (.sendUpdateRegistration ((data.map (·.lifetime)).getD 0))
  let i ← read
  if !success && i.reconnectionState == .withUpdate then do
    modify fun i => { i with reconnectionState := .fullRegistration }
    sendRegister internalEvent
  else pure ()

def stateUnregister : Code Unit := do
  internalEvent .sendingCoapData none
  let sent ← ask .sendUnregisterMessage
  whenM (!sent) (fail internalEvent .notRegistered)

def stateCoapDataReceived (data : Option EventData) : Code Unit :=
  match data with
  | some (.received bytes address) => do
    internalEvent .processingCoapData none
    let parsed ← ask
      (.processReceivedData bytes (addressType address.stack) address.port address.address)
    whenM (!parsed) (tell (.error .responseParseFailed))
  | _ => pure ()

def stateFunction (state : EStates) (data : Option EventData) : Code Unit :=
  match state with
  | .idle => stateIdle
  | .bootstrap => stateBootstrap internalEvent data
  | .bootstrapAddressResolved => stateBootstrapAddressResolved internalEvent data
  | .bootstrapResourceCreated | .bootstrapWait | .bootstrapped => pure ()
  | .register => stateRegister internalEvent data
  | .registerAddressResolved => stateRegisterAddressResolved internalEvent data
  | .registered => stateRegistered
  | .updateRegistration => stateUpdateRegistration internalEvent data
  | .unregister => stateUnregister internalEvent
  | .unregistered => internalEvent .idle none
  | .sendingCoapData | .coapDataSent => internalEvent .waiting none
  | .coapDataReceived => stateCoapDataReceived internalEvent data
  | .processingCoapData | .coapDataProcessed => internalEvent .waiting none
  | .waiting => pure ()

end StateFunctions

/-- `state_engine`: while events are being generated keep executing states. -/
def stateEngine (stateFunction : InternalEvent) : Nat → Code Unit
  | 0 => do
    let i ← read
    whenM i.eventGenerated .diverge
  | n + 1 => do
    let i ← read
    whenM i.eventGenerated do
      modify fun i => { i with eventData := none, eventGenerated := false }
      tell (.stateFunction i.currentState i.eventData)
      stateFunction i.currentState i.eventData
      stateEngine stateFunction n

def internalEventAt : Nat → InternalEvent
  | 0, _, _ => .diverge
  | n + 1, state, data => do
    modify fun i => { i with eventData := data, eventGenerated := true, currentState := state }
    stateEngine (stateFunction (internalEventAt n)) 1

/-- No chain of internal events is longer than four: a message is received, then processed, then the
machine waits. -/
def internalEvent : InternalEvent := internalEventAt 4

end MbedClient.Interface
