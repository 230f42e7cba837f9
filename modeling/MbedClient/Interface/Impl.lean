import MbedClient.Interface.Engine

/-! The entry points of `M2MInterfaceImpl`, and who calls them when. -/
namespace MbedClient.Interface
open Callback Callback.Prog

/-- `external_event` with the entry of the operation's transition map for the current state. -/
def externalEvent (operation : Operation) (data : Option EventData) : Code Unit := do
  tell (.transition operation)
  let i ← read
  match transition operation i.currentState with
  | none => modify fun i => { i with eventIgnored := true }
  | some newState => internalEvent newState data

section Application

/-- What the operations do when the transition map has ignored them. -/
def refuse (report : M2MInterfaceImpl → Bool) : Code Unit := do
  let i ← read
  whenM i.eventIgnored do
    modify fun i => { i with eventIgnored := false }
    let i ← read
    whenM (report i) (tell (.error .notAllowed))

def bootstrap (security : Option M2MSecurity) : Code Unit :=
  match security with
  | none => tell (.error .invalidParameters)
  | some security => do
    externalEvent .bootstrap (some (.security security))
    refuse fun _ => true

def registerObject (security : Option M2MSecurity) (objectList : M2MObjectList) : Code Unit :=
  match security with
  | none => tell (.error .invalidParameters)
  | some security => do
    modify fun i => { i with registerServer := some security }
    externalEvent .registerObject (some (.register security objectList))
    refuse fun _ => true

def minimumRegistrationTime : UInt32 := 60

/-- `start_register_update`, which reports a lifetime that is too short and goes on. -/
def updateRegistration (security : Option M2MSecurity) (objectList : M2MObjectList)
    (lifetime : UInt32) : Code Unit := do
  whenM (lifetime != 0 && decide (lifetime < minimumRegistrationTime))
    (tell (.error .invalidParameters))
  let i ← read
  if i.reconnecting then pure ()
  else do
    modify fun i => { i with reconnectionState := .withUpdate }
    externalEvent .updateRegistration (some (.updateRegister security lifetime objectList))
    refuse fun i => !i.reconnecting

def unregisterObject : Code Unit := do
  externalEvent .unregisterObject none
  refuse fun _ => true

end Application

section Connection

/-- Whether there is to be another retry, with the count of retries brought up to date. -/
def countRetry (error : Error) : Code Bool := do
  let i ← read
  if i.retryCount.toNat < i.config.reconnectionCount then do
    modify fun i => { i with retryCount := i.retryCount + 1 }
    pure true
  else if i.config.reconnectionLoop then do
    modify fun i => { i with retryCount := 1 }
    tell (.error error)
    pure true
  else do
    tell .stopListening
    modify fun i => { i with retryTimer := i.retryTimer.stopTimer }
    pure false

def M2MInterfaceImpl.startRetryTimer (i : M2MInterfaceImpl) : M2MInterfaceImpl :=
  { i with
    retryTimerExpired := false
    retryTimer := i.retryTimer.startTimer (seconds (i.config.reconnectionInterval *
      i.config.reconnectionCount * i.retryCount.toNat)) .retryTimer }

def startRetry : Code Unit := do
  internalEvent .idle none
  modify fun i => { i with reconnecting := true }
  tell .stopListening
  modify (·.startRetryTimer)

def M2MInterfaceImpl.stopRetrying (i : M2MInterfaceImpl) : M2MInterfaceImpl :=
  { i with
    retryTimer := i.retryTimer.stopTimer, retryCount := 0, reconnecting := false
    reconnectionState := .none }

def informApplication (error : Error) : Code Unit := do
  tell .stopListening
  modify (·.stopRetrying)
  tell (.error error)
  internalEvent .idle none

def socketError (code : UInt8) (retry : Bool) : Code Unit := do
  modify fun i => { i with reconnectionState := .withUpdate }
  let i ← read
  -- without the reconnection loop, one retry at a time
  if !i.config.reconnectionLoop && (!i.retryTimerExpired && i.reconnecting) then pure ()
  else do
    let retry ← if retry then countRetry (connectionError code) else pure false
    if retry then startRetry
    else whenM (connectionError code != .errorNone) (informApplication (connectionError code))

def dataAvailable (data : Bytes) (address : SocketAddress) : Code Unit :=
  internalEvent .coapDataReceived (some (.received data address))

def addressReady (address : SocketAddress) (type : ServerType) (port : UInt16) : Code Unit :=
  match type with
  | .bootstrap => internalEvent .bootstrapAddressResolved (some (.resolvedAddress address port))
  | .lwm2mServer => internalEvent .registerAddressResolved (some (.resolvedAddress address port))

end Connection

section Nsdl

def coapMessageReady (data : Bytes) : Code Unit := do
  let i ← read
  whenM (i.currentState != .idle) do
    internalEvent .sendingCoapData none
    let sent ← ask (.sendData data)
    whenM (!sent) do
      internalEvent .idle none
      let i ← read
      whenM (!i.reconnecting) (tell (.error .networkError))

def clientRegistered : Code Unit := do
  modify fun i => { i with retryCount := 0 }
  modify (·.stopFlowTimer)
  internalEvent .registered none
  let i ← read
  tell (.objectRegistered i.registerServer)

def registrationUpdated : Code Unit := do
  internalEvent .registered none
  let i ← read
  tell (.registrationUpdated i.registerServer)

def registrationError (code : UInt8) (retry : Bool) : Code Unit :=
  if retry then do
    socketError socketSendError true
    modify fun i => { i with reconnectionState := .fullRegistration }
  else fail internalEvent (Error.ofCode code)

def clientUnregistered : Code Unit := do
  internalEvent .unregistered none
  let i ← read
  tell (.objectUnregistered i.registerServer)

def bootstrapDone (security : Option M2MSecurity) : Code Unit := do
  modify fun i =>
    { i with retryCount := 0, reconnecting := false, reconnectionState := .none
             bootstrapped := true }
  modify (·.stopFlowTimer)
  internalEvent .bootstrapped none
  tell (.bootstrapDone security)

def bootstrapWait (security : Option M2MSecurity) : Code Unit := do
  modify fun i => { i with security := security }
  internalEvent .bootstrapWait none

/-- The code of `BootstrapFailed`, which `socket_error` takes for one of a connection. -/
def bootstrapFailedCode : UInt8 := 2

def bootstrapError : Code Unit := do
  modify fun i => { i with bootstrapped := false }
  modify (·.stopFlowTimer)
  socketError bootstrapFailedCode true

def coapDataProcessed : Code Unit := internalEvent .coapDataProcessed none

def valueUpdated (base : Option Nat) : Code Unit :=
  match base with
  | none => pure ()
  | some base => tell (.valueUpdated base)

end Nsdl

def queues : BindingMode → Bool
  | .udpQueue | .tcpQueue | .smsQueue | .udpSmsQueue => true
  | _ => false

def dataSent : Code Unit := do
  let i ← read
  whenM (queues i.bindingMode && i.callbackHandler) (modify fun i =>
    { i with queueSleepTimer := i.queueSleepTimer.stopTimer.startTimer
               (seconds (i.config.reconnectionCount * i.config.reconnectionInterval)) .queueSleep })
  if i.currentState = .bootstrapWait then do
    modify fun i => { i with security := none }
    bootstrapDone i.security
  else internalEvent .coapDataSent none

/-- A single-shot timer that expires is not running when its observer hears of it. -/
def M2MInterfaceImpl.ranOut (i : M2MInterfaceImpl) : M2MTimerObserver → M2MInterfaceImpl
  | .queueSleep => { i with queueSleepTimer := i.queueSleepTimer.stopTimer }
  | .retryTimer => { i with retryTimer := i.retryTimer.stopTimer }
  | .bootstrapFlowTimer | .registrationFlowTimer => i.stopFlowTimer
  | _ => i

/-- `M2MInterface::Timeout` -/
def timeoutCode : UInt8 := 5

def timerExpired (type : M2MTimerObserver) : Code Unit := do
  modify (·.ranOut type)
  match type with
  | .queueSleep => do
    let i ← read
    whenM i.callbackHandler (tell .queueSleepHandler)
  | .retryTimer => do
    modify fun i => { i with retryTimerExpired := true }
    let i ← read
    if i.bootstrapped then internalEvent .register none else internalEvent .bootstrap none
  | .bootstrapFlowTimer => bootstrapError
  | .registrationFlowTimer => registrationError timeoutCode true
  | _ => pure ()

def code : Entry → Code Unit
  | .bootstrap security => bootstrap security
  | .registerObject security objectList => registerObject security objectList
  | .updateRegistration security objectList lifetime =>
    updateRegistration security objectList lifetime
  | .unregisterObject => unregisterObject
  | .setQueueSleepHandler handler => modify fun i => { i with callbackHandler := handler }
  | .coapMessageReady data => coapMessageReady data
  | .clientRegistered => clientRegistered
  | .registrationUpdated => registrationUpdated
  | .registrationError code retry => registrationError code retry
  | .clientUnregistered => clientUnregistered
  | .bootstrapDone security => bootstrapDone security
  | .bootstrapWait security => bootstrapWait security
  | .bootstrapError => bootstrapError
  | .coapDataProcessed => coapDataProcessed
  | .valueUpdated base => valueUpdated base
  | .dataAvailable data address => dataAvailable data address
  | .socketError code retry => socketError code retry
  | .addressReady address type port => addressReady address type port
  | .dataSent => dataSent
  | .timerExpired type => timerExpired type

/-- Calls of the application, of the nsdl layer, and of the connection handler. -/
def Entry.byApplication : Entry → Bool
  | .bootstrap _ | .registerObject _ _ | .updateRegistration _ _ _ | .unregisterObject
  | .setQueueSleepHandler _ => true
  | _ => false

def Entry.byNsdl : Entry → Bool
  | .coapMessageReady _ | .clientRegistered | .registrationUpdated | .registrationError _ _
  | .clientUnregistered | .bootstrapDone _ | .bootstrapWait _ | .bootstrapError
  | .coapDataProcessed | .valueUpdated _ => true
  | _ => false

/-- Who calls back: a message that the nsdl layer sends comes back as `coap_message_ready`, and what
it has received may lead to any of its callbacks and to calls of the application; the connection
handler may answer at once, and the application may use any callback of the observer to call the
interface. Nothing else does. `noisy` says whether a `send_data` that fails reports a socket error
as well. -/
def admits (noisy : Bool) : Output → Bool → Entry → Bool
  | .createBootstrapResource _ _ _ _, _, e | .sendRegisterMessage, _, e
  | .sendUpdateRegistration _, _, e | .sendUnregisterMessage, _, e =>
    match e with
    | .coapMessageReady _ => true
    | _ => false
  | .processReceivedData _ _ _ _, _, e => e.byNsdl || e.byApplication
  | .resolveServerAddress _ _ _ _, _, e =>
    match e with
    | .addressReady _ _ _ | .socketError _ _ => true
    | _ => false
  | .sendData _, sent, e =>
    match e with
    | .dataSent => sent
    | .socketError _ _ => sent || noisy
    | _ => false
  | .error _, _, e | .objectRegistered _, _, e | .registrationUpdated _, _, e
  | .objectUnregistered _, _, e | .bootstrapDone _, _, e | .valueUpdated _, _, e
  | .queueSleepHandler, _, e => e.byApplication
  | .transition _, _, _ | .stateFunction _ _, _, _ | .stopTimers, _, _
  | .createNsdlListStructure _, _, _ | .setServerAddress _ _ _, _, _ | .bindConnection _, _, _
  | .stopListening, _, _ | .startListeningForData, _, _ => false

def reenters (noisy : Bool) : Output → Bool → Bool
  | .transition _, _ | .stateFunction _ _, _ | .stopTimers, _ | .createNsdlListStructure _, _
  | .setServerAddress _ _ _, _ | .bindConnection _, _ | .stopListening, _
  | .startListeningForData, _ => false
  | .sendData _, sent => sent || noisy
  | _, _ => true

theorem reenters_of_admits {noisy : Bool} {o : Output} {b : Bool} {e : Entry}
    (h : admits noisy o b e = true) : reenters noisy o b = true := by
  cases o with
  | sendData data =>
    cases e with
    | dataSent => exact Bool.or_eq_true_iff.mpr (Or.inl h)
    | socketError code retry => exact h
    | _ => cases h
  | _ => first | rfl | cases h

def machine (noisy : Bool) : Machine M2MInterfaceImpl Output Entry where
  code := code
  admits := admits noisy
  reenters := reenters noisy
  reenters_of_admits _ _ _ h := MbedClient.Interface.reenters_of_admits h

end MbedClient.Interface
