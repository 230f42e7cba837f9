import MbedClient.CNumber
import MbedClient.Timer

/-! `M2MInterfaceImpl`: its state, the calls it makes and the calls it takes. -/
namespace MbedClient.Interface

inductive EStates where
  | idle
  | bootstrap
  | bootstrapAddressResolved
  | bootstrapResourceCreated
  | bootstrapWait
  | bootstrapped
  | register
  | registerAddressResolved
  | registered
  | updateRegistration
  | unregister
  | unregistered
  | sendingCoapData
  | coapDataSent
  | coapDataReceived
  | processingCoapData
  | coapDataProcessed
  | waiting
deriving DecidableEq, Repr

inductive ReconnectionState where
  | none
  | withUpdate
  | fullRegistration
deriving DecidableEq, Repr

inductive Error where
  | errorNone
  | alreadyExists
  | bootstrapFailed
  | invalidParameters
  | notRegistered
  | timeout
  | networkError
  | responseParseFailed
  | unknownError
  | memoryFail
  | notAllowed
  | secureConnectionFailed
  | dnsResolvingFailed
deriving DecidableEq, Repr

namespace Error

def all : List Error :=
  [errorNone, alreadyExists, bootstrapFailed, invalidParameters, notRegistered, timeout,
    networkError, responseParseFailed, unknownError, memoryFail, notAllowed,
    secureConnectionFailed, dnsResolvingFailed]

/-- `(M2MInterface::Error)error_code`; the codes that come in are those of the enumeration. -/
def ofCode (code : UInt8) : Error := all.getD code.toNat unknownError

end Error

/-- The codes of `M2MConnectionHandler::ConnectionError` that `socket_error` tells apart. -/
def connectionError (code : UInt8) : Error :=
  if code = 1 then .secureConnectionFailed      -- SSL_CONNECTION_ERROR
  else if code = 5 then .dnsResolvingFailed     -- DNS_RESOLVING_ERROR
  else if code = 2 then .networkError           -- SOCKET_READ_ERROR
  else if code = 3 then .networkError           -- SOCKET_SEND_ERROR
  else if code = 6 then .secureConnectionFailed -- SSL_HANDSHAKE_ERROR
  else if code = 4 then .networkError           -- SOCKET_ABORT
  else .errorNone

def socketSendError : UInt8 := 3

inductive BindingMode where
  | notSet | udp | udpQueue | sms | smsQueue | udpSmsQueue | tcp | tcpQueue
deriving DecidableEq, Repr

inductive NetworkStack where
  | uninitialized | lwipIPv4 | lwipIPv6 | reserved | nanostackIPv6 | atwincIPv4 | unknown
deriving DecidableEq, Repr

structure SocketAddress where
  stack : NetworkStack
  address : Bytes
  port : UInt16
deriving DecidableEq, Repr

/-- `M2MConnectionObserver::ServerType`, and the server type of a security object. -/
inductive ServerType where
  | bootstrap
  | lwm2mServer
deriving DecidableEq, Repr

/-- A security object: its identity, which is what a pointer to it carries, and what the interface
reads of it when it is handed over. Objects are the same where their pointers are; one that is
written before it is handed over again has the same pointer and counts as another object. -/
structure M2MSecurity where
  pointer : Nat
  serverType : ServerType
  serverUri : Bytes
  securityMode : UInt32
deriving DecidableEq, Repr

def noSecurity : UInt32 := 3

/-- The objects of a list, by pointer. -/
abbrev M2MObjectList := List Nat

inductive EventData where
  | security (object : M2MSecurity)
  | resolvedAddress (address : SocketAddress) (port : UInt16)
  | received (data : Bytes) (address : SocketAddress)
  | register (object : M2MSecurity) (objectList : M2MObjectList)
  | updateRegister (object : Option M2MSecurity) (lifetime : UInt32) (objectList : M2MObjectList)
deriving DecidableEq, Repr

/-- `_object` as `static_cast<M2MSecurityData *>` or `static_cast<M2MRegisterData *>` finds it: the
three classes that have it begin with it. -/
def EventData.object : EventData → Option M2MSecurity
  | .security object | .register object _ => some object
  | .updateRegister object _ _ => object
  | .resolvedAddress _ _ | .received _ _ => none

/-- `_object_list` as `static_cast<M2MRegisterData *>` finds it. In an `M2MUpdateRegisterData` the
lifetime is in its place, so that what is found there is not a list. -/
def EventData.objectList : EventData → Option M2MObjectList
  | .register _ objectList => some objectList
  | _ => none

/-- The address types of the CoAP library; `none` is an uninitialised field. -/
inductive AddressType where
  | none | ipv4 | ipv6
deriving DecidableEq, Repr

inductive Operation where
  | bootstrap
  | registerObject
  | updateRegistration
  | unregisterObject
deriving DecidableEq, Repr

/-- The calls the interface makes: of its own transition maps and state functions (which are ghost
records), of the nsdl layer, of the connection handler, and of the observer. -/
inductive Output where
  | transition (operation : Operation)
  | stateFunction (state : EStates) (data : Option EventData)
  | stopTimers
  | createNsdlListStructure (objectList : Option M2MObjectList)
  | createBootstrapResource (type : AddressType) (port : UInt16) (address : Bytes) (name : Bytes)
  | setServerAddress (type : AddressType) (port : UInt16) (address : Bytes)
  | sendRegisterMessage
  | sendUpdateRegistration (lifetime : UInt32)
  | sendUnregisterMessage
  | processReceivedData (data : Bytes) (type : AddressType) (port : UInt16) (address : Bytes)
  | bindConnection (port : UInt16)
  | stopListening
  | startListeningForData
  | resolveServerAddress (address : Bytes) (port : UInt16) (type : ServerType)
      (security : Option M2MSecurity)
  | sendData (data : Bytes)
  | error (error : Error)
  | objectRegistered (security : Option M2MSecurity)
  | registrationUpdated (security : Option M2MSecurity)
  | objectUnregistered (security : Option M2MSecurity)
  | bootstrapDone (security : Option M2MSecurity)
  | valueUpdated (base : Nat)
  | queueSleepHandler
deriving DecidableEq, Repr

/-- The calls the interface takes: from the application, the nsdl layer, the connection handler and
the timers. Neither form of `update_registration` differs from the other beyond its object list. -/
inductive Entry where
  | bootstrap (security : Option M2MSecurity)
  | registerObject (security : Option M2MSecurity) (objectList : M2MObjectList)
  | updateRegistration (security : Option M2MSecurity) (objectList : M2MObjectList)
      (lifetime : UInt32)
  | unregisterObject
  | setQueueSleepHandler (handler : Bool)
  | coapMessageReady (data : Bytes)
  | clientRegistered
  | registrationUpdated
  | registrationError (code : UInt8) (retry : Bool)
  | clientUnregistered
  | bootstrapDone (security : Option M2MSecurity)
  | bootstrapWait (security : Option M2MSecurity)
  | bootstrapError
  | coapDataProcessed
  | valueUpdated (base : Option Nat)
  | dataAvailable (data : Bytes) (address : SocketAddress)
  | socketError (code : UInt8) (retry : Bool)
  | addressReady (address : SocketAddress) (type : ServerType) (port : UInt16)
  | dataSent
  | timerExpired (type : M2MTimerObserver)
deriving DecidableEq, Repr

/-- What a build fixes: `MBED_CLIENT_RECONNECTION_COUNT`, `_INTERVAL` and `_LOOP`. -/
structure Config where
  reconnectionCount : Nat := 3
  reconnectionInterval : Nat := 5
  reconnectionLoop : Bool := true
deriving DecidableEq, Repr

structure M2MInterfaceImpl where
  config : Config := {}
  endpointName : Bytes := []
  domain : Bytes := []
  bindingMode : BindingMode := .notSet
  eventData : Option EventData := none
  /-- only TCP has one -/
  registrationFlowTimer : Option M2MTimer := none
  serverPort : UInt16 := 0
  listenPort : UInt16 := 0
  serverIpAddress : Bytes := []
  registerServer : Option M2MSecurity := none
  queueSleepTimer : M2MTimer := {}
  retryTimer : M2MTimer := {}
  callbackHandler : Bool := false
  eventIgnored : Bool := false
  eventGenerated : Bool := false
  reconnecting : Bool := false
  retryTimerExpired : Bool := false
  bootstrapped : Bool := true
  currentState : EStates := .idle
  retryCount : UInt8 := 0
  reconnectionState : ReconnectionState := .none
  security : Option M2MSecurity := none
deriving DecidableEq, Repr

def M2MInterfaceImpl.create (config : Config) (endpointName domain : Bytes)
    (bindingMode : BindingMode) (listenPort : UInt16) : M2MInterfaceImpl :=
  { config, endpointName, domain, bindingMode, listenPort
    registrationFlowTimer :=
      if bindingMode = .tcp ∨ bindingMode = .tcpQueue then some {} else none }

/-- The transition maps, where `none` is `EVENT_IGNORED`. -/
def transition : Operation → EStates → Option EStates
  | .bootstrap, .idle => some .bootstrap
  | .bootstrap, _ => none
  | .registerObject, .idle | .registerObject, .bootstrapped | .registerObject, .registered
  | .registerObject, .waiting => some .register
  | .registerObject, _ => none
  | .updateRegistration, .idle => some .register
  | .updateRegistration, .registered | .updateRegistration, .waiting => some .updateRegistration
  | .updateRegistration, _ => none
  | .unregisterObject, .registered | .unregisterObject, .updateRegistration
  | .unregisterObject, .waiting => some .unregister
  | .unregisterObject, _ => none

section Address

/-- `find_last_of`, which is `strrchr`. -/
def findLastOf (c : UInt8) (s : Bytes) : Option Nat :=
  match (cStr s).reverse.findIdx? (· == c) with
  | some k => some ((cStr s).length - 1 - k)
  | none => none

/-- `atoi`, whose `int` keeps the low 32 bits of what `strtol` finds. -/
def atoi (s : Bytes) : Int := Int.bmod (atoll s) (2 ^ 32)

/-- What `process_address` makes of `ip_address` and `port`, which stay as they are if the address
has no colon. What is assigned to a `String` ends at its first NUL. -/
def processAddress (serverAddress : Bytes) (ipAddress : Bytes) (port : UInt16) : Bytes × UInt16 :=
  match findLastOf 0x3A serverAddress with
  | none => (ipAddress, port)
  | some colonFound =>
    let ipAddress := cStr (serverAddress.take colonFound)
    let port := UInt16.ofInt (atoi (serverAddress.drop (colonFound + 1)))
    if ipAddress.head? = some 0x5B then
      match findLastOf 0x5D ipAddress with
      | none => ([], port)
      | some bracket => (cStr ((ipAddress.drop 1).take (bracket - 1)), port)
    else if (findLastOf 0x5D ipAddress).isSome then ([], port)
    else (ipAddress, port)

def coapScheme : Bytes := [0x63, 0x6F, 0x61, 0x70, 0x3A, 0x2F, 0x2F]
def coapsScheme : Bytes := [0x63, 0x6F, 0x61, 0x70, 0x73, 0x3A, 0x2F, 0x2F]

/-- The server URI behind its scheme; `resource_value_string` gives it up to its first NUL. A
`coaps` URI needs a security mode. -/
def M2MSecurity.serverAddress (s : M2MSecurity) : Option Bytes :=
  let uri := cStr s.serverUri
  if coapScheme.isPrefixOf uri then some (uri.drop coapScheme.length)
  else if coapsScheme.isPrefixOf uri && s.securityMode != noSecurity then
    some (uri.drop coapsScheme.length)
  else none

end Address
end MbedClient.Interface
