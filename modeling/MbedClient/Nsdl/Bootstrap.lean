import MbedClient.Interface.State
import MbedClient.Nsdl.Dispatch

/-! `M2MNsdlInterface`: its state, the calls it makes, and the requests of a bootstrap server. -/
namespace MbedClient.Nsdl

/-- Calls of the observer, of the CoAP library and of the registration timer, in their order. A
security object goes by the number of its construction. -/
inductive Call where
  | coapDataProcessed
  | clientRegistered
  | registrationUpdated
  | registrationError (error : Interface.Error) (retry : Bool)
  | clientUnregistered
  | bootstrapWait (security : Nat)
  | bootstrapError
  | valueUpdated
  | send (response : Response)
  | setEndpointLocation (location : Bytes)
  | registerEndpoint
  | createNsdlListStructure
  | updateRegistration
  | startRegistrationTimer (interval : UInt64)
  | stopRegistrationTimer
  deriving DecidableEq

/-- `serverInstance` is missing if it could not be allocated. -/
structure M2MServer where
  serverInstance : Option M2MObjectInstance

namespace M2MServer

def toObject (server : M2MServer) : M2MObject := ⟨server.serverInstance.toList⟩

def ofObject (obj : M2MObject) : M2MServer := ⟨obj.instances.head?⟩

theorem ofObject_toObject (server : M2MServer) : ofObject server.toObject = server := by
  obtain ⟨_ | oi⟩ := server <;> rfl

end M2MServer

/-- The fields of the class that received messages read or write, the heap, and the calls that have
been made. `constructed` counts the security objects; `security` is the last of them or NULL. -/
structure NsdlInterface where
  objects : List ObjectNode
  security : Option M2MSecurity
  constructed : Nat
  server : M2MServer
  identityAccepted : Bool
  bootstrapId : UInt16
  unregisterOngoing : Bool
  lifetime : Option Bytes
  heap : Heap
  calls : List Call

namespace NsdlInterface
variable (s : NsdlInterface)

def tell (call : Call) : NsdlInterface := { s with calls := s.calls ++ [call] }

/-- `sn_nsdl_send_coap_message`, if there is a message. -/
def send : Option Response → NsdlInterface
  | none => s
  | some response => s.tell (.send response)

def handleBootstrapError : NsdlInterface :=
  { s with identityAccepted := false, security := none }.tell .bootstrapError

end NsdlInterface

def putAllowedOnly : UInt8 := 0x02

/-- "bs" -/
def bootstrapUri : Bytes := [0x62, 0x73]

section Put
variable (w : Surroundings) (request : CoapHeader)

/-- `deserialise_object_instances`, or `deserialize_resources` for the instance that the first id of
the payload names. Nothing if there is no such instance. -/
def parseInto (obj : M2MObject) (operation : Tlv.Operation) (h : Heap) :
    Option (Bool × M2MObject × Heap) :=
  let data := request.payloadPtr
  let size := request.payloadLen.toNat
  if Tlv.isType typeObjectInstance data then
    let (error, obj, env) := Tlv.deserialiseObjectInstances data size .put (obj, ⟨h, []⟩)
    some (error = .none, obj, env.heap)
  else if Tlv.isType typeResource data then do
    let id ← tlvInstanceId data
    let (j, oi) ← Search.first (·.instanceId == id) obj.instances
    let (error, oi, env) := Tlv.deserializeResources data size operation (oi, ⟨h, []⟩)
    some (error = .none, { instances := obj.instances.set j oi }, env.heap)
  else some (false, obj, h)

def parseBootstrapMessage (isSecurityObject : Bool) (s : NsdlInterface) :
    Option (Bool × NsdlInterface) :=
  match s.security with
  | none => some (false, s)
  | some security =>
    if isSecurityObject then
      (parseInto request (security.toObject) .put s.heap).map fun (ret, obj, heap) =>
        (ret, { s with security := some (security.ofObject obj), heap })
    else
      (parseInto request s.server.toObject .post s.heap).map fun (ret, obj, heap) =>
        (ret, { s with server := .ofObject obj, heap })

/-- What a message that names object "0" does to the security object in front of the rest. -/
def prepareSecurity (s : NsdlInterface) : Option NsdlInterface :=
  match s.security with
  | none => some s
  | some security => do
    let (_, security, heap) := security.createResource .shortServerID 1 s.heap
    let security ← security.setOperations putAllowedOnly
    some { s with security := some security, heap }

/-- `new M2MSecurity(M2MSecurity::M2MServer)`, unless there is an object. -/
def constructSecurity (s : NsdlInterface) : NsdlInterface :=
  match s.security with
  | some _ => s
  | none =>
    let (security, heap) := M2MSecurity.new .m2mServer s.heap
    { s with security := some security, constructed := s.constructed + 1, heap }

/-- The part of `handle_bootstrap_put_message` behind the check of the path. -/
def applyBootstrapPut (isSecurityObject : Bool) (s : NsdlInterface) :
    Option (Bool × NsdlInterface) := do
  let s := if request.token = [] then s
    else s.send
      ((w.buildResponse request .empty).map fun r => { r with msgType := .acknowledgement })
  if request.contentFormat.getD 0 = coapContentOmaTlvType then
    let (success, s) ← parseBootstrapMessage request isSecurityObject s
    match s.security with
    | none => some (success, s)
    | some security =>
      let security ← security.setOperations notAllowed
      some (success, { s with security := some security })
  else some (false, s)

/-- A path that starts like "0" names the security object, one that starts like "1" the server. -/
def bootstrapPut (s : NsdlInterface) : Option (Bool × NsdlInterface) :=
  let path := request.uriPath.getD []
  if path.head? = some 0x30 then (prepareSecurity s).bind (applyBootstrapPut w request true)
  else if path.head? = some 0x31 then applyBootstrapPut w request false s
  else some (false, s)

/-- `handle_bootstrap_put_message`. Nothing if it uses an object instance that is missing. -/
def handleBootstrapPutMessage (s : NsdlInterface) : Option NsdlInterface :=
  (bootstrapPut w request (constructSecurity s)).map fun (success, s) =>
    let s := if success then s else s.handleBootstrapError
    s.send (w.buildResponse request (if success then .changed else .badRequest))

end Put

section Finished
variable (w : Surroundings) (request : CoapHeader)

def noSecurityMode : UInt32 := 3
def certificateMode : UInt32 := 2

/-- The length of a value. Nothing if there is no such resource. -/
def valueLength (security : M2MSecurity) (res : SecurityResource) : Option Nat :=
  (security.getResource res).map (·.value.length)

/-- `validate_security_object`. The address is a `String` that has been assigned, which ends at its
first NUL. The integer of the resource that tells a bootstrap server is 0, since
`resource_value_int` does not know that resource. -/
def validateSecurityObject (s : NsdlInterface) : Option (Bool × NsdlInterface) :=
  match s.security with
  | none => some (false, s)
  | some security => do
    let address := cStr (((security.getResource .m2mServerUri).map (·.value)).getD [])
    let (secMode, h) := security.resourceValueInt .securityMode s.heap
    let secMode ← secMode
    let (isBsServer, h) := security.resourceValueInt .bootstrapServer h
    let isBsServer ← isBsServer
    let publicKeySize ← valueLength security .publicKey
    let serverKeySize ← valueLength security .serverPublicKey
    let pkeySize ← valueLength security .secretkey
    let valid := !address.isEmpty && isBsServer == 0 &&
      (if secMode = certificateMode then publicKeySize != 0 && serverKeySize != 0 && pkeySize != 0
        else secMode == noSecurityMode)
    some (valid, { s with heap := h })

def setShortServerId (value : UInt32) (s : NsdlInterface) : NsdlInterface :=
  match s.server.serverInstance with
  | none => s
  | some oi =>
    let (_, oi, heap) := oi.useResource [0x30]
      (fun b => b.setValueInt (Int64.ofNat value.toNat)) s.heap
    { s with server := ⟨some oi⟩, heap }

/-- The path and the security object are as they should be. -/
def bootstrapComplete (s : NsdlInterface) : Option (Bool × NsdlInterface) :=
  if request.uriPath.getD [] = bootstrapUri then validateSecurityObject s else some (false, s)

/-- `handle_bootstrap_finished`. Nothing if a resource of the security object is missing. -/
def handleBootstrapFinished (s : NsdlInterface) : Option NsdlInterface := do
  let (valid, s) ← bootstrapComplete request s
  if valid then
    let security ← s.security
    let (shortServerId, heap) := security.resourceValueInt .shortServerID s.heap
    let shortServerId ← shortServerId
    let s := setShortServerId shortServerId { s with heap }
    some ((s.send (w.buildResponse request .changed)).tell (.bootstrapWait s.constructed))
  else some (s.send (w.buildResponse request .badRequest)).handleBootstrapError

/-- Accepted paths: "0" and "0/0"; an empty one passes the checks as well. -/
def bootstrapDeletePath (path : Bytes) : Bool := path == [] || path == [0x30] ||
  path == [0x30, 0x2F, 0x30]

def handleBootstrapDelete (s : NsdlInterface) : NsdlInterface :=
  let accepted := s.identityAccepted && bootstrapDeletePath (request.uriPath.getD [])
  let msgCode : MsgCode := if accepted then .deleted else .badRequest
  match w.buildResponse request msgCode with
  | none => s.handleBootstrapError
  | some response =>
    let s := { s.tell (.send response) with security := s.security.map (·.clearResources) }
    if accepted then s else s.handleBootstrapError

end Finished
end MbedClient.Nsdl
