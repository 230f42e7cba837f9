import MbedClient.Nsdl.Bootstrap

/-! `M2MNsdlInterface::received_from_server_callback`: what the CoAP library passes on because it
knows no entity for it. It is told apart by its message id. -/
namespace MbedClient.Nsdl
open Observe (Entity)

structure Address where
  address : Bytes
  port : UInt16
  deriving DecidableEq

/-- The fields of `nsdl_s` that are compared with those of a message. -/
structure NsdlHandle where
  registerMsgId : UInt16
  unregisterMsgId : UInt16
  updateRegisterMsgId : UInt16
  bootstrapMsgId : UInt16
  omaBsAddress : Bytes
  omaBsPort : UInt16

def NsdlHandle.storedIds (handle : NsdlHandle) : List UInt16 :=
  [handle.registerMsgId, handle.unregisterMsgId, handle.updateRegisterMsgId, handle.bootstrapMsgId]

def NsdlHandle.isBootstrapMsg (handle : NsdlHandle) (address : Option Address) : Bool :=
  address == some ⟨handle.omaBsAddress, handle.omaBsPort⟩

def interfaceError (header : CoapHeader) : Interface.Error :=
  if header.coapStatus = .messageSendingFailed then .networkError
  else match header.msgCode with
    | .badRequest | .badOption | .requestEntityIncomplete | .preconditionFailed
    | .requestEntityTooLarge | .unsupportedContentFormat => .invalidParameters
    | .unauthorized | .forbidden | .notAcceptable | .notFound | .methodNotAllowed => .notAllowed
    | .created | .deleted | .valid | .changed | .content => .errorNone
    | _ => .unknownError

section Responses
variable (header : CoapHeader) (s : NsdlInterface)

/-- `registration_time`, in seconds. -/
def registrationTime (lifetime : Option Bytes) : UInt64 :=
  let value := match lifetime with
    | none => 0
    | some lifetime => UInt64.ofInt (atoll lifetime)
  if value ≥ 3600 then value - 900 else value * 3 / 4

/-- `set_endpoint_lifetime_buffer`. The new text is lost if it cannot be allocated. -/
def setEndpointLifetimeBuffer (lifetime : Int32) : NsdlInterface :=
  let (copied, heap) := s.heap.malloc
  { s with lifetime := if copied then some (itoaC (Int64.ofInt lifetime.toInt)) else none, heap }

def startRegistrationTimer : NsdlInterface :=
  (s.tell .stopRegistrationTimer).tell
    (.startRegistrationTimer (registrationTime s.lifetime * 1000))

/-- What the response to a registration says about the lifetime and the location. -/
def takeOptions (options : OptionsList) : NsdlInterface :=
  let s := { s with lifetime := none }
  let s := if options.maxAge > 0 then setEndpointLifetimeBuffer s options.maxAge.toInt32 else s
  match options.locationPath with
  | none => s
  | some location => s.tell (.setEndpointLocation location)

def receivedRegistration : NsdlInterface :=
  if header.msgCode = .created then
    let s := s.tell .clientRegistered
    let s := match header.options with
      | none => s
      | some options => takeOptions s options
    if s.lifetime.isSome then startRegistrationTimer s else s
  else if header.msgCode = .badRequest ∨ header.msgCode = .forbidden then
    s.tell (.registrationError .invalidParameters false)
  else s.tell (.registrationError .networkError true)

def receivedUnregistration : NsdlInterface :=
  let s := { s with unregisterOngoing := false }
  if header.msgCode = .deleted then (s.tell .stopRegistrationTimer).tell .clientUnregistered
  else s.tell (.registrationError (interfaceError header) false)

def receivedUpdate : NsdlInterface :=
  if header.msgCode = .changed then s.tell .registrationUpdated
  else (s.tell .stopRegistrationTimer).tell .registerEndpoint

def receivedBootstrap : NsdlInterface :=
  let s := { s with bootstrapId := 0 }
  if interfaceError header ≠ .errorNone then s.handleBootstrapError
  else { s with identityAccepted := true }

end Responses

section Requests
variable (w : Surroundings) (header : CoapHeader) (s : NsdlInterface)

def getPutPostAllowed : UInt8 := 0x07

/-- `send_update_registration` with a lifetime of 0. Whether it succeeds is not looked at. -/
def sendUpdateRegistration : NsdlInterface :=
  (s.tell .createNsdlListStructure).tell .updateRegistration

/-- `create_object_instance` and `handle_post_request` of the new instance: the response, whether
the application is to be told, and the object. -/
def createAndPost (o : ObjectNode) (id : UInt16) :
    Option (Option Response × Bool × ObjectNode × Heap) :=
  let (created, o, h) := o.createObjectInstance id s.heap
  if created then
    let n := Identity.objectInstance o.name id
    let o := o.setParams n { o.params n with operation := getPutPostAllowed }
    (o.atObjectInstance (o.instances.length - 1) fun _ oi p =>
      handlePostRequestObjectInstance w header oi p h o.name).map fun handled =>
        (handled.response, handled.executeValueUpdated, handled.entity, handled.heap)
  else some (none, false, o, h)

/-- The branch of a POST with one slash in its path, whose object and id have been found. -/
def postToObject (i : Nat) (o : ObjectNode) (id : UInt16) : Option NsdlInterface :=
  (createAndPost w header s o id).map fun (response, told, o, heap) =>
    let rejected := response.any (·.msgCode ≠ .created)
    let o := if rejected then (o.removeObjectInstance id).2 else o
    let s := { s with objects := s.objects.set i o, heap }
    let s := if rejected then s else sendUpdateRegistration s
    let s := s.send response
    if told then s.tell .valueUpdated else s

/-- A path that is cut at its last slash: the name of an object, and the text of an id. -/
def splitPath (path : Bytes) : Option (Bytes × Bytes) :=
  (lastSegment path).map fun text => (path.take (path.length - text.length - 1), text)

/-- A POST that does not come from the bootstrap server. Nothing if the name is that of another
kind of entity. -/
def receivedPost : Option NsdlInterface :=
  let reply (msgCode : MsgCode) := some (s.send (w.buildResponse header msgCode))
  match header.uriPath with
  | none => some s
  | some uriPath =>
    match splitPath (coapToString uriPath) with
    | none => reply .notFound
    | some (objectName, text) =>
      if slash ∈ objectName then reply .notFound
      else
        let instanceId := Interface.atoi text
        match findResource objectName s.objects with
        | none => reply .methodNotAllowed
        | some e =>
          if 0 ≤ instanceId ∧ instanceId < 65535 then
            match header.payloadPtr with
            | none => reply .badRequest
            | some _ =>
              match e with
              | .object i => s.objects[i]?.bind fun o =>
                postToObject w header s i o (UInt16.ofInt instanceId)
              | _ => none
          else reply .methodNotAllowed

/-- What becomes of such a POST, as far as it can be told without carrying it out. -/
inductive PostPlan where
  | ignore
  | reply (msgCode : MsgCode)
  | create (i : Nat) (o : ObjectNode) (id : UInt16)
  | undefined

def postPlan (header : CoapHeader) (objects : List ObjectNode) : PostPlan :=
  match header.uriPath with
  | none => .ignore
  | some uriPath =>
    match splitPath (coapToString uriPath) with
    | none => .reply .notFound
    | some (objectName, text) =>
      if slash ∈ objectName then .reply .notFound
      else
        match findResource objectName objects with
        | none => .reply .methodNotAllowed
        | some e =>
          if 0 ≤ Interface.atoi text ∧ Interface.atoi text < 65535 then
            match header.payloadPtr, e with
            | none, _ => .reply .badRequest
            | some _, .object i =>
              match objects[i]? with
              | none => .undefined
              | some o => .create i o (UInt16.ofInt (Interface.atoi text))
            | some _, _ => .undefined
          else .reply .methodNotAllowed

theorem receivedPost_eq : receivedPost w header s =
    match postPlan header s.objects with
    | .ignore => some s
    | .reply msgCode => some (s.send (w.buildResponse header msgCode))
    | .create i o id => postToObject w header s i o id
    | .undefined => none := by
  unfold receivedPost postPlan
  cases header.uriPath with
  | none => rfl
  | some uriPath =>
    dsimp only
    cases splitPath (coapToString uriPath) with
    | none => rfl
    | some split =>
      obtain ⟨objectName, text⟩ := split
      dsimp only
      by_cases hslash : slash ∈ objectName
      · rw [if_pos hslash, if_pos hslash]
      · rw [if_neg hslash, if_neg hslash]
        cases findResource objectName s.objects with
        | none => rfl
        | some e =>
          dsimp only
          by_cases hid : 0 ≤ Interface.atoi text ∧ Interface.atoi text < 65535
          · rw [if_pos hid, if_pos hid]
            cases header.payloadPtr with
            | none => rfl
            | some data =>
              cases e with
              | object i =>
                cases hi : s.objects[i]? <;> simp only [hi, Option.bind_none, Option.bind_some]
              | objectInstance i j => rfl
              | resource i j k => rfl
              | resourceInstance i j k m => rfl
          · rw [if_neg hid, if_neg hid]

/-- The last branch: a message that answers nothing. A RESET and an empty acknowledgement are about
observations, so they are left to `MbedClient.Observe`. -/
def receivedRequest (isBootstrapMsg : Bool) : Option NsdlInterface :=
  match header.msgCode with
  | .requestPut =>
    if isBootstrapMsg then handleBootstrapPutMessage w header s
    else some (s.send (w.buildResponse header .methodNotAllowed))
  | .requestDelete =>
    if isBootstrapMsg then some (handleBootstrapDelete w header s)
    else some (s.send (w.buildResponse header .methodNotAllowed))
  | .requestPost =>
    if isBootstrapMsg then handleBootstrapFinished w header s else receivedPost w header s
  | _ => some s

end Requests

/-- `received_from_server_callback`. Nothing if it does something undefined. -/
def receivedFromServer (w : Surroundings) (handle : NsdlHandle) (header : CoapHeader)
    (address : Option Address) (s : NsdlInterface) : Option NsdlInterface :=
  let s := s.tell .coapDataProcessed
  if header.msgId = handle.registerMsgId then some (receivedRegistration header s)
  else if header.msgId = handle.unregisterMsgId then some (receivedUnregistration header s)
  else if header.msgId = handle.updateRegisterMsgId then some (receivedUpdate header s)
  else if header.msgId = handle.bootstrapMsgId then some (receivedBootstrap header s)
  else receivedRequest w header s (handle.isBootstrapMsg address)

end MbedClient.Nsdl
