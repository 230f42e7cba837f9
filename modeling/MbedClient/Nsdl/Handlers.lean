import MbedClient.Nsdl.Node
import MbedClient.Security
import MbedClient.Tlv.Deserializer

/-! The request handlers of the four kinds of entities: `handle_get_request`, `handle_put_request`
and `handle_post_request`. What a GET does to observations is in `MbedClient.Observe`. -/
namespace MbedClient.Nsdl

/-- What a handler leaves: the response it returns, the entity, the messages it has sent itself and
whether the application is to be told. -/
structure Handled (α : Type) where
  response : Option Response
  entity : α
  heap : Heap
  sent : List Response := []
  executeValueUpdated : Bool := false

section Base
variable (w : Surroundings) (n : Identity) (request : CoapHeader)

def handleGetRequestBase (b : M2MResourceBase) (p : Params) (h : Heap) : Option Response × Heap :=
  let response := w.buildResponse request .content
  if b.operation &&& snGrsGetAllowed = 0 then (answer response .methodNotAllowed, h)
  else match response with
    | none => (none, h)
    | some response =>
      let format := if b.resourceType = .opaqueData then coapContentOmaOpaqueType else 0
      let blockwise := match p.blockMessage with
        | none => false
        | some block => block.isBlockMessage
      let (payload, h) := if blockwise then
          (w.outgoingBlockMessage (coapToString request.uriPath), h)
        else b.getValue h
      (some { response with
        msgCode := request.observeCode p.isObservable .content
        contentFormat := some format
        payload := sentPayload payload }, h)

def baseType : Identity → Observe.BaseType
  | .object _ => .object
  | .objectInstance .. => .objectInstance
  | .resource .. => .resource
  | .resourceInstance .. => .resourceInstance

/-- `handle_observation_attribute`. Nothing if the query leaves the arrays that it is copied to. -/
def handleObservationAttribute (resourceType : ResourceType) (query : Bytes) : Option Bool :=
  ((w.reportHandler n).handleObservationAttribute (cStr query) (baseType n)
    resourceType).value.map (·.1)

/-- The query of a PUT, which takes no payload then: the code for it, unless its copy cannot be
allocated. -/
def handleQuery (resourceType : ResourceType) (query : Bytes) (h : Heap) :
    Option (MsgCode × Heap) :=
  let (copied, h) := h.malloc
  if copied then
    (handleObservationAttribute w n resourceType query).map fun success =>
      (if success then .changed else .badRequest, h)
  else some (.changed, h)

/-- `set_message_info` of the block message, if there is one -/
def setMessageInfo (p : Params) (h : Heap) : Option (Option M2MBlockMessage × Heap) :=
  match p.blockMessage with
  | none => some (none, h)
  | some block =>
    (block.setMessageInfo w.maxIncomingMessageSize request h).map fun (block, h) => (some block, h)

/-- `M2MResourceBase::handle_put_request`. A block goes to the application and not into the value.
Nothing if the query leaves its arrays, or a block is read through NULL. -/
def handlePutRequestBase (b : M2MResourceBase) (p : Params) (h : Heap) :
    Option (Handled (M2MResourceBase × Params)) :=
  match w.buildResponse request .changed with
  | none => some { response := none, entity := (b, p), heap := h }
  | some response =>
    match request.uriQuery with
    | some query =>
      (handleQuery w n b.resourceType query h).map fun (msgCode, h) =>
        { response := some { response with msgCode }, entity := (b, p), heap := h }
    | none =>
      if b.operation &&& snGrsPutAllowed ≠ 0 then
        if request.contentFormat = some coapContentOmaTlvType then
          some { response := some { response with msgCode := .unsupportedContentFormat }
                 entity := (b, p), heap := h }
        else
          let told := request.payloadPtr.isSome
          (setMessageInfo w request p h).map fun (block, h) =>
            match block.filter (·.isBlockMessage) with
            | some block =>
              { response := some { response with
                  msgCode := .changed
                  coapStatus := if block.isLastBlock then .blockwiseMsgReceived
                    else .blockwiseMsgReceiving }
                entity := (b, { p with blockMessage := some block.afterShown }), heap := h
                executeValueUpdated := told }
            | none =>
              let (_, b, h) := b.setValue request.payload h
              { response := some { response with msgCode := .changed }
                entity := (b, { p with blockMessage := block }), heap := h
                executeValueUpdated := told }
      else
        some { response := some { response with msgCode := .methodNotAllowed }
               entity := (b, p), heap := h }

/-- The content of an entity, if it is asked for in TLV. Nothing if the serializer leaves its
buffers. -/
def serialized (subject : Tlv.Subject) (type : UInt16) (h : Heap) : Option (Option Bytes × Heap) :=
  if type = coapContentOmaTlvType then
    (Tlv.serialize w.commonWrite64Bit subject h).map fun (out, h) => (out.data, h)
  else some (none, h)

end Base

/-- The codes for the errors of the deserializer. -/
def errorCode (success : MsgCode) : Tlv.Error → MsgCode
  | .none => success
  | .notFound => .notFound
  | .notAllowed => .methodNotAllowed
  | .notValid => .badRequest

section Resource
variable (w : Surroundings) (n : Identity) (request : CoapHeader) (r : M2MResource) (p : Params)
  (h : Heap)

def handleGetRequestResource : Option (Handled (M2MResource × Params)) :=
  if r.multipleInstance then
    let response := w.buildResponse request .content
    if r.operation &&& snGrsGetAllowed = 0 then
      some { response := answer response .methodNotAllowed, entity := (r, p), heap := h }
    else match response with
      | none => some { response := none, entity := (r, p), heap := h }
      | some response =>
        let type := request.contentType true p.coapContentType
        let p := if response.contentFormat = none then p.setCoapContentType type else p
        let msgCode : MsgCode :=
          if type = coapContentOmaTlvType then .content else .unsupportedContentFormat
        (serialized w (.resource r) type h).map fun (data, h) =>
          { response := some { response with
              msgCode := request.observeCode p.isObservable msgCode
              contentFormat := response.contentFormat.or (some type)
              payload := sentPayload data }
            entity := (r, p), heap := h }
  else
    let (response, h) := handleGetRequestBase w request r.toM2MResourceBase p h
    some { response, entity := (r, p), heap := h }

def handlePutRequestResource : Option (Handled (M2MResource × Params)) :=
  if r.multipleInstance then
    let response := w.buildResponse request .changed
    match request.uriQuery with
    | some query =>
      (handleQuery w n r.resourceType query h).map fun (msgCode, h) =>
        { response := answer response msgCode, entity := (r, p), heap := h }
    | none =>
      if r.operation &&& snGrsPutAllowed ≠ 0 then
        -- without a response the content type of the request counts as absent
        let type := match response, request.contentFormat with
          | some _, some format => format
          | _, _ =>
            if p.coapContentType.toUInt16 = coapContentOmaTlvType then coapContentOmaTlvType else 0
        if type = coapContentOmaTlvType then
          let (error, r, env) := Tlv.deserializeResourceInstances request.payloadPtr
            request.payloadLen.toNat .put (r, ⟨h, []⟩)
          some { response := answer response (errorCode .changed error), entity := (r, p)
                 heap := env.heap, executeValueUpdated := error = .none }
        else
          some { response := answer response .unsupportedContentFormat, entity := (r, p),
                 heap := h }
      else some { response := answer response .methodNotAllowed, entity := (r, p), heap := h }
  else
    (handlePutRequestBase w n request r.toM2MResourceBase p h).map fun handled =>
      { handled with
        entity := ({ r with toM2MResourceBase := handled.entity.1 }, handled.entity.2) }

/-- `M2MResource::handle_post_request`. Nothing if it looks into a response that it could not
build. What the application executes is left out. -/
def handlePostRequestResource : Option (Handled (M2MResource × Params)) :=
  let response := w.buildResponse request .changed
  if r.operation &&& snGrsPostAllowed ≠ 0 then
    if request.payloadPtr.isSome && request.contentFormat.getD 0 != 0 then
      some { response := answer response .unsupportedContentFormat, entity := (r, p), heap := h }
    else match response with
      | none => none
      | some response =>
        if p.delayedResponse then
          let response := { response with
            msgType := .acknowledgement, msgCode := .empty, msgId := request.msgId }
          let p := { p with lastPost := some request.token }
          if request.token.length ≠ 0 then
            let (copied, h) := h.malloc
            some { response := some response
                   entity := (r, { p with delayedToken := if copied then request.token else [] })
                   heap := h, sent := [response] }
          else some { response := some response, entity := (r, p), heap := h }
        else
          let (payload, h) := r.toM2MResourceBase.getValue h
          some { response := some { response with
                   msgCode := .changed, payload := sentPayload payload }
                 entity := (r, p), heap := h }
  else some { response := answer response .methodNotAllowed, entity := (r, p), heap := h }

end Resource

section ObjectInstance
variable (w : Surroundings) (n : Identity) (request : CoapHeader) (oi : M2MObjectInstance)
  (p : Params) (h : Heap)

/-- The GET of an object and of an object instance. -/
def handleGetRequestTree (subject : Tlv.Subject) : Option (Option Response × Params × Heap) :=
  let response := w.buildResponse request .content
  if p.operation &&& snGrsGetAllowed = 0 then some (answer response .methodNotAllowed, p, h)
  else match response with
    | none => some (none, p, h)
    | some response =>
      let type := request.contentType true p.coapContentType
      let p := if response.contentFormat = none then p.setCoapContentType type else p
      (serialized w subject type h).map fun (data, h) =>
        let msgCode := if data.isSome then request.observeCode p.isObservable .content
          else .unsupportedContentFormat
        (some { response with
          msgCode, contentFormat := response.contentFormat.or (some type)
          payload := sentPayload data }, p, h)

def handleGetRequestObjectInstance : Option (Handled (M2MObjectInstance × Params)) :=
  (handleGetRequestTree w request p h (.resources oi.resources)).map fun (response, p, h) =>
    { response, entity := (oi, p), heap := h }

def handlePutRequestObjectInstance : Option (Handled (M2MObjectInstance × Params)) :=
  let response := w.buildResponse request .changed
  match request.uriQuery with
  | some query =>
    (handleQuery w n .opaqueData query h).map fun (msgCode, h) =>
      { response := answer response msgCode, entity := (oi, p), heap := h }
  | none =>
    if p.operation &&& snGrsPutAllowed ≠ 0 then
      if request.contentType response.isSome p.coapContentType = coapContentOmaTlvType then
        match request.payloadPtr with
        | none => some { response := answer response .changed, entity := (oi, p), heap := h }
        | some payload =>
          let (error, oi, env) := Tlv.deserializeResources (some payload)
            request.payloadLen.toNat .put (oi, ⟨h, []⟩)
          some { response := answer response (errorCode .changed error), entity := (oi, p)
                 heap := env.heap }
      else some { response := answer response .unsupportedContentFormat, entity := (oi, p),
                  heap := h }
    else some { response := answer response .methodNotAllowed, entity := (oi, p), heap := h }

/-- `build_path` for an object name and two ids -/
def buildPathIds (s1 : Bytes) (i1 i2 : UInt16) : Option Bytes :=
  let buffer : StringBuffer (maxNameSize + 5 * 2 + 2 + 1) := .new (by decide)
  if buffer.ensureSpace (s1.length + 5 * 2 + 2 + 1) then
    let buffer := (buffer.append s1).2
    let buffer := (buffer.append [slash]).2
    let buffer := (buffer.appendInt i1).2
    let buffer := (buffer.append [slash]).2
    some (buffer.appendInt i2).2.text
  else none

/-- `M2MTLVDeserializer::instance_id`; a NULL pointer is read like any other. -/
def tlvInstanceId (payload : Option (Nat → UInt8)) : Option UInt16 := payload.map (recId · 0)

/-- `M2MObjectInstance::handle_post_request`. Nothing if it reads a payload that is NULL, or looks
into a response that it could not build. -/
def handlePostRequestObjectInstance (parent : Bytes) :
    Option (Handled (M2MObjectInstance × Params)) :=
  let response := w.buildResponse request .changed
  if p.operation &&& snGrsPostAllowed ≠ 0 then
    if request.contentType response.isSome p.coapContentType = coapContentOmaTlvType then
      let (error, oi, env) := Tlv.deserializeResources request.payloadPtr
        request.payloadLen.toNat .post (oi, ⟨h, []⟩)
      match tlvInstanceId request.payloadPtr with
      | none => none
      | some id =>
        if error = .none then
          match response with
          | none => none
          | some response =>
            let (options, h) := env.heap.malloc
            if options then
              match buildPathIds parent oi.instanceId id with
              | none =>
                some { response := some { response with msgCode := .internalServerError }
                       entity := (oi, p), heap := h, executeValueUpdated := true }
              | some path =>
                let (copied, h) := h.malloc
                some { response := some { response with
                         msgCode := .created, locationPath := if copied then some path else none }
                       entity := (oi, p), heap := h, executeValueUpdated := true }
            else
              some { response := some { response with msgCode := .created }
                     entity := (oi, p), heap := h, executeValueUpdated := true }
        else
          -- an error for which there is no case leaves the code of a success
          let msgCode := if error = .notFound then .changed else errorCode .changed error
          some { response := answer response msgCode, entity := (oi, p), heap := env.heap }
    else some { response := answer response .unsupportedContentFormat, entity := (oi, p),
                heap := h }
  else some { response := answer response .methodNotAllowed, entity := (oi, p), heap := h }

end ObjectInstance

section Object
variable (w : Surroundings) (request : CoapHeader) (o : ObjectNode) (h : Heap)

def handleGetRequestObject : Option (Handled ObjectNode) :=
  (handleGetRequestTree w request o.own h (.objectInstances o.instances)).map
    fun (response, p, h) =>
    { response, entity := o.setParams (.object o.name) p, heap := h }

def handlePutRequestObject : Option (Handled ObjectNode) :=
  let response := w.buildResponse request .changed
  match request.uriQuery with
  | some query =>
    (handleQuery w (.object o.name) .opaqueData query h).map fun (msgCode, h) =>
      { response := answer response msgCode, entity := o, heap := h }
  | none => some { response := answer response .badRequest, entity := o, heap := h }

def freeInstanceId : Option UInt16 :=
  ((List.range 65536).find? fun i => (o.objectInstance (UInt16.ofNat i)).isNone).map UInt16.ofNat

/-- The deserializer for what a POST to an object carries: the whole object, or the instance that
has just been created. -/
def deserializePost (data : Nat → UInt8) (created : Bool) (h : Heap) :
    Tlv.Error × ObjectNode × Heap :=
  let size := request.payloadLen.toNat
  if Tlv.isType typeObjectInstance (some data) then
    let (error, obj, env) :=
      Tlv.deserialiseObjectInstances (some data) size .post (o.toM2MObject, ⟨h, []⟩)
    (error, o.grow obj, env.heap)
  else
    match o.instances.getLast?.filter fun _ => created with
    | none => (.notValid, o, h)
    | some oi =>
      if Tlv.isType typeResource (some data) || Tlv.isType typeMultipleResource (some data) then
        let (error, oi, env) := Tlv.deserializeResources (some data) size .post (oi, ⟨h, []⟩)
        (error, o.grow { instances := o.instances.dropLast ++ [oi] }, env.heap)
      else (.notValid, o, h)

def locationPath (id : UInt16) : Option Bytes :=
  let objName : StringBuffer (255 + 1 + 5 + 1 + 5 + 1) := .new (by decide)
  if objName.ensureSpace (o.name.length + (1 + 5 + 1)) then
    let objName := (objName.append o.name).2
    let objName := (objName.append [slash]).2
    some (objName.appendInt id).2.text
  else none

/-- `M2MObject::handle_post_request`. Nothing if it looks into a response that it could not
build. -/
def handlePostRequestObject : Option (Handled ObjectNode) :=
  let response := w.buildResponse request .changed
  let refuse (msgCode : MsgCode) : Option (Handled ObjectNode) :=
    some { response := answer response msgCode, entity := o, heap := h }
  if o.own.operation &&& snGrsPostAllowed ≠ 0 then
    match request.payloadPtr with
    | none => refuse .badRequest
    | some data =>
      if request.contentType response.isSome o.own.coapContentType = coapContentOmaTlvType then
        match freeInstanceId o with
        | none => refuse .methodNotAllowed
        | some free =>
          let isObjInstance := Tlv.isType typeObjectInstance (some data)
          let id := if isObjInstance then recId data 0 else free
          if isObjInstance && (o.objectInstance id).isSome then refuse .badRequest
          else
            let (created, o, h) := o.createObjectInstance id h
            let n := Identity.objectInstance o.name id
            let o := if created then
                o.setParams n { o.params n with operation := getPutAllowed }
              else o
            let (error, o, h) := deserializePost request o data created h
            if error = .none then
              match response with
              | none => none
              | some response =>
                let (options, h) := h.malloc
                let path := if options then locationPath o id else none
                let (copied, h) := if path.isSome then h.malloc else (false, h)
                some { response := some { response with
                         msgCode := .created, locationPath := if copied then path else none }
                       entity := o, heap := h, executeValueUpdated := true }
            else
              some { response := answer response (errorCode .created error), entity := o,
                     heap := h }
      else refuse .unsupportedContentFormat
  else refuse .methodNotAllowed

end Object
end MbedClient.Nsdl
