import MbedClient.Nsdl.Handlers

/-! `M2MNsdlInterface::resource_callback`: requests to entities that the CoAP library knows. -/
namespace MbedClient.Nsdl
open Observe (Entity)

def Handled.map {α β : Type} (f : α → β) (x : Handled α) : Handled β :=
  { response := x.response, entity := f x.entity, heap := x.heap, sent := x.sent
    executeValueUpdated := x.executeValueUpdated }

/-! The entity behind a pointer, and what is written through it. -/
section At

def atObject (objects : List ObjectNode) (i : Nat)
    (f : ObjectNode → Option (Handled ObjectNode)) : Option (Handled (List ObjectNode)) :=
  objects[i]?.bind fun o => (f o).map (·.map (objects.set i))

namespace ObjectNode
variable (o : ObjectNode)

def atObjectInstance (j : Nat) (f : Identity → M2MObjectInstance → Params →
    Option (Handled (M2MObjectInstance × Params))) : Option (Handled ObjectNode) :=
  o.instances[j]?.bind fun oi =>
    let n := Identity.objectInstance o.name oi.instanceId
    (f n oi (o.params n)).map (·.map fun (oi, p) =>
      (o.grow { instances := o.instances.set j oi }).setParams n p)

def atResource (j k : Nat) (f : Identity → M2MResource → Params →
    Option (Handled (M2MResource × Params))) : Option (Handled ObjectNode) :=
  o.instances[j]?.bind fun oi => oi.resources[k]?.bind fun r =>
    let n := Identity.resource o.name oi.instanceId r.name
    (f n r (o.params n)).map (·.map fun (r, p) =>
      (o.grow { instances := o.instances.set j { oi with resources := oi.resources.set k r } }
        ).setParams n p)

def atResourceInstance (j k m : Nat) (f : Identity → M2MResourceBase → Params →
    Option (Handled (M2MResourceBase × Params))) : Option (Handled ObjectNode) :=
  o.instances[j]?.bind fun oi => oi.resources[k]?.bind fun r => r.instances[m]?.bind fun i =>
    let n := Identity.resourceInstance o.name oi.instanceId r.name i.instanceId
    (f n i.toM2MResourceBase (o.params n)).map (·.map fun (b, p) =>
      let i := { i with toM2MResourceBase := b }
      let r := { r with instances := r.instances.set m i }
      (o.grow { instances := o.instances.set j { oi with resources := oi.resources.set k r } }
        ).setParams n p)

end ObjectNode
end At

section Callback
variable (w : Surroundings) (objects : List ObjectNode) (request : CoapHeader) (h : Heap)

def handleGetRequest : Entity → Option (Handled (List ObjectNode))
  | .object i => atObject objects i fun o => handleGetRequestObject w request o h
  | .objectInstance i j => atObject objects i fun o => o.atObjectInstance j fun _ oi p =>
    handleGetRequestObjectInstance w request oi p h
  | .resource i j k => atObject objects i fun o => o.atResource j k fun _ r p =>
    handleGetRequestResource w request r p h
  | .resourceInstance i j k m => atObject objects i fun o => o.atResourceInstance j k m fun _ b p =>
    let (response, h) := handleGetRequestBase w request b p h
    some { response, entity := (b, p), heap := h }

def handlePutRequest : Entity → Option (Handled (List ObjectNode))
  | .object i => atObject objects i fun o => handlePutRequestObject w request o h
  | .objectInstance i j => atObject objects i fun o => o.atObjectInstance j fun n oi p =>
    handlePutRequestObjectInstance w n request oi p h
  | .resource i j k => atObject objects i fun o => o.atResource j k fun n r p =>
    handlePutRequestResource w n request r p h
  | .resourceInstance i j k m => atObject objects i fun o => o.atResourceInstance j k m fun n b p =>
    handlePutRequestBase w n request b p h

/-- Nothing is returned yet: `resource_callback` builds a response with the code. -/
def unhandled (objects : List ObjectNode) : Handled (List ObjectNode) :=
  { response := none, entity := objects, heap := h }

/-- `base->handle_post_request(...)`, which is not called for a resource instance. -/
def handlePostRequest : Entity → Option (Handled (List ObjectNode))
  | .object i => atObject objects i fun o => handlePostRequestObject w request o h
  | .objectInstance i j => atObject objects i fun o => o.atObjectInstance j fun _ oi p =>
    handlePostRequestObjectInstance w request oi p h o.name
  | .resource i j k => atObject objects i fun o => o.atResource j k fun _ r p =>
    handlePostRequestResource w request r p h
  | .resourceInstance .. => some (unhandled h objects)

def lastSegment (path : Bytes) : Option Bytes :=
  if slash ∈ path then some (path.reverse.takeWhile (· != slash)).reverse else none

/-- The code and the objects after a DELETE. Nothing if the path of an object instance finds an
entity of another kind. -/
def handleDelete (path : Bytes) : Entity → Option (MsgCode × List ObjectNode)
  | .objectInstance i j => do
    let o ← objects[i]?
    let oi ← o.instances[j]?
    match findResource (uriPath (.objectInstance o.name oi.instanceId)) objects with
    | none => some (.changed, objects)
    | some (.objectInstance i _) =>
      let o ← objects[i]?
      match lastSegment path with
      | none => some (.changed, objects)
      | some segment =>
        let (success, o) := o.removeObjectInstance (UInt16.ofNat (strtoul segment))
        some (if success then (.deleted, objects.set i o) else (.changed, objects))
    | some _ => none
  | _ => some (.badRequest, objects)

/-- What `resource_callback` asks of the entity: the code of a response that is missing, and what
has been handled. -/
def handleRequest : Option (MsgCode × Handled (List ObjectNode)) :=
  let path := coapToString request.uriPath
  match findResource path objects with
  | none => some (.badRequest, unhandled h objects)
  | some e =>
    match request.msgCode with
    | .requestGet => (handleGetRequest w objects request h e).map (.changed, ·)
    | .requestPut => (handlePutRequest w objects request h e).map (.changed, ·)
    | .requestPost =>
      let msgCode := if e.baseType = .resourceInstance then .badRequest else .changed
      (handlePostRequest w objects request h e).map (msgCode, ·)
    | .requestDelete => (handleDelete objects path e).map fun (msgCode, objects) =>
      (msgCode, unhandled h objects)
    | _ => some (.changed, unhandled h objects)

/-- The response goes out unless more blocks are to come or the handler has made it empty. -/
def sendResponse : Option Response → List Response
  | none => []
  | some response =>
    if response.coapStatus ≠ .blockwiseMsgReceiving ∧ response.msgCode ≠ .empty then [response]
    else []

/-- `sent` are all messages that have been sent. Nothing if a handler has no result. -/
def resourceCallback : Option (Handled (List ObjectNode)) :=
  (handleRequest w objects request h).map fun (msgCode, handled) =>
    let response := handled.response.or (w.buildResponse request msgCode)
    { handled with response, sent := handled.sent ++ sendResponse response }

end Callback
end MbedClient.Nsdl
