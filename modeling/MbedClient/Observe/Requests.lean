import MbedClient.Observe.Client
import MbedClient.Trace

/-! What reaches the object tree from outside: GET and PUT requests, RESETs, changes of a value by
the application, and the publication of an object. -/
namespace MbedClient.Observe
open Report (CFloat)

inductive MsgCode where
  | changed | content | methodNotAllowed | unsupportedContentFormat | badRequest
  deriving DecidableEq

def startObservation : UInt8 := 0
def stopObservation : UInt8 := 1

def snGrsGetAllowed : UInt8 := 0x01

/-- `observe` is -1 when the option is absent. The last four fields say how the surroundings
answer: whether a response could be built, whether it is to be TLV, whether the serializer filled
it, and whether the copy of the token could be allocated. -/
structure GetRequest where
  uriPath : Bytes
  observe : Int32
  token : Option Bytes
  response : Bool
  tlv : Bool
  serialized : Bool
  tokenCopied : Bool

structure Response where
  msgCode : MsgCode
  observe : Option UInt16
  deriving DecidableEq

namespace Client
variable {F : Type*} [CFloat F] (m : Client F) (t : ObjectList)

/-- The part of `handle_get_request` that all entities share. -/
def handleObserve (e : Entity) (request : GetRequest) (msgCode : MsgCode)
    (start stop : Client F → Client F) : Client F × Response :=
  let observeOption := request.observe.toUInt32.toUInt8
  if request.observe = -1 then (m, ⟨msgCode, none⟩)
  else if !t.isObservable e then (m, ⟨.methodNotAllowed, none⟩)
  else if observeOption = startObservation then
    -- the option is an octet of `observe`, and only the whole of it starts an observation
    let m := if request.observe = 0 then start m else m
    let observe := if request.observe = 0 then some (m.observationNumber e) else none
    let m := match request.token with
      | none => m
      | some token => m.setObservationToken e token request.tokenCopied
    (m, ⟨.content, observe⟩)
  else if observeOption = stopObservation then (stop m, ⟨.content, none⟩)
  else (m, ⟨.content, none⟩)

def handleGetRequestTree (level : Observation) (e : Entity) (request : GetRequest) :
    Client F × Response :=
  if request.tlv && request.serialized then
    m.handleObserve t e request .content
      (fun m => (m.setUnderObservation e true true).addObservationLevel t e level)
      (fun m => (m.setUnderObservation e false false).removeObservationLevel t e level)
  else (m, ⟨.unsupportedContentFormat, none⟩)

def handleGetRequestBase (e : Entity) (request : GetRequest) : Client F × Response :=
  m.handleObserve t e request .content
    (fun m => (m.setUnderObservation e true true).addOwnLevel Observation.rAttribute e)
    (fun m => (m.setUnderObservation e false false).removeOwnLevel Observation.rAttribute e)

/-- The instances of a resource learn the level before it starts and after it stops. -/
def handleGetRequestMulti (e : Entity) (request : GetRequest) : Client F × Response :=
  m.handleObserve t e request (if request.tlv then .content else .unsupportedContentFormat)
    (fun m =>
      let m := (t.children e).foldl (fun m e => m.addOwnLevel Observation.rAttribute e) m
      (m.setUnderObservation e true true).addOwnLevel Observation.rAttribute e)
    (fun m =>
      let m := (m.setUnderObservation e false false).removeOwnLevel Observation.rAttribute e
      (t.children e).foldl (fun m e => m.removeOwnLevel Observation.rAttribute e) m)

/-- What the classes do with a request that is allowed. -/
def handleGetRequestAs (e : Entity) (request : GetRequest) : Client F × Response :=
  match e with
  | .object .. => m.handleGetRequestTree t Observation.oAttribute e request
  | .objectInstance .. => m.handleGetRequestTree t Observation.oiAttribute e request
  | .resource .. =>
    if t.supportsMultipleInstances e then m.handleGetRequestMulti t e request
    else m.handleGetRequestBase t e request
  | .resourceInstance .. => m.handleGetRequestBase t e request

def handleGetRequest (e : Entity) (request : GetRequest) : Client F × Option Response :=
  match t.params? e with
  | none => (m, none)
  | some p =>
    if p.operation &&& snGrsGetAllowed = 0 then
      (m, if request.response then some ⟨.methodNotAllowed, none⟩ else none)
    else if !request.response then (m, none)
    else
      let (m, response) := m.handleGetRequestAs t e request
      (m, some response)

/-- `resource_callback` on a GET request. -/
def get (request : GetRequest) : Client F :=
  match m.findResource t request.uriPath none with
  | none => m
  | some e => (m.handleGetRequest t e request).1

/-- `received_from_server_callback` on an empty RESET message. -/
def reset (token : Option Bytes) : Client F :=
  match m.findResource t [] token with
  | none => m
  | some e =>
    let m := match e with
      | .object .. => m.removeObservationLevel t e Observation.oAttribute
      | .resource .. => m.removeObservationLevel t e Observation.rAttribute
      | .objectInstance .. => m.removeObservationLevel t e Observation.oiAttribute
      | .resourceInstance .. => m
    m.setUnderObservation e false true

section Publication
variable (put : Entity → Bool)

/-- `put` is what the CoAP library says to the resource. -/
def createNsdlResource (e : Entity) : Bool × Client F :=
  let m := if m.observationHandler e.objectIndex then m else m.setObservationHandler e true
  if put e then (true, { m with published := Function.update m.published e true }) else (false, m)

def createNsdlResources : List Entity → Client F → Bool × Client F
  | [], m => (true, m)
  | e :: es, m =>
    match m.createNsdlResource put e with
    | (true, m) => createNsdlResources es m
    | (false, m) => (false, m)

def createNsdlResourceStructure (e : Entity) : Bool × Client F :=
  if t.supportsMultipleInstances e then
    if (t.children e).isEmpty then (false, m)
    else
      match createNsdlResources put (t.children e) m with
      | (true, m) => m.createNsdlResource put e
      | (false, m) => (false, m)
  else m.createNsdlResource put e

/-- `create_nsdl_object_structure`, and that of an object instance: what the entity holds, then
the entity itself if an operation on it is allowed. -/
def createNsdlTreeStructure (each : Client F → Entity → Bool × Client F) (e : Entity) :
    Bool × Client F :=
  let (success, m) := (t.children e).foldl (fun (_, m) e => each m e) (false, m)
  match t.params? e with
  | some p => if p.operation ≠ 0 then m.createNsdlResource put e else (success, m)
  | none => (success, m)

def createNsdlObjectInstanceStructure (e : Entity) : Bool × Client F :=
  m.createNsdlTreeStructure t put (fun m => m.createNsdlResourceStructure t put) e

def createNsdlObjectStructure (e : Entity) : Bool × Client F :=
  m.createNsdlTreeStructure t put (fun m => m.createNsdlObjectInstanceStructure t put) e

/-- The interface publishes what has a new value and tells the application. -/
def valueUpdated (e : Entity) : Client F :=
  let m := match e with
    | .object .. => (m.createNsdlObjectStructure t put e).2
    | .objectInstance .. => (m.createNsdlObjectInstanceStructure t put e).2
    | .resource .. => (m.createNsdlResourceStructure t put e).2
    | .resourceInstance .. => (m.createNsdlResource put e).2
  m.emit (.valueUpdated e)

end Publication

section Values
variable (atof : Bytes → F) (put : Entity → Bool)

def objectNotificationUpdate (i : Nat) (objInstanceId : UInt16) : Client F :=
  if m.isUnderObservation (.object i) then
    m.onReportHandler (.object i) (·.setNotificationTrigger objInstanceId)
  else m

def notificationUpdate (i j : Nat) (level : Observation) : Client F :=
  let m := match t.objectInstance? i j with
    | some x => if level.o then m.objectNotificationUpdate i x.instanceId else m
    | none => m
  if level.oi && m.isUnderObservation (.objectInstance i j) then
    m.onReportHandler (.objectInstance i j) (·.setNotificationTrigger 0)
  else m

/-- The levels of a resource or resource instance and of what it lies in, taken together. -/
def combinedLevel (e : Entity) : Observation :=
  match e with
  | .resource i j _ | .resourceInstance i j _ _ =>
    let parent := match e with
      | .resourceInstance i j k _ => m.observationLevel (.resource i j k)
      | _ => m.observationLevel e
    (((m.observationLevel (.objectInstance i j)).union (m.observationLevel (.object i))).union
      parent).union (m.observationLevel e)
  | _ => Observation.none

/-- `atof` of the stored bytes, up to the NUL that follows them, or 0. -/
def number (value : Bytes) : F :=
  if value.isEmpty then CFloat.ofInt 0 else atof (cStr value)

def reportInstance (e : Entity) : Client F :=
  match e with
  | .resource i j _ | .resourceInstance i j _ _ =>
    let level := m.combinedLevel e
    if level.o || level.oi then m.notificationUpdate t i j level else m
  | _ => m

/-- The second half of `report`: the own report handler, or else that of the parent resource. -/
def reportResource (e : Entity) (p : ResourceParams) (ownLevel level : Observation) : Client F :=
  if p.mode = .dynamic && level.r then
    if p.resourceType ≠ .string && ownLevel ≠ Observation.none then
      if t.isObservable e then m.onReportHandler e (·.setValue (number atof (m.value e))) else m
    else
      match e with
      | .resourceInstance i j k _ =>
        match t.objectInstance? i j with
        | some x =>
          if t.isObservable (.resource i j k) then
            m.onReportHandler (.resource i j k) (·.setNotificationTrigger x.instanceId)
          else m
        | none => m
      | _ => m
  else if p.mode = .static && m.observationHandler e.objectIndex then m.valueUpdated t put e
  else m

def report (e : Entity) : Client F :=
  match t.resourceParams? e with
  | none => m
  | some p => (m.reportInstance t e).reportResource t atof put e p (m.observationLevel e)
      (m.combinedLevel e)

def store (e : Entity) (value : Bytes) : Client F :=
  { m with value := Function.update m.value e value }

def clearValue (e : Entity) : Client F := (m.store e []).report t atof put e

/-- `copied` says whether the copy could be allocated; if not, the old value is gone. -/
def setValue (e : Entity) (value : Bytes) (copied : Bool) : Client F :=
  match t.resourceParams? e with
  | none => m
  | some p =>
    if 0 < value.length then
      let valueChanged := value != m.value e
      if copied then
        let m := m.store e value
        if valueChanged then
          if p.resourceType = .string then
            if m.isUnderObservation e then m.onReportHandler e (·.setNotificationTrigger 0) else m
          else m.report t atof put e
        else m
      else m.store e []
    else m

/-- `resource_callback` on a PUT request for a resource or resource instance that does not speak
TLV: the value, and then the news of it. -/
def putValue (uriPath value : Bytes) (copied : Bool) : Client F :=
  match m.findResource t uriPath none with
  | none => m
  | some e =>
    match t.resourceParams? e with
    | none => m
    | some p =>
      if p.operation &&& snGrsPutAllowed ≠ 0 && !t.supportsMultipleInstances e then
        let m := m.setValue t atof put e value copied
        if 0 < value.length then m.valueUpdated t put e else m
      else m

end Values

end Client

/-- What can happen to the tree; `put` is as in `Client.createNsdlResource`. -/
inductive Event where
  | get (request : GetRequest)
  | reset (token : Option Bytes)
  | setValue (e : Entity) (value : Bytes) (copied : Bool) (put : Entity → Bool)
  | clearValue (e : Entity) (put : Entity → Bool)
  | putValue (uriPath value : Bytes) (copied : Bool) (put : Entity → Bool)
  | publish (i : Nat) (put : Entity → Bool)

namespace Client
variable {F : Type*} [CFloat F]

def fresh (value : Entity → Bytes) : Client F :=
  { reportHandler := fun _ => none, observationHandler := fun _ => false, value := value
    published := fun _ => false, log := [] }

def step (t : ObjectList) (atof : Bytes → F) (ev : Event) (m : Client F) : Client F :=
  let m := { m with log := [] }
  match ev with
  | .get request => m.get t request
  | .reset token => m.reset t token
  | .setValue e value copied put => m.setValue t atof put e value copied
  | .clearValue e put => m.clearValue t atof put e
  | .putValue uriPath value copied put => m.putValue t atof put uriPath value copied
  | .publish i put => (m.createNsdlObjectStructure t put (.object i)).2

end Client

/-- `3/0/0`, a string, and `3/0/9`, an integer, below `3/0` of `3`. -/
def device : ObjectList :=
  let leaf (name : UInt8) (clean : 0 ∉ [51, 47, 48, 47, name]) (type : ResourceType) : Resource :=
    { uriPath := [51, 47, 48, 47, name], uriPath_ne := by simp, uriPath_clean := clean
      operation := getPutAllowed, isObservable := true, mode := .dynamic, resourceType := type
      supportsMultipleInstances := false, instances := [] }
  [{ uriPath := [51], uriPath_ne := by simp, uriPath_clean := by decide, operation := getAllowed
     isObservable := true
     instances := [{
       uriPath := [51, 47, 48], uriPath_ne := by simp, uriPath_clean := by decide
       operation := getAllowed, isObservable := true, instanceId := 0
       resources := [leaf 48 (by decide) .string, leaf 57 (by decide) .integer] }] }]

def GetRequest.served (uriPath : Bytes) (observe : Int32) (token : Bytes) : GetRequest :=
  { uriPath := uriPath, observe := observe, token := some token, response := true, tlv := true
    serialized := true, tokenCopied := true }

end MbedClient.Observe
