import MbedClient.Nsdl.Message
import MbedClient.Observe.Tree

/-! The object list of `M2MNsdlInterface`: the trees of values with the parameters that requests
look at, object instances that come and go, and the search for a path. -/
namespace MbedClient.Nsdl
open Observe (Entity)

structure M2MBlockMessage where
  blockData : Option Bytes
  totalMessageSize : UInt32
  blockDataLen : UInt16
  blockNumber : UInt16
  entityTooLarge : Bool
  isLastBlock : Bool
  isBlockMessage : Bool
  deriving DecidableEq

namespace M2MBlockMessage
variable (m : M2MBlockMessage)

def new : M2MBlockMessage where
  blockData := none
  totalMessageSize := 0
  blockDataLen := 0
  blockNumber := 0
  entityTooLarge := false
  isLastBlock := false
  isBlockMessage := false

/-- The end of `set_message_info`. Without a result, the payload is read through NULL. -/
def copyPayload (header : CoapHeader) (h : Heap) : Option (M2MBlockMessage × Heap) :=
  let m : M2MBlockMessage := { m with blockData := none, blockDataLen := header.payloadLen }
  if m.blockDataLen > 0 then
    let (granted, h) := h.malloc
    if granted then
      match header.payloadPtr with
      | none => none
      | some data => some ({ m with blockData := some (slice data 0 m.blockDataLen.toNat) }, h)
    else some (m, h)
  else some (m, h)

def setMessageInfo (maxSize : UInt32) (header : CoapHeader) (h : Heap) :
    Option (M2MBlockMessage × Heap) :=
  match header.options with
  | none => some ({ m with isBlockMessage := false }, h)
  | some options =>
    let m := { m with isBlockMessage := options.block1 != -1 }
    let m := if options.useSize1 then { m with totalMessageSize := options.size1 } else m
    let m := { m with entityTooLarge := decide (m.totalMessageSize > maxSize) }
    if m.entityTooLarge then some (m, h)
    else
      let m := if options.block1 != -1 then { m with isLastBlock := options.block1 &&& 0x08 == 0 }
        else m
      let m := { m with blockNumber := (options.block1 >>> 4).toUInt32.toUInt16 }
      m.copyPayload header h

def clearValues : M2MBlockMessage :=
  { m with
    blockData := none
    blockDataLen := 0
    blockNumber := 0
    totalMessageSize := 0
    isLastBlock := false
    entityTooLarge := false }

/-- What is left of a block that the application has been shown. -/
def afterShown : M2MBlockMessage :=
  let m := if m.isLastBlock then m.clearValues else m
  if m.entityTooLarge then m.clearValues else m

end M2MBlockMessage

/-- What an entity has besides its values; resources and their instances keep their operation with
the value. `lastPost` is a ghost: the token of the last POST that was to be answered later. -/
structure Params where
  operation : UInt8 := 0
  coapContentType : UInt8 := 0
  isObservable : Bool := false
  blockMessage : Option M2MBlockMessage := none
  delayedResponse : Bool := false
  delayedToken : Bytes := []
  lastPost : Option Bytes := none

namespace Params
variable (p : Params)

/-- `set_coap_content_type`, which takes a `uint8_t` -/
def setCoapContentType (type : UInt16) : Params := { p with coapContentType := type.toUInt8 }

def getDelayedToken (h : Heap) : Bytes × Heap :=
  if 0 < p.delayedToken.length then
    let (copied, h) := h.malloc
    (if copied then p.delayedToken else [], h)
  else ([], h)

end Params

/-- An object with the parameters of itself and of everything in it. -/
structure ObjectNode extends NamedObject where
  params : Identity → Params

/-- An entity is only made with its path. -/
def uriPath (n : Identity) : Bytes := ((n.createPath fun _ => true).1).getD []

namespace ObjectNode
variable (o : ObjectNode)

def own : Params := o.params (.object o.name)

def setParams (n : Identity) (p : Params) : ObjectNode :=
  { o with params := Function.update o.params n p }

/-- The object after entities have been added to it, which have the parameters of new ones. -/
def grow (obj : M2MObject) : ObjectNode :=
  { o with
    instances := obj.instances
    params := fun n => if n ∈ identities [o.toNamedObject] then o.params n else {} }

def objectInstance (id : UInt16) : Option M2MObjectInstance :=
  o.instances.find? (·.instanceId == id)

/-- The constructor of an instance makes its content type TLV. -/
def createObjectInstance (id : UInt16) (h : Heap) : Bool × ObjectNode × Heap :=
  if (o.objectInstance id).isNone then
    let (created, h) := h.newNode
    if created then
      let o := o.grow { instances := o.instances ++ [⟨id, []⟩] }
      (true, o.setParams (.objectInstance o.name id)
        { coapContentType := coapContentOmaTlvType.toUInt8 }, h)
    else (false, o, h)
  else (false, o, h)

def removeObjectInstance (id : UInt16) : Bool × ObjectNode :=
  match o.instances.findIdx? (·.instanceId == id) with
  | none => (false, o)
  | some j => (true, { o with instances := o.instances.eraseIdx j })

end ObjectNode

section FindResource
variable (path : Bytes)

/-- The four levels of `find_resource` for a path: the first entity in the order of the lists, each
in front of what it contains. The instances of a resource count if it may have several. -/
def findInResource (i j k : Nat) (o : ObjectNode) (oi : M2MObjectInstance) (r : M2MResource) :
    Option Entity :=
  if r.multipleInstance then
    r.instances.zipIdx.findSome? fun (m, n) =>
      if uriPath (.resourceInstance o.name oi.instanceId r.name m.instanceId) = path then
        some (.resourceInstance i j k n)
      else none
  else none

def findInObjectInstance (i j : Nat) (o : ObjectNode) (oi : M2MObjectInstance) : Option Entity :=
  oi.resources.zipIdx.findSome? fun (r, k) =>
    if uriPath (.resource o.name oi.instanceId r.name) = path then some (.resource i j k)
    else findInResource path i j k o oi r

def findInObject (i : Nat) (o : ObjectNode) : Option Entity :=
  o.instances.zipIdx.findSome? fun (oi, j) =>
    if uriPath (.objectInstance o.name oi.instanceId) = path then some (.objectInstance i j)
    else findInObjectInstance path i j o oi

def findResource (objects : List ObjectNode) : Option Entity :=
  objects.zipIdx.findSome? fun (o, i) =>
    if uriPath (.object o.name) = path then some (.object i) else findInObject path i o

end FindResource
end MbedClient.Nsdl
