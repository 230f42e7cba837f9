import MbedClient.Paths
import MbedClient.Report.Attributes
import MbedClient.Tlv.Serializer

/-! CoAP messages as `sn_coap_hdr_s` holds them, and what the client asks of the CoAP library and of
the application while it answers one. -/
namespace MbedClient.Nsdl

inductive MsgType where
  | confirmable | nonConfirmable | acknowledgement | reset
  deriving DecidableEq

inductive MsgCode where
  | empty | requestGet | requestPost | requestPut | requestDelete
  | created | deleted | valid | changed | content
  | badRequest | unauthorized | badOption | forbidden | notFound | methodNotAllowed | notAcceptable
  | requestEntityIncomplete | preconditionFailed | requestEntityTooLarge
  | unsupportedContentFormat | internalServerError
  | other (code : UInt8)
  deriving DecidableEq

inductive CoapStatus where
  | ok | blockwiseMsgReceiving | blockwiseMsgReceived | messageSendingFailed | other
  deriving DecidableEq

/-- An option that is absent is -1, a pointer that is NULL is nothing. -/
structure OptionsList where
  observe : Int32
  block1 : Int32
  useSize1 : Bool
  size1 : UInt32
  uriQuery : Option Bytes
  maxAge : UInt32
  locationPath : Option Bytes

/-- A message that has been received. `contentFormat` is nothing for `COAP_CT_NONE`. The payload
pointer is a function from indices to bytes; behind its length it answers what memory holds. -/
structure CoapHeader where
  msgType : MsgType
  msgCode : MsgCode
  msgId : UInt16
  token : Bytes
  uriPath : Option Bytes
  contentFormat : Option UInt16
  options : Option OptionsList
  payloadPtr : Option (Nat → UInt8)
  payloadLen : UInt16
  coapStatus : CoapStatus

/-- A message that is built. The options that observations set are left to `MbedClient.Observe`. -/
structure Response where
  msgType : MsgType
  msgCode : MsgCode
  msgId : UInt16
  token : Bytes
  contentFormat : Option UInt16
  payload : Option Bytes
  locationPath : Option Bytes
  coapStatus : CoapStatus
  deriving DecidableEq

def coapContentOmaTlvType : UInt16 := 99
def coapContentOmaOpaqueType : UInt16 := 42

def snGrsGetAllowed : UInt8 := 0x01
def snGrsPostAllowed : UInt8 := 0x04

/-- `SN_COAP_MAX_INCOMING_MESSAGE_SIZE`, the functions of other libraries, the callback that hands
over a payload block by block, the type `float`, and the report handlers as observations have left
them: a new one for an entity that has none. -/
structure Surroundings where
  maxIncomingMessageSize : UInt32
  buildResponse : CoapHeader → MsgCode → Option Response
  commonWrite64Bit : UInt64 → Vector UInt8 8
  outgoingBlockMessage : Bytes → Option Bytes
  F : Type
  float : Report.CFloatText F
  reportHandler : Identity → Report.M2MReportHandler F

instance (w : Surroundings) : Report.CFloatText w.F := w.float

namespace CoapHeader
variable (request : CoapHeader)

def payload : Bytes :=
  match request.payloadPtr with
  | none => []
  | some data => slice data 0 request.payloadLen.toNat

def uriQuery : Option Bytes := request.options.bind (·.uriQuery)

def observe : Int32 :=
  match request.options with
  | none => -1
  | some options => options.observe

/-- The content type of the request, or else that of the entity, which counts if it is TLV. A
handler that could not build its response does not look at the content type it is given. -/
def contentType (response : Bool) (own : UInt8) : UInt16 :=
  match request.contentFormat with
  | some format => if response then format else 0
  | none => if own.toUInt16 = coapContentOmaTlvType then coapContentOmaTlvType else 0

/-- What the observe option makes of the code of a GET. -/
def observeCode (isObservable : Bool) (msgCode : MsgCode) : MsgCode :=
  if request.observe = -1 then msgCode
  else if isObservable then .content
  else .methodNotAllowed

end CoapHeader

/-- `coap_to_string`, and what is left of the `String` where it is read as a C string. -/
def coapToString (data : Option Bytes) : Bytes := cStr (data.getD [])

/-- What a message carries of its payload: the length is a `uint16_t`. -/
def sentPayload (payload : Option Bytes) : Option Bytes :=
  payload.map fun bytes => bytes.take (bytes.length % 2 ^ 16)

def answer (response : Option Response) (msgCode : MsgCode) : Option Response :=
  response.map fun r => { r with msgCode }

end MbedClient.Nsdl
