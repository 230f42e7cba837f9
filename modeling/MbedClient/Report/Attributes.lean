import MbedClient.Copying
import MbedClient.Interface.State
import MbedClient.Observe.Tree
import MbedClient.Report.Handler

/-! How the report handler takes the write attributes of a query. -/
namespace MbedClient.Report
open Observe (BaseType)
open Copying

/-- What parsing asks of the type `float` besides: `atof`, and the conversion to `int32_t`. -/
class CFloatText (F : Type) extends CFloat F where
  atof : Bytes → F
  toInt32 : F → Int32

instance : CFloatText Int where
  atof := atoll
  toInt32 := Int32.ofInt

def ampersand : UInt8 := 0x26
def equal : UInt8 := 0x3D

def pminName : Bytes := [0x70, 0x6D, 0x69, 0x6E]
def pmaxName : Bytes := [0x70, 0x6D, 0x61, 0x78]
def gtName : Bytes := [0x67, 0x74]
def ltName : Bytes := [0x6C, 0x74]
def stSizeName : Bytes := [0x73, 0x74]
def stpName : Bytes := [0x73, 0x74, 0x70]

/-- `char query_options[5][20]`, and `char attribute[20]` and `char value[20]` besides. -/
def optionSlots : Nat := 5
def optionSize : Nat := 20

namespace M2MReportHandler
variable {F : Type} [CFloatText F] (h : M2MReportHandler F)

def isNumerical (resourceType : ResourceType) : Bool :=
  resourceType == .integer || resourceType == .float

/-- The branches on the name of the attribute. -/
def setNamed (attr value : Bytes) (type : BaseType) : Bool × M2MReportHandler F :=
  if strcmpEq attr pminName then
    (true, { h with pmin := Int32.ofInt (Interface.atoi value)
                    attributeState := h.attributeState ||| pminFlag })
  else if strcmpEq attr pmaxName then
    (true, { h with pmax := Int32.ofInt (Interface.atoi value)
                    attributeState := h.attributeState ||| pmaxFlag })
  else if strcmpEq attr gtName && type == .resource then
    (true, { h with gt := CFloatText.atof value
                    attributeState := h.attributeState ||| gtFlag })
  else if strcmpEq attr ltName && type == .resource then
    (true, { h with lt := CFloatText.atof value
                    attributeState := h.attributeState ||| ltFlag })
  else if (strcmpEq attr stSizeName || strcmpEq attr stpName) && type == .resource then
    (true, { h with st := CFloatText.atof value
                    highStep := CFloat.add h.currentValue (CFloatText.atof value)
                    lowStep := CFloat.sub h.currentValue (CFloatText.atof value)
                    attributeState := h.attributeState ||| stFlag })
  else (false, h)

/-- Text without an `=` is copied with its NUL. -/
def setNotificationAttribute (option : Bytes) (type : BaseType) (resourceType : ResourceType) :
    Copying (Bool × M2MReportHandler F) := do
  let (attr, value) ←
    match strchr option equal with
    | some pos => do
      let attr ← memcpy (zeros optionSize) (option.take (option.length - pos.length))
      let value ← memcpy (zeros optionSize) pos.tail
      pure (attr, value)
    | none => do
      let attr ← memcpy (zeros optionSize) (option ++ [0])
      pure (attr, zeros optionSize)
  let value ← string value
  if value.isEmpty then pure (false, h)
  else
    let (success, h) := h.setNamed attr value type
    if !isNumerical resourceType && (h.has gtFlag || h.has ltFlag || h.has stFlag) then
      pure (false, h)
    else pure (success, h)

/-- The options before the last separator, each to the next of the slots that are left, and the text
behind them. -/
def splitOptions : (slots : Nat) → (queryOptions : List Bytes) → (numOptions : Nat) →
    (rest : Bytes) → Copying (List Bytes × Nat × Bytes)
  | 0, queryOptions, numOptions, rest => pure (queryOptions, numOptions, rest)
  | slots + 1, queryOptions, numOptions, rest =>
    match strchr rest ampersand with
    | none => pure (queryOptions, numOptions, rest)
    | some sepPos => do
      let len := min (rest.length - sepPos.length) (optionSize - 1)
      let option ← memcpy (queryOptions.getD numOptions []) (rest.take len)
      splitOptions slots (queryOptions.set numOptions option) (numOptions + 1) sepPos.tail

/-- The options of a query, as the arrays that hold them. -/
def queryOptions (query : Bytes) : Copying (List Bytes) := do
  let (options, numOptions, rest) ←
    splitOptions optionSlots (List.replicate optionSlots (zeros optionSize)) 0 query
  if numOptions < optionSlots ∧ 0 < rest.length then
    let len := min rest.length (optionSize - 1)
    let option ← memcpy (options.getD numOptions []) (rest.take len)
    pure ((options.set numOptions option).take (numOptions + 1))
  else pure (options.take numOptions)

def setOptions (type : BaseType) (resourceType : ResourceType) :
    (success : Bool) → M2MReportHandler F → List Bytes → Copying (Bool × M2MReportHandler F)
  | success, h, [] => pure (success, h)
  | _, h, option :: options => do
    let option ← string option
    let (success, h) ← h.setNotificationAttribute option type resourceType
    if success then setOptions type resourceType success h options
    else pure (success, h)

/-- An integer that is kept in a variable of type `float`. -/
def viaFloat (v : Int32) : Int32 := CFloatText.toInt32 (CFloat.ofInt v.toInt : F)

/-- What a failed option brings back from `before`. -/
def restore (before : M2MReportHandler F) : M2MReportHandler F :=
  { h with
    pmin := viaFloat (F := F) before.pmin, pmax := viaFloat (F := F) before.pmax
    st := before.st, lt := before.lt, gt := before.gt
    highStep := before.highStep, lowStep := before.lowStep
    attributeState := before.attributeState }

def parseNotificationAttribute (query : Bytes) (type : BaseType) (resourceType : ResourceType) :
    Copying (Bool × M2MReportHandler F) := do
  match strchr query ampersand with
  | some _ =>
    let options ← queryOptions query
    let (success, h') ← setOptions type resourceType false h options
    if success then pure (h'.checkAttributeValidity, h')
    else pure (success, h'.restore h)
  | none =>
    let (success, h') ← h.setNotificationAttribute query type resourceType
    if success then pure (h'.checkAttributeValidity, h')
    else pure (success, h')

/-- `handle_observation_attribute` of the entity that owns the handler. -/
def handleObservationAttribute (query : Bytes) (type : BaseType) (resourceType : ResourceType) :
    Copying (Bool × M2MReportHandler F × List Call) := do
  let (success, h) ← h.parseNotificationAttribute query type resourceType
  if success then
    if h.isUnderObservation then pure (success, h.setUnderObservation true)
    else pure (success, h, [])
  else pure (success, h.setDefaultValues, [])

end M2MReportHandler
end MbedClient.Report
