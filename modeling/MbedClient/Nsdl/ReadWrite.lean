import MbedClient.Nsdl.Handlers

/-! A GET after a PUT to a single-instance resource. -/
namespace MbedClient.Nsdl
variable {w w' : Surroundings} {n : Identity} {put get : CoapHeader} {r : M2MResource} {p : Params}

def granted : Heap := fun _ => true

theorem setValue_granted (b : M2MResourceBase) (value : Bytes) : (b.setValue value granted).2 =
    ({ b with value := if value = [] then b.value else value }, granted) := by
  cases value <;> rfl

theorem getValue_granted (b : M2MResourceBase) :
    ((b.getValue granted).1.getD []) = b.value ∧ (b.getValue granted).2 = granted := by
  by_cases hv : 0 < b.value.length
  · rw [M2MResourceBase.getValue, if_pos hv]
    exact ⟨rfl, rfl⟩
  · have hnil : b.value = [] := by simpa using hv
    simp [M2MResourceBase.getValue, hnil]

/-- A resource that the claim is about, and a PUT to it. -/
structure Writable (w : Surroundings) (put : CoapHeader) (r : M2MResource) (p : Params) :
    Prop where
  dynamic : r.mode = .dynamic
  single : r.multipleInstance = false
  getAllowed : r.operation &&& snGrsGetAllowed ≠ 0
  putAllowed : r.operation &&& snGrsPutAllowed ≠ 0
  noBlocks : p.blockMessage = none
  format : put.contentFormat ≠ some coapContentOmaTlvType
  noQuery : put.uriQuery = none
  built : (w.buildResponse put .changed).isSome

/-- A PUT without a query succeeds and leaves the payload, or the old value if there is none. -/
theorem put_stores (h : Writable w put r p) :
    ∃ handled, handlePutRequestResource w n put r p granted = some handled ∧
      handled.response.map (·.msgCode) = some .changed ∧
      handled.entity =
        ({ r with value := if put.payload = [] then r.value else put.payload }, p) := by
  obtain ⟨response, hresponse⟩ := Option.isSome_iff_exists.mp h.built
  have hvalue := setValue_granted r.toM2MResourceBase put.payload
  have hparams : { p with blockMessage := none } = p :=
    congrArg (fun blockMessage => { p with blockMessage }) h.noBlocks.symm
  refine ⟨_, by simp only [handlePutRequestResource, h.single, Bool.false_eq_true, if_false,
    handlePutRequestBase, hresponse, h.noQuery, h.putAllowed, h.format, setMessageInfo, h.noBlocks,
    Option.filter_none, Option.map_some, ne_eq, not_false_eq_true, if_true]; rfl,
    rfl, ?_⟩
  simp only [hvalue, hparams, h.single]

theorem sentPayload_getD (payload : Option Bytes) : (sentPayload payload).getD [] =
    (payload.getD []).take ((payload.getD []).length % 2 ^ 16) := by
  cases payload <;> rfl

theorem take_mod_eq {bytes : Bytes} (h : bytes.length < 2 ^ 16) :
    bytes.take (bytes.length % 2 ^ 16) = bytes := by
  rw [Nat.mod_eq_of_lt h, List.take_length]

theorem payload_length (request : CoapHeader) : request.payload.length < 2 ^ 16 := by
  rw [CoapHeader.payload]
  cases request.payloadPtr with
  | none => exact Nat.two_pow_pos 16
  | some data =>
    rw [length_slice]
    exact request.payloadLen.toNat_lt

theorem get_reads (hsingle : r.multipleInstance = false)
    (hget : r.operation &&& snGrsGetAllowed ≠ 0) (hblock : p.blockMessage = none)
    (hbuilt : (w.buildResponse get .content).isSome) :
    ∃ handled response, handleGetRequestResource w get r p granted = some handled ∧
      handled.response = some response ∧
      response.payload.getD [] = r.value.take (r.value.length % 2 ^ 16) ∧
      (response.msgCode = .content ↔ get.observe = -1 ∨ p.isObservable = true) := by
  obtain ⟨response, hresponse⟩ := Option.isSome_iff_exists.mp hbuilt
  refine ⟨_, _, by simp only [handleGetRequestResource, hsingle, Bool.false_eq_true, if_false,
    handleGetRequestBase, hget, hresponse, hblock]; rfl, rfl, ?_, ?_⟩
  · have hvalue := (getValue_granted r.toM2MResourceBase).1
    rw [sentPayload_getD, hvalue]
  · unfold CoapHeader.observeCode
    by_cases hobserve : get.observe = -1
    · simp [hobserve]
    · cases p.isObservable <;> simp [hobserve]

def Reads (handled : Option (Handled (M2MResource × Params))) (value : Bytes) : Prop :=
  ∃ x response, handled = some x ∧ x.response = some response ∧ response.msgCode = .content ∧
    response.payload.getD [] = value

/-- The PUT comes to an end. If it succeeds, the GET answers with its payload, and else with what it
would have answered before. -/
def ReadsBack (w w' : Surroundings) (n : Identity) (put get : CoapHeader) (r : M2MResource)
    (p : Params) : Prop :=
  ∃ handled, handlePutRequestResource w n put r p granted = some handled ∧
    let next := handleGetRequestResource w' get handled.entity.1 handled.entity.2 granted
    let before := handleGetRequestResource w' get r p granted
    (handled.response.map (·.msgCode) = some .changed → Reads next put.payload) ∧
      (handled.response.map (·.msgCode) ≠ some .changed →
        next.map (·.response) = before.map (·.response))

/-- What is written is read back unless nothing is written over something, or the GET is refused
for its observe option. A PUT is never answered with anything else. -/
theorem read_your_writes (h : Writable w put r p)
    (hbuilt : (w'.buildResponse get .content).isSome) : ReadsBack w w' n put get r p ↔
      (put.payload ≠ [] ∨ r.value.length % 2 ^ 16 = 0) ∧
        (get.observe = -1 ∨ p.isObservable = true) := by
  obtain ⟨handled, hput, hcode, hentity⟩ := put_stores (n := n) h
  obtain ⟨next, response, hnext, hresponse, hpayload, hcontent⟩ :=
    get_reads (r := { r with value := if put.payload = [] then r.value else put.payload })
      h.single h.getAllowed h.noBlocks hbuilt
  have hreads : Reads (handleGetRequestResource w' get handled.entity.1 handled.entity.2 granted)
      put.payload ↔ response.msgCode = .content ∧ response.payload.getD [] = put.payload := by
    simp [Reads, hentity, hnext, hresponse]
  simp only [ReadsBack, hput, Option.some.injEq, exists_eq_left', hcode, ne_eq, not_true_eq_false,
    true_implies, false_implies, and_true, hreads, hcontent, hpayload]
  by_cases hnil : put.payload = []
  · have hempty : r.value.take (r.value.length % 2 ^ 16) = [] ↔ r.value.length % 2 ^ 16 = 0 := by
      rw [List.take_eq_nil_iff, or_iff_left_of_imp]
      intro hvalue
      rw [hvalue, List.length_nil, Nat.zero_mod]
    rw [if_pos hnil, hnil, hempty, or_iff_right (not_not_intro rfl), and_comm]
  · rw [if_neg hnil, take_mod_eq (payload_length put), and_iff_left rfl, and_iff_right (.inl hnil)]

/-- A CoAP library that echoes what identifies a request. -/
def echo : Surroundings where
  maxIncomingMessageSize := 65535
  buildResponse request msgCode := some
    { msgType := .acknowledgement, msgCode, msgId := request.msgId, token := request.token
      contentFormat := none, payload := none, locationPath := none, coapStatus := .ok }
  commonWrite64Bit := Tlv.bigEndian
  outgoingBlockMessage _ := none
  F := Int
  float := inferInstance
  reportHandler _ := {}

def plainRequest (msgCode : MsgCode) : CoapHeader where
  msgType := .confirmable
  msgCode := msgCode
  msgId := 1
  token := []
  uriPath := none
  contentFormat := none
  options := none
  payloadPtr := none
  payloadLen := 0
  coapStatus := .ok

def letterA : M2MResource := ⟨⟨.dynamic, getPutAllowed, .string, [0x41]⟩, [0x30], false, []⟩

theorem letterA_writable : Writable echo (plainRequest .requestPut) letterA {} :=
  ⟨rfl, rfl, by decide, by decide, rfl, by decide, rfl, rfl⟩

/-- A PUT without a payload is answered with 2.04 and leaves the "A". -/
theorem empty_put_unread : Writable echo (plainRequest .requestPut) letterA {} ∧
    (plainRequest .requestPut).payload = [] ∧
    ((handlePutRequestResource echo (.resource [0x33] 0 [0x30]) (plainRequest .requestPut)
      letterA {}
      granted).bind fun handled =>
        (handleGetRequestResource echo (plainRequest .requestGet) handled.entity.1 handled.entity.2
          granted).map fun next =>
            (handled.response.map (·.msgCode), next.response.map (·.payload))) =
      some (some .changed, some (some [0x41])) :=
  ⟨letterA_writable, rfl, by decide +kernel⟩

theorem read_your_writes_letterA :
    ReadsBack echo echo (.resource [0x33] 0 [0x30]) (plainRequest .requestPut)
        (plainRequest .requestGet) letterA {} ↔
      ((plainRequest .requestPut).payload ≠ [] ∨ letterA.value.length % 2 ^ 16 = 0) ∧
        ((plainRequest .requestGet).observe = -1 ∨ ({} : Params).isObservable = true) :=
  read_your_writes letterA_writable rfl

end MbedClient.Nsdl
