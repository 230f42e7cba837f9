import MbedClient.Nsdl.Blockwise
import MbedClient.Nsdl.Delete
import MbedClient.Report.Rejection
import MbedClient.Tlv.Granted
import MbedClient.Trace

/-! Who answers a request: the handler itself, with an empty acknowledgement for a response that is
to come later, or `resource_callback` with what the handler returns. -/
namespace MbedClient.Nsdl
open Observe (Entity)

/-- The library builds every response, with the code that was asked for and the token of the
request. -/
structure Surroundings.Builds (w : Surroundings) : Prop where
  asked : w.BuildsAsked
  built : ∀ request msgCode, ∃ response, w.buildResponse request msgCode = some response ∧
    response.token = request.token

/-- `get_delayed_token` yields the token of the last POST that is to be answered later. -/
def Params.TokenKept (p : Params) : Prop :=
  ∀ token, p.lastPost = some token → (p.getDelayedToken granted).1 = token

theorem getDelayedToken_granted (p : Params) : (p.getDelayedToken granted).1 = p.delayedToken := by
  by_cases hlen : 0 < p.delayedToken.length
  · rw [Params.getDelayedToken, if_pos hlen]
    rfl
  · rw [Params.getDelayedToken, if_neg hlen]
    exact (by simpa using hlen : p.delayedToken = []).symm

/-- One message goes out that answers the request, and if it is empty the response comes later. -/
def Replies (request : CoapHeader) (delays : Prop) (sent : List Response) : Prop :=
  ∃ r, sent = [r] ∧ r.token = request.token ∧ (r.msgCode = .empty →
    delays ∧ r.msgType = .acknowledgement ∧ r.msgId = request.msgId)

/-- A handler replies, itself or with the response it returns, and leaves what has the property `K`;
where it does neither, its response goes nowhere. -/
structure Spec {α : Type} (request : CoapHeader) (K : α → Prop) (delays unanswered : Prop)
    (handled : Option (Handled α)) : Prop where
  served : ¬unanswered → ∃ x, handled = some x ∧ x.response.isSome ∧
    Replies request delays (x.sent ++ sendResponse x.response) ∧ K x.entity
  unserved : unanswered → ∀ x, handled = some x → x.response.isSome ∧
    x.sent ++ sendResponse x.response = []

section Spec
variable {α β : Type} {request : CoapHeader} {K : α → Prop} {delays unanswered : Prop}
  {handled : Option (Handled α)}

theorem Spec.map {L : β → Prop} {f : α → β} (hf : ∀ a, K a → L (f a))
    (h : Spec request K delays unanswered handled) :
    Spec request L delays unanswered (handled.map (·.map f)) where
  served hok := by
    obtain ⟨x, rfl, hsome, hreplies, hK⟩ := h.served hok
    exact ⟨_, rfl, hsome, hreplies, hf _ hK⟩
  unserved hbad x hx := by
    obtain ⟨y, hy, rfl⟩ := Option.map_eq_some_iff.mp hx
    exact h.unserved hbad y hy

theorem Spec.congr {delays' unanswered' : Prop} (hd : delays ↔ delays')
    (hu : unanswered ↔ unanswered') (h : Spec request K delays unanswered handled) :
    Spec request K delays' unanswered' handled := by
  rwa [← propext hd, ← propext hu]

theorem Spec.of_not (h : Spec request K delays False handled) (hno : ¬unanswered) :
    Spec request K delays unanswered handled :=
  h.congr Iff.rfl (iff_of_false not_false hno)

/-- A handler that has no result answers nothing. -/
theorem spec_none (hbad : unanswered) :
    Spec request K delays unanswered (none : Option (Handled α)) where
  served hok := absurd hbad hok
  unserved _ _ hx := nomatch hx

end Spec

section Handlers
variable {w : Surroundings} {request : CoapHeader} {p : Params} {h : Heap}

/-- A response that `resource_callback` sends. -/
def Answers (request : CoapHeader) (response : Option Response) : Prop :=
  ∃ r, response = some r ∧ r.token = request.token ∧ r.msgCode ≠ .empty ∧
    r.coapStatus ≠ .blockwiseMsgReceiving

theorem Answers.of {r : Response} (htoken : r.token = request.token)
    (hstatus : r.coapStatus ≠ .blockwiseMsgReceiving) (hcode : r.msgCode ≠ .empty) :
    Answers request (some r) :=
  ⟨r, rfl, htoken, hcode, hstatus⟩

theorem Answers.replies {response : Option Response} (ha : Answers request response)
    (delays : Prop) : response.isSome ∧ Replies request delays ([] ++ sendResponse response) := by
  obtain ⟨r, rfl, htoken, hcode, hstatus⟩ := ha
  have hsent : sendResponse (some r) = [r] := by rw [sendResponse, if_pos ⟨hstatus, hcode⟩]
  exact ⟨rfl, r, by rw [hsent, List.nil_append], htoken, fun hc => absurd hc hcode⟩

theorem Answers.spec {α : Type} {K : α → Prop} {x : Handled α} (ha : Answers request x.response)
    (hsent : x.sent = []) (hK : K x.entity) (delays : Prop) :
    Spec request K delays False (some x) where
  served _ := by
    obtain ⟨hsome, hreplies⟩ := ha.replies delays
    exact ⟨x, rfl, hsome, hsent ▸ hreplies, hK⟩
  unserved hc := hc.elim

theorem built (hw : w.Builds) (request : CoapHeader) (msgCode : MsgCode) : ∃ response,
    w.buildResponse request msgCode = some response ∧ response.token = request.token ∧
      response.coapStatus ≠ .blockwiseMsgReceiving := by
  obtain ⟨response, hresponse, htoken⟩ := hw.built request msgCode
  exact ⟨response, hresponse, htoken, (hw.asked request msgCode response hresponse).2⟩

theorem answers_built (hw : w.Builds) {asked msgCode : MsgCode} (hcode : msgCode ≠ .empty) :
    Answers request (answer (w.buildResponse request asked) msgCode) := by
  obtain ⟨response, hresponse, htoken, hstatus⟩ := built hw request asked
  rw [hresponse]
  exact .of htoken hstatus hcode

/-- A handler that returns its answer and does not touch the token. -/
structure Plain {α : Type} (request : CoapHeader) (p : Params)
    (handled : Handled (α × Params)) : Prop where
  answers : Answers request handled.response
  silent : handled.sent = []
  lastPost : handled.entity.2.lastPost = p.lastPost
  delayedToken : handled.entity.2.delayedToken = p.delayedToken

theorem Params.TokenKept.congr {q : Params} (hp : p.TokenKept) (hl : q.lastPost = p.lastPost)
    (hd : q.delayedToken = p.delayedToken) : q.TokenKept := by
  intro token htoken
  rw [getDelayedToken_granted, hd, ← getDelayedToken_granted]
  exact hp token (hl ▸ htoken)

theorem Plain.spec {α : Type} {handled : Handled (α × Params)} (hplain : Plain request p handled)
    (hp : p.TokenKept) (delays : Prop) :
    Spec request (fun x : α × Params => x.2.TokenKept) delays False (some handled) :=
  hplain.answers.spec hplain.silent (hp.congr hplain.lastPost hplain.delayedToken) delays

theorem observeCode_ne_empty {isObservable : Bool} {msgCode : MsgCode} (hcode : msgCode ≠ .empty) :
    request.observeCode isObservable msgCode ≠ .empty := by
  unfold CoapHeader.observeCode
  split_ifs <;> simp [hcode]

theorem errorCode_ne_empty {success : MsgCode} (hsuccess : success ≠ .empty) (error : Tlv.Error) :
    errorCode success error ≠ .empty := by
  cases error <;> simp [errorCode, hsuccess]

section Query

/-- The one option of a query is too long for the arrays that it is copied to. -/
def CoapHeader.Overlong (request : CoapHeader) : Prop := ∃ query, request.uriQuery = some query ∧
  Report.ampersand ∉ cStr query ∧ ¬Report.HasRoom (cStr query)

theorem not_overlong (hquery : request.uriQuery = none) : ¬request.Overlong := by
  rintro ⟨query, hsome, -⟩
  exact nomatch hquery.symm.trans hsome

theorem handleObservationAttribute_none (n : Identity) (resourceType : ResourceType)
    (query : Bytes) : handleObservationAttribute w n resourceType query = none ↔
      Report.ampersand ∉ cStr query ∧ ¬Report.HasRoom (cStr query) := by
  rw [handleObservationAttribute, Option.map_eq_none_iff]
  exact (w.reportHandler n).handleObservationAttribute_none _ resourceType
    ⟨cStr query, notMem_cStr query⟩

theorem overlong_iff (n : Identity) (resourceType : ResourceType) {query : Bytes}
    (hquery : request.uriQuery = some query) :
    request.Overlong ↔ handleObservationAttribute w n resourceType query = none := by
  rw [CoapHeader.Overlong, handleObservationAttribute_none]
  simp [hquery]

theorem handleQuery_granted (n : Identity) (resourceType : ResourceType) (query : Bytes) :
    handleQuery w n resourceType query granted =
      (handleObservationAttribute w n resourceType query).map fun success =>
        (if success then .changed else .badRequest, granted) := rfl

/-- A query is answered unless it leaves its arrays. -/
theorem query_spec {α : Type} {K : α → Prop} {x : α} (hK : K x) {response : Response}
    (htoken : response.token = request.token)
    (hstatus : response.coapStatus ≠ .blockwiseMsgReceiving)
    (n : Identity) (resourceType : ResourceType) {query : Bytes}
    (hquery : request.uriQuery = some query) (delays : Prop) :
    Spec request K delays request.Overlong ((handleQuery w n resourceType query granted).map
      fun s =>
        { response := some { response with msgCode := s.1 }, entity := x, heap := s.2 }) := by
  have hoverlong := overlong_iff (w := w) n resourceType hquery
  rw [handleQuery_granted]
  cases hresult : handleObservationAttribute w n resourceType query with
  | none => exact spec_none (hoverlong.mpr hresult)
  | some success =>
    have hno : ¬request.Overlong := fun hc => nomatch (hoverlong.mp hc).symm.trans hresult
    refine Spec.of_not (Answers.spec ?_ rfl hK delays) hno
    refine .of htoken hstatus ?_
    cases success <;> simp

end Query

section Get

/-- A GET of more content than the serializer has sizes for. -/
def Oversized (w : Surroundings) (request : CoapHeader) (operation : UInt8) (p : Params)
    (subject : Tlv.Subject) : Prop :=
  operation &&& snGrsGetAllowed ≠ 0 ∧
    request.contentType true p.coapContentType = coapContentOmaTlvType ∧
      2 ^ 32 ≤ (subject.bytes (Tlv.wireValue w.commonWrite64Bit)).length

theorem serialized_none (subject : Tlv.Subject) (type : UInt16) :
    serialized w subject type granted = none ↔ type = coapContentOmaTlvType ∧
      2 ^ 32 ≤ (subject.bytes (Tlv.wireValue w.commonWrite64Bit)).length := by
  have hrun := @Tlv.serialize_granted w.commonWrite64Bit subject
  rw [serialized]
  by_cases htype : type = coapContentOmaTlvType
  · rw [if_pos htype, Option.map_eq_none_iff, and_iff_right htype, ← not_lt]
    refine Iff.trans (by rw [← hrun]; rfl) (?_ : (if _ then some _ else none) = none ↔ _)
    simp
  · rw [if_neg htype]
    exact iff_of_false (Option.some_ne_none _) fun hc => htype hc.1

theorem oversized_iff {operation : UInt8} (hget : ¬operation &&& snGrsGetAllowed = 0) (p : Params)
    (subject : Tlv.Subject) : Oversized w request operation p subject ↔
      serialized w subject (request.contentType true p.coapContentType) granted = none := by
  rw [Oversized, serialized_none, and_iff_right hget]

theorem handleGetRequestBase_answers (hw : w.Builds) (b : M2MResourceBase) (p : Params) (h : Heap) :
    Answers request (handleGetRequestBase w request b p h).1 := by
  by_cases hget : b.operation &&& snGrsGetAllowed = 0
  · rw [handleGetRequestBase, if_pos hget]
    exact answers_built hw (by simp)
  · obtain ⟨response, hresponse, htoken, hstatus⟩ := built hw request .content
    rw [handleGetRequestBase, if_neg hget, hresponse]
    exact .of htoken hstatus (observeCode_ne_empty (by simp))

theorem setCoapContentType_token (p : Params) (type : UInt16) (c : Prop) [Decidable c] :
    (if c then p.setCoapContentType type else p).lastPost = p.lastPost ∧
      (if c then p.setCoapContentType type else p).delayedToken = p.delayedToken := by
  split_ifs <;> exact ⟨rfl, rfl⟩

variable (request) in
theorem handleGetRequestTree_cases (hw : w.Builds) (p : Params) (subject : Tlv.Subject) :
    Oversized w request p.operation p subject ∧
        handleGetRequestTree w request p granted subject = none ∨
      ¬Oversized w request p.operation p subject ∧ ∃ response q h,
        handleGetRequestTree w request p granted subject = some (response, q, h) ∧
        Answers request response ∧ q.lastPost = p.lastPost ∧ q.delayedToken = p.delayedToken := by
  by_cases hget : p.operation &&& snGrsGetAllowed = 0
  · refine .inr ⟨fun hc => hc.1 hget, _, _, _, by rw [handleGetRequestTree, if_pos hget], ?_,
      rfl, rfl⟩
    exact answers_built hw (by simp)
  · obtain ⟨response, hresponse, htoken, hstatus⟩ := built hw request .content
    rw [oversized_iff hget, handleGetRequestTree, if_neg hget, hresponse]
    dsimp only
    cases hdata : serialized w subject (request.contentType true p.coapContentType) granted with
    | none => exact .inl ⟨rfl, rfl⟩
    | some data =>
      refine .inr ⟨Option.some_ne_none _, _, _, _, rfl, .of htoken hstatus ?_,
        setCoapContentType_token p _ _⟩
      dsimp only
      split_ifs <;> simp [observeCode_ne_empty]

theorem handleGetRequestObjectInstance_spec (hw : w.Builds) (hp : p.TokenKept)
    (oi : M2MObjectInstance) (delays : Prop) :
    Spec request (fun x : M2MObjectInstance × Params => x.2.TokenKept) delays
      (Oversized w request p.operation p (.resources oi.resources))
      (handleGetRequestObjectInstance w request oi p granted) := by
  rw [handleGetRequestObjectInstance]
  obtain ⟨hbad, hnone⟩ | ⟨hok, response, q, h, hsome, hanswers, hlast, htoken⟩ :=
    handleGetRequestTree_cases request hw p (.resources oi.resources)
  · rw [hnone]
    exact spec_none hbad
  · rw [hsome]
    exact (Plain.spec ⟨hanswers, rfl, hlast, htoken⟩ hp delays).of_not hok

theorem handleGetRequestResource_spec (hw : w.Builds) (hp : p.TokenKept) (r : M2MResource)
    (delays : Prop) : Spec request (fun x : M2MResource × Params => x.2.TokenKept) delays
      (r.multipleInstance = true ∧ Oversized w request r.operation p (.resource r))
      (handleGetRequestResource w request r p granted) := by
  rw [handleGetRequestResource]
  by_cases hmultiple : r.multipleInstance = true
  · rw [if_pos hmultiple, and_iff_right hmultiple]
    by_cases hget : r.operation &&& snGrsGetAllowed = 0
    · rw [if_pos hget]
      exact (Answers.spec (answers_built hw (by simp)) rfl hp delays).of_not fun hc => hc.1 hget
    · obtain ⟨response, hresponse, htoken, hstatus⟩ := built hw request .content
      rw [if_neg hget, hresponse, oversized_iff hget]
      dsimp only
      cases hdata :
        serialized w (.resource r) (request.contentType true p.coapContentType) granted with
      | none => exact spec_none rfl
      | some data =>
        have hkept := setCoapContentType_token p (request.contentType true p.coapContentType)
          (response.contentFormat = none)
        refine (Plain.spec ⟨?_, rfl, hkept.1, hkept.2⟩ hp delays).of_not (Option.some_ne_none _)
        refine .of htoken hstatus (observeCode_ne_empty ?_)
        split_ifs <;> simp
  · rw [if_neg hmultiple]
    exact (Answers.spec (handleGetRequestBase_answers hw _ _ _) rfl hp delays).of_not
      fun hc => hmultiple hc.1

end Get

section Put
variable {n : Identity}

/-- A last block of a message that is too large, where the flag for the last block is not set from
an earlier one. The response counts as that to a block that more blocks follow. -/
def LastBlockRefused (w : Surroundings) (request : CoapHeader) (b : M2MResourceBase) (p : Params) :
    Prop :=
  request.uriQuery = none ∧ b.operation &&& snGrsPutAllowed ≠ 0 ∧
    request.contentFormat ≠ some coapContentOmaTlvType ∧
    ∃ block options, p.blockMessage = some block ∧ request.options = some options ∧
      options.block1 ≠ -1 ∧ block.isLastBlock = false ∧
      w.maxIncomingMessageSize < if options.useSize1 then options.size1 else block.totalMessageSize

def CoapHeader.Whole (request : CoapHeader) : Prop :=
  ∀ options, request.options = some options → options.block1 = -1 ∨ options.block1 &&& 0x08 = 0

/-- A PUT whose block message takes bytes that are not there. -/
def BlockMissing (w : Surroundings) (request : CoapHeader) (b : M2MResourceBase) (p : Params) :
    Prop :=
  request.uriQuery = none ∧ b.operation &&& snGrsPutAllowed ≠ 0 ∧
    request.contentFormat ≠ some coapContentOmaTlvType ∧
    ∃ block options, p.blockMessage = some block ∧ request.options = some options ∧
      (if options.useSize1 then options.size1 else block.totalMessageSize) ≤
        w.maxIncomingMessageSize ∧
      request.payloadLen > 0 ∧ request.payloadPtr = none

theorem BlockMissing.payloadPtr {b : M2MResourceBase} (h : BlockMissing w request b p) :
    request.payloadPtr = none := by
  obtain ⟨-, -, -, -, -, -, -, -, -, hpayload⟩ := h
  exact hpayload

/-- A message that is too large keeps the flag for the last block, and another one sets it. -/
theorem setMessageInfo_isLastBlock {block m : M2MBlockMessage} {maxSize : UInt32} {h h' : Heap}
    (hwhole : request.Whole) (hset : block.setMessageInfo maxSize request h = some (m, h')) :
    m.isBlockMessage = true ∧ m.isLastBlock = false ↔
      ∃ options, request.options = some options ∧ options.block1 ≠ -1 ∧
        block.isLastBlock = false ∧
        maxSize < if options.useSize1 then options.size1 else block.totalMessageSize := by
  cases hoptions : request.options with
  | none =>
    rw [M2MBlockMessage.setMessageInfo, hoptions] at hset
    obtain ⟨rfl, -⟩ := Prod.mk.inj (Option.some.inj hset)
    simp
  | some options =>
    by_cases hlarge : maxSize < if options.useSize1 then options.size1 else block.totalMessageSize
    · rw [M2MBlockMessage.setMessageInfo_large hoptions hlarge] at hset
      obtain ⟨rfl, -⟩ := Prod.mk.inj (Option.some.inj hset)
      simp [hlarge]
    · rw [M2MBlockMessage.setMessageInfo_small hoptions (UInt32.not_lt.mp hlarge)] at hset
      obtain ⟨hcopied, -⟩ := M2MBlockMessage.copyPayload_eq hset
      rw [hcopied]
      refine iff_of_false ?_ (by simp [hlarge])
      rintro ⟨hmessage, hlast⟩
      have hblock : options.block1 ≠ -1 := bne_iff_ne.mp hmessage
      have hend : options.block1 &&& 0x08 = 0 := (hwhole options hoptions).resolve_left hblock
      simp [M2MBlockMessage.described, hblock, hend] at hlast

section Value
variable {b : M2MResourceBase} (hquery : request.uriQuery = none)
  (hput : b.operation &&& snGrsPutAllowed ≠ 0)
  (htlv : request.contentFormat ≠ some coapContentOmaTlvType)
include hquery hput htlv

theorem blockMissing_iff : BlockMissing w request b p ↔
    setMessageInfo w request p granted = none := by
  rw [BlockMissing, and_iff_right hquery, and_iff_right hput, and_iff_right htlv, setMessageInfo]
  cases p.blockMessage with
  | none => exact iff_of_false (by simp) (Option.some_ne_none _)
  | some block =>
    have hruns :=
      @M2MBlockMessage.setMessageInfo_runs w.maxIncomingMessageSize block request granted
    have hnone : block.setMessageInfo w.maxIncomingMessageSize request granted = none ↔
        ¬∃ m h, block.setMessageInfo w.maxIncomingMessageSize request granted = some (m, h) := by
      simp [Option.eq_none_iff_forall_ne_some]
    rw [Option.map_eq_none_iff, hnone, hruns]
    simp [granted, Heap.malloc, Option.isSome_iff_ne_none]

theorem lastBlockRefused_iff {block : Option M2MBlockMessage} {h : Heap} (hwhole : request.Whole)
    (hset : setMessageInfo w request p granted = some (block, h)) :
    LastBlockRefused w request b p ↔
      ∃ m, block.filter (·.isBlockMessage) = some m ∧ m.isLastBlock = false := by
  rw [LastBlockRefused, and_iff_right hquery, and_iff_right hput, and_iff_right htlv]
  rw [setMessageInfo] at hset
  cases hblock : p.blockMessage with
  | none =>
    rw [hblock] at hset
    obtain ⟨rfl, -⟩ := Prod.mk.inj (Option.some.inj hset)
    simp
  | some own =>
    rw [hblock] at hset
    obtain ⟨⟨m, h'⟩, hm, heq⟩ := Option.map_eq_some_iff.mp hset
    obtain ⟨rfl, -⟩ := Prod.mk.inj heq
    simp only [Option.some.injEq, exists_and_left, exists_eq_left']
    rw [← setMessageInfo_isLastBlock hwhole hm, Option.filter_some]
    split_ifs with hmessage <;> simp [hmessage]

end Value

/-- The token of an entity is not touched. -/
theorem handlePutRequestBase_spec (hw : w.Builds) (hwhole : request.Whole) (hp : p.TokenKept)
    (n : Identity) (b : M2MResourceBase) (delays : Prop) :
    Spec request (fun x : M2MResourceBase × Params => x.2.TokenKept) delays
      (request.Overlong ∨ LastBlockRefused w request b p ∨ BlockMissing w request b p)
      (handlePutRequestBase w n request b p granted) := by
  obtain ⟨response, hresponse, htoken, hstatus⟩ := built hw request .changed
  rw [handlePutRequestBase, hresponse]
  cases hquery : request.uriQuery with
  | some query =>
    have hrefused : ¬(LastBlockRefused w request b p ∨ BlockMissing w request b p) := by
      rintro (hc | hc) <;> exact Option.some_ne_none _ (hquery.symm.trans hc.1)
    refine .congr Iff.rfl (or_iff_left hrefused).symm ?_
    exact query_spec (x := (b, p)) hp htoken hstatus n b.resourceType hquery delays
  | none =>
    rw [or_iff_right (not_overlong hquery)]
    by_cases hput : b.operation &&& snGrsPutAllowed ≠ 0
    · by_cases htlv : request.contentFormat = some coapContentOmaTlvType
      · simp only [if_pos hput, if_pos htlv]
        refine (Plain.spec ⟨?_, rfl, rfl, rfl⟩ hp delays).of_not ?_
        · exact .of htoken hstatus (by simp)
        · rintro (hc | hc) <;> exact hc.2.2.1 htlv
      · simp only [if_pos hput, if_neg htlv]
        have hmissing := blockMissing_iff (w := w) (p := p) hquery hput htlv
        cases hset : setMessageInfo w request p granted with
        | none => exact spec_none (.inr (hmissing.mpr hset))
        | some s =>
          obtain ⟨block, h⟩ := s
          have hrefused := lastBlockRefused_iff hquery hput htlv hwhole hset
          have hthere : ¬BlockMissing w request b p := by simp [hmissing, hset]
          rw [or_iff_left hthere]
          simp only [Option.map_some]
          cases hblock : block.filter (·.isBlockMessage) with
          | none =>
            simp only [hblock] at hrefused
            refine (Plain.spec ⟨?_, rfl, rfl, rfl⟩ hp delays).of_not (by simpa using hrefused)
            exact .of htoken hstatus (by simp)
          | some m =>
            simp only [hblock, Option.some.injEq, exists_eq_left'] at hrefused
            cases hlast : m.isLastBlock with
            | true =>
              have haccepted : ¬LastBlockRefused w request b p := by simp [hrefused, hlast]
              refine (Plain.spec ⟨?_, rfl, rfl, rfl⟩ hp delays).of_not haccepted
              exact .of htoken (by simp [hlast]) (by simp)
            | false =>
              refine ⟨fun hc => absurd (hrefused.mpr hlast) hc, fun _ x hx => ?_⟩
              obtain rfl := Option.some.inj hx
              exact ⟨rfl, by simp [sendResponse, hlast]⟩
    · simp only [if_neg hput]
      refine (Plain.spec ⟨?_, rfl, rfl, rfl⟩ hp delays).of_not ?_
      · exact .of htoken hstatus (by simp)
      · rintro (hc | hc) <;> exact hput hc.2.1

theorem handlePutRequestResource_spec (hw : w.Builds) (hwhole : request.Whole) (hp : p.TokenKept)
    (n : Identity) (r : M2MResource) (delays : Prop) :
    Spec request (fun x : M2MResource × Params => x.2.TokenKept) delays
      (request.Overlong ∨ r.multipleInstance = false ∧
        (LastBlockRefused w request r.toM2MResourceBase p ∨
          BlockMissing w request r.toM2MResourceBase p))
      (handlePutRequestResource w n request r p granted) := by
  rw [handlePutRequestResource]
  by_cases hmultiple : r.multipleInstance = true
  · rw [if_pos hmultiple, or_iff_left (by simp [hmultiple])]
    obtain ⟨response, hresponse, htoken, hstatus⟩ := built hw request .changed
    cases hquery : request.uriQuery with
    | some query =>
      rw [hresponse]
      exact query_spec (K := fun x : M2MResource × Params => x.2.TokenKept) hp htoken hstatus n
        r.resourceType hquery delays
    | none =>
      dsimp only
      split_ifs <;> refine (Plain.spec ⟨?_, rfl, rfl, rfl⟩ hp delays).of_not
        (not_overlong hquery) <;>
        exact answers_built hw (by simp [errorCode_ne_empty])
  · have hbase := (handlePutRequestBase_spec hw hwhole hp n r.toM2MResourceBase delays).map
      (L := fun x : M2MResource × Params => x.2.TokenKept)
      (f := fun x : M2MResourceBase × Params => ({ r with toM2MResourceBase := x.1 }, x.2))
      fun _ hx => hx
    rw [if_neg hmultiple]
    refine Spec.congr Iff.rfl ?_ hbase
    rw [Bool.not_eq_true] at hmultiple
    rw [and_iff_right hmultiple]

theorem handlePutRequestObjectInstance_spec (hw : w.Builds) (hp : p.TokenKept) (n : Identity)
    (oi : M2MObjectInstance) (delays : Prop) :
    Spec request (fun x : M2MObjectInstance × Params => x.2.TokenKept) delays request.Overlong
      (handlePutRequestObjectInstance w n request oi p granted) := by
  obtain ⟨response, hresponse, htoken, hstatus⟩ := built hw request .changed
  unfold handlePutRequestObjectInstance
  cases hquery : request.uriQuery with
  | some query =>
    rw [hresponse]
    exact query_spec (K := fun x : M2MObjectInstance × Params => x.2.TokenKept) hp htoken hstatus n
      .opaqueData hquery delays
  | none =>
    have hno := not_overlong hquery
    dsimp only
    split_ifs
    · cases request.payloadPtr with
      | none => exact (Plain.spec ⟨answers_built hw (by simp), rfl, rfl, rfl⟩ hp delays).of_not hno
      | some payload =>
        have hanswers : Answers request (answer (w.buildResponse request .changed)
            (errorCode .changed
              (Tlv.deserializeResources (some payload) request.payloadLen.toNat .put
              (oi, ⟨granted, []⟩)).1)) :=
          answers_built hw (errorCode_ne_empty (by simp) _)
        exact (Plain.spec ⟨hanswers, rfl, rfl, rfl⟩ hp delays).of_not hno
    · exact (Plain.spec ⟨answers_built hw (by simp), rfl, rfl, rfl⟩ hp delays).of_not hno
    · exact (Plain.spec ⟨answers_built hw (by simp), rfl, rfl, rfl⟩ hp delays).of_not hno

end Put

section Post

/-- What a POST to a resource that answers later is executed with is not remembered: there is no
token. -/
def TokenMissing (request : CoapHeader) (r : M2MResource) (p : Params) : Prop :=
  r.operation &&& snGrsPostAllowed ≠ 0 ∧
    ¬(request.payloadPtr.isSome && request.contentFormat.getD 0 != 0) ∧
    p.delayedResponse = true ∧ request.token = []

theorem handlePostRequestResource_spec (hw : w.Builds) (hp : p.TokenKept) (r : M2MResource) :
    Spec request (fun x : M2MResource × Params => x.2.TokenKept) (p.delayedResponse = true)
      (TokenMissing request r p) (handlePostRequestResource w request r p granted) := by
  obtain ⟨response, hresponse, htoken, hstatus⟩ := built hw request .changed
  rw [handlePostRequestResource]
  by_cases hpost : r.operation &&& snGrsPostAllowed ≠ 0
  · by_cases hformat : request.payloadPtr.isSome && request.contentFormat.getD 0 != 0
    · simp only [if_pos hpost, if_pos hformat]
      exact Spec.congr Iff.rfl (iff_of_false not_false fun hc => hc.2.1 hformat)
        (Plain.spec ⟨answers_built hw (by simp), rfl, rfl, rfl⟩ hp _)
    · simp only [if_pos hpost, if_neg hformat, hresponse]
      cases hdelayed : p.delayedResponse with
      | true =>
        simp only [if_true]
        by_cases hnil : request.token = []
        · simp only [hnil, List.length_nil, ne_eq, not_true_eq_false, if_false]
          refine ⟨fun hc => absurd ⟨hpost, hformat, hdelayed, hnil⟩ hc, fun _ x hx => ?_⟩
          obtain rfl := Option.some.inj hx
          exact ⟨rfl, by simp [sendResponse]⟩
        · have hlen : request.token.length ≠ 0 := by simpa using hnil
          simp only [if_pos hlen]
          refine ⟨fun _ => ⟨_, rfl, rfl, ?_, fun token hlast => ?_⟩, fun hc => absurd hc.2.2.2 hnil⟩
          · refine ⟨{ response with
              msgType := .acknowledgement, msgCode := .empty, msgId := request.msgId }, ?_,
                htoken, ?_⟩
            · simp [sendResponse]
            · exact fun _ => ⟨trivial, rfl, rfl⟩
          · obtain rfl := Option.some.inj hlast
            exact getDelayedToken_granted _
      | false =>
        simp only [Bool.false_eq_true, if_false]
        refine Spec.congr Iff.rfl
          (iff_of_false not_false fun hc => by simp [TokenMissing, hdelayed] at hc)
          (Plain.spec ⟨?_, rfl, rfl, rfl⟩ hp _)
        exact .of htoken hstatus (by simp)
  · simp only [if_neg hpost]
    exact Spec.congr Iff.rfl (iff_of_false not_false fun hc => hpost hc.1)
      (Plain.spec ⟨answers_built hw (by simp), rfl, rfl, rfl⟩ hp _)

/-- A POST without a payload to an object instance, which looks at its first bytes. -/
def PayloadMissing (request : CoapHeader) (p : Params) : Prop :=
  p.operation &&& snGrsPostAllowed ≠ 0 ∧
    request.contentType true p.coapContentType = coapContentOmaTlvType ∧
    request.payloadPtr = none

theorem handlePostRequestObjectInstance_spec (hw : w.Builds) (hp : p.TokenKept)
    (oi : M2MObjectInstance) (parent : Bytes) (delays : Prop) :
    Spec request (fun x : M2MObjectInstance × Params => x.2.TokenKept) delays
      (PayloadMissing request p) (handlePostRequestObjectInstance w request oi p h parent) := by
  obtain ⟨response, hresponse, htoken, hstatus⟩ := built hw request .changed
  rw [handlePostRequestObjectInstance, hresponse, Option.isSome_some]
  by_cases hpost : p.operation &&& snGrsPostAllowed ≠ 0
  · by_cases htype : request.contentType true p.coapContentType = coapContentOmaTlvType
    · simp only [if_pos hpost, if_pos htype]
      generalize Tlv.deserializeResources request.payloadPtr request.payloadLen.toNat .post
        (oi, ⟨h, []⟩) = decoded
      obtain ⟨error, oi, env⟩ := decoded
      cases hpayload : request.payloadPtr with
      | none =>
        exact ⟨fun hc => absurd ⟨hpost, htype, hpayload⟩ hc, fun _ x hx => nomatch hx⟩
      | some data =>
        refine Spec.congr Iff.rfl
          (iff_of_false not_false fun hc => nomatch hpayload.symm.trans hc.2.2) ?_
        simp only [tlvInstanceId, Option.map_some]
        by_cases herror : error = .none
        · simp only [if_pos herror]
          cases env.heap.malloc.1 with
          | true =>
            cases buildPathIds parent oi.instanceId (recId data 0) with
            | none =>
              refine Plain.spec (p := p) ⟨?_, rfl, rfl, rfl⟩ hp _
              exact .of htoken hstatus (by simp)
            | some path =>
              refine Plain.spec (p := p) ⟨?_, rfl, rfl, rfl⟩ hp _
              exact .of htoken hstatus (by simp)
          | false =>
            refine Plain.spec (p := p) ⟨?_, rfl, rfl, rfl⟩ hp _
            exact .of htoken hstatus (by simp)
        · simp only [if_neg herror]
          refine Plain.spec (p := p) ⟨?_, rfl, rfl, rfl⟩ hp _
          refine .of htoken hstatus ?_
          dsimp only
          split_ifs <;> simp [errorCode_ne_empty]
    · simp only [if_pos hpost, if_neg htype]
      refine Spec.congr Iff.rfl (iff_of_false not_false fun hc => htype hc.2.1)
        (Plain.spec ⟨?_, rfl, rfl, rfl⟩ hp _)
      exact .of htoken hstatus (by simp)
  · simp only [if_neg hpost]
    refine Spec.congr Iff.rfl (iff_of_false not_false fun hc => hpost hc.1)
      (Plain.spec ⟨?_, rfl, rfl, rfl⟩ hp _)
    exact .of htoken hstatus (by simp)

end Post

section Object
variable {o : ObjectNode}

def ObjectNode.TokensKept (o : ObjectNode) : Prop := ∀ n, (o.params n).TokenKept

theorem tokenKept_new {p : Params} (hp : p.lastPost = none) : p.TokenKept :=
  fun _ htoken => nomatch hp.symm.trans htoken

theorem ObjectNode.TokensKept.setParams (ho : o.TokensKept) {n : Identity} (hp : p.TokenKept) :
    (o.setParams n p).TokensKept := by
  intro m
  by_cases hm : m = n
  · simpa [ObjectNode.setParams, hm] using hp
  · simpa [ObjectNode.setParams, Function.update_of_ne hm] using ho m

theorem ObjectNode.TokensKept.grow (ho : o.TokensKept) (obj : M2MObject) :
    (o.grow obj).TokensKept := by
  intro n
  by_cases hn : n ∈ identities [o.toNamedObject]
  · simpa [ObjectNode.grow, hn] using ho n
  · simpa [ObjectNode.grow, hn] using tokenKept_new rfl

theorem ObjectNode.TokensKept.createObjectInstance (ho : o.TokensKept) (id : UInt16) (h : Heap) :
    (o.createObjectInstance id h).2.1.TokensKept := by
  unfold ObjectNode.createObjectInstance
  dsimp only
  split_ifs
  · exact (ho.grow _).setParams (tokenKept_new rfl)
  · exact ho
  · exact ho

theorem ObjectNode.TokensKept.deserializePost (ho : o.TokensKept) (request : CoapHeader)
    (data : Nat → UInt8) (created : Bool) (h : Heap) :
    (deserializePost request o data created h).2.1.TokensKept := by
  unfold Nsdl.deserializePost
  dsimp only
  split_ifs
  · exact ho.grow _
  · cases o.instances.getLast?.filter fun _ => created with
    | none => exact ho
    | some oi => exact ho.grow _
  · cases o.instances.getLast?.filter fun _ => created with
    | none => exact ho
    | some oi => exact ho

theorem handleGetRequestObject_spec (hw : w.Builds) (ho : o.TokensKept) (delays : Prop) :
    Spec request ObjectNode.TokensKept delays
      (Oversized w request o.own.operation o.own (.objectInstances o.instances))
      (handleGetRequestObject w request o granted) := by
  rw [handleGetRequestObject]
  obtain ⟨hbad, hnone⟩ | ⟨hok, response, q, h, hsome, hanswers, hlast, htoken⟩ :=
    handleGetRequestTree_cases request hw o.own (.objectInstances o.instances)
  · rw [hnone]
    exact spec_none hbad
  · rw [hsome]
    have hkept := ho.setParams (n := .object o.name) ((ho _).congr hlast htoken)
    exact (hanswers.spec rfl hkept delays).of_not hok

theorem handlePutRequestObject_spec (hw : w.Builds) (ho : o.TokensKept) (delays : Prop) :
    Spec request ObjectNode.TokensKept delays request.Overlong
      (handlePutRequestObject w request o granted) := by
  obtain ⟨response, hresponse, htoken, hstatus⟩ := built hw request .changed
  unfold handlePutRequestObject
  cases hquery : request.uriQuery with
  | some query =>
    rw [hresponse]
    exact query_spec ho htoken hstatus (.object o.name) .opaqueData hquery delays
  | none => exact ((answers_built hw (by simp)).spec rfl ho delays).of_not (not_overlong hquery)

theorem handlePostRequestObject_spec (hw : w.Builds) (ho : o.TokensKept) (delays : Prop) :
    Spec request ObjectNode.TokensKept delays False (handlePostRequestObject w request o h) := by
  obtain ⟨response, hresponse, htoken, hstatus⟩ := built hw request .changed
  have hrefuse {msgCode : MsgCode} (hcode : msgCode ≠ .empty) :
      Spec request ObjectNode.TokensKept delays False 
        (some { response := answer (w.buildResponse request .changed) msgCode
                entity := o, heap := h }) :=
    (answers_built hw hcode).spec rfl ho delays
  rw [handlePostRequestObject]
  by_cases hpost : o.own.operation &&& snGrsPostAllowed ≠ 0
  · simp only [if_pos hpost]
    cases request.payloadPtr with
    | none => exact hrefuse (by simp)
    | some data =>
      by_cases htype : request.contentType (w.buildResponse request .changed).isSome
          o.own.coapContentType = coapContentOmaTlvType
      · simp only [if_pos htype]
        cases freeInstanceId o with
        | none => exact hrefuse (by simp)
        | some free =>
          dsimp only
          generalize (if Tlv.isType typeObjectInstance (some data) then recId data 0 else free) = id
          split
          · exact hrefuse (by simp)
          · have hcreated := ho.createObjectInstance id h
            generalize o.createObjectInstance id h = result at hcreated
            obtain ⟨created, o', h'⟩ := result
            have hset : (if created then o'.setParams (.objectInstance o'.name id)
                { o'.params (.objectInstance o'.name id) with operation := getPutAllowed }
                else o').TokensKept := by
              cases created with
              | true => exact hcreated.setParams ((hcreated _).congr rfl rfl)
              | false => exact hcreated
            have hposted := hset.deserializePost request data created h'
            dsimp only
            generalize deserializePost request _ data created h' = result at hposted
            obtain ⟨error, o'', h''⟩ := result
            by_cases herror : error = .none
            · simp only [if_pos herror, hresponse]
              refine Answers.spec ?_ rfl hposted delays
              exact .of htoken hstatus (by simp)
            · simp only [if_neg herror]
              exact (answers_built hw (errorCode_ne_empty (by simp) _)).spec rfl hposted delays
      · simp only [if_neg htype]
        exact hrefuse (by simp)
  · simp only [if_neg hpost]
    exact hrefuse (by simp)

end Object

end Handlers
end MbedClient.Nsdl
