import MbedClient.Nsdl.Addressing
import MbedClient.Nsdl.Exchange

/-! Requests whose payload pointer is NULL. -/
namespace MbedClient.Nsdl
open Observe (Entity)

/-- 4.xx and 5.xx. -/
def MsgCode.isError : MsgCode → Bool
  | .badRequest | .unauthorized | .badOption | .forbidden | .notFound | .methodNotAllowed
  | .notAcceptable | .requestEntityIncomplete | .preconditionFailed | .requestEntityTooLarge
  | .unsupportedContentFormat | .internalServerError => true
  | .other code => decide (0x80 ≤ code)
  | _ => false

/-- The kinds of requests that entities handle themselves. -/
inductive Method where
  | get | put | post

def handle (w : Surroundings) (objects : List ObjectNode) (request : CoapHeader) (h : Heap) :
    Method → Entity → Option (Handled (List ObjectNode))
  | .get => handleGetRequest w objects request h
  | .put => handlePutRequest w objects request h
  | .post => handlePostRequest w objects request h

/-- It is answered with an error, or what it leaves has the property `K` and nothing is reported. -/
def Harmless {α : Type} (K : α → Prop) (x : Handled α) : Prop :=
  (∃ r, x.response = some r ∧ r.msgCode.isError = true) ∨ K x.entity ∧ x.executeValueUpdated = false

/-- The handler comes to an end, and does no harm. -/
def EndsWell {α : Type} (K : α → Prop) (handled : Option (Handled α)) : Prop :=
  ∃ x, handled = some x ∧ Harmless K x

/-- Without a payload, the handler comes to an end, and all values are what they were or it is
answered with an error. -/
def PayloadHandled (w : Surroundings) (objects : List ObjectNode) (request : CoapHeader)
    (method : Method) (e : Entity) : Prop :=
  request.payloadPtr = none → EndsWell (fun objects' =>
    objects'.map (·.toNamedObject) = objects.map (·.toNamedObject))
      (handle w objects request granted method e)

/-- A handler comes to no end where `bad` holds, and ends well otherwise. -/
structure Ending {α : Type} (K : α → Prop) (bad : Prop) (handled : Option (Handled α)) : Prop where
  lost : bad → handled = none
  ends : ¬bad → EndsWell K handled

section Ending
variable {α β : Type} {K : α → Prop} {L : β → Prop} {bad : Prop} {handled : Option (Handled α)}

theorem Ending.map {f : α → β} (h : Ending K bad handled) (hf : ∀ a, K a → L (f a)) :
    Ending L bad (handled.map (·.map f)) where
  lost hbad := Option.map_eq_none_iff.mpr (h.lost hbad)
  ends hok := by
    obtain ⟨x, rfl, hx⟩ := h.ends hok
    refine ⟨x.map f, rfl, ?_⟩
    obtain herror | ⟨hkept, hsilent⟩ := hx
    · exact .inl herror
    · exact .inr ⟨hf _ hkept, hsilent⟩

theorem Ending.congr {bad' : Prop} (h : Ending K bad handled) (hbad : bad ↔ bad') :
    Ending K bad' handled := by
  rwa [← propext hbad]

/-- A handler that leaves the entity as it is. -/
theorem Ending.kept {x : Handled α} (hK : K x.entity) (hsilent : x.executeValueUpdated = false)
    (hok : ¬bad) : Ending K bad (some x) where
  lost hbad := absurd hbad hok
  ends _ := ⟨x, rfl, .inr ⟨hK, hsilent⟩⟩

theorem ending_none (hbad : bad) : Ending K bad (none : Option (Handled α)) where
  lost _ := rfl
  ends hok := absurd hbad hok

theorem Ending.endsWell_iff (h : Ending K bad handled) : EndsWell K handled ↔ ¬bad := by
  refine ⟨fun ⟨x, hx, _⟩ hbad => ?_, h.ends⟩
  rw [h.lost hbad] at hx
  cases hx

theorem set_self {l : List α} {a : α} {i : Nat} (h : l[i]? = some a) : l.set i a = l := by
  obtain ⟨hlt, rfl⟩ := List.getElem?_eq_some_iff.mp h
  exact List.set_getElem_self hlt

variable {objects : List ObjectNode} {i j k m : Nat} {o : ObjectNode} {oi : M2MObjectInstance}
  {r : M2MResource} {b : M2MResourceInstance}

/-! Through a tree: a handler that comes to no end has none there, and one that leaves its entity as
it is leaves the tree as it is. -/

theorem Ending.atObject {f : ObjectNode → Option (Handled ObjectNode)} (ho : objects[i]? = some o)
    (h : Ending (fun o' => o'.toNamedObject = o.toNamedObject) bad (f o)) :
    Ending (fun objects' => objects'.map (·.toNamedObject) = objects.map (·.toNamedObject)) bad
      (atObject objects i f) := by
  rw [Nsdl.atObject, ho, Option.bind_some]
  refine h.map fun o' ho' => ?_
  have hnamed : (objects.map (·.toNamedObject))[i]? = some o.toNamedObject := by
    rw [List.getElem?_map, ho, Option.map_some]
  rw [List.map_set, ho', set_self hnamed]

theorem Ending.atObjectInstance {f : Identity → M2MObjectInstance → Params →
      Option (Handled (M2MObjectInstance × Params))} (hoi : o.instances[j]? = some oi)
    (h : let n := Identity.objectInstance o.name oi.instanceId
      Ending (fun y => y.1 = oi) bad (f n oi (o.params n))) :
    Ending (fun o' => o'.toNamedObject = o.toNamedObject) bad (o.atObjectInstance j f) := by
  rw [ObjectNode.atObjectInstance, hoi, Option.bind_some]
  refine h.map fun y hy => ?_
  obtain ⟨oi', p⟩ := y
  obtain rfl : oi' = oi := hy
  dsimp only
  rw [set_self hoi]
  rfl

theorem Ending.atResource {f : Identity → M2MResource → Params →
      Option (Handled (M2MResource × Params))} (hoi : o.instances[j]? = some oi)
    (hr : oi.resources[k]? = some r)
    (h : let n := Identity.resource o.name oi.instanceId r.name
      Ending (fun y => y.1 = r) bad (f n r (o.params n))) :
    Ending (fun o' => o'.toNamedObject = o.toNamedObject) bad (o.atResource j k f) := by
  rw [ObjectNode.atResource, hoi, Option.bind_some, hr, Option.bind_some]
  refine h.map fun y hy => ?_
  obtain ⟨r', p⟩ := y
  obtain rfl : r' = r := hy
  dsimp only
  rw [set_self hr, set_self hoi]
  rfl

theorem Ending.atResourceInstance {f : Identity → M2MResourceBase → Params →
      Option (Handled (M2MResourceBase × Params))} (hoi : o.instances[j]? = some oi)
    (hr : oi.resources[k]? = some r) (hb : r.instances[m]? = some b)
    (h : let n := Identity.resourceInstance o.name oi.instanceId r.name b.instanceId
      Ending (fun y => y.1 = b.toM2MResourceBase) bad (f n b.toM2MResourceBase (o.params n))) :
    Ending (fun o' => o'.toNamedObject = o.toNamedObject) bad (o.atResourceInstance j k m f) := by
  rw [ObjectNode.atResourceInstance, hoi, Option.bind_some, hr, Option.bind_some, hb,
    Option.bind_some]
  refine h.map fun y hy => ?_
  obtain ⟨b', p⟩ := y
  obtain rfl : b' = b.toM2MResourceBase := hy
  dsimp only
  rw [set_self hb, set_self hr, set_self hoi]
  rfl

end Ending

section Handlers
variable {w : Surroundings} {request : CoapHeader} {n : Identity} {p : Params} {h : Heap}

section Get
variable (hw : w.Builds)
include hw

theorem handleGetRequestTree_ending {α : Type} {K : α → Prop} (subject : Tlv.Subject)
    {f : Option Response × Params × Heap → Handled α}
    (hf : ∀ x, K (f x).entity ∧ (f x).executeValueUpdated = false) :
    Ending K (Oversized w request p.operation p subject)
      ((handleGetRequestTree w request p granted subject).map f) := by
  obtain ⟨hbad, hnone⟩ | ⟨hok, response, q, h, hsome, -⟩ :=
    handleGetRequestTree_cases request hw p subject
  · rw [hnone]
    exact ending_none hbad
  · rw [hsome]
    exact .kept (hf _).1 (hf _).2 hok

theorem handleGetRequestResource_ending (r : M2MResource) :
    Ending (fun y : M2MResource × Params => y.1 = r)
      (r.multipleInstance = true ∧ Oversized w request r.operation p (.resource r))
      (handleGetRequestResource w request r p granted) := by
  rw [handleGetRequestResource]
  by_cases hmultiple : r.multipleInstance = true
  · rw [if_pos hmultiple, and_iff_right hmultiple]
    by_cases hget : r.operation &&& snGrsGetAllowed = 0
    · rw [if_pos hget]
      exact .kept rfl rfl fun hc => hc.1 hget
    · obtain ⟨response, hresponse, -⟩ := hw.built request .content
      rw [if_neg hget, hresponse, oversized_iff hget]
      dsimp only
      cases serialized w (.resource r) (request.contentType true p.coapContentType) granted with
      | none => exact ending_none rfl
      | some data => exact .kept rfl rfl (Option.some_ne_none _)
  · rw [if_neg hmultiple]
    exact .kept rfl rfl fun hc => hmultiple hc.1

end Get

/-- A query does not touch values. -/
theorem query_ending {α : Type} {K : α → Prop} (n : Identity) (resourceType : ResourceType)
    {query : Bytes} (hquery : request.uriQuery = some query) {f : MsgCode × Heap → Handled α}
    (hf : ∀ x, K (f x).entity ∧ (f x).executeValueUpdated = false) :
    Ending K request.Overlong ((handleQuery w n resourceType query granted).map f) := by
  rw [overlong_iff (w := w) n resourceType hquery, handleQuery_granted]
  cases handleObservationAttribute w n resourceType query with
  | none => exact ending_none rfl
  | some success => exact .kept (hf _).1 (hf _).2 (Option.some_ne_none _)

section Put
variable (hpayload : request.payloadPtr = none)
include hpayload

theorem handlePutRequestObjectInstance_ending (oi : M2MObjectInstance) :
    Ending (fun y : M2MObjectInstance × Params => y.1 = oi) request.Overlong
      (handlePutRequestObjectInstance w n request oi p granted) := by
  rw [handlePutRequestObjectInstance]
  cases hquery : request.uriQuery with
  | some query => exact query_ending n .opaqueData hquery fun _ => ⟨rfl, rfl⟩
  | none =>
    have hno := not_overlong hquery
    rw [hpayload]
    dsimp only
    split_ifs <;> exact .kept rfl rfl hno

/-- A value stays if the payload is missing, and no update is reported. -/
theorem handlePutRequestBase_ending (hw : w.Builds) (b : M2MResourceBase) :
    Ending (fun y : M2MResourceBase × Params => y.1 = b)
      (request.Overlong ∨ BlockMissing w request b p)
      (handlePutRequestBase w n request b p granted) := by
  obtain ⟨response, hresponse, -⟩ := hw.built request .changed
  have hempty : request.payload = [] := by rw [CoapHeader.payload, hpayload]
  have hkept (h : Heap) : (b.setValue [] h).2.1 = b := rfl
  unfold handlePutRequestBase
  rw [hresponse]
  cases hquery : request.uriQuery with
  | some query =>
    have hno : ¬BlockMissing w request b p :=
      fun hc => Option.some_ne_none _ (hquery.symm.trans hc.1)
    rw [or_iff_left hno]
    exact query_ending n b.resourceType hquery fun _ => ⟨rfl, rfl⟩
  | none =>
    rw [or_iff_right (not_overlong hquery)]
    by_cases hput : b.operation &&& snGrsPutAllowed ≠ 0
    · by_cases htlv : request.contentFormat = some coapContentOmaTlvType
      · simp only [if_pos hput, if_pos htlv]
        exact .kept rfl rfl fun hc => hc.2.2.1 htlv
      · simp only [if_pos hput, if_neg htlv, hempty, hpayload]
        rw [blockMissing_iff hquery hput htlv]
        cases setMessageInfo w request p granted with
        | none => exact ending_none rfl
        | some s =>
          obtain ⟨block, h⟩ := s
          have hok : ¬some (block, h) = none := Option.some_ne_none _
          simp only [Option.map_some]
          cases block.filter (·.isBlockMessage) with
          | some block => exact .kept rfl rfl hok
          | none => exact .kept (hkept h) rfl hok
    · simp only [if_neg hput]
      exact .kept rfl rfl fun hc => hput hc.2.1

/-- The decoder refuses a NULL pointer. -/
theorem handlePutRequestResource_ending (hw : w.Builds) (r : M2MResource) :
    Ending (fun y : M2MResource × Params => y.1 = r)
      (request.Overlong ∨ r.multipleInstance = false ∧ BlockMissing w request r.toM2MResourceBase p)
      (handlePutRequestResource w n request r p granted) := by
  unfold handlePutRequestResource
  by_cases hmultiple : r.multipleInstance = true
  · rw [if_pos hmultiple, or_iff_left (by simp [hmultiple])]
    cases hquery : request.uriQuery with
    | some query => exact query_ending n r.resourceType hquery fun _ => ⟨rfl, rfl⟩
    | none =>
      have hno := not_overlong hquery
      rw [hpayload]
      dsimp only
      split_ifs <;> exact .kept rfl rfl hno
  · rw [if_neg hmultiple, and_iff_right (Bool.eq_false_iff.mpr hmultiple)]
    refine (handlePutRequestBase_ending hpayload hw r.toM2MResourceBase).map
      (f := fun x : M2MResourceBase × Params => ({ r with toM2MResourceBase := x.1 }, x.2)) ?_
    intro ⟨b, p⟩ hb
    obtain rfl : b = r.toM2MResourceBase := hb
    rfl

omit hpayload in
theorem handlePutRequestObject_ending (o : ObjectNode) :
    Ending (fun o' => o'.toNamedObject = o.toNamedObject) request.Overlong
      (handlePutRequestObject w request o granted) := by
  unfold handlePutRequestObject
  cases hquery : request.uriQuery with
  | some query => exact query_ending (.object o.name) .opaqueData hquery fun _ => ⟨rfl, rfl⟩
  | none => exact .kept rfl rfl (not_overlong hquery)

end Put

section Post

theorem handlePostRequestObjectInstance_ending (hw : w.Builds)
    (hpayload : request.payloadPtr = none)
    (oi : M2MObjectInstance) (parent : Bytes) :
    Ending (fun y : M2MObjectInstance × Params => y.1 = oi) (PayloadMissing request p)
      (handlePostRequestObjectInstance w request oi p h parent) := by
  obtain ⟨response, hresponse, -⟩ := hw.built request .changed
  rw [handlePostRequestObjectInstance, hresponse, Option.isSome_some]
  by_cases hpost : p.operation &&& snGrsPostAllowed ≠ 0
  · by_cases htype : request.contentType true p.coapContentType = coapContentOmaTlvType
    · simp only [if_pos hpost, if_pos htype, hpayload, tlvInstanceId, Option.map_none]
      exact ending_none ⟨hpost, htype, hpayload⟩
    · simp only [if_pos hpost, if_neg htype]
      exact .kept rfl rfl fun hc => htype hc.2.1
  · simp only [if_neg hpost]
    exact .kept rfl rfl fun hc => hpost hc.1

/-- A resource can be executed without an argument. -/
theorem handlePostRequestResource_ending (hw : w.Builds) (r : M2MResource) :
    Ending (fun y : M2MResource × Params => y.1 = r) False
      (handlePostRequestResource w request r p h) := by
  obtain ⟨response, hresponse, -⟩ := hw.built request .changed
  rw [handlePostRequestResource, hresponse]
  dsimp only
  split_ifs <;> exact .kept rfl rfl not_false

theorem handlePostRequestObject_ending (hpayload : request.payloadPtr = none) (o : ObjectNode) :
    Ending (fun o' => o'.toNamedObject = o.toNamedObject) False
      (handlePostRequestObject w request o h) := by
  rw [handlePostRequestObject, hpayload]
  dsimp only
  split_ifs <;> exact .kept rfl rfl not_false

end Post

end Handlers

section Entities
variable {w : Surroundings} {objects : List ObjectNode} {request : CoapHeader} {e : Entity}

/-- A POST to an object instance that takes TLV, and a PUT to a value with a block message that is
to take bytes. -/
def Misread (w : Surroundings) (objects : List ObjectNode) (request : CoapHeader) :
    Method → Entity → Prop
  | .post, .objectInstance i j => ∃ o oi, objects[i]? = some o ∧ o.instances[j]? = some oi ∧
    PayloadMissing request (o.params (.objectInstance o.name oi.instanceId))
  | .put, .resource i j k => ∃ o oi r, objects[i]? = some o ∧ o.instances[j]? = some oi ∧
    oi.resources[k]? = some r ∧ r.multipleInstance = false ∧
    BlockMissing w request r.toM2MResourceBase (o.params (.resource o.name oi.instanceId r.name))
  | .put, .resourceInstance i j k m => ∃ o oi r b, objects[i]? = some o ∧
    o.instances[j]? = some oi ∧ oi.resources[k]? = some r ∧ r.instances[m]? = some b ∧
    BlockMissing w request b.toM2MResourceBase
      (o.params (.resourceInstance o.name oi.instanceId r.name b.instanceId))
  | _, _ => False

/-- What leaves its arrays whether there is a payload or not. -/
def Overruns (w : Surroundings) (objects : List ObjectNode) (request : CoapHeader) :
    Method → Entity → Prop
  | .get, e => Entity.Oversized w objects request e
  | .put, _ => request.Overlong
  | .post, _ => False

theorem Misread.payloadPtr {method : Method} (h : Misread w objects request method e) :
    request.payloadPtr = none := by
  cases method with
  | get => cases e <;> exact h.elim
  | put =>
    cases e with
    | object i => exact h.elim
    | objectInstance i j => exact h.elim
    | resource i j k =>
      obtain ⟨_, _, _, -, -, -, -, hmissing⟩ := h
      exact hmissing.payloadPtr
    | resourceInstance i j k m =>
      obtain ⟨_, _, _, _, -, -, -, -, hmissing⟩ := h
      exact hmissing.payloadPtr
  | post =>
    cases e with
    | objectInstance i j =>
      obtain ⟨_, _, -, -, hmissing⟩ := h
      exact hmissing.2.2
    | _ => exact h.elim

section Missing
variable (hw : w.Builds) (hexists : Entity.Exists objects e)
include hw hexists

theorem get_ending : Ending (fun objects' =>
    objects'.map (·.toNamedObject) = objects.map (·.toNamedObject))
      (Misread w objects request .get e ∨ Overruns w objects request .get e)
      (handleGetRequest w objects request granted e) := by
  cases e with
  | object i =>
    obtain ⟨o, ho⟩ := hexists
    refine .congr (.atObject ho (handleGetRequestTree_ending hw _ fun _ => ⟨rfl, rfl⟩)) ?_
    simp [Misread, Overruns, Entity.Oversized, ho]
  | objectInstance i j =>
    obtain ⟨o, oi, ho, hoi⟩ := hexists
    refine .congr (.atObject ho (.atObjectInstance hoi
      (handleGetRequestTree_ending hw _ fun _ => ⟨rfl, rfl⟩))) ?_
    simp [Misread, Overruns, Entity.Oversized, ho, hoi]
  | resource i j k =>
    obtain ⟨o, oi, r, ho, hoi, hr⟩ := hexists
    refine .congr (.atObject ho (.atResource hoi hr (handleGetRequestResource_ending hw r))) ?_
    simp [Misread, Overruns, Entity.Oversized, ho, hoi, hr]
  | resourceInstance i j k m =>
    obtain ⟨o, oi, r, b, ho, hoi, hr, hb⟩ := hexists
    exact .atObject ho (.atResourceInstance hoi hr hb (.kept rfl rfl (by
      simp [Misread, Overruns, Entity.Oversized])))

variable (hpayload : request.payloadPtr = none)
include hpayload

theorem put_ending : Ending (fun objects' =>
    objects'.map (·.toNamedObject) = objects.map (·.toNamedObject))
      (Misread w objects request .put e ∨ Overruns w objects request .put e)
      (handlePutRequest w objects request granted e) := by
  cases e with
  | object i =>
    obtain ⟨o, ho⟩ := hexists
    refine .congr (.atObject ho (handlePutRequestObject_ending o)) ?_
    simp [Misread, Overruns]
  | objectInstance i j =>
    obtain ⟨o, oi, ho, hoi⟩ := hexists
    refine .congr (.atObject ho (.atObjectInstance hoi
      (handlePutRequestObjectInstance_ending hpayload oi))) ?_
    simp [Misread, Overruns]
  | resource i j k =>
    obtain ⟨o, oi, r, ho, hoi, hr⟩ := hexists
    refine .congr (.atObject ho (.atResource hoi hr
      (handlePutRequestResource_ending hpayload hw r))) ?_
    simp [Misread, Overruns, ho, hoi, hr, or_comm]
  | resourceInstance i j k m =>
    obtain ⟨o, oi, r, b, ho, hoi, hr, hb⟩ := hexists
    refine .congr (.atObject ho (.atResourceInstance hoi hr hb
      (handlePutRequestBase_ending hpayload hw b.toM2MResourceBase))) ?_
    simp [Misread, Overruns, ho, hoi, hr, hb, or_comm]

theorem post_ending : Ending (fun objects' =>
    objects'.map (·.toNamedObject) = objects.map (·.toNamedObject))
      (Misread w objects request .post e ∨ Overruns w objects request .post e)
      (handlePostRequest w objects request granted e) := by
  cases e with
  | object i =>
    obtain ⟨o, ho⟩ := hexists
    refine .congr (.atObject ho (handlePostRequestObject_ending hpayload o)) ?_
    simp [Misread, Overruns]
  | objectInstance i j =>
    obtain ⟨o, oi, ho, hoi⟩ := hexists
    refine .congr (.atObject ho (.atObjectInstance hoi
      (handlePostRequestObjectInstance_ending hw hpayload oi _))) ?_
    simp [Misread, Overruns, ho, hoi]
  | resource i j k =>
    obtain ⟨o, oi, r, ho, hoi, hr⟩ := hexists
    refine .congr (.atObject ho (.atResource hoi hr (handlePostRequestResource_ending hw r))) ?_
    simp [Misread, Overruns]
  | resourceInstance i j k m => exact .kept rfl rfl (by simp [Misread, Overruns])

end Missing

theorem payloadHandled_iff (hw : w.Builds) (hexists : Entity.Exists objects e) (method : Method) :
    PayloadHandled w objects request method e ↔ ¬ Misread w objects request method e ∧
      (request.payloadPtr = none → ¬ Overruns w objects request method e) := by
  by_cases hpayload : request.payloadPtr = none
  · have hending : Ending (fun objects' =>
        objects'.map (·.toNamedObject) = objects.map (·.toNamedObject))
          (Misread w objects request method e ∨ Overruns w objects request method e)
          (handle w objects request granted method e) := by
      cases method with
      | get => exact get_ending hw hexists
      | put => exact put_ending hw hexists hpayload
      | post => exact post_ending hw hexists hpayload
    rw [PayloadHandled, hending.endsWell_iff, not_or, forall_prop_of_true hpayload,
      forall_prop_of_true hpayload]
  · exact iff_of_true (fun hc => absurd hc hpayload)
      ⟨fun hc => hpayload hc.payloadPtr, fun hc => absurd hc hpayload⟩

end Entities

section Bootstrap
variable {w : Surroundings} {request : CoapHeader} {s s' : NsdlInterface}

/-- The security object, or the one that is made if there is none, has its instance. -/
def SecurityWhole (s : NsdlInterface) : Prop := (constructSecurity s).securityObject.instances ≠ []

/-- Without a payload, the bootstrap PUT handler has nothing to parse, and answers with an error. -/
def BootstrapHandled (w : Surroundings) (request : CoapHeader) (s : NsdlInterface) : Prop :=
  request.payloadPtr = none →
    (∀ isSecurityObject s, parseBootstrapMessage request isSecurityObject s = some (false, s)) ∧
    (SecurityWhole s → ∃ s', handleBootstrapPutMessage w request s = some s') ∧
    ∀ s', handleBootstrapPutMessage w request s = some s' → Refused s s'

theorem parseBootstrapMessage_missing (hpayload : request.payloadPtr = none)
    (isSecurityObject : Bool)
    (s : NsdlInterface) : parseBootstrapMessage request isSecurityObject s = some (false, s) := by
  have hnothing (obj : M2MObject) (operation : Tlv.Operation) (h : Heap) :
      parseInto request obj operation h = some (false, obj, h) := by
    rw [parseInto, hpayload]
    rfl
  have hsame (security : M2MSecurity) : security.ofObject security.toObject = security := by
    rw [M2MSecurity.ofObject, M2MSecurity.toObject]
    obtain ⟨_, oi⟩ := security
    cases oi <;> rfl
  rw [parseBootstrapMessage]
  cases hs : s.security with
  | none => rfl
  | some security =>
    cases isSecurityObject <;>
      simp [hnothing, hsame, M2MServer.ofObject_toObject, ← hs]

theorem createResource_instances (security : M2MSecurity) (res : SecurityResource) (value : UInt32)
    (h : Heap) : (security.createResource res value h).2.1.toObject.instances = [] ↔
      security.toObject.instances = [] := by
  obtain ⟨serverType, oi⟩ := security
  cases oi with
  | none =>
    rw [M2MSecurity.createResource]
    split_ifs <;> exact Iff.rfl
  | some oi =>
    rw [M2MSecurity.createResource]
    dsimp only
    split_ifs <;> exact iff_of_false (List.cons_ne_nil _ _) (List.cons_ne_nil _ _)

theorem prepared_whole (hwhole : SecurityWhole s) (isSecurityObject : Bool) :
    ∃ p, prepared isSecurityObject s = some p ∧ p.securityObject.instances ≠ [] := by
  cases isSecurityObject with
  | false => exact ⟨_, rfl, hwhole⟩
  | true =>
    obtain ⟨⟨security, hs⟩, -⟩ := constructSecurity_spec s
    rw [SecurityWhole, securityObject_some hs] at hwhole
    have hcreated :=
      (createResource_instances security .shortServerID 1 (constructSecurity s).heap).not
    obtain ⟨hnil, -⟩ | ⟨-, security', hset, -⟩ := setOperations_cases
      (security.createResource .shortServerID 1 (constructSecurity s).heap).2.1 putAllowedOnly
    · exact absurd hnil (hcreated.mpr hwhole)
    · have hprepare : prepareSecurity (constructSecurity s) =
          some { constructSecurity s with
            security := some security'
            heap := (security.createResource .shortServerID 1
              (constructSecurity s).heap).2.2 } := by
        rw [prepareSecurity, hs]
        exact Option.bind_eq_some_iff.mpr ⟨security', hset, rfl⟩
      obtain ⟨oi, -, rfl⟩ := Option.map_eq_some_iff.mp hset
      exact ⟨_, hprepare, List.cons_ne_nil _ _⟩

/-- What the handler does without a payload. -/
theorem bootstrap_cases (hw : w.Builds) (hpayload : request.payloadPtr = none) (s : NsdlInterface) :
    (∃ s', handleBootstrapPutMessage w request s = some s' ∧ Refused s s') ∨
      ¬ SecurityWhole s ∧ handleBootstrapPutMessage w request s = none := by
  have hplain : ¬ PlainRecords request := by simp [PlainRecords, hpayload, Tlv.isType]
  have hinstance : ¬ Tlv.isType typeObjectInstance request.payloadPtr = true := by
    simp [hpayload, Tlv.isType]
  by_cases hroute : ∃ isSecurityObject, Routed request isSecurityObject
  · obtain ⟨isSecurityObject, hroute⟩ := hroute
    cases hp : prepared isSecurityObject s with
    | none =>
      refine .inr ⟨fun hwhole => ?_, ?_⟩
      · obtain ⟨p, hp', -⟩ := prepared_whole hwhole isSecurityObject
        cases hp.symm.trans hp'
      · rw [handleBootstrapPutMessage, bootstrapPut_routed hroute, hp]
        rfl
    | some p =>
      by_cases htlv : request.contentFormat.getD 0 = coapContentOmaTlvType
      · have hdefined : Defined request (p.object isSecurityObject) := fun hc => absurd hc hplain
        by_cases hinstances : p.securityObject.instances ≠ []
        · obtain ⟨s', ok, obj', hs', hdecoded⟩ :=
            handlePut_decoded hw hroute hp htlv hdefined hinstances
          exact .inl ⟨s', hs', (hdecoded.refused_iff hp).mpr fun htaken =>
            htaken.elim (fun hc => hinstance hc.1) fun hc => hplain hc.1⟩
        · refine .inr
            ⟨fun hwhole => ?_, handlePut_undefined w hroute hp htlv fun hc => hinstances hc.2⟩
          obtain ⟨p', hp', hinstances'⟩ := prepared_whole hwhole isSecurityObject
          cases hp.symm.trans hp'
          exact hinstances hinstances'
      · exact .inl (handlePut_refused hw hroute hp htlv)
  · exact .inl (handlePut_unrouted hw fun isSecurityObject hc => hroute ⟨_, hc⟩)

theorem bootstrap_handled (hw : w.Builds) (request : CoapHeader) (s : NsdlInterface) :
    BootstrapHandled w request s := by
  intro hpayload
  refine ⟨parseBootstrapMessage_missing hpayload, ?_⟩
  obtain ⟨s', hs', hrefused⟩ | ⟨hwhole, hnone⟩ := bootstrap_cases hw hpayload s
  · refine ⟨fun _ => ⟨s', hs'⟩, fun t ht => ?_⟩
    cases hs'.symm.trans ht
    exact hrefused
  · refine ⟨fun hc => absurd hc hwhole, fun t ht => ?_⟩
    cases hnone.symm.trans ht

end Bootstrap

/-- The request handlers and the bootstrap PUT handler. -/
theorem missingPayload_iff {w : Surroundings} (hw : w.Builds) {objects : List ObjectNode}
    {e : Entity}
    (hexists : Entity.Exists objects e) (method : Method) (request : CoapHeader)
    (s : NsdlInterface) :
    PayloadHandled w objects request method e ∧ BootstrapHandled w request s ↔
      ¬ Misread w objects request method e ∧
        (request.payloadPtr = none → ¬ Overruns w objects request method e) := by
  rw [payloadHandled_iff hw hexists, and_iff_left (bootstrap_handled hw request s)]

/-- A TLV request without a payload. -/
def tlvRequest (msgCode : MsgCode) : CoapHeader :=
  { plainRequest msgCode with contentFormat := some coapContentOmaTlvType }

/-- Object "3" with an instance that takes POSTs. -/
def postable : ObjectNode := ⟨⟨⟨[⟨0, []⟩]⟩, [0x33]⟩, fun _ => { operation := snGrsPostAllowed }⟩

theorem post_misread :
    ¬ PayloadHandled echo [postable] (tlvRequest .requestPost) .post (.objectInstance 0 0) := by
  intro h
  obtain ⟨x, hx, -⟩ := h rfl
  have hnone :
    handle echo [postable] (tlvRequest .requestPost) granted .post (.objectInstance 0 0) =
      none := rfl
  rw [hnone] at hx
  cases hx

theorem put_unread :
    PayloadHandled echo [postable] (tlvRequest .requestPut) .put (.objectInstance 0 0) ∧
    BootstrapHandled echo (tlvRequest .requestPut) freshInterface := by
  have hexists : Entity.Exists [postable] (.objectInstance 0 0) := ⟨postable, _, rfl, rfl⟩
  exact (missingPayload_iff echo_builds hexists _ _ _).mpr
    ⟨fun h => h, fun _ h => not_overlong rfl h⟩

end MbedClient.Nsdl
