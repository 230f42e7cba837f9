import MbedClient.Nsdl.Reply

/-! Requests to `resource_callback`, one after the other: each is answered with one message before
the callback returns. -/
namespace MbedClient.Nsdl
open Observe (Entity)
variable {w : Surroundings} {objects : List ObjectNode} {request : CoapHeader}

section Found
variable {path : Bytes}

def Entity.Exists (objects : List ObjectNode) : Entity → Prop
  | .object i => ∃ o, objects[i]? = some o
  | .objectInstance i j => ∃ o oi, objects[i]? = some o ∧ o.instances[j]? = some oi
  | .resource i j k => ∃ o oi r, objects[i]? = some o ∧ o.instances[j]? = some oi ∧
    oi.resources[k]? = some r
  | .resourceInstance i j k m => ∃ o oi r b, objects[i]? = some o ∧ o.instances[j]? = some oi ∧
    oi.resources[k]? = some r ∧ r.instances[m]? = some b

theorem findInResource_exists {i j k : Nat} {o : ObjectNode} {oi : M2MObjectInstance}
    {r : M2MResource} {e : Entity} (ho : objects[i]? = some o) (hoi : o.instances[j]? = some oi)
    (hr : oi.resources[k]? = some r) (h : findInResource path i j k o oi r = some e) :
    Entity.Exists objects e := by
  unfold findInResource at h
  split_ifs at h
  obtain ⟨⟨b, m⟩, hmem, h⟩ := List.exists_of_findSome?_eq_some h
  simp only at h
  split_ifs at h
  obtain rfl := Option.some.inj h
  exact ⟨o, oi, r, b, ho, hoi, hr, List.mem_zipIdx_iff_getElem?.mp hmem⟩

theorem findInObjectInstance_exists {i j : Nat} {o : ObjectNode} {oi : M2MObjectInstance}
    {e : Entity} (ho : objects[i]? = some o) (hoi : o.instances[j]? = some oi)
    (h : findInObjectInstance path i j o oi = some e) : Entity.Exists objects e := by
  obtain ⟨⟨r, k⟩, hmem, h⟩ := List.exists_of_findSome?_eq_some h
  have hr := List.mem_zipIdx_iff_getElem?.mp hmem
  simp only at h
  split_ifs at h
  · obtain rfl := Option.some.inj h
    exact ⟨o, oi, r, ho, hoi, hr⟩
  · exact findInResource_exists ho hoi hr h

theorem findInObject_exists {i : Nat} {o : ObjectNode} {e : Entity} (ho : objects[i]? = some o)
    (h : findInObject path i o = some e) : Entity.Exists objects e := by
  obtain ⟨⟨oi, j⟩, hmem, h⟩ := List.exists_of_findSome?_eq_some h
  have hoi := List.mem_zipIdx_iff_getElem?.mp hmem
  simp only at h
  split_ifs at h
  · obtain rfl := Option.some.inj h
    exact ⟨o, oi, ho, hoi⟩
  · exact findInObjectInstance_exists ho hoi h

theorem findResource_exists {e : Entity} (h : findResource path objects = some e) :
    Entity.Exists objects e := by
  obtain ⟨⟨o, i⟩, hmem, h⟩ := List.exists_of_findSome?_eq_some h
  have ho := List.mem_zipIdx_iff_getElem?.mp hmem
  simp only at h
  split_ifs at h
  · obtain rfl := Option.some.inj h
    exact ⟨o, ho⟩
  · exact findInObject_exists ho h

end Found

section Request

def TokensKept (objects : List ObjectNode) : Prop := ∀ o ∈ objects, o.TokensKept

/-- A POST to a resource with delayed response. -/
def Delays (objects : List ObjectNode) (request : CoapHeader) : Prop :=
  request.msgCode = .requestPost ∧ ∃ i j k o oi r,
    findResource (coapToString request.uriPath) objects = some (.resource i j k) ∧
    objects[i]? = some o ∧ o.instances[j]? = some oi ∧ oi.resources[k]? = some r ∧
    (o.params (.resource o.name oi.instanceId r.name)).delayedResponse = true

/-- A GET of the entity is one of more than the serializer has sizes for. -/
def Entity.Oversized (w : Surroundings) (objects : List ObjectNode) (request : CoapHeader) :
    Entity → Prop
  | .object i => ∃ o, objects[i]? = some o ∧
    Nsdl.Oversized w request o.own.operation o.own (.objectInstances o.instances)
  | .objectInstance i j => ∃ o oi, objects[i]? = some o ∧ o.instances[j]? = some oi ∧
    let p := o.params (.objectInstance o.name oi.instanceId)
    Nsdl.Oversized w request p.operation p (.resources oi.resources)
  | .resource i j k => ∃ o oi r, objects[i]? = some o ∧ o.instances[j]? = some oi ∧
    oi.resources[k]? = some r ∧ r.multipleInstance = true ∧ Nsdl.Oversized w request r.operation
      (o.params (.resource o.name oi.instanceId r.name)) (.resource r)
  | .resourceInstance .. => False

/-- A PUT with a query that is too long; a PUT to a value of the last block of a message that is too
large, or of a block that is not there; a GET of too much; a POST without a token to a resource that
answers later; a POST without a payload to an object instance. -/
def Unanswered (w : Surroundings) (objects : List ObjectNode) (request : CoapHeader) : Prop :=
  match findResource (coapToString request.uriPath) objects with
  | none => False
  | some e => (request.msgCode = .requestPut ∧ request.Overlong) ∨
    (request.msgCode = .requestGet ∧ Entity.Oversized w objects request e) ∨
    match e with
    | .object _ => False
    | .objectInstance i j => request.msgCode = .requestPost ∧ ∃ o oi,
      objects[i]? = some o ∧ o.instances[j]? = some oi ∧
      PayloadMissing request (o.params (.objectInstance o.name oi.instanceId))
    | .resource i j k => ∃ o oi r, objects[i]? = some o ∧ o.instances[j]? = some oi ∧
      oi.resources[k]? = some r ∧
      let p := o.params (.resource o.name oi.instanceId r.name)
      (request.msgCode = .requestPut ∧ r.multipleInstance = false ∧
        (LastBlockRefused w request r.toM2MResourceBase p ∨
          BlockMissing w request r.toM2MResourceBase p)) ∨
      (request.msgCode = .requestPost ∧ TokenMissing request r p)
    | .resourceInstance i j k m => request.msgCode = .requestPut ∧ ∃ o oi r b,
      objects[i]? = some o ∧ o.instances[j]? = some oi ∧ oi.resources[k]? = some r ∧
      r.instances[m]? = some b ∧
      let p := o.params (.resourceInstance o.name oi.instanceId r.name b.instanceId)
      LastBlockRefused w request b.toM2MResourceBase p ∨
        BlockMissing w request b.toM2MResourceBase p

theorem ObjectNode.TokensKept.removeObjectInstance {o : ObjectNode} (hk : o.TokensKept)
    (id : UInt16) : (o.removeObjectInstance id).2.TokensKept := by
  unfold ObjectNode.removeObjectInstance
  split
  · exact hk
  · exact hk

theorem TokensKept.set (hk : TokensKept objects) {i : Nat} {o : ObjectNode} (ho : o.TokensKept) :
    TokensKept (objects.set i o) := by
  intro o' ho'
  rcases List.mem_or_eq_of_mem_set ho' with hmem | rfl
  · exact hk o' hmem
  · exact ho

variable {delays unanswered : Prop} {i j k m : Nat} {o : ObjectNode} {oi : M2MObjectInstance}
  {r : M2MResource} {b : M2MResourceInstance}

theorem Spec.atObject {f : ObjectNode → Option (Handled ObjectNode)} (hk : TokensKept objects)
    (ho : objects[i]? = some o) (h : Spec request ObjectNode.TokensKept delays unanswered (f o)) :
    Spec request TokensKept delays unanswered (atObject objects i f) := by
  rw [Nsdl.atObject, ho, Option.bind_some]
  exact h.map fun _ => hk.set

theorem Spec.atObjectInstance {f : Identity → M2MObjectInstance → Params →
      Option (Handled (M2MObjectInstance × Params))}
    (hk : o.TokensKept) (hoi : o.instances[j]? = some oi)
    (h : Spec request (fun x : M2MObjectInstance × Params => x.2.TokenKept) delays unanswered
      (f (.objectInstance o.name oi.instanceId) oi
        (o.params (.objectInstance o.name oi.instanceId)))) :
    Spec request ObjectNode.TokensKept delays unanswered (o.atObjectInstance j f) := by
  rw [ObjectNode.atObjectInstance, hoi, Option.bind_some]
  exact h.map fun _ hx => (hk.grow _).setParams hx

theorem Spec.atResource {f : Identity → M2MResource → Params →
      Option (Handled (M2MResource × Params))}
    (hk : o.TokensKept) (hoi : o.instances[j]? = some oi) (hr : oi.resources[k]? = some r)
    (h : Spec request (fun x : M2MResource × Params => x.2.TokenKept) delays unanswered
      (f (.resource o.name oi.instanceId r.name) r
        (o.params (.resource o.name oi.instanceId r.name)))) :
    Spec request ObjectNode.TokensKept delays unanswered (o.atResource j k f) := by
  rw [ObjectNode.atResource, hoi, Option.bind_some, hr, Option.bind_some]
  exact h.map fun _ hx => (hk.grow _).setParams hx

theorem Spec.atResourceInstance {f : Identity → M2MResourceBase → Params →
      Option (Handled (M2MResourceBase × Params))}
    (hk : o.TokensKept) (hoi : o.instances[j]? = some oi) (hr : oi.resources[k]? = some r)
    (hb : r.instances[m]? = some b)
    (h : Spec request (fun x : M2MResourceBase × Params => x.2.TokenKept) delays unanswered
      (f (.resourceInstance o.name oi.instanceId r.name b.instanceId) b.toM2MResourceBase
        (o.params (.resourceInstance o.name oi.instanceId r.name b.instanceId)))) :
    Spec request ObjectNode.TokensKept delays unanswered (o.atResourceInstance j k m f) := by
  rw [ObjectNode.atResourceInstance, hoi, Option.bind_some, hr, Option.bind_some, hb,
    Option.bind_some]
  exact h.map fun _ hx => (hk.grow _).setParams hx

/-- What a request comes to: one message, or none if it is one that is not answered. -/
structure Settled (w : Surroundings) (objects : List ObjectNode) (request : CoapHeader) :
    Prop where
  replies : ¬Unanswered w objects request → ∃ outcome,
    resourceCallback w objects request granted = some outcome ∧
      Replies request (Delays objects request) outcome.sent ∧ TokensKept outcome.entity
  silent : Unanswered w objects request → ∀ outcome,
    resourceCallback w objects request granted = some outcome → outcome.sent = []

theorem resourceCallback_of_response {msgCode : MsgCode} {x : Handled (List ObjectNode)}
    {response : Response} (hrequest : handleRequest w objects request granted = some (msgCode, x))
    (hresponse : x.response = some response) : resourceCallback w objects request granted =
      some { x with sent := x.sent ++ sendResponse x.response } := by
  rw [resourceCallback, hrequest]
  simp [hresponse]

theorem settled_of_spec {msgCode : MsgCode} {handled : Option (Handled (List ObjectNode))}
    (hrequest : handleRequest w objects request granted = handled.map (msgCode, ·))
    (h : Spec request TokensKept (Delays objects request) (Unanswered w objects request) handled) :
    Settled w objects request where
  replies hok := by
    obtain ⟨x, rfl, hsome, hreplies, hkept⟩ := h.served hok
    obtain ⟨response, hresponse⟩ := Option.isSome_iff_exists.mp hsome
    exact ⟨_, resourceCallback_of_response hrequest hresponse, hreplies, hkept⟩
  silent hbad outcome houtcome := by
    cases handled with
    | none =>
      rw [resourceCallback, hrequest] at houtcome
      cases houtcome
    | some x =>
      obtain ⟨hsome, hsent⟩ := h.unserved hbad x rfl
      obtain ⟨response, hresponse⟩ := Option.isSome_iff_exists.mp hsome
      rw [resourceCallback_of_response hrequest hresponse] at houtcome
      obtain rfl := Option.some.inj houtcome
      exact hsent

/-- `resource_callback` builds the response. -/
theorem settled_of_unhandled (hw : w.Builds) {msgCode : MsgCode} {objects' : List ObjectNode}
    (hrequest : handleRequest w objects request granted =
      some (msgCode, unhandled granted objects'))
    (hcode : msgCode ≠ .empty) (hk : TokensKept objects')
    (hanswered : ¬Unanswered w objects request) : Settled w objects request where
  replies _ := by
    obtain ⟨response, hresponse, htoken, hstatus⟩ := built hw request msgCode
    have hanswers : Answers request (some response) :=
      .of htoken hstatus (by rwa [(hw.asked _ _ _ hresponse).1])
    rw [resourceCallback, hrequest]
    refine ⟨_, rfl, ?_, hk⟩
    simpa [unhandled, hresponse] using (hanswers.replies (Delays objects request)).2
  silent hc := absurd hc hanswered

variable {e : Entity}

theorem settled_get (hw : w.Builds) (hk : TokensKept objects) (hget : request.msgCode = .requestGet)
    (hfound : findResource (coapToString request.uriPath) objects = some e) :
    Settled w objects request := by
  have hrequest : handleRequest w objects request granted =
      (handleGetRequest w objects request granted e).map (.changed, ·) := by
    simp only [handleRequest, hfound, hget]
  refine settled_of_spec hrequest ?_
  have hexists := findResource_exists hfound
  cases e with
  | object i =>
    obtain ⟨o, ho⟩ := hexists
    have hko := hk o (List.mem_of_getElem? ho)
    exact .congr Iff.rfl (by simp [Unanswered, Entity.Oversized, hfound, hget, ho])
      (.atObject hk ho (handleGetRequestObject_spec hw hko _))
  | objectInstance i j =>
    obtain ⟨o, oi, ho, hoi⟩ := hexists
    have hko := hk o (List.mem_of_getElem? ho)
    exact .congr Iff.rfl (by simp [Unanswered, Entity.Oversized, hfound, hget, ho, hoi])
      (.atObject hk ho
      (.atObjectInstance hko hoi (handleGetRequestObjectInstance_spec hw (hko _) oi _)))
  | resource i j k =>
    obtain ⟨o, oi, r, ho, hoi, hr⟩ := hexists
    have hko := hk o (List.mem_of_getElem? ho)
    exact .congr Iff.rfl (by simp [Unanswered, Entity.Oversized, hfound, hget, ho, hoi, hr])
      (.atObject hk ho
      (.atResource hko hoi hr (handleGetRequestResource_spec hw (hko _) r _)))
  | resourceInstance i j k m =>
    obtain ⟨o, oi, r, b, ho, hoi, hr, hb⟩ := hexists
    have hko := hk o (List.mem_of_getElem? ho)
    have hanswered : ¬Unanswered w objects request := by
      simp [Unanswered, Entity.Oversized, hfound, hget]
    exact Spec.of_not (.atObject hk ho (.atResourceInstance hko hoi hr hb
      ((handleGetRequestBase_answers hw _ _ _).spec rfl (hko _) _))) hanswered

theorem settled_put (hw : w.Builds) (hwhole : request.Whole) (hk : TokensKept objects)
    (hput : request.msgCode = .requestPut)
    (hfound : findResource (coapToString request.uriPath) objects = some e) :
    Settled w objects request := by
  have hrequest : handleRequest w objects request granted =
      (handlePutRequest w objects request granted e).map (.changed, ·) := by
    simp only [handleRequest, hfound, hput]
  refine settled_of_spec hrequest ?_
  have hexists := findResource_exists hfound
  cases e with
  | object i =>
    obtain ⟨o, ho⟩ := hexists
    have hko := hk o (List.mem_of_getElem? ho)
    exact .congr Iff.rfl (by simp [Unanswered, hfound, hput])
      (.atObject hk ho (handlePutRequestObject_spec hw hko _))
  | objectInstance i j =>
    obtain ⟨o, oi, ho, hoi⟩ := hexists
    have hko := hk o (List.mem_of_getElem? ho)
    exact .congr Iff.rfl (by simp [Unanswered, hfound, hput]) (.atObject hk ho
      (.atObjectInstance hko hoi (handlePutRequestObjectInstance_spec hw (hko _) _ oi _)))
  | resource i j k =>
    obtain ⟨o, oi, r, ho, hoi, hr⟩ := hexists
    have hko := hk o (List.mem_of_getElem? ho)
    exact .congr Iff.rfl (by simp [Unanswered, hfound, hput, ho, hoi, hr]) (.atObject hk ho
      (.atResource hko hoi hr (handlePutRequestResource_spec hw hwhole (hko _) _ r _)))
  | resourceInstance i j k m =>
    obtain ⟨o, oi, r, b, ho, hoi, hr, hb⟩ := hexists
    have hko := hk o (List.mem_of_getElem? ho)
    exact .congr Iff.rfl (by simp [Unanswered, hfound, hput, ho, hoi, hr, hb]) (.atObject hk ho
      (.atResourceInstance hko hoi hr hb (handlePutRequestBase_spec hw hwhole (hko _) _ _ _)))

theorem settled_post (hw : w.Builds) (hk : TokensKept objects)
    (hpost : request.msgCode = .requestPost)
    (hfound : findResource (coapToString request.uriPath) objects = some e) :
    Settled w objects request := by
  have hrequest : handleRequest w objects request granted =
      (handlePostRequest w objects request granted e).map
        ((if e.baseType = .resourceInstance then .badRequest else .changed), ·) := by
    simp only [handleRequest, hfound, hpost]
  have hexists := findResource_exists hfound
  cases e with
  | object i =>
    obtain ⟨o, ho⟩ := hexists
    have hko := hk o (List.mem_of_getElem? ho)
    have hanswered : ¬Unanswered w objects request := by simp [Unanswered, hfound, hpost]
    exact settled_of_spec hrequest (Spec.of_not
      (.atObject hk ho (handlePostRequestObject_spec hw hko _)) hanswered)
  | objectInstance i j =>
    obtain ⟨o, oi, ho, hoi⟩ := hexists
    have hko := hk o (List.mem_of_getElem? ho)
    exact settled_of_spec hrequest (.congr Iff.rfl (by simp [Unanswered, hfound, hpost, ho, hoi])
      (.atObject hk ho (.atObjectInstance hko hoi
        (handlePostRequestObjectInstance_spec hw (hko _) oi _ _))))
  | resource i j k =>
    obtain ⟨o, oi, r, ho, hoi, hr⟩ := hexists
    have hko := hk o (List.mem_of_getElem? ho)
    have hdelays : (o.params (.resource o.name oi.instanceId r.name)).delayedResponse = true ↔
        Delays objects request := by
      constructor
      · exact fun hd => ⟨hpost, i, j, k, o, oi, r, hfound, ho, hoi, hr, hd⟩
      · rintro ⟨-, i', j', k', o', oi', r', hfound', ho', hoi', hr', hd⟩
        obtain ⟨rfl, rfl, rfl⟩ : i' = i ∧ j' = j ∧ k' = k := by simpa [hfound] using hfound'.symm
        obtain rfl := Option.some.inj (ho'.symm.trans ho)
        obtain rfl := Option.some.inj (hoi'.symm.trans hoi)
        obtain rfl := Option.some.inj (hr'.symm.trans hr)
        exact hd
    exact settled_of_spec hrequest (.congr hdelays
      (by simp [Unanswered, hfound, hpost, ho, hoi, hr])
      (.atObject hk ho (.atResource hko hoi hr (handlePostRequestResource_spec hw (hko _) r))))
  | resourceInstance i j k m =>
    have hanswered : ¬Unanswered w objects request := by simp [Unanswered, hfound, hpost]
    exact settled_of_unhandled hw hrequest (by simp [Entity.baseType]) hk hanswered

theorem settled_delete (hw : w.Builds) (hk : TokensKept objects)
    (hdelete : request.msgCode = .requestDelete)
    (hfound : findResource (coapToString request.uriPath) objects = some e) :
    Settled w objects request := by
  have hanswered : ¬Unanswered w objects request := by
    unfold Unanswered
    rw [hfound, hdelete]
    cases e <;> simp
  have hrequest : handleRequest w objects request granted =
      (handleDelete objects (coapToString request.uriPath) e).map fun handled =>
        (handled.1, unhandled granted handled.2) := by
    simp only [handleRequest, hfound, hdelete]
  by_cases hkind : e.baseType = .objectInstance
  · cases e with
    | objectInstance i j =>
      obtain ⟨o, oi, ho, hoi⟩ := findResource_exists hfound
      have hko := hk o (List.mem_of_getElem? ho)
      simp only [handleDelete, ho, hoi, findResource_self hfound ho hoi, Option.bind_eq_bind,
        Option.bind_some] at hrequest
      cases hsegment : lastSegment (coapToString request.uriPath) with
      | none =>
        rw [hsegment] at hrequest
        exact settled_of_unhandled hw hrequest (by simp) hk hanswered
      | some segment =>
        have hremoved := hko.removeObjectInstance (UInt16.ofNat (strtoul segment))
        rw [hsegment] at hrequest
        cases hsuccess : (o.removeObjectInstance (UInt16.ofNat (strtoul segment))).1 with
        | true =>
          simp only [hsuccess, if_true, Option.map_some] at hrequest
          exact settled_of_unhandled hw hrequest (by simp) (hk.set hremoved) hanswered
        | false =>
          simp only [hsuccess, Bool.false_eq_true, if_false, Option.map_some] at hrequest
          exact settled_of_unhandled hw hrequest (by simp) hk hanswered
    | _ => simp [Entity.baseType] at hkind
  · rw [handleDelete_other hkind] at hrequest
    exact settled_of_unhandled hw hrequest (by simp) hk hanswered

def CoapHeader.IsRequest (request : CoapHeader) : Prop :=
  request.msgCode = .requestGet ∨ request.msgCode = .requestPut ∨ request.msgCode = .requestPost ∨
    request.msgCode = .requestDelete

theorem settled (hw : w.Builds) (hwhole : request.Whole) (hcode : request.IsRequest)
    (hk : TokensKept objects) : Settled w objects request := by
  cases hfound : findResource (coapToString request.uriPath) objects with
  | none =>
    have hanswered : ¬Unanswered w objects request := by simp [Unanswered, hfound]
    have hrequest : handleRequest w objects request granted =
        some (.badRequest, unhandled granted objects) := by
      simp only [handleRequest, hfound]
    exact settled_of_unhandled hw hrequest (by simp) hk hanswered
  | some e =>
    rcases hcode with hget | hput | hpost | hdelete
    · exact settled_get hw hk hget hfound
    · exact settled_put hw hwhole hk hput hfound
    · exact settled_post hw hk hpost hfound
    · exact settled_delete hw hk hdelete hfound

end Request

section Run

/-- A request that `resource_callback` is given, with the CoAP library of that moment. -/
structure Exchange where
  surroundings : Surroundings
  builds : surroundings.Builds
  request : CoapHeader
  isRequest : request.IsRequest
  whole : request.Whole

/-- What the application may do to the objects between two requests: every entity has the token it
had, or is new. -/
structure ApplicationCall where
  change : List ObjectNode → List ObjectNode
  keeps : ∀ objects, ∀ o' ∈ change objects, ∀ n, (o'.params n).lastPost = none ∨
    ∃ o ∈ objects, ∃ m, (o'.params n).lastPost = (o.params m).lastPost ∧
      (o'.params n).delayedToken = (o.params m).delayedToken

inductive Event where
  | request (e : Exchange)
  | application (a : ApplicationCall)

/-- The objects, and if the last event was a request the objects it found and all that was sent
before the callback returned, if it did. -/
structure Session where
  objects : List ObjectNode
  reply : Option (Exchange × List ObjectNode × Option (List Response)) := none

def Session.step : Event → Session → Session
  | .request e, s =>
    match resourceCallback e.surroundings s.objects e.request granted with
    | none => { objects := s.objects, reply := some (e, s.objects, none) }
    | some outcome =>
      { objects := outcome.entity, reply := some (e, s.objects, some outcome.sent) }
  | .application a, s => { objects := a.change s.objects }

/-- The last request has been answered with one message, and every delayed token is that of the last
POST. -/
structure Session.Answered (s : Session) : Prop where
  tokens : TokensKept s.objects
  reply : ∀ e before sent?, s.reply = some (e, before, sent?) →
    ∃ sent, sent? = some sent ∧ Replies e.request (Delays before e.request) sent

/-- A request is one that is answered. -/
def Event.Answerable : Event → Session → Prop
  | .request e, s => ¬Unanswered e.surroundings s.objects e.request
  | .application _, _ => True

theorem ApplicationCall.tokensKept (a : ApplicationCall) {objects : List ObjectNode}
    (hk : TokensKept objects) : TokensKept (a.change objects) := by
  intro o' ho' n
  rcases a.keeps objects o' ho' n with hnone | ⟨o, ho, m, hlast, htoken⟩
  · exact tokenKept_new hnone
  · exact (hk o ho m).congr hlast htoken

theorem Session.Answered.answered_step {s : Session} (hs : s.Answered) (v : Event) :
    (Session.step v s).Answered ↔ v.Answerable s := by
  cases v with
  | application a =>
    exact iff_of_true ⟨a.tokensKept hs.tokens, fun _ _ _ h => nomatch h⟩ trivial
  | request e =>
    have hsettled := settled e.builds e.whole e.isRequest hs.tokens
    by_cases hbad : Unanswered e.surroundings s.objects e.request
    · refine iff_of_false (fun hc => ?_) (not_not.mpr hbad)
      cases houtcome : resourceCallback e.surroundings s.objects e.request granted with
      | none =>
        obtain ⟨sent, hsent, -⟩ := hc.reply e s.objects none (by simp only [Session.step, houtcome])
        cases hsent
      | some outcome =>
        obtain ⟨sent, hsent, r, hr, -⟩ := hc.reply e s.objects (some outcome.sent)
          (by simp only [Session.step, houtcome])
        obtain rfl := Option.some.inj hsent
        rw [hsettled.silent hbad outcome houtcome] at hr
        cases hr
    · refine iff_of_true ?_ hbad
      obtain ⟨outcome, houtcome, hreplies, hkept⟩ := hsettled.replies hbad
      have hstep : Session.step (.request e) s =
          ⟨outcome.entity, some (e, s.objects, some outcome.sent)⟩ := by
        simp only [Session.step, houtcome]
      rw [hstep]
      refine ⟨hkept, fun _ _ _ h => ?_⟩
      cases h
      exact ⟨_, rfl, hreplies⟩

/-- Object "3" with a resource "4" in instance 0 that may be executed and answers later. -/
def delayed : ObjectNode where
  name := [0x33]
  instances := [⟨0, [⟨⟨.dynamic, snGrsPostAllowed, .string, []⟩, [0x34], false, []⟩]⟩]
  params _ := { delayedResponse := true }

/-- A POST of "3/0/4". -/
def execute (token : Bytes) : CoapHeader :=
  { plainRequest .requestPost with token, uriPath := some [0x33, 0x2F, 0x30, 0x2F, 0x34] }

theorem echo_builds : echo.Builds where
  asked := echo_buildsAsked
  built _ _ := ⟨_, rfl, rfl⟩

def executeWith (token : Bytes) : Event :=
  .request ⟨echo, echo_builds, execute token, .inr (.inr (.inl rfl)), fun _ h => nomatch h⟩

theorem delayed_tokensKept : TokensKept [delayed] := by
  intro o ho n
  obtain rfl := List.mem_singleton.mp ho
  exact tokenKept_new rfl

theorem execute_unanswered : Unanswered echo [delayed] (execute []) := by
  have hfound : findResource (coapToString (execute []).uriPath) [delayed] =
      some (.resource 0 0 0) := by
    decide +kernel
  rw [Unanswered, hfound]
  exact .inr (.inr ⟨delayed, _, _, rfl, rfl, rfl, .inr ⟨rfl, by decide, by decide, rfl, rfl⟩⟩)

end Run
end MbedClient.Nsdl
