import MbedClient.Nsdl.Record

/-! A resource under any sequence of requests to the object list: it is a register, which the PUTs
to its own path write and a GET reads, whatever else is requested in between. -/
namespace MbedClient.Nsdl
open Observe (Entity)
variable {objects : List ObjectNode} {n : Place}

/-- A request with the CoAP library and the allocator of that moment. -/
structure Arrival where
  surroundings : Surroundings
  request : CoapHeader
  heap : Heap

/-! What a handler leaves of an entity, if it comes to an end. -/
section After
variable {α β : Type}

def After (Q : α → Prop) (handled : Option (Handled α)) : Prop := ∀ x, handled = some x → Q x.entity

variable {P : α → Prop} {Q : β → Prop} {handled : Option (Handled α)}

theorem after_some {x : Handled α} (h : P x.entity) : After P (some x) := by
  intro y hy
  obtain rfl := Option.some.inj hy
  exact h

theorem after_none : After P none := by
  intro y hy
  cases hy

theorem after_map {γ : Type} {s : Option γ} {f : γ → Handled α} (h : ∀ c, P (f c).entity) :
    After P (s.map f) := by
  intro y hy
  obtain ⟨c, -, rfl⟩ := Option.map_eq_some_iff.mp hy
  exact h c

theorem After.map (h : After P handled) {f : α → β} (hf : ∀ a, P a → Q (f a)) :
    After Q (handled.map (·.map f)) := by
  intro y hy
  obtain ⟨x, hx, rfl⟩ := Option.map_eq_some_iff.mp hy
  exact hf _ (h x hx)

structure Untouched (n : Place) (objects objects' : List ObjectNode) : Prop where
  held : ∀ x, held? objects n = some x → held? objects' n = some x
  named : Named objects → Named objects'

theorem Untouched.refl (n : Place) (objects : List ObjectNode) : Untouched n objects objects :=
  ⟨fun _ h => h, id⟩

theorem Spares.untouched {i : Nat} {o o' : ObjectNode} (h : Spares n o o')
    (ho : objects[i]? = some o) : Untouched n objects (objects.set i o') :=
  ⟨fun _ hx => held_of_spares ho h hx, fun hn => named_of_spares ho h hn⟩

variable {i j k m : Nat} {o : ObjectNode} {oi : M2MObjectInstance} {r : M2MResource}
  {b : M2MResourceInstance}

theorem after_atObject {f : ObjectNode → Option (Handled ObjectNode)} (ho : objects[i]? = some o)
    (h : After (Spares n o) (f o)) : After (Untouched n objects) (atObject objects i f) := by
  rw [atObject, ho, Option.bind_some]
  exact h.map fun _ hspares => hspares.untouched ho

/-- An instance without the resource, or that is left as it is. -/
theorem after_atObjectInstance
    {f : Identity → M2MObjectInstance → Params → Option (Handled (M2MObjectInstance × Params))}
    (hoi : o.instances[j]? = some oi)
    (h : After (fun y : M2MObjectInstance × Params => y.1.instanceId = oi.instanceId ∧
        (oi.Named → y.1.Named) ∧ (o.name = n.object → oi.instanceId = n.id → y.1 = oi))
      (f (.objectInstance o.name oi.instanceId) oi
        (o.params (.objectInstance o.name oi.instanceId)))) :
    After (Spares n o) (o.atObjectInstance j f) := by
  rw [ObjectNode.atObjectInstance, hoi, Option.bind_some]
  refine h.map fun y hy => ?_
  obtain ⟨hid, hnamed, hkept⟩ := hy
  refine Spares.trans (spares_grow (fun hname x hx => ?_) fun hn => ?_)
    (spares_setParams (by simp [Place.identity]) y.2)
  · refine record_set hoi hid (fun hid' z hz => ?_) hx
    rw [hkept hname hid']
    exact hz
  · exact hn.set (hnamed (hn oi (List.mem_of_getElem? hoi))) j

theorem after_atResource
    {f : Identity → M2MResource → Params → Option (Handled (M2MResource × Params))}
    (hoi : o.instances[j]? = some oi) (hr : oi.resources[k]? = some r)
    (hne : Identity.resource o.name oi.instanceId r.name ≠ n.identity)
    (h : After (fun y : M2MResource × Params => y.1.name = r.name)
      (f (.resource o.name oi.instanceId r.name) r
        (o.params (.resource o.name oi.instanceId r.name)))) :
    After (Spares n o) (o.atResource j k f) := by
  rw [ObjectNode.atResource, hoi, Option.bind_some, hr, Option.bind_some]
  refine h.map fun y hy => ?_
  refine Spares.trans (spares_grow (fun hname x hx => ?_) fun hn => ?_) (spares_setParams hne y.2)
  · refine record_set hoi rfl (fun hid z hz => record_setResource hr hy (fun hresource => ?_) hz) hx
    exact absurd (by rw [Place.identity, hname, hid, hresource]) hne
  · exact hn.set ((hn oi (List.mem_of_getElem? hoi)).set hr hy) j

/-- The instances of a resource are not part of what is held for it. -/
theorem after_atResourceInstance
    (f : Identity → M2MResourceBase → Params → Option (Handled (M2MResourceBase × Params)))
    (hoi : o.instances[j]? = some oi) (hr : oi.resources[k]? = some r)
    (hb : r.instances[m]? = some b) : After (Spares n o) (o.atResourceInstance j k m f) := by
  rw [ObjectNode.atResourceInstance, hoi, Option.bind_some, hr, Option.bind_some, hb,
    Option.bind_some]
  have htrue : After (fun _ : M2MResourceBase × Params => True)
      (f (.resourceInstance o.name oi.instanceId r.name b.instanceId) b.toM2MResourceBase
        (o.params (.resourceInstance o.name oi.instanceId r.name b.instanceId))) :=
    fun _ _ => trivial
  refine htrue.map fun y _ => ?_
  refine Spares.trans (spares_grow (fun _ x hx => ?_) fun hn => ?_)
    (spares_setParams (by simp [Place.identity]) y.2)
  · refine record_set hoi rfl (fun _ z hz => ?_) hx
    exact record_setResource hr rfl (fun _ => ⟨rfl, rfl⟩) hz
  · have hname : ({ r with instances := r.instances.set m { b with toM2MResourceBase := y.1 } } :
        M2MResource).name = r.name := rfl
    exact hn.set ((hn oi (List.mem_of_getElem? hoi)).set hr hname) j

end After

section Handlers
variable {w : Surroundings} {request : CoapHeader} {m : Identity} {p : Params} {h : Heap}
  {oi : M2MObjectInstance} {r : M2MResource} {o : ObjectNode}

theorem handlePutRequestObjectInstance_kept : After (fun y : M2MObjectInstance × Params =>
    y.1.instanceId = oi.instanceId ∧ (oi.Named → y.1.Named))
    (handlePutRequestObjectInstance w m request oi p h) := by
  have hsame : oi.instanceId = oi.instanceId ∧ (oi.Named → oi.Named) := ⟨rfl, fun hn => hn⟩
  rw [handlePutRequestObjectInstance]
  cases request.uriQuery with
  | some query => exact after_map fun _ => hsame
  | none =>
    dsimp only
    split_ifs
    · cases request.payloadPtr with
      | none => exact after_some hsame
      | some payload =>
        exact after_some
          (Tlv.deserializeResources_kept request.payloadLen.toNat .put (some payload) ⟨h, []⟩ oi)
    · exact after_some hsame
    · exact after_some hsame

theorem handlePostRequestObjectInstance_kept {parent : Bytes} :
    After (fun y : M2MObjectInstance × Params =>
      y.1.instanceId = oi.instanceId ∧ (oi.Named → y.1.Named))
      (handlePostRequestObjectInstance w request oi p h parent) := by
  rw [handlePostRequestObjectInstance]
  dsimp only
  have hdecoded := Tlv.deserializeResources_kept request.payloadLen.toNat .post request.payloadPtr
    ⟨h, []⟩ oi
  have hsame : oi.instanceId = oi.instanceId ∧ (oi.Named → oi.Named) := ⟨rfl, fun hn => hn⟩
  by_cases hallowed : p.operation &&& snGrsPostAllowed ≠ 0
  · rw [if_pos hallowed]
    by_cases htype : request.contentType (w.buildResponse request .changed).isSome
        p.coapContentType = coapContentOmaTlvType
    · rw [if_pos htype]
      cases tlvInstanceId request.payloadPtr with
      | none => exact after_none
      | some id =>
        dsimp only
        cases w.buildResponse request .changed with
        | none =>
          dsimp only
          split_ifs
          · exact after_none
          · exact after_some hdecoded
          · exact after_some hdecoded
        | some response =>
          dsimp only
          split_ifs
          · split <;> exact after_some hdecoded
          · split <;> exact after_some hdecoded
          · exact after_some hdecoded
          · exact after_some hdecoded
          · exact after_some hdecoded
    · rw [if_neg htype]
      exact after_some hsame
  · rw [if_neg hallowed]
    exact after_some hsame

theorem handlePutRequestResource_name : After (fun y : M2MResource × Params => y.1.name = r.name)
    (handlePutRequestResource w m request r p h) := by
  have hdecoded := Tlv.deserializeResourceInstances_kept request.payloadLen.toNat .put
    request.payloadPtr ⟨h, []⟩ r
  have hsame : r.name = r.name := rfl
  rw [handlePutRequestResource]
  by_cases hmultiple : r.multipleInstance = true
  · rw [if_pos hmultiple]
    cases request.uriQuery with
    | some query => exact after_map fun _ => hsame
    | none =>
      dsimp only
      split_ifs
      all_goals first
        | exact after_some hdecoded
        | exact after_some hsame
  · rw [if_neg hmultiple]
    exact after_map fun _ => hsame

theorem handleGetRequestResource_kept : After (fun y : M2MResource × Params =>
    y.1 = r ∧ y.2.blockMessage = p.blockMessage) (handleGetRequestResource w request r p h) := by
  have hsame : r = r ∧ p.blockMessage = p.blockMessage := ⟨rfl, rfl⟩
  rw [handleGetRequestResource]
  split_ifs
  · exact after_some hsame
  · cases w.buildResponse request .content with
    | none => exact after_some hsame
    | some response =>
      refine after_map fun _ => ⟨rfl, ?_⟩
      dsimp only
      split_ifs <;> rfl
  · exact after_some hsame

theorem handlePostRequestResource_kept : After (fun y : M2MResource × Params =>
    y.1 = r ∧ y.2.blockMessage = p.blockMessage) (handlePostRequestResource w request r p h) := by
  have hsame : r = r ∧ p.blockMessage = p.blockMessage := ⟨rfl, rfl⟩
  rw [handlePostRequestResource]
  cases w.buildResponse request .changed with
  | none =>
    dsimp only
    split_ifs
    · exact after_some hsame
    · exact after_none
    · exact after_some hsame
  | some response =>
    dsimp only
    split_ifs <;> exact after_some hsame

/-- The decoder of a POST, if it gets an object of another name, or resources for an instance that
is still empty. -/
theorem deserializePost_spares {data : Nat → UInt8} {created : Bool} (h : Heap)
    (hother : o.name = n.object → Tlv.isType typeObjectInstance (some data) = false)
    (hempty : created = true → ∀ oi, o.instances.getLast? = some oi → oi.resources = []) :
    Spares n o (deserializePost request o data created h).2.1 := by
  rw [deserializePost]
  dsimp only
  by_cases hobject : Tlv.isType typeObjectInstance (some data) = true
  · rw [if_pos hobject]
    refine spares_grow (fun hname => absurd (hother hname) (by simp [hobject])) fun hn => ?_
    exact Tlv.deserialiseObjectInstances_kept request.payloadLen.toNat .post (some data) ⟨h, []⟩ hn
  · rw [if_neg hobject]
    cases hlast : o.instances.getLast?.filter fun _ => created with
    | none => exact .refl n o
    | some oi =>
      obtain ⟨hoi, hcreated⟩ := Option.filter_eq_some_iff.mp hlast
      dsimp only
      split_ifs
      · obtain ⟨hid, hnamed⟩ := Tlv.deserializeResources_kept request.payloadLen.toNat .post
          (some data) ⟨h, []⟩ oi
        generalize (Tlv.deserializeResources (some data) request.payloadLen.toNat .post
          (oi, ⟨h, []⟩)).2.1 = oi' at hid hnamed
        obtain ⟨init, hinit⟩ := List.getLast?_eq_some_iff.mp hoi
        have hget : o.instances[init.length]? = some oi := by simp [hinit]
        have hset : o.instances.dropLast ++ [oi'] = o.instances.set init.length oi' := by
          simp [hinit]
        rw [hset]
        refine spares_grow (fun _ x hx => record_set hget hid (fun _ y hy => ?_) hx) fun hn => ?_
        · simp [M2MObjectInstance.record?, hempty hcreated oi hoi] at hy
        · exact hn.set (hnamed (hn oi (List.mem_of_getElem? hget))) init.length
      · exact .refl n o

theorem decoded_spares {data : Nat → UInt8} (id : UInt16) (h : Heap)
    (hother : o.name = n.object → Tlv.isType typeObjectInstance (some data) = false) :
    Spares n o (decoded request o data id h).2.1 := by
  rw [decoded, ObjectNode.createObjectInstance]
  by_cases hfree : (o.objectInstance id).isNone = true
  · rw [if_pos hfree]
    dsimp only
    by_cases hcreated : h.newNode.1 = true
    · rw [if_pos hcreated]
      dsimp only
      rw [if_pos rfl]
      have hgrown : Spares n o (o.grow { instances := o.instances ++ [⟨id, []⟩] }) := by
        refine spares_grow (fun _ y hy => Search.held_append hy) fun hn oi hoi => ?_
        rcases List.mem_append.mp hoi with hmem | hmem
        · exact hn oi hmem
        · rw [List.mem_singleton.mp hmem]
          exact fun r hr => absurd hr List.not_mem_nil
      have hne : Identity.objectInstance o.name id ≠ n.identity := by simp [Place.identity]
      refine (hgrown.trans ((spares_setParams hne _).trans (spares_setParams hne _))).trans
        (deserializePost_spares _ hother fun _ oi hoi => ?_)
      simp [ObjectNode.setParams, ObjectNode.grow] at hoi
      rw [← hoi]
    · rw [if_neg hcreated]
      dsimp only
      rw [if_neg (by simp)]
      exact deserializePost_spares _ hother (by simp)
  · rw [if_neg hfree]
    dsimp only
    rw [if_neg (by simp)]
    exact deserializePost_spares _ hother (by simp)

theorem handlePostRequestObject_spares (hother : o.name = n.object → ∀ data,
      request.payloadPtr = some data → Tlv.isType typeObjectInstance (some data) = false) :
    After (Spares n o) (handlePostRequestObject w request o h) := by
  cases hp : posted w request o with
  | none =>
    obtain ⟨msgCode, -, hrefused⟩ := post_refused (h := h) hp
    rw [hrefused]
    exact after_some (.refl n o)
  | some p =>
    obtain ⟨data, id⟩ := p
    obtain ⟨hdata, -⟩ := posted_some hp
    have hspares : Spares n o (decoded request o data id h).2.1 :=
      decoded_spares id h fun hname => hother hname data hdata
    rw [post_run hp]
    dsimp only
    by_cases hnone : (decoded request o data id h).1 = .none
    · rw [if_pos hnone]
      cases w.buildResponse request .changed with
      | none => exact after_none
      | some response => exact after_some hspares
    · rw [if_neg hnone]
      exact after_some hspares

end Handlers

section Delete

theorem strtoul_shortIdText (id : UInt16) : UInt16.ofNat (strtoul (shortIdText id)) =
    if id.toNat < 10000 then id else 0 := by
  unfold shortIdText
  split_ifs
  · rw [strtoul_idText, UInt16.ofNat_toNat]
  · rfl

theorem removeObjectInstance_spares {o : ObjectNode} {id : UInt16}
    (hid : o.name = n.object → id ≠ n.id) : Spares n o (o.removeObjectInstance id).2 := by
  by_cases hsome : (o.objectInstance id).isSome
  · obtain ⟨j, oi, hoi, rfl, hremoved⟩ := removeObjectInstance_some hsome
    rw [hremoved]
    refine spares_instances (fun hname y hy => ?_) fun hn oi' hoi' => ?_
    · have hother : (oi.instanceId == n.id) = false := beq_eq_false_iff_ne.mpr (hid hname)
      have hfind := Search.find?_eraseIdx (p := fun oi : M2MObjectInstance => oi.instanceId == n.id)
        hoi hother
      rw [M2MObject.record?, hfind]
      exact hy
    · exact hn oi' (List.mem_of_mem_eraseIdx hoi')
  · rw [removeObjectInstance_none (by simpa using hsome)]
    exact .refl n o

/-- What a DELETE takes away has another id. -/
theorem handleDelete_untouched {path : Bytes} {e : Entity} (hn : Named objects)
    (hfound : findResource path objects = some e)
    (hid : ∀ text, path = n.object ++ slash :: text → UInt16.ofNat (strtoul text) ≠ n.id)
    {msgCode : MsgCode} {objects' : List ObjectNode}
    (h : handleDelete objects path e = some (msgCode, objects')) :
    Untouched n objects objects' := by
  by_cases hkind : e.baseType = .objectInstance
  · cases e with
    | objectInstance i j =>
      obtain ⟨o, oi, ho, hoi, hpath⟩ := findResource_objectInstance hfound
      have hlength := (hn o (List.mem_of_getElem? ho)).name.2.1
      rw [uriPath_objectInstance hlength] at hpath
      have hspares : Spares n o (o.removeObjectInstance
          (if oi.instanceId.toNat < 10000 then oi.instanceId else 0)).2 := by
        refine removeObjectInstance_spares fun hname => ?_
        rw [← strtoul_shortIdText]
        exact hid _ (by rw [← hname, hpath])
      rw [handleDelete_eq hfound ho hoi hlength] at h
      generalize o.removeObjectInstance
        (if oi.instanceId.toNat < 10000 then oi.instanceId else 0) = removed at h hspares
      obtain ⟨success, o'⟩ := removed
      cases success with
      | true =>
        obtain rfl := congrArg Prod.snd (Option.some.inj h)
        exact hspares.untouched ho
      | false =>
        obtain rfl := congrArg Prod.snd (Option.some.inj h)
        exact .refl n objects
    | _ => simp [Entity.baseType] at hkind
  · rw [handleDelete_other hkind] at h
    obtain rfl := congrArg Prod.snd (Option.some.inj h)
    exact .refl n objects

end Delete

section Request

/-- A request that does not go to the instance or the object of the resource as a whole: a PUT or a
POST to the instance writes its resources, a POST of an instance to the object may write others, and
a DELETE takes the resource away with the instance. -/
def Beside (n : Place) (request : CoapHeader) : Prop :=
  let path := coapToString request.uriPath
  match request.msgCode with
  | .requestPut => path ≠ uriPath (.objectInstance n.object n.id)
  | .requestPost => path ≠ uriPath (.objectInstance n.object n.id) ∧
    (path = uriPath (.object n.object) → ∀ data, request.payloadPtr = some data →
      Tlv.isType typeObjectInstance (some data) = false)
  | .requestDelete => ∀ text, path = n.object ++ slash :: text → UInt16.ofNat (strtoul text) ≠ n.id
  | _ => True

variable {w : Surroundings} {request : CoapHeader} {h : Heap} {e : Entity}

theorem handleGetRequest_untouched (hnames : Entity.Names objects (coapToString request.uriPath) e)
    (hpath : coapToString request.uriPath ≠ uriPath n.identity) :
    After (Untouched n objects) (handleGetRequest w objects request h e) := by
  cases e with
  | object i =>
    obtain ⟨o, ho, -⟩ := hnames
    exact after_atObject ho (after_map fun _ => spares_setParams (by simp [Place.identity]) _)
  | objectInstance i j =>
    obtain ⟨o, oi, ho, hoi, -⟩ := hnames
    exact after_atObject ho (after_atObjectInstance hoi
      (after_map fun _ => ⟨rfl, fun hn => hn, fun _ _ => rfl⟩))
  | resource i j k =>
    obtain ⟨o, oi, r, ho, hoi, hr, hfound⟩ := hnames
    have hne : Identity.resource o.name oi.instanceId r.name ≠ n.identity := fun heq =>
      hpath (by rw [← hfound, heq])
    refine after_atObject ho (after_atResource hoi hr hne fun y hy => ?_)
    exact congrArg (·.name) (handleGetRequestResource_kept y hy).1
  | resourceInstance i j k m =>
    obtain ⟨o, oi, r, b, ho, hoi, hr, hb, -⟩ := hnames
    exact after_atObject ho (after_atResourceInstance _ hoi hr hb)

theorem handlePutRequest_untouched (hnames : Entity.Names objects (coapToString request.uriPath) e)
    (hpath : coapToString request.uriPath ≠ uriPath n.identity)
    (hinstance : coapToString request.uriPath ≠ uriPath (.objectInstance n.object n.id)) :
    After (Untouched n objects) (handlePutRequest w objects request h e) := by
  cases e with
  | object i =>
    obtain ⟨o, ho, -⟩ := hnames
    refine after_atObject ho ?_
    rw [handlePutRequestObject]
    cases request.uriQuery with
    | some query => exact after_map fun _ => .refl n o
    | none => exact after_some (.refl n o)
  | objectInstance i j =>
    obtain ⟨o, oi, ho, hoi, hfound⟩ := hnames
    refine after_atObject ho (after_atObjectInstance hoi fun y hy => ?_)
    obtain ⟨hid, hnamed⟩ := handlePutRequestObjectInstance_kept y hy
    exact ⟨hid, hnamed, fun hname hid => absurd (by rw [← hfound, hname, hid]) hinstance⟩
  | resource i j k =>
    obtain ⟨o, oi, r, ho, hoi, hr, hfound⟩ := hnames
    have hne : Identity.resource o.name oi.instanceId r.name ≠ n.identity := fun heq =>
      hpath (by rw [← hfound, heq])
    exact after_atObject ho (after_atResource hoi hr hne handlePutRequestResource_name)
  | resourceInstance i j k m =>
    obtain ⟨o, oi, r, b, ho, hoi, hr, hb, -⟩ := hnames
    exact after_atObject ho (after_atResourceInstance _ hoi hr hb)

theorem handlePostRequest_untouched (hnames : Entity.Names objects (coapToString request.uriPath) e)
    (hpath : coapToString request.uriPath ≠ uriPath n.identity)
    (hinstance : coapToString request.uriPath ≠ uriPath (.objectInstance n.object n.id))
    (hobject : coapToString request.uriPath = uriPath (.object n.object) → ∀ data,
      request.payloadPtr = some data → Tlv.isType typeObjectInstance (some data) = false) :
    After (Untouched n objects) (handlePostRequest w objects request h e) := by
  cases e with
  | object i =>
    obtain ⟨o, ho, hfound⟩ := hnames
    exact after_atObject ho (handlePostRequestObject_spares fun hname =>
      hobject (by rw [← hfound, hname]))
  | objectInstance i j =>
    obtain ⟨o, oi, ho, hoi, hfound⟩ := hnames
    refine after_atObject ho (after_atObjectInstance hoi fun y hy => ?_)
    obtain ⟨hid, hnamed⟩ := handlePostRequestObjectInstance_kept y hy
    exact ⟨hid, hnamed, fun hname hid => absurd (by rw [← hfound, hname, hid]) hinstance⟩
  | resource i j k =>
    obtain ⟨o, oi, r, ho, hoi, hr, hfound⟩ := hnames
    have hne : Identity.resource o.name oi.instanceId r.name ≠ n.identity := fun heq =>
      hpath (by rw [← hfound, heq])
    refine after_atObject ho (after_atResource hoi hr hne fun y hy => ?_)
    exact congrArg (·.name) (handlePostRequestResource_kept y hy).1
  | resourceInstance i j k m => exact after_some (.refl n objects)

/-- A request by another path. -/
theorem handleRequest_untouched (hn : Named objects) (hbeside : Beside n request)
    (hpath : coapToString request.uriPath ≠ uriPath n.identity) {msgCode : MsgCode}
    {x : Handled (List ObjectNode)} (hx : handleRequest w objects request h = some (msgCode, x)) :
    Untouched n objects x.entity := by
  rw [handleRequest] at hx
  cases hfound : findResource (coapToString request.uriPath) objects with
  | none =>
    rw [hfound] at hx
    obtain rfl := congrArg Prod.snd (Option.some.inj hx)
    exact .refl n objects
  | some e =>
    rw [hfound] at hx
    have hnames := findResource_names hfound
    cases hcode : request.msgCode with
    | requestGet =>
      simp only [hcode] at hx
      obtain ⟨y, hy, heq⟩ := Option.map_eq_some_iff.mp hx
      obtain rfl := congrArg Prod.snd heq
      exact handleGetRequest_untouched hnames hpath y hy
    | requestPut =>
      simp only [hcode] at hx
      simp only [Beside, hcode] at hbeside
      obtain ⟨y, hy, heq⟩ := Option.map_eq_some_iff.mp hx
      obtain rfl := congrArg Prod.snd heq
      exact handlePutRequest_untouched hnames hpath hbeside y hy
    | requestPost =>
      simp only [hcode] at hx
      simp only [Beside, hcode] at hbeside
      obtain ⟨y, hy, heq⟩ := Option.map_eq_some_iff.mp hx
      obtain rfl := congrArg Prod.snd heq
      exact handlePostRequest_untouched hnames hpath hbeside.1 hbeside.2 y hy
    | requestDelete =>
      simp only [hcode] at hx
      simp only [Beside, hcode] at hbeside
      obtain ⟨y, hy, heq⟩ := Option.map_eq_some_iff.mp hx
      obtain rfl := congrArg Prod.snd heq
      exact handleDelete_untouched hn hfound hbeside hy
    | _ =>
      simp only [hcode] at hx
      obtain rfl := congrArg Prod.snd (Option.some.inj hx)
      exact .refl n objects

end Request

/-! A request by the path of the resource. -/
section Own
variable {w : Surroundings} {request : CoapHeader} {h : Heap} {i j k : Nat} {o : ObjectNode}
  {oi : M2MObjectInstance} {r : M2MResource}

/-- A PUT that goes into the value of a resource with this operation. -/
def Stores (w : Surroundings) (request : CoapHeader) (operation : UInt8) : Prop :=
  request.uriQuery = none ∧ operation &&& snGrsPutAllowed ≠ 0 ∧
    request.contentFormat ≠ some coapContentOmaTlvType ∧ request.payload ≠ [] ∧
    (w.buildResponse request .changed).isSome = true

instance (w : Surroundings) (request : CoapHeader) (operation : UInt8) :
    Decidable (Stores w request operation) := inferInstanceAs (Decidable (_ ∧ _ ∧ _ ∧ _ ∧ _))

def stored (w : Surroundings) (request : CoapHeader) (h : Heap) (operation : UInt8)
    (value : Bytes) : Bytes :=
  if Stores w request operation then if h.malloc.1 then request.payload else [] else value

theorem handlePutRequestBase_stored (w : Surroundings) (m : Identity) (request : CoapHeader)
    (b : M2MResourceBase) {p : Params} (hblock : p.blockMessage = none) (h : Heap) :
    After (fun y => y = ({ b with value := stored w request h b.operation b.value }, p))
      (handlePutRequestBase w m request b p h) := by
  have hparams : { p with blockMessage := none } = p :=
    congrArg (fun blockMessage => { p with blockMessage }) hblock.symm
  by_cases hs : Stores w request b.operation
  · obtain ⟨hquery, hput, hformat, hpayload, hbuilt⟩ := id hs
    obtain ⟨response, hresponse⟩ := Option.isSome_iff_exists.mp hbuilt
    have hpos : 0 < request.payload.length := List.length_pos_iff.mpr hpayload
    simp only [stored, if_pos hs, handlePutRequestBase, hresponse, hquery, hput, hformat,
      setMessageInfo, hblock, Option.map_some, Option.filter_none, hparams,
      M2MResourceBase.setValue, hpos, ne_eq, not_false_eq_true, if_true, if_false]
    exact after_some rfl
  · rw [stored, if_neg hs, handlePutRequestBase, setMessageInfo, hblock]
    cases hresponse : w.buildResponse request .changed with
    | none => exact after_some rfl
    | some response =>
      cases hquery : request.uriQuery with
      | some query => exact after_map fun _ => rfl
      | none =>
        dsimp only
        split_ifs with hput hformat
        · exact after_some rfl
        · have hempty : request.payload = [] := by
            by_contra hpayload
            exact hs ⟨hquery, hput, hformat, hpayload, by rw [hresponse]; rfl⟩
          simp only [Option.map_some, Option.filter_none, hempty, hparams]
          exact after_some rfl
        · exact after_some rfl

variable {P : M2MResource × Params → Prop}

theorem after_own (hs : Stands objects n i j k o oi r)
    {f : Identity → M2MResource → Params → Option (Handled (M2MResource × Params))}
    (h : After (fun y : M2MResource × Params => y.1.name = r.name ∧ P y)
      (f n.identity r (o.params n.identity))) :
    After (fun objects' => (Named objects → Named objects') ∧ ∃ y, P y ∧
        held? objects' n = some (⟨y.1.toM2MResourceBase, y.1.multipleInstance⟩, y.2))
      (atObject objects i fun o => o.atResource j k f) := by
  obtain ⟨ho, hoi, hr⟩ := hs.entries
  rw [atObject, ho, Option.bind_some, ObjectNode.atResource, hoi, Option.bind_some, hr,
    Option.bind_some]
  dsimp only
  rw [hs.identity]
  intro x hx
  obtain ⟨z, hz, rfl⟩ := Option.map_eq_some_iff.mp hx
  obtain ⟨y, hy, rfl⟩ := Option.map_eq_some_iff.mp hz
  obtain ⟨hname, hP⟩ := h y hy
  refine ⟨fun hn o' ho' => ?_, y.entity, hP, hs.held_write hname y.entity.2⟩
  rcases List.mem_or_eq_of_mem_set ho' with hmem | rfl
  · exact hn o' hmem
  · have hnamed := hn o (List.mem_of_getElem? ho)
    exact ⟨hnamed.name, hnamed.resources.set
      ((hnamed.resources oi (List.mem_of_getElem? hoi)).set hr hname) j⟩

/-- What is held for the resource, which has no instances and no block-wise transfer. -/
structure Holds (n : Place) (base : M2MResourceBase) (objects : List ObjectNode) : Prop where
  named : Named objects
  held : ∃ p, held? objects n = some (⟨base, false⟩, p) ∧ p.blockMessage = none

theorem Holds.untouched {base : M2MResourceBase} (hh : Holds n base objects)
    {objects' : List ObjectNode} (hu : Untouched n objects objects') : Holds n base objects' := by
  obtain ⟨p, hp, hblock⟩ := hh.held
  exact ⟨hu.named hh.named, p, hu.held _ hp, hblock⟩

theorem Holds.stands {base : M2MResourceBase} (hh : Holds n base objects) : ∃ i j k o oi r,
    Stands objects n i j k o oi r ∧ r.toM2MResourceBase = base ∧ r.multipleInstance = false ∧
      (o.params n.identity).blockMessage = none := by
  obtain ⟨p, hp, hblock⟩ := hh.held
  obtain ⟨i, j, k, o, oi, r, hs, heq⟩ := exists_stands hp
  obtain ⟨hrecord, rfl⟩ := Prod.mk.inj heq
  obtain ⟨rfl, hsingle⟩ := Record.mk.inj hrecord
  exact ⟨i, j, k, o, oi, r, hs, rfl, hsingle.symm, hblock⟩

def valueAfter (n : Place) (operation : UInt8) (q : Arrival) (value : Bytes) : Bytes :=
  if q.request.msgCode = .requestPut ∧ coapToString q.request.uriPath = uriPath n.identity then
    stored q.surroundings q.request q.heap operation value
  else value

theorem Holds.own {base : M2MResourceBase} (hh : Holds n base objects) {q : Arrival}
    (hpath : coapToString q.request.uriPath = uriPath n.identity) {msgCode : MsgCode}
    {x : Handled (List ObjectNode)}
    (hx : handleRequest q.surroundings objects q.request q.heap = some (msgCode, x)) :
    Holds n { base with value := valueAfter n base.operation q base.value } x.entity := by
  obtain ⟨i, j, k, o, oi, r, hs, rfl, hsingle, hblock⟩ := hh.stands
  have hfound := hs.found hh.named
  rw [handleRequest, hpath, hfound] at hx
  dsimp only at hx
  -- what the handler leaves of the resource and of its parameters
  have hafter {b : M2MResourceBase} {handled : Option (Handled (List ObjectNode))}
      (h : After (fun objects' => (Named objects → Named objects') ∧ ∃ y : M2MResource × Params,
        (y.1.toM2MResourceBase = b ∧ y.1.multipleInstance = false ∧ y.2.blockMessage = none) ∧
        held? objects' n = some (⟨y.1.toM2MResourceBase, y.1.multipleInstance⟩, y.2)) handled)
      (hhandled : handled = some x) : Holds n b x.entity := by
    obtain ⟨hnamed, y, hy, hheld⟩ := h x hhandled
    obtain ⟨rfl, hmultiple, hnone⟩ := hy
    rw [hmultiple] at hheld
    exact ⟨hnamed hh.named, y.2, hheld, hnone⟩
  cases hcode : q.request.msgCode with
  | requestGet =>
    rw [hcode] at hx
    obtain ⟨y, hy, heq⟩ := Option.map_eq_some_iff.mp hx
    obtain rfl := congrArg Prod.snd heq
    have hkept : valueAfter n r.operation q r.value = r.value := if_neg (by simp [hcode])
    rw [hkept]
    refine hafter (after_own hs fun y hy => ?_) hy
    obtain ⟨hr, hnone⟩ := handleGetRequestResource_kept y hy
    exact ⟨congrArg (·.name) hr, congrArg (·.toM2MResourceBase) hr,
      (congrArg (·.multipleInstance) hr).trans hsingle, hnone.trans hblock⟩
  | requestPut =>
    rw [hcode] at hx
    obtain ⟨y, hy, heq⟩ := Option.map_eq_some_iff.mp hx
    obtain rfl := congrArg Prod.snd heq
    rw [valueAfter, if_pos ⟨hcode, hpath⟩]
    refine hafter (after_own hs fun y hy => ?_) hy
    rw [handlePutRequestResource, hsingle, if_neg Bool.false_ne_true] at hy
    obtain ⟨z, hz, rfl⟩ := Option.map_eq_some_iff.mp hy
    have hstored := handlePutRequestBase_stored _ _ _ _ hblock _ z hz
    dsimp only
    rw [hstored]
    exact ⟨rfl, rfl, rfl, hblock⟩
  | requestPost =>
    rw [hcode] at hx
    obtain ⟨y, hy, heq⟩ := Option.map_eq_some_iff.mp hx
    obtain rfl := congrArg Prod.snd heq
    have hkept : valueAfter n r.operation q r.value = r.value := if_neg (by simp [hcode])
    rw [hkept]
    refine hafter (after_own hs fun y hy => ?_) hy
    obtain ⟨hr, hnone⟩ := handlePostRequestResource_kept y hy
    exact ⟨congrArg (·.name) hr, congrArg (·.toM2MResourceBase) hr,
      (congrArg (·.multipleInstance) hr).trans hsingle, hnone.trans hblock⟩
  | requestDelete =>
    rw [hcode] at hx
    obtain rfl := congrArg Prod.snd (Option.some.inj hx)
    have hkept : valueAfter n r.operation q r.value = r.value := if_neg (by simp [hcode])
    rw [hkept]
    exact hh
  | _ =>
    rw [hcode] at hx
    obtain rfl := congrArg Prod.snd (Option.some.inj hx)
    have hkept : valueAfter n r.operation q r.value = r.value := if_neg (by simp [hcode])
    rw [hkept]
    exact hh

end Own

section Run

def Arrival.step (q : Arrival) (objects : List ObjectNode) : Option (List ObjectNode) :=
  (resourceCallback q.surroundings objects q.request q.heap).map (·.entity)

def serve : List Arrival → List ObjectNode → Option (List ObjectNode)
  | [], objects => some objects
  | q :: l, objects => (q.step objects).bind (serve l)

def valueAfterAll (n : Place) (operation : UInt8) : List Arrival → Bytes → Bytes
  | [], value => value
  | q :: l, value => valueAfterAll n operation l (valueAfter n operation q value)

variable {base : M2MResourceBase} {objects' : List ObjectNode}

theorem Holds.step (hh : Holds n base objects) {q : Arrival} (hbeside : Beside n q.request)
    (hq : q.step objects = some objects') :
    Holds n { base with value := valueAfter n base.operation q base.value } objects' := by
  obtain ⟨outcome, houtcome, rfl⟩ := Option.map_eq_some_iff.mp hq
  obtain ⟨⟨msgCode, x⟩, hx, rfl⟩ := Option.map_eq_some_iff.mp houtcome
  by_cases hpath : coapToString q.request.uriPath = uriPath n.identity
  · have hown : Holds n { base with value := valueAfter n base.operation q base.value } x.entity :=
      hh.own hpath hx
    exact hown
  · have hkept : valueAfter n base.operation q base.value = base.value := by
      rw [valueAfter, if_neg fun hc => hpath hc.2]
    rw [hkept]
    have huntouched : Untouched n objects x.entity :=
      handleRequest_untouched hh.named hbeside hpath hx
    exact hh.untouched huntouched

theorem Holds.serve (hh : Holds n base objects) {l : List Arrival}
    (hbeside : ∀ q ∈ l, Beside n q.request) (hl : serve l objects = some objects') :
    Holds n { base with value := valueAfterAll n base.operation l base.value } objects' := by
  induction l generalizing objects base with
  | nil =>
    obtain rfl := Option.some.inj hl
    exact hh
  | cons q l ih =>
    obtain ⟨next, hq, hnext⟩ := Option.bind_eq_some_iff.mp hl
    have hstep := hh.step (hbeside q List.mem_cons_self) hq
    exact ih hstep (fun q' hq' => hbeside q' (List.mem_cons_of_mem q hq')) hnext

/-- A GET of the resource that is not refused for its observe option, where the CoAP library builds
what it is asked for and the value can be copied. -/
structure Arrival.Asks (q : Arrival) (n : Place) : Prop where
  get : q.request.msgCode = .requestGet
  path : coapToString q.request.uriPath = uriPath n.identity
  noObserve : q.request.observe = -1
  asked : q.surroundings.BuildsAsked
  built : (q.surroundings.buildResponse q.request .content).isSome
  copied : q.heap.malloc.1 = true

theorem Holds.read (hh : Holds n base objects) (hget : base.operation &&& snGrsGetAllowed ≠ 0)
    {q : Arrival} (hq : q.Asks n) : ∃ outcome response,
      resourceCallback q.surroundings objects q.request q.heap = some outcome ∧
      outcome.sent = [response] ∧ response.msgCode = .content ∧
      response.payload.getD [] = base.value.take (base.value.length % 2 ^ 16) := by
  obtain ⟨i, j, k, o, oi, r, hs, rfl, hsingle, hblock⟩ := hh.stands
  obtain ⟨ho, hoi, hr⟩ := hs.entries
  obtain ⟨response, hresponse⟩ := Option.isSome_iff_exists.mp hq.built
  obtain ⟨hcode, hstatus⟩ := hq.asked q.request .content response hresponse
  have hvalue : (r.toM2MResourceBase.getValue q.heap).1.getD [] = r.value := by
    rw [M2MResourceBase.getValue]
    split_ifs with hpos
    · simp [hq.copied]
    · simp [List.length_eq_zero_iff.mp (Nat.le_zero.mp (Nat.not_lt.mp hpos))]
  have hobserve : q.request.observeCode (o.params n.identity).isObservable .content = .content :=
    if_pos hq.noObserve
  rw [resourceCallback, handleRequest, hq.path, hs.found hh.named]
  simp only [hq.get, handleGetRequest, atObject, ho, ObjectNode.atResource, hoi, hr, hs.identity,
    Option.bind_some, Option.map_some, Handled.map, handleGetRequestResource, hsingle,
    Bool.false_eq_true, if_false, handleGetRequestBase, hget, hresponse, hblock, hobserve,
    Option.some_or, List.nil_append]
  refine ⟨_, _, rfl, if_pos ⟨hstatus, by simp⟩, rfl, ?_⟩
  rw [sentPayload_getD, hvalue]

/-- Object "3" with a resource "0" in its instances 0 and 1, which both have the value "A". -/
def twoInstances : ObjectNode := ⟨⟨⟨[⟨0, [letterA]⟩, ⟨1, [letterA]⟩]⟩, [0x33]⟩, fun _ => {}⟩

def requestTo (msgCode : MsgCode) (path : Bytes) : CoapHeader :=
  { plainRequest msgCode with uriPath := some path }

def putByte (path : Bytes) (b : UInt8) : CoapHeader :=
  { requestTo .requestPut path with payloadPtr := some fun _ => b, payloadLen := 1 }

def arrive (request : CoapHeader) : Arrival := ⟨echo, request, granted⟩

/-- "B" to 3/0/0, "C" to 3/1/0, and instance 1 is deleted. -/
def traffic : List Arrival :=
  [arrive (putByte [0x33, 0x2F, 0x30, 0x2F, 0x30] 0x42),
    arrive (putByte [0x33, 0x2F, 0x31, 0x2F, 0x30] 0x43),
    arrive (requestTo .requestDelete [0x33, 0x2F, 0x31])]

/-- It answers "B". -/
example : valueAfterAll ⟨[0x33], 0, [0x30]⟩ getPutAllowed traffic [0x41] =
  [0x42] := by decide +kernel

end Run
end MbedClient.Nsdl
