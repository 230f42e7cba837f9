import MbedClient.BuildPath
import MbedClient.Nsdl.ObjectPost
import MbedClient.Nsdl.Outcomes

/-! A POST of the server that creates an object instance: it is answered, and leaves nothing behind
unless the answer is 2.01. -/
namespace MbedClient.Nsdl
open Observe (Entity)
open Tlv (Addressee)
variable {w : Surroundings} {header : CoapHeader} {s s' : NsdlInterface} {o : ObjectNode}
  {id : UInt16} {h : Heap}

section Instance

theorem buildPathIds_eq (name : Bytes) (i j : UInt16) : buildPathIds name i j =
    let built := buildPath3 (.new (by decide)) name i j
    if built.returned then some built.buffer.text else none := by
  have hbuild : ∀ {size : Nat} (b : StringBuffer size) (requiredSize : Nat),
      (if b.ensureSpace requiredSize then
        let b := (b.append name).2
        let b := (b.append [slash]).2
        let b := (b.appendInt i).2
        let b := (b.append [slash]).2
        some (b.appendInt j).2.text
      else none) =
      let built := b.build requiredSize [name, [slash], intPart i, [slash], intPart j]
      if built.returned then some built.buffer.text else none := by
    intro size b requiredSize
    simp only [StringBuffer.build, StringBuffer.appendAll, StringBuffer.appendInt, intPart]
    split_ifs <;> simp_all
  rw [buildPathIds, buildPath3]
  apply hbuild

theorem buildPathIds_fits {name : Bytes} (hn : name.length ≤ maxNameSize) (i j : UInt16) :
    buildPathIds name i j = some (joinPath [name, idText i, idText j]) := by
  have hspec := buildPath3_buildsPath name i j
  have hreturned := hspec.accepted (.new (by decide)) rfl (by simpa using hn)
  rw [buildPathIds_eq, if_pos hreturned, (hspec.path _ rfl hreturned).1]

/-- The content type is TLV, and the payload passes the decoder for an empty instance. -/
def Stays (w : Surroundings) (header : CoapHeader) (id : UInt16) : Prop :=
  header.contentType (w.buildResponse header .changed).isSome coapContentOmaTlvType.toUInt8 =
      coapContentOmaTlvType ∧
    ∃ data, header.payloadPtr = some data ∧
      (Addressee.objectInstance ⟨id, []⟩).Accepted data header.payloadLen.toNat .post

/-- What an instance has that the server creates. -/
def newParams : Params :=
  { operation := getPutPostAllowed, coapContentType := coapContentOmaTlvType.toUInt8 }

theorem deserialized_instanceId (data : Nat → UInt8) (size : Nat) (operation : Tlv.Operation)
    (oi : M2MObjectInstance) (env : Tlv.Env) :
    (Tlv.deserializeResources (some data) size operation (oi, env)).2.1.instanceId =
      oi.instanceId := by
  have hgrows := Tlv.deserialize_grows data size operation (.objectInstance oi) env
  cases hgrows with
  | cons hfirst _ => exact hfirst.instanceId

theorem post_new_answered (id : UInt16) (h : Heap) {response : Response} {name : Bytes}
    {data : Nat → UInt8}
    (hbuilt : w.buildResponse header .changed = some response)
    (hdata : header.payloadPtr = some data) (hname : name.length ≤ maxNameSize) :
    ∃ handled answered,
      handlePostRequestObjectInstance w header ⟨id, []⟩ newParams h name = some handled ∧
      handled.response = some answered ∧ handled.entity.1.instanceId = id ∧
      (answered.msgCode = .created ↔ Stays w header id) := by
  have hstays : Stays w header id ↔
      header.contentType true coapContentOmaTlvType.toUInt8 = coapContentOmaTlvType ∧
        (Addressee.objectInstance ⟨id, []⟩).Accepted data header.payloadLen.toNat .post := by
    simp [Stays, hbuilt, hdata]
  have hpost : newParams.operation &&& snGrsPostAllowed ≠ 0 := by decide
  have hown : newParams.coapContentType = coapContentOmaTlvType.toUInt8 := rfl
  rw [handlePostRequestObjectInstance, if_pos hpost, hbuilt, hown, Option.isSome_some]
  by_cases htype : header.contentType true coapContentOmaTlvType.toUInt8 = coapContentOmaTlvType
  · simp only [if_pos htype, hdata]
    have hnone := Tlv.deserialize_none (a := .objectInstance ⟨id, []⟩) data
      header.payloadLen.toNat .post ⟨h, []⟩ rfl
    have hid := deserialized_instanceId data header.payloadLen.toNat .post ⟨id, []⟩ ⟨h, []⟩
    change (Tlv.deserializeResources (some data) header.payloadLen.toNat .post
      (⟨id, []⟩, ⟨h, []⟩)).1 = .none ↔ _ at hnone
    generalize Tlv.deserializeResources (some data) header.payloadLen.toNat .post
      (⟨id, []⟩, ⟨h, []⟩) = decoded at hnone hid
    obtain ⟨error, oi, env⟩ := decoded
    simp only [tlvInstanceId, Option.map_some]
    by_cases herror : error = .none
    · have hyes : Stays w header id := hstays.mpr ⟨htype, hnone.mp herror⟩
      simp only [if_pos herror]
      cases env.heap.malloc.1 with
      | true =>
        have hpath := buildPathIds_fits hname oi.instanceId (recId data 0)
        simp only [if_true, hpath]
        exact ⟨_, _, rfl, rfl, hid, iff_of_true rfl hyes⟩
      | false => exact ⟨_, _, rfl, rfl, hid, iff_of_true rfl hyes⟩
    · simp only [if_neg herror]
      refine ⟨_, _, rfl, rfl, hid, iff_of_false (fun hc => ?_) fun hc =>
        herror (hnone.mpr (hstays.mp hc).2)⟩
      cases error <;> simp_all [errorCode]
  · simp only [if_neg htype]
    exact ⟨_, _, rfl, rfl, rfl, iff_of_false (by simp) fun hc => htype (hstays.mp hc).1⟩

theorem post_new_unanswered {name : Bytes} (hbuilt : w.buildResponse header .changed = none)
    {handled : Handled (M2MObjectInstance × Params)} {p : Params}
    (hrun : handlePostRequestObjectInstance w header ⟨id, []⟩ p h name = some handled) :
    handled.response = none := by
  rw [handlePostRequestObjectInstance, hbuilt] at hrun
  by_cases hop : p.operation &&& snGrsPostAllowed ≠ 0
  · by_cases htype : header.contentType (none : Option Response).isSome p.coapContentType =
        coapContentOmaTlvType
    · rw [if_pos hop, if_pos htype] at hrun
      cases hdata : tlvInstanceId header.payloadPtr with
      | none => simp [hdata] at hrun
      | some first =>
        simp only [hdata] at hrun
        by_cases herror : (Tlv.deserializeResources header.payloadPtr header.payloadLen.toNat .post
            (⟨id, []⟩, ⟨h, []⟩)).1 = .none
        · rw [if_pos herror] at hrun
          cases hrun
        · rw [if_neg herror] at hrun
          obtain rfl := Option.some.inj hrun
          rfl
    · rw [if_pos hop, if_neg htype] at hrun
      obtain rfl := Option.some.inj hrun
      rfl
  · rw [if_neg hop] at hrun
    obtain rfl := Option.some.inj hrun
    rfl

end Instance

section Create

/-- The tree of values. -/
def NsdlInterface.trees (s : NsdlInterface) : List NamedObject := s.objects.map (·.toNamedObject)

theorem createAndPost_missing (w : Surroundings) (header : CoapHeader)
    (hc : ¬(o.objectInstance id = none ∧ s.heap.newNode.1 = true)) :
    ∃ h, createAndPost w header s o id = some (none, false, o, h) := by
  unfold createAndPost ObjectNode.createObjectInstance
  cases hid : o.objectInstance id with
  | some oi => exact ⟨_, rfl⟩
  | none =>
    have hnew : s.heap.newNode.1 = false := by simpa [hid] using hc
    simp only [Option.isNone_none, if_true, hnew, Bool.false_eq_true, if_false]
    exact ⟨_, rfl⟩

/-- The object once its new instance has been posted to. -/
theorem createAndPost_created (w : Surroundings) (header : CoapHeader)
    (hid : o.objectInstance id = none) (hnew : s.heap.newNode.1 = true) :
    ∃ f : M2MObjectInstance × Params → ObjectNode,
      (∀ x, (f x).toNamedObject = ⟨⟨o.instances ++ [x.1]⟩, o.name⟩) ∧
      createAndPost w header s o id =
        (handlePostRequestObjectInstance w header ⟨id, []⟩ newParams s.heap.newNode.2 o.name).map
          fun handled => (handled.response, handled.executeValueUpdated, f handled.entity,
            handled.heap) := by
  let n := Identity.objectInstance o.name id
  let made := ((o.grow { instances := o.instances ++ [⟨id, []⟩] }).setParams n
    { coapContentType := coapContentOmaTlvType.toUInt8 }).setParams n newParams
  refine ⟨fun x => (made.grow { instances := made.instances.set o.instances.length x.1 }).setParams
    n x.2, fun x => ?_, ?_⟩
  · simp [made, ObjectNode.setParams, ObjectNode.grow]
  · simp only [createAndPost, ObjectNode.createObjectInstance, hid, Option.isNone_none,
      if_true, hnew,
      ObjectNode.atObjectInstance, ObjectNode.setParams, ObjectNode.grow, List.length_append,
      List.length_singleton, Nat.add_sub_cancel, List.getElem?_concat_length, Option.bind_some,
      Function.update_self, Option.map_map]
    rfl

/-- An instance that is taken out again leaves the object as it was. -/
theorem removeObjectInstance_added {o' : ObjectNode} {oi : M2MObjectInstance}
    (hid : o.objectInstance id = none) (hoi : oi.instanceId = id)
    (ho' : o'.toNamedObject = ⟨⟨o.instances ++ [oi]⟩, o.name⟩) :
    (o'.removeObjectInstance id).2.toNamedObject = o.toNamedObject := by
  have hinstances : o'.instances = o.instances ++ [oi] :=
    congrArg (fun n : NamedObject => n.instances) ho'
  have hname : o'.name = o.name := (congrArg NamedObject.name ho' :)
  have hold : o.instances.findIdx? (·.instanceId == id) = none := by
    rw [List.findIdx?_eq_none_iff]
    simpa [ObjectNode.objectInstance] using hid
  have hidx : o'.instances.findIdx? (·.instanceId == id) = some o.instances.length := by
    rw [hinstances, List.findIdx?_append, hold]
    simp [hoi]
  have herase : (o.instances ++ [oi]).eraseIdx o.instances.length = o.instances := by
    rw [List.eraseIdx_append_of_length_le le_rfl]
    simp
  rw [ObjectNode.removeObjectInstance, hidx]
  simp only [hinstances, herase, hname]

end Create

section Path

theorem splitPath_some {path objectName text : Bytes}
    (h : splitPath path = some (objectName, text)) :
    path = objectName ++ slash :: text := by
  obtain ⟨segment, hsegment, hsplit⟩ := Option.map_eq_some_iff.mp h
  obtain ⟨rfl, rfl⟩ := Prod.mk.inj hsplit
  rw [lastSegment] at hsegment
  split_ifs at hsegment with hslash
  have hreverse := List.takeWhile_append_dropWhile (p := (· != slash)) (l := path.reverse)
  have hrest : path.reverse.dropWhile (· != slash) ≠ [] := by
    rw [ne_eq, List.dropWhile_eq_nil_iff]
    intro hall
    simpa using hall slash (by simpa using hslash)
  obtain ⟨b, rest, hdrop⟩ := List.exists_cons_of_ne_nil hrest
  have hb : b = slash := by
    have hhead := List.head?_dropWhile_not (· != slash) path.reverse
    simpa [hdrop] using hhead
  have hpath : path = rest.reverse ++ slash :: segment := by
    rw [← List.reverse_reverse path, ← hreverse, hdrop, hb, ← Option.some.inj hsegment]
    simp
  have htake : path.take (path.length - segment.length - 1) = rest.reverse := by
    have hlength : path.length - segment.length - 1 = rest.reverse.length := by
      rw [hpath]
      simp only [List.length_append, List.length_cons]
      omega
    rw [hlength, hpath, List.take_left']
    rfl
  rw [htake]
  exact hpath

theorem atoi_digits {n : Nat} (hn : n < 65535) : Interface.atoi (Decimal.digits n) = n := by
  have hnumeral := numeral_digits (Decimal.digits_isDigit n) (Decimal.digits_ne_nil n)
  have hatoll : atoll (Decimal.digits n) = n := by
    rw [atoll, hnumeral, Decimal.value_digits]
    simp only [Bool.false_eq_true, if_false]
    omega
  rw [Interface.atoi, hatoll]
  exact Int.bmod_eq_of_le (by omega) (by omega)

theorem findInObject_some {path : Bytes} {i : Nat} {e : Entity}
    (h : findInObject path i o = some e) : e.baseType ≠ .object := by
  obtain ⟨⟨oi, j⟩, -, h⟩ := List.exists_of_findSome?_eq_some h
  simp only at h
  split_ifs at h
  · obtain rfl := Option.some.inj h
    simp [Entity.baseType]
  · obtain ⟨⟨r, k⟩, -, h⟩ := List.exists_of_findSome?_eq_some h
    simp only at h
    split_ifs at h
    · obtain rfl := Option.some.inj h
      simp [Entity.baseType]
    · unfold findInResource at h
      split_ifs at h
      obtain ⟨⟨m, n⟩, -, h⟩ := List.exists_of_findSome?_eq_some h
      simp only at h
      split_ifs at h
      obtain rfl := Option.some.inj h
      simp [Entity.baseType]

theorem findResource_object {path : Bytes} {objects : List ObjectNode} {i : Nat}
    (h : findResource path objects = some (.object i)) :
    ∃ o, objects[i]? = some o ∧ o.name = path := by
  obtain ⟨⟨o, i'⟩, hmem, h⟩ := List.exists_of_findSome?_eq_some h
  simp only at h
  split_ifs at h with hpath
  · obtain rfl : i' = i := by simpa using h
    exact ⟨o, List.mem_zipIdx_iff_getElem?.mp hmem, hpath⟩
  · exact absurd rfl (findInObject_some h)

/-- A plan to create an instance comes from a path with one slash, a name in front of it and behind
it a text that stands for a number. -/
theorem postPlan_create {objects : List ObjectNode} {i : Nat}
    (h : postPlan header objects = .create i o id) : objects[i]? = some o ∧
    ∃ uriPath text, header.uriPath = some uriPath ∧
      coapToString (some uriPath) = o.name ++ slash :: text ∧
      (id.toNat : Int) = Interface.atoi text ∧ id.toNat < 65535 ∧
      ∃ data, header.payloadPtr = some data := by
  unfold postPlan at h
  cases huri : header.uriPath with
  | none => simp [huri] at h
  | some uriPath =>
    simp only [huri] at h
    cases hsplit : splitPath (coapToString (some uriPath)) with
    | none => simp [hsplit] at h
    | some split =>
      obtain ⟨objectName, text⟩ := split
      simp only [hsplit] at h
      by_cases hslash : slash ∈ objectName
      · simp [hslash] at h
      rw [if_neg hslash] at h
      cases hfind : findResource objectName objects with
      | none => simp [hfind] at h
      | some e =>
        simp only [hfind] at h
        by_cases hid : 0 ≤ Interface.atoi text ∧ Interface.atoi text < 65535
        swap
        · simp [hid] at h
        rw [if_pos hid] at h
        cases hdata : header.payloadPtr with
        | none => simp [hdata] at h
        | some data =>
          cases e with
          | object i' =>
            simp only [hdata] at h
            cases hi : objects[i']? with
            | none => simp [hi] at h
            | some o' =>
              simp only [hi, PostPlan.create.injEq] at h
              obtain ⟨rfl, rfl, rfl⟩ := h
              obtain ⟨o'', ho'', hname⟩ := findResource_object hfind
              obtain rfl := Option.some.inj (hi.symm.trans ho'')
              have htoNat : ((UInt16.ofInt (Interface.atoi text)).toNat : Int) =
                  Interface.atoi text := by
                rw [UInt16.ofInt, UInt16.toNat_ofNat']
                omega
              exact ⟨hi, uriPath, text, rfl, hname ▸ splitPath_some hsplit, htoNat, by omega,
                data, rfl⟩
          | objectInstance i' j => simp [hdata] at h
          | resource i' j k => simp [hdata] at h
          | resourceInstance i' j k m => simp [hdata] at h

end Path

section Served

def NsdlInterface.sent (s : NsdlInterface) : List Response :=
  s.calls.filterMap fun call => match call with
    | .send response => some response
    | _ => none

/-- One response is sent; the trees are as before if it is not 2.01; no instance is removed or
modified; and where the path does not consist of the name of an object and the numeral of an id,
that object gets no instance. -/
structure Served (header : CoapHeader) (s s' : NsdlInterface) : Prop where
  answered : ∃ response, s'.sent = s.sent ++ [response] ∧
    (response.msgCode ≠ .created → s'.trees = s.trees)
  length : s'.trees.length = s.trees.length
  kept : ∀ (i : Nat) (o : NamedObject), s.trees[i]? = some o → ∃ o', s'.trees[i]? = some o' ∧
    o'.name = o.name ∧ o.instances <+: o'.instances
  addressed : ∀ (i : Nat) (o o' : NamedObject), s.trees[i]? = some o → s'.trees[i]? = some o' →
    o' ≠ o → ∃ n < 65535, header.uriPath = some (o.name ++ slash :: Decimal.digits n)

def Servable (w : Surroundings) (header : CoapHeader) (s : NsdlInterface) : Prop :=
  match postPlan header s.objects with
  | .ignore | .undefined => False
  | .reply msgCode => (w.buildResponse header msgCode).isSome
  | .create _ o id => o.objectInstance id = none ∧ s.heap.newNode.1 = true ∧
      (w.buildResponse header .changed).isSome ∧
      (Stays w header id → header.uriPath = some (o.name ++ slash :: idText id))

@[simp] theorem sent_tell (call : Call) : (s.tell call).sent = s.sent ++
    (match call with
      | .send response => [response]
      | _ => []) := by
  rw [NsdlInterface.sent, NsdlInterface.tell, List.filterMap_append]
  cases call <;> rfl

theorem Served.of_same {response : Response} (hsent : s'.sent = s.sent ++ [response])
    (htrees : s'.trees = s.trees) : Served header s s' where
  answered := ⟨response, hsent, fun _ => htrees⟩
  length := by rw [htrees]
  kept i o ho := ⟨o, htrees ▸ ho, rfl, List.prefix_rfl⟩
  addressed i o o' ho ho' hne := by
    rw [htrees, ho] at ho'
    exact absurd (Option.some.inj ho').symm hne

theorem served_congr {t : NsdlInterface} (hsent : t.sent = s.sent) (htrees : t.trees = s.trees) :
    Served header s s' ↔ Served header t s' := by
  constructor
  · rintro ⟨hanswered, hlength, hkept, haddressed⟩
    exact ⟨by rwa [hsent, htrees], by rwa [htrees], by rwa [htrees], by rwa [htrees]⟩
  · rintro ⟨hanswered, hlength, hkept, haddressed⟩
    exact ⟨by rwa [← hsent, ← htrees], by rwa [← htrees], by rwa [← htrees], by rwa [← htrees]⟩

theorem not_served (hsent : s'.sent = s.sent) : ¬Served header s s' := fun h => by
  obtain ⟨response, hresponse, -⟩ := h.answered
  simp [hsent] at hresponse

/-- What is left of a POST once the new instance has been posted to. -/
theorem postToObject_eq {i : Nat} {response : Option Response} {told : Bool} {o' : ObjectNode}
    (hrun : createAndPost w header s o id = some (response, told, o', h)) :
    ∃ s', postToObject w header s i o id = some s' ∧ s'.sent = s.sent ++ response.toList ∧
      s'.objects = s.objects.set i (if response.any (·.msgCode ≠ .created) then
        (o'.removeObjectInstance id).2 else o') := by
  rw [postToObject, hrun]
  refine ⟨_, rfl, ?_, ?_⟩
  all_goals cases response with
    | none => cases told <;> simp [NsdlInterface.send, sendUpdateRegistration, NsdlInterface.tell,
        NsdlInterface.sent]
    | some response =>
      by_cases hcode : response.msgCode = .created <;> cases told <;>
        simp [hcode, NsdlInterface.send, sendUpdateRegistration, NsdlInterface.tell,
          NsdlInterface.sent]

theorem trees_set {i : Nat} {o' : ObjectNode} {objects : List ObjectNode}
    (h : s'.objects = objects.set i o') :
    s'.trees = (objects.map (·.toNamedObject)).set i o'.toNamedObject := by
  rw [NsdlInterface.trees, h, List.map_set]

theorem sent_send (response : Option Response) :
    (s.send response).sent = s.sent ++ response.toList := by
  cases response <;> simp [NsdlInterface.send]

theorem trees_send (response : Option Response) : (s.send response).trees = s.trees := by
  cases response <;> rfl

/-- The numeral in the path is that of the id. -/
theorem uriPath_of_addressed {uriPath text : Bytes} {n : Nat} (hname : 0 ∉ o.name)
    (hpath : coapToString (some uriPath) = o.name ++ slash :: text)
    (hid : (id.toNat : Int) = Interface.atoi text) (hn : n < 65535)
    (h : uriPath = o.name ++ slash :: Decimal.digits n) :
    uriPath = o.name ++ slash :: idText id := by
  have hdigits : 0 ∉ Decimal.digits n := fun hc =>
    absurd (Decimal.digits_isDigit n 0 hc) (by decide)
  have hcstr : coapToString (some uriPath) = uriPath :=
    coapToString_of_notMem (by simp [h, hname, hdigits, slash])
  have htext : text = Decimal.digits n := by
    have happend := hpath.symm.trans (hcstr.trans h)
    simpa using List.append_cancel_left happend
  rw [htext, atoi_digits hn] at hid
  rw [h, idText, Int.ofNat_inj.mp hid]

/-- An instance that has been added and is kept is one that the path addresses. -/
theorem served_added {i : Nat} {o' : ObjectNode} {oi : M2MObjectInstance} {response : Response}
    (ho : s.objects[i]? = some o) (hsent : s'.sent = s.sent ++ [response])
    (hcode : response.msgCode = .created)
    (ho' : o'.toNamedObject = ⟨⟨o.instances ++ [oi]⟩, o.name⟩)
    (hobjects : s'.objects = s.objects.set i o') : Served header s s' ↔
      ∃ n < 65535, header.uriPath = some (o.name ++ slash :: Decimal.digits n) := by
  have htree : s.trees[i]? = some o.toNamedObject := by simp [NsdlInterface.trees, ho]
  have htrees : s'.trees = s.trees.set i o'.toNamedObject := trees_set hobjects
  have hlt : i < s.trees.length := (List.getElem?_eq_some_iff.mp htree).1
  have hnew : s'.trees[i]? = some o'.toNamedObject := by
    rw [htrees, List.getElem?_set_self hlt]
  constructor
  · intro h
    refine h.addressed i _ _ htree hnew fun hc => ?_
    have hinstances := congrArg (fun o : NamedObject => o.instances) (ho'.symm.trans hc)
    simp at hinstances
  · rintro ⟨n, hn, huri⟩
    refine ⟨⟨response, hsent, fun hc => absurd hcode hc⟩, by rw [htrees, List.length_set], ?_, ?_⟩
    · intro j a ha
      by_cases hj : i = j
      · subst hj
        obtain rfl := Option.some.inj (htree.symm.trans ha)
        exact ⟨_, hnew, by rw [ho'], by rw [ho']; exact List.prefix_append _ _⟩
      · exact ⟨a, by rw [htrees, List.getElem?_set_ne hj, ha], rfl, List.prefix_rfl⟩
    · intro j a a' ha ha' hne
      by_cases hj : i = j
      · subst hj
        obtain rfl := Option.some.inj (htree.symm.trans ha)
        exact ⟨n, hn, huri⟩
      · rw [htrees, List.getElem?_set_ne hj, ha] at ha'
        exact absurd (Option.some.inj ha').symm hne

/-- A POST that is to create an instance. -/
theorem created_served {i : Nat} (hn : NamesFit s.objects)
    (hplan : postPlan header s.objects = .create i o id) :
    (∃ s', postToObject w header s i o id = some s' ∧ Served header s s') ↔
      Servable w header s := by
  obtain ⟨ho, uriPath, text, huri, hpath, hid, hlt, data, hdata⟩ := postPlan_create hplan
  obtain ⟨hlength, hname⟩ := hn o (List.mem_of_getElem? ho)
  rw [Servable, hplan]
  by_cases hnew : o.objectInstance id = none ∧ s.heap.newNode.1 = true
  swap
  · obtain ⟨h, hrun⟩ := createAndPost_missing w header hnew
    obtain ⟨s', hpost, hsent, -⟩ := postToObject_eq (i := i) hrun
    refine iff_of_false (fun ⟨s'', hs'', hserved⟩ => ?_) fun hc => hnew ⟨hc.1, hc.2.1⟩
    obtain rfl := Option.some.inj (hpost.symm.trans hs'')
    exact not_served (by simpa using hsent) hserved
  · obtain ⟨f, hf, hcreate⟩ := createAndPost_created w header hnew.1 hnew.2
    cases hbuilt : w.buildResponse header .changed with
    | none =>
      refine iff_of_false (fun ⟨s', hs', hserved⟩ => ?_) fun hc => by simp at hc
      cases hhandled : handlePostRequestObjectInstance w header ⟨id, []⟩ newParams s.heap.newNode.2
          o.name with
      | none =>
        rw [hhandled] at hcreate
        simp [postToObject, hcreate] at hs'
      | some handled =>
        rw [hhandled, Option.map_some, post_new_unanswered hbuilt hhandled] at hcreate
        obtain ⟨s'', hpost, hsent, -⟩ := postToObject_eq (i := i) hcreate
        obtain rfl := Option.some.inj (hpost.symm.trans hs')
        exact not_served (by simpa using hsent) hserved
    | some built =>
      obtain ⟨handled, answered, hhandled, hanswered, hentity, hstays⟩ :=
        post_new_answered id s.heap.newNode.2 hbuilt hdata hlength
      rw [hhandled, Option.map_some, hanswered] at hcreate
      obtain ⟨s', hpost, hsent, hobjects⟩ := postToObject_eq (i := i) hcreate
      have hexists : (∃ s', postToObject w header s i o id = some s' ∧ Served header s s') ↔
          Served header s s' := by simp [hpost]
      rw [hexists]
      by_cases hs : Stays w header id
      · have hcode : answered.msgCode = .created := hstays.mpr hs
        simp only [Option.any_some, hcode, ne_eq, not_true_eq_false, decide_false,
          Bool.false_eq_true, if_false] at hobjects
        rw [served_added ho hsent hcode (hf _) hobjects]
        constructor
        · rintro ⟨n, hn', haddressed⟩
          refine ⟨hnew.1, hnew.2, rfl, fun _ => ?_⟩
          rw [huri, Option.some.injEq] at haddressed ⊢
          exact uriPath_of_addressed hname hpath hid hn' haddressed
        · exact fun hc => ⟨id.toNat, hlt, hc.2.2.2 hs⟩
      · have hcode : answered.msgCode ≠ .created := fun hc => hs (hstays.mp hc)
        simp only [Option.any_some, hcode, ne_eq, not_false_eq_true, decide_true, if_true]
          at hobjects
        refine iff_of_true ?_ ⟨hnew.1, hnew.2, rfl, fun hc => absurd hc hs⟩
        have htree : s.trees[i]? = some o.toNamedObject := by simp [NsdlInterface.trees, ho]
        refine .of_same hsent ?_
        rw [trees_set hobjects, removeObjectInstance_added hnew.1 hentity (hf _)]
        obtain ⟨hi, heq⟩ := List.getElem?_eq_some_iff.mp htree
        exact heq ▸ List.set_getElem_self hi

/-- Object "3" with instance 0, which has no resources. -/
def onlyZero : ObjectNode := ⟨⟨⟨[⟨0, []⟩]⟩, [0x33]⟩, fun _ => {}⟩

/-- A POST to "3/0" or "3/1" with a resource 0 that is "A". -/
def postTo (digit : UInt8) : CoapHeader :=
  { plainRequest .requestPost with
    msgId := 9
    uriPath := some [0x33, slash, digit]
    payloadPtr := some fun i => [0xC1, 0x00, 0x41].getD i 0
    payloadLen := 3 }

def withObject : NsdlInterface := { initialInterface with objects := [onlyZero] }

theorem withObject_namesFit : NamesFit withObject.objects := by
  simp [NamesFit, withObject, onlyZero, maxNameSize]

end Served

end MbedClient.Nsdl
