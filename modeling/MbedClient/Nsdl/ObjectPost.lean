import MbedClient.Nsdl.Delete
import MbedClient.Tlv.Spared

/-! A POST to an object: it creates an instance, decodes into it, and keeps it whatever the decoder
answers. -/
namespace MbedClient.Nsdl
open Tlv (Addressee)
variable {w : Surroundings} {request : CoapHeader} {o : ObjectNode} {h : Heap}
  {data : Nat → UInt8} {id : UInt16}

section Create

theorem createObjectInstance_eq (hid : o.objectInstance id = none) :
    let made := o.createObjectInstance id h
    made.1 = h.newNode.1 ∧ made.2.2 = h.newNode.2 ∧ made.2.1.name = o.name ∧
      made.2.1.instances = (if h.newNode.1 then o.instances ++ [⟨id, []⟩] else o.instances) ∧
      (h.newNode.1 = false → made.2.1 = o) := by
  rw [ObjectNode.createObjectInstance, hid]
  cases hn : h.newNode.1 <;> simp [hn, ObjectNode.grow, ObjectNode.setParams]

end Create

section Deserialize
variable {created : Bool}

theorem deserializePost_object (hd : Tlv.isType typeObjectInstance (some data) = true) :
    let out := deserializePost request o data created h
    (out.1 = .none ↔
      (Addressee.object o.toM2MObject).Accepted data request.payloadLen.toNat .post) ∧
      o.instances.length ≤ out.2.1.instances.length ∧ out.2.1.name = o.name := by
  have hnone := Tlv.deserialize_none (a := .object o.toM2MObject) data
    request.payloadLen.toNat .post ⟨h, []⟩ rfl
  have hlength := Tlv.deserialise_length data request.payloadLen.toNat .post o.toM2MObject
    ⟨h, []⟩
  rw [deserializePost, if_pos hd]
  exact ⟨hnone, hlength, rfl⟩

theorem deserializePost_instance {init : List M2MObjectInstance} {oi : M2MObjectInstance}
    (hd : Tlv.isType typeObjectInstance (some data) = false) (ho : o.instances = init ++ [oi]) :
    let out := deserializePost request o data true h
    (out.1 = .none ↔ (Addressee.objectInstance oi).Accepted data request.payloadLen.toNat .post) ∧
      out.2.1.instances.length = o.instances.length ∧ out.2.1.name = o.name := by
  have hnone := Tlv.deserialize_none (a := .objectInstance oi) data
    request.payloadLen.toNat .post ⟨h, []⟩ rfl
  have hlast : (o.instances.getLast?.filter fun _ => true) = some oi := by simp [ho]
  rw [deserializePost, if_neg (by simp [hd]), hlast]
  by_cases hstart : (Tlv.isType typeResource (some data) ||
      Tlv.isType typeMultipleResource (some data)) = true
  · simp only [hstart, if_true]
    exact ⟨hnone, by simp [ObjectNode.grow, ho], rfl⟩
  · simp only [hstart]
    refine ⟨iff_of_false (by simp) fun hc => hstart ?_, rfl, rfl⟩
    rw [Tlv.recType_zero, Tlv.recType_zero]
    exact hc.1

theorem deserializePost_missing (hd : Tlv.isType typeObjectInstance (some data) = false) :
    deserializePost request o data false h = (.notValid, o, h) := by
  have hlast : (o.instances.getLast?.filter fun _ => false) = none := by
    cases o.instances.getLast? <;> rfl
  rw [deserializePost, if_neg (by simp [hd]), hlast]

end Deserialize

section Post

/-- The payload of a POST and the id of the instance it is to create; nothing if the request is
refused before that. -/
def posted (w : Surroundings) (request : CoapHeader) (o : ObjectNode) :
    Option ((Nat → UInt8) × UInt16) := do
  let data ← request.payloadPtr
  let free ← freeInstanceId o
  let isObjInstance := Tlv.isType typeObjectInstance (some data)
  let id := if isObjInstance then recId data 0 else free
  if o.own.operation &&& snGrsPostAllowed ≠ 0 ∧
      request.contentType (w.buildResponse request .changed).isSome o.own.coapContentType =
        coapContentOmaTlvType ∧ ¬(isObjInstance && (o.objectInstance id).isSome) = true then
    some (data, id)
  else none

def decoded (request : CoapHeader) (o : ObjectNode) (data : Nat → UInt8) (id : UInt16) (h : Heap) :
    Tlv.Error × ObjectNode × Heap :=
  let (created, o, h) := o.createObjectInstance id h
  let n := Identity.objectInstance o.name id
  deserializePost request
    (if created then o.setParams n { o.params n with operation := getPutAllowed }
    else o) data created h

theorem post_refused (hp : posted w request o = none) : ∃ msgCode, msgCode ≠ .created ∧
    handlePostRequestObject w request o h =
      some { response := answer (w.buildResponse request .changed) msgCode, entity := o,
             heap := h } := by
  unfold handlePostRequestObject
  by_cases hop : o.own.operation &&& snGrsPostAllowed ≠ 0
  · rw [if_pos hop]
    cases hdata : request.payloadPtr with
    | none => exact ⟨.badRequest, by simp, rfl⟩
    | some data =>
      by_cases htype : request.contentType (w.buildResponse request .changed).isSome
          o.own.coapContentType = coapContentOmaTlvType
      · simp only [if_pos htype]
        cases hfree : freeInstanceId o with
        | none => exact ⟨.methodNotAllowed, by simp, rfl⟩
        | some free =>
          by_cases hexists : (Tlv.isType typeObjectInstance (some data) && (o.objectInstance
              (if Tlv.isType typeObjectInstance (some data) then recId data 0 else free)).isSome) =
                true
          · simp only [if_pos hexists]
            exact ⟨.badRequest, by simp, rfl⟩
          · refine absurd ?_ hexists
            simpa [posted, hdata, hfree, hop, htype, Option.isSome_iff_ne_none] using hp
      · simp only [if_neg htype]
        exact ⟨.unsupportedContentFormat, by simp, rfl⟩
  · rw [if_neg hop]
    exact ⟨.methodNotAllowed, by simp, rfl⟩

theorem posted_some (hp : posted w request o = some (data, id)) : request.payloadPtr = some data ∧
    o.own.operation &&& snGrsPostAllowed ≠ 0 ∧
    request.contentType (w.buildResponse request .changed).isSome o.own.coapContentType =
      coapContentOmaTlvType ∧
    ∃ free, freeInstanceId o = some free ∧
      id = (if Tlv.isType typeObjectInstance (some data) then recId data 0 else free) ∧
      (Tlv.isType typeObjectInstance (some data) && (o.objectInstance id).isSome) = false := by
  simp only [posted, Option.bind_eq_bind, Option.bind_eq_some_iff, Option.ite_none_right_eq_some,
    Option.some.injEq, Prod.mk.injEq] at hp
  obtain ⟨data', hdata, free, hfree, ⟨hop, htype, hexists⟩, rfl, rfl⟩ := hp
  exact ⟨hdata, hop, htype, free, hfree, rfl, by simpa only [Bool.not_eq_true] using hexists⟩

theorem objectInstance_free {free : UInt16} (hf : freeInstanceId o = some free) :
    o.objectInstance free = none := by
  obtain ⟨i, hi, rfl⟩ := Option.map_eq_some_iff.mp hf
  simpa using List.find?_some hi

theorem posted_fresh (hp : posted w request o = some (data, id)) : o.objectInstance id = none := by
  obtain ⟨-, -, -, free, hfree, hid, hexists⟩ := posted_some hp
  cases hd : Tlv.isType typeObjectInstance (some data) with
  | true => simpa [hd] using hexists
  | false =>
    rw [hd] at hid
    obtain rfl : id = free := hid
    exact objectInstance_free hfree

/-- A request that is not refused is decoded, and answered with 2.01 if that goes well. -/
theorem post_run (hp : posted w request o = some (data, id)) :
    handlePostRequestObject w request o h =
      let (error, o, h) := decoded request o data id h
      if error = .none then
        match w.buildResponse request .changed with
        | none => none
        | some response =>
          let (options, h) := h.malloc
          let path := if options then locationPath o id else none
          let (copied, h) := if path.isSome then h.malloc else (false, h)
          some { response := some { response with
                   msgCode := .created, locationPath := if copied then path else none }
                 entity := o, heap := h, executeValueUpdated := true }
      else
        some { response := answer (w.buildResponse request .changed) (errorCode .created error)
               entity := o, heap := h } := by
  obtain ⟨hdata, hop, htype, free, hfree, hid, hexists⟩ := posted_some hp
  rw [handlePostRequestObject, if_pos hop]
  simp only [hdata, if_pos htype, hfree, ← hid, hexists, Bool.false_eq_true, if_false]
  rfl

theorem post_decoded (hp : posted w request o = some (data, id)) :
    let out := decoded request o data id h
    (out.1 = .none → ∀ handled, handlePostRequestObject w request o h = some handled →
      handled.response.map (·.msgCode) = some .created) ∧
    (out.1 ≠ .none → ∃ handled, handlePostRequestObject w request o h = some handled ∧
      handled.response.map (·.msgCode) ≠ some .created ∧ handled.entity = out.2.1) := by
  intro out
  rw [post_run hp]
  refine ⟨fun hnone handled hhandled => ?_, fun herror => ?_⟩
  · simp only [out] at hnone
    simp only [if_pos hnone] at hhandled
    cases hbuilt : w.buildResponse request .changed with
    | none => simp [hbuilt] at hhandled
    | some response =>
      simp only [hbuilt] at hhandled
      obtain rfl := Option.some.inj hhandled
      rfl
  · simp only [out] at herror
    simp only [if_neg herror]
    refine ⟨_, rfl, fun hc => ?_, rfl⟩
    obtain ⟨response, hresponse, hcode⟩ := Option.map_eq_some_iff.mp hc
    obtain ⟨built, -, rfl⟩ := Option.map_eq_some_iff.mp hresponse
    cases he : (decoded request o data id h).1 <;> simp [he, errorCode] at hcode herror

end Post

section Undo

/-- The decoder finds no error in the payload of a POST: it gets the object with the instance that
has been created, or that instance alone. -/
def Decodes (request : CoapHeader) (o : ObjectNode) (data : Nat → UInt8) (id : UInt16)
    (created : Bool) : Prop :=
  let size := request.payloadLen.toNat
  if Tlv.isType typeObjectInstance (some data) then
    (Addressee.object ⟨if created then o.instances ++ [⟨id, []⟩] else o.instances⟩).Accepted
      data size .post
  else created = true ∧ (Addressee.objectInstance ⟨id, []⟩).Accepted data size .post

/-- The decoder runs on the object with the new instance, if there is one. -/
theorem decoded_eq (request : CoapHeader) (data : Nat → UInt8) (h : Heap)
    (hid : o.objectInstance id = none) : ∃ o' : ObjectNode,
    decoded request o data id h =
      deserializePost request o' data h.newNode.1 h.newNode.2 ∧
    o'.instances = (if h.newNode.1 then o.instances ++ [⟨id, []⟩] else o.instances) ∧
    (h.newNode.1 = false → o' = o) := by
  obtain ⟨hcreated, hheap, -, hinstances, hsame⟩ := createObjectInstance_eq (h := h) hid
  rw [decoded]
  simp only [hcreated, hheap]
  refine ⟨_, rfl, ?_, fun hc => ?_⟩
  · rw [← hinstances]
    split_ifs <;> rfl
  · rw [if_neg (by simp [hc])]
    exact hsame hc

theorem decoded_none (hid : o.objectInstance id = none) :
    (decoded request o data id h).1 = .none ↔ Decodes request o data id h.newNode.1 := by
  obtain ⟨o', heq, hinstances, -⟩ := decoded_eq request data h hid
  rw [heq, Decodes]
  cases hd : Tlv.isType typeObjectInstance (some data) with
  | true =>
    have hobj : o'.toM2MObject =
        ⟨if h.newNode.1 then o.instances ++ [⟨id, []⟩] else o.instances⟩ := by
      rw [← hinstances]
    rw [if_pos rfl, ← hobj]
    exact (deserializePost_object hd).1
  | false =>
    cases hc : h.newNode.1 with
    | true =>
      rw [hc, if_pos rfl] at hinstances
      simpa using (deserializePost_instance hd hinstances).1
    | false => simp [deserializePost_missing hd]

/-- A created instance stays. -/
theorem decoded_created (hid : o.objectInstance id = none) (hc : h.newNode.1 = true) :
    (decoded request o data id h).2.1.toNamedObject ≠ o.toNamedObject := by
  obtain ⟨o', heq, hinstances, -⟩ := decoded_eq request data h hid
  rw [hc] at heq
  rw [hc, if_pos rfl] at hinstances
  have hgrown : o'.instances.length ≤ (decoded request o data id h).2.1.instances.length := by
    rw [heq]
    cases hd : Tlv.isType typeObjectInstance (some data) with
    | true => exact (deserializePost_object hd).2.1
    | false => exact (deserializePost_instance hd hinstances).2.1.ge
  intro hsame
  have hlength := congrArg (fun n : NamedObject => n.instances.length) hsame
  simp only [hinstances, List.length_append, List.length_singleton] at hgrown hlength
  omega

theorem decoded_missing (hid : o.objectInstance id = none) (hc : h.newNode.1 = false) :
    decoded request o data id h = deserializePost request o data false h.newNode.2 := by
  obtain ⟨o', heq, -, hsame⟩ := decoded_eq request data h hid
  rw [heq, hsame hc, hc]

/-- When a POST is rejected without a trace: it passes the decoder, or neither the new instance nor
anything else that the decoder misses can be allocated. -/
def Undone (w : Surroundings) (request : CoapHeader) (o : ObjectNode) (h : Heap) : Prop :=
  ∀ data id, posted w request o = some (data, id) →
    Decodes request o data id h.newNode.1 ∨ h.newNode.1 = false ∧
      (Tlv.isType typeObjectInstance (some data) = true →
        Tlv.Starved (Tlv.missed data .post true o.toM2MObject
          ((Addressee.object o.toM2MObject).visits data request.payloadLen.toNat)) h.newNode.2)

theorem missing_same_iff (hd : ¬Decodes request o data id false) :
    (deserializePost request o data false h).2.1.toNamedObject = o.toNamedObject ↔
      (Tlv.isType typeObjectInstance (some data) = true →
        Tlv.Starved (Tlv.missed data .post true o.toM2MObject
          ((Addressee.object o.toM2MObject).visits data request.payloadLen.toNat)) h) := by
  cases htype : Tlv.isType typeObjectInstance (some data) with
  | false => simp [deserializePost_missing htype]
  | true =>
    rw [Decodes, if_pos htype] at hd
    have hsame := Tlv.deserialize_same_iff (a := .object o.toM2MObject) ⟨h, []⟩
      ((Tlv.recType_zero data typeObjectInstance).symm.trans htype) hd
    rw [deserializePost, if_pos htype, forall_prop_of_true rfl]
    refine Iff.trans ⟨fun he => ?_, fun he => ?_⟩ hsame
    · have hinstances := congrArg NamedObject.toM2MObject he
      exact congrArg Addressee.object hinstances
    · have hinstances := Addressee.object.inj he
      exact congrArg (fun obj : M2MObject => { o.toNamedObject with toM2MObject := obj }) hinstances

/-- A POST that is not answered with 2.01 leaves the object as it was if it is refused before an
instance is created, if its payload passes the decoder, or if nothing could be allocated. -/
theorem rejected_post_harmless : (∀ handled, handlePostRequestObject w request o h = some handled →
    handled.response.map (·.msgCode) ≠ some .created →
      handled.entity.toNamedObject = o.toNamedObject) ↔ Undone w request o h := by
  cases hp : posted w request o with
  | none =>
    obtain ⟨msgCode, -, hrun⟩ := post_refused (h := h) hp
    refine iff_of_true (fun handled hhandled _ => ?_) (by simp [Undone, hp])
    obtain rfl := Option.some.inj (hrun.symm.trans hhandled)
    rfl
  | some p =>
    obtain ⟨data, id⟩ := p
    have hid := posted_fresh hp
    obtain ⟨haccepted, hrejected⟩ := post_decoded (h := h) hp
    by_cases hdecodes : Decodes request o data id h.newNode.1
    · have hnone := (decoded_none hid).mpr hdecodes
      refine iff_of_true (fun handled hhandled hcode =>
        absurd (haccepted hnone handled hhandled) hcode) fun data' id' hp' => ?_
      obtain ⟨rfl, rfl⟩ := Prod.mk.inj (Option.some.inj (hp.symm.trans hp'))
      exact .inl hdecodes
    · obtain ⟨handled, hhandled, hcode, hentity⟩ := hrejected (mt (decoded_none hid).mp hdecodes)
      have hkept : (∀ handled', handlePostRequestObject w request o h = some handled' →
          handled'.response.map (·.msgCode) ≠ some .created →
            handled'.entity.toNamedObject = o.toNamedObject) ↔
          (decoded request o data id h).2.1.toNamedObject = o.toNamedObject := by
        rw [← hentity]
        refine ⟨fun hall => hall handled hhandled hcode, fun hsame handled' hhandled' _ => ?_⟩
        obtain rfl := Option.some.inj (hhandled.symm.trans hhandled')
        exact hsame
      have hundone : Undone w request o h ↔ h.newNode.1 = false ∧
          (Tlv.isType typeObjectInstance (some data) = true →
            Tlv.Starved (Tlv.missed data .post true o.toM2MObject
              ((Addressee.object o.toM2MObject).visits data request.payloadLen.toNat))
                h.newNode.2) := by
        refine ⟨fun hall => (hall data id hp).resolve_left hdecodes, fun hc data' id' hp' => ?_⟩
        obtain ⟨rfl, rfl⟩ := Prod.mk.inj (Option.some.inj (hp.symm.trans hp'))
        exact .inr hc
      rw [hkept, hundone]
      cases hc : h.newNode.1 with
      | true => exact iff_of_false (decoded_created hid hc) (by simp)
      | false =>
        rw [hc] at hdecodes
        rw [decoded_missing hid hc, missing_same_iff hdecodes, and_iff_right rfl]

/-- An object that may be posted to, without an instance. -/
def emptyObject : ObjectNode := ⟨⟨⟨[]⟩, [0x33]⟩, fun _ => { operation := getPutPostDeleteAllowed }⟩

/-- A POST of an object instance record whose contents is a record of that type again. -/
def badPost : CoapHeader :=
  { plainRequest .requestPost with
    contentFormat := some coapContentOmaTlvType
    payloadPtr := some fun i => [0x02, 0x05, 0x00, 0x00].getD i 0
    payloadLen := 4 }

/-- The payload is refused, and its instance 5 stays. -/
theorem rejected_post_grows : ∃ handled,
    handlePostRequestObject echo badPost emptyObject granted = some handled ∧
      handled.response.map (·.msgCode) = some .badRequest ∧
      handled.entity.toNamedObject ≠ emptyObject.toNamedObject := by
  have hrun : (handlePostRequestObject echo badPost emptyObject granted).map
      (fun handled => (handled.response.map (·.msgCode), handled.entity.instances)) =
        some (some .badRequest, [⟨5, []⟩]) := by
    decide +kernel
  obtain ⟨handled, hhandled, heq⟩ := Option.map_eq_some_iff.mp hrun
  refine ⟨handled, hhandled, congrArg Prod.fst heq, fun hc => ?_⟩
  have hinstances : handled.entity.instances = [⟨5, []⟩] := congrArg Prod.snd heq
  rw [hc] at hinstances
  simp [emptyObject] at hinstances

end Undo
end MbedClient.Nsdl
