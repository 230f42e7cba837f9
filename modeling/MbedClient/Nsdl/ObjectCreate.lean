import MbedClient.Nsdl.ServerPost

/-! A POST to an object with the resources of a new instance: where it is answered with 2.01, it has
added one instance, under the least free id, and changed nothing else. -/
namespace MbedClient.Nsdl
open Tlv (Addressee Stable stable_const)
variable {w : Surroundings} {request : CoapHeader} {o o' : ObjectNode} {data : Nat → UInt8}
  {id : UInt16} {h : Heap}

section Id

def Free (o : ObjectNode) (id : UInt16) : Prop := id ∉ o.instances.map (·.instanceId)

theorem objectInstance_none_iff : o.objectInstance id = none ↔ Free o id := by
  simp [ObjectNode.objectInstance, Free]

/-- The search takes the first id that is free. -/
theorem freeInstanceId_least (hf : freeInstanceId o = some id) :
    Free o id ∧ ∀ j, Free o j → id ≤ j := by
  refine ⟨objectInstance_none_iff.mp (objectInstance_free hf), fun j hj => ?_⟩
  obtain ⟨i, hi, rfl⟩ := Option.map_eq_some_iff.mp hf
  obtain ⟨-, hlt, hbefore⟩ := List.find?_range_eq_some.mp hi
  have hnat : (UInt16.ofNat i).toNat = i := UInt16.toNat_ofNat_of_lt' (List.mem_range.mp hlt)
  rw [UInt16.le_iff_toNat_le, hnat]
  by_contra hless
  -- a smaller free id would have been found before
  have htaken := hbefore j.toNat (by omega)
  rw [UInt16.ofNat_toNat, objectInstance_none_iff.mpr hj] at htaken
  exact absurd htaken (by decide)

end Id

section Frame

theorem grow_params {obj : M2MObject} {n : Identity} (hn : n ∈ identities [o.toNamedObject]) :
    (o.grow obj).params n = o.params n := if_pos hn

theorem identities_append {oi : M2MObjectInstance} {n : Identity} (hname : o'.name = o.name)
    (hinstances : o'.instances = o.instances ++ [oi]) (hn : n ∈ identities [o.toNamedObject]) :
    n ∈ identities [o'.toNamedObject] := by
  simp only [identities, List.flatMap_cons, List.flatMap_nil, List.append_nil, List.mem_cons,
    hname, hinstances, List.flatMap_append, List.mem_append] at hn ⊢
  exact hn.imp_right .inl

/-- What was there before has kept its parameters. -/
def KeepsParams (o o' : ObjectNode) : Prop :=
  ∀ n ∈ identities [o.toNamedObject], o'.params n = o.params n

theorem setParams_keeps (hid : Free o id) (hkeeps : KeepsParams o o') (p : Params) :
    KeepsParams o (o'.setParams (.objectInstance o.name id) p) := by
  intro n hn
  have hne : n ≠ .objectInstance o.name id := by
    rintro rfl
    obtain ⟨o₁, ho₁, -, hmem⟩ := mem_identities_objectInstance.mp hn
    rw [List.mem_singleton.mp ho₁] at hmem
    exact hid hmem
  have hupdate : (o'.setParams (.objectInstance o.name id) p).params n = o'.params n := by
    simp [ObjectNode.setParams, hne]
  rw [hupdate]
  exact hkeeps n hn

/-- The object that the decoder of a POST gets. -/
theorem created_object (hid : Free o id) (hc : h.newNode.1 = true) (p : Params) :
    let n := Identity.objectInstance (o.createObjectInstance id h).2.1.name id
    let o' := (o.createObjectInstance id h).2.1.setParams n p
    o'.name = o.name ∧ o'.instances = o.instances ++ [⟨id, []⟩] ∧ KeepsParams o o' := by
  have hmade : (o.createObjectInstance id h).2.1 = (o.grow ⟨o.instances ++ [⟨id, []⟩]⟩).setParams
      (.objectInstance o.name id) { coapContentType := coapContentOmaTlvType.toUInt8 } := by
    rw [ObjectNode.createObjectInstance, objectInstance_none_iff.mpr hid]
    simp only [Option.isNone_none, if_true, hc]
    rfl
  rw [hmade]
  refine ⟨rfl, rfl, ?_⟩
  apply setParams_keeps hid
  apply setParams_keeps hid
  intro n hn
  exact grow_params hn

end Frame

section Decode

/-- The payload starts with a resource or with a multiple resource. -/
def StartsWithResource (data : Nat → UInt8) : Prop :=
  recType data 0 = typeResource ∨ recType data 0 = typeMultipleResource

theorem StartsWithResource.types (hs : StartsWithResource data) :
    Tlv.isType typeObjectInstance (some data) = false ∧
      (Tlv.isType typeResource (some data) || Tlv.isType typeMultipleResource (some data)) =
        true := by
  rw [Tlv.recType_zero, Tlv.recType_zero, Tlv.recType_zero]
  obtain hs | hs := hs <;> rw [hs] <;> decide

/-- Resources are decoded into the last instance, and into nothing else. -/
theorem deserializePost_resources (request : CoapHeader) (h : Heap) (hs : StartsWithResource data)
    {init : List M2MObjectInstance} {oi : M2MObjectInstance}
    (ho : o.instances = init ++ [oi]) :
    let out := deserializePost request o data true h
    ∃ oi', oi'.instanceId = oi.instanceId ∧ out.2.1.instances = init ++ [oi'] ∧
      out.2.1.name = o.name ∧ KeepsParams o out.2.1 ∧ ∀ H, Stable H → H h → H out.2.2 := by
  obtain ⟨hobj, hstart⟩ := hs.types
  have hlast : (o.instances.getLast?.filter fun _ => true) = some oi := by simp [ho]
  have hinstanceId := deserialized_instanceId data request.payloadLen.toNat .post oi ⟨h, []⟩
  have hheap : ∀ H, Stable H → H h → H (Tlv.deserializeResources (some data)
      request.payloadLen.toNat .post (oi, ⟨h, []⟩)).2.2.heap := fun H hH hs =>
    Tlv.deserialize_heap data request.payloadLen.toNat .post (.objectInstance oi) ⟨h, []⟩ hH hs
  rw [deserializePost, if_neg (by simp [hobj]), hlast]
  simp only [hstart, if_true]
  refine ⟨_, hinstanceId, ?_, rfl, fun n hn => grow_params hn, hheap⟩
  simp [ObjectNode.grow, ho]

theorem decoded_resources (request : CoapHeader) (hs : StartsWithResource data) (hid : Free o id) :
    let out := decoded request o data id (fun _ => true)
    ∃ oi, oi.instanceId = id ∧ out.2.1.instances = o.instances ++ [oi] ∧ out.2.1.name = o.name ∧
      KeepsParams o out.2.1 ∧ out.2.2 = fun _ => true := by
  have hmade := createObjectInstance_eq (h := fun _ => true) (objectInstance_none_iff.mpr hid)
  have hnode : Heap.newNode (fun _ => true) = (true, fun _ => true) := rfl
  simp only [hnode] at hmade
  obtain ⟨hcreated, hheap, -⟩ := hmade
  obtain ⟨hname, hinstances, hkeeps⟩ := created_object (h := fun _ => true) hid rfl
    { (o.createObjectInstance id fun _ => true).2.1.params
        (.objectInstance (o.createObjectInstance id fun _ => true).2.1.name id) with
      operation := getPutAllowed }
  rw [decoded]
  simp only [hcreated, hheap, if_true]
  obtain ⟨oi, hoi, hout, hname', hkeeps', hstable⟩ :=
    deserializePost_resources request (fun _ => true) hs hinstances
  refine ⟨oi, hoi, hout, hname'.trans hname, fun n hn => ?_, hstable _ (stable_const true) rfl⟩
  rw [hkeeps' n (identities_append hname hinstances hn), hkeeps n hn]

theorem locationPath_eq (hname : o.name.length ≤ maxNameSize) :
    locationPath o id = some (joinPath [o.name, idText id]) := by
  have hlen := length_idText_le id
  have htext :=
    StringBuffer.foldl_append_text (.new (by decide) : StringBuffer (255 + 1 + 5 + 1 + 5 + 1))
    [o.name, [slash], idText id] (by simp [StringBuffer.new, maxNameSize] at *; omega)
  have hparts : [o.name, [slash], idText id].flatten = joinPath [o.name, idText id] := by
    simp [joinPath, List.intercalate]
  have hspace : (.new (by decide) : StringBuffer (255 + 1 + 5 + 1 + 5 + 1)).ensureSpace
      (o.name.length + (1 + 5 + 1)) = true := by
    apply decide_eq_true
    simp only [StringBuffer.new, List.length_nil, maxNameSize] at *
    omega
  rw [hparts] at htext
  simp only [List.foldl_cons, List.foldl_nil] at htext
  simp only [locationPath, hspace, if_true, StringBuffer.appendInt, itoaC_ofNat, htext]
  rfl

end Decode

/-- One instance more, with the least id that was free; its location in the response; nothing else
has changed. -/
def CreatesOne (o o' : ObjectNode) (response : Response) : Prop :=
  ∃ oi, o'.instances = o.instances ++ [oi] ∧ o'.name = o.name ∧ Free o oi.instanceId ∧
    (∀ j, Free o j → oi.instanceId ≤ j) ∧
    response.locationPath = some (joinPath [o.name, idText oi.instanceId]) ∧ KeepsParams o o'

/-- `M2MObject`s have names of at most 64 characters, as the constructor of `M2MBase` asserts. -/
theorem post_createsOne (hname : o.name.length ≤ maxNameSize)
    (hdata : request.payloadPtr = some data)
    (hs : StartsWithResource data) {handled : Handled ObjectNode} {response : Response}
    (hrun : handlePostRequestObject w request o (fun _ => true) = some handled)
    (hresponse : handled.response = some response) (hcode : response.msgCode = .created) :
    CreatesOne o handled.entity response := by
  cases hp : posted w request o with
  | none =>
    obtain ⟨msgCode, hne, hrefused⟩ := post_refused (h := fun _ => true) hp
    obtain rfl := Option.some.inj (hrefused.symm.trans hrun)
    obtain ⟨built, -, rfl⟩ := Option.map_eq_some_iff.mp hresponse
    exact absurd hcode hne
  | some p =>
    obtain ⟨data', id⟩ := p
    obtain ⟨hdata', -, -, free, hfree, hid, -⟩ := posted_some hp
    obtain rfl := Option.some.inj (hdata.symm.trans hdata')
    rw [hs.types.1] at hid
    obtain rfl : id = free := hid
    obtain ⟨hfresh, hleast⟩ := freeInstanceId_least hfree
    obtain ⟨oi, rfl, hinstances, hname', hkeeps, hheap⟩ :=
      decoded_resources request hs hfresh
    rw [post_run hp] at hrun
    by_cases herror : (decoded request o data oi.instanceId fun _ => true).1 = .none
    · simp only [if_pos herror, hheap] at hrun
      cases hbuilt : w.buildResponse request .changed with
      | none => simp [hbuilt] at hrun
      | some built =>
        have hpath : locationPath (decoded request o data oi.instanceId fun _ => true).2.1
            oi.instanceId = some (joinPath [o.name, idText oi.instanceId]) := by
          rw [← hname']
          exact locationPath_eq (hname' ▸ hname)
        simp only [hbuilt, Heap.malloc, if_true, hpath, Option.isSome_some] at hrun
        obtain rfl := Option.some.inj hrun
        obtain rfl := Option.some.inj hresponse
        exact ⟨oi, hinstances, hname', hfresh, hleast, rfl, hkeeps⟩
    · simp only [if_neg herror] at hrun
      obtain rfl := Option.some.inj hrun
      obtain ⟨built, -, rfl⟩ := Option.map_eq_some_iff.mp hresponse
      cases he : (decoded request o data oi.instanceId fun _ => true).1 <;>
        simp [he, errorCode] at hcode herror

/-- Object "3", which may be posted to, with instances 0 and 2. -/
def zeroAndTwo : ObjectNode := { emptyObject with instances := [⟨0, []⟩, ⟨2, []⟩] }

def postResource : CoapHeader := { postTo 0x30 with contentFormat := some coapContentOmaTlvType }

/-- Instance 1 is added. -/
theorem post_createsOne_between : ∃ handled response,
    handlePostRequestObject echo postResource zeroAndTwo (fun _ => true) = some handled ∧
      handled.response = some response ∧ response.msgCode = .created ∧
      CreatesOne zeroAndTwo handled.entity response := by
  have hrun : ((handlePostRequestObject echo postResource zeroAndTwo fun _ => true).bind
      (·.response)).map (·.msgCode) = some .created := by
    decide +kernel
  obtain ⟨response, hresponse, hcode⟩ := Option.map_eq_some_iff.mp hrun
  obtain ⟨handled, hhandled, hresponse⟩ := Option.bind_eq_some_iff.mp hresponse
  exact ⟨handled, response, hhandled, hresponse, hcode,
    post_createsOne (by decide) rfl (.inl (by decide)) hhandled hresponse hcode⟩

end MbedClient.Nsdl
