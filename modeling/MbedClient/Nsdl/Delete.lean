import MbedClient.Nsdl.ReadWrite
import MbedClient.Nsdl.Dispatch

/-! A DELETE finds an instance by its stored path and removes the one whose id it reads from the
request. -/
namespace MbedClient.Nsdl
open Observe (Entity)
variable {objects : List ObjectNode} {path : Bytes}

section Text

theorem strtoul_idText (id : UInt16) : strtoul (idText id) = id.toNat := by
  have hlt := id.toNat_lt
  have hnumeral := numeral_digits (Decimal.digits_isDigit id.toNat) (Decimal.digits_ne_nil _)
  rw [strtoul, idText, hnumeral, Decimal.value_digits]
  simp only [Bool.false_eq_true, if_false]
  rw [if_neg (by omega)]

theorem lastSegment_append {a b : Bytes} (hb : slash ∉ b) :
    lastSegment (a ++ slash :: b) = some b := by
  have hall : ∀ x ∈ b.reverse, (x != slash) = true := fun x hx => by
    rw [List.mem_reverse] at hx
    simpa using ne_of_mem_of_not_mem hx hb
  have htake : (b.reverse ++ slash :: a.reverse).takeWhile (· != slash) = b.reverse := by
    rw [List.takeWhile_append_of_pos hall]
    simp
  rw [lastSegment, if_pos (by simp), List.reverse_append, List.reverse_cons, List.append_assoc,
    List.singleton_append, htake, List.reverse_reverse]

end Text

section Found

theorem uriPath_objectInstance {name : Bytes} (h : name.length ≤ maxNameSize) (id : UInt16) :
    uriPath (.objectInstance name id) = name ++ slash :: shortIdText id := by
  have heq := createPathObjectId_eq (i := id) h fun _ => true
  rw [uriPath, Identity.createPath, heq, stringdup_granted rfl, Option.getD_some,
    joinPath_cons _ (by simp)]
  simp [joinPath]

theorem findInObjectInstance_some {i j : Nat} {o : ObjectNode} {oi : M2MObjectInstance} {e : Entity}
    (h : findInObjectInstance path i j o oi = some e) : e.baseType ≠ .objectInstance := by
  obtain ⟨⟨r, k⟩, -, h⟩ := List.exists_of_findSome?_eq_some h
  simp only at h
  split_ifs at h with hpath
  · obtain rfl := Option.some.inj h
    simp [Entity.baseType]
  · unfold findInResource at h
    split_ifs at h
    obtain ⟨⟨m, n⟩, -, h⟩ := List.exists_of_findSome?_eq_some h
    simp only at h
    split_ifs at h
    obtain rfl := Option.some.inj h
    simp [Entity.baseType]

/-- An instance that is found has the path that was looked for. -/
theorem findResource_objectInstance {i j : Nat}
    (h : findResource path objects = some (.objectInstance i j)) :
    ∃ o oi, objects[i]? = some o ∧ o.instances[j]? = some oi ∧
      uriPath (.objectInstance o.name oi.instanceId) = path := by
  obtain ⟨⟨o, i'⟩, hmem, h⟩ := List.exists_of_findSome?_eq_some h
  simp only at h
  split_ifs at h with hpath
  · simp at h
  · obtain ⟨⟨oi, j'⟩, hmem', h⟩ := List.exists_of_findSome?_eq_some h
    simp only at h
    split_ifs at h with hpath'
    · obtain ⟨rfl, rfl⟩ : i' = i ∧ j' = j := by simpa using h
      exact ⟨o, oi, List.mem_zipIdx_iff_getElem?.mp hmem,
        List.mem_zipIdx_iff_getElem?.mp hmem', hpath'⟩
    · exact absurd rfl (findInObjectInstance_some h)

theorem findResource_self {i j : Nat} {o : ObjectNode} {oi : M2MObjectInstance}
    (h : findResource path objects = some (.objectInstance i j)) (ho : objects[i]? = some o)
    (hoi : o.instances[j]? = some oi) :
    findResource (uriPath (.objectInstance o.name oi.instanceId)) objects =
      some (.objectInstance i j) := by
  obtain ⟨o', oi', ho', hoi', hpath⟩ := findResource_objectInstance h
  obtain rfl : o' = o := Option.some.inj (ho'.symm.trans ho)
  obtain rfl : oi' = oi := Option.some.inj (hoi'.symm.trans hoi)
  rw [hpath, h]

end Found

section Remove
variable {o : ObjectNode} {id : UInt16}

theorem removeObjectInstance_none (h : o.objectInstance id = none) :
    o.removeObjectInstance id = (false, o) := by
  have hidx : o.instances.findIdx? (·.instanceId == id) = none := by
    rw [List.findIdx?_eq_none_iff]
    simpa [ObjectNode.objectInstance] using h
  rw [ObjectNode.removeObjectInstance, hidx]

theorem removeObjectInstance_some (h : (o.objectInstance id).isSome) :
    ∃ j oi, o.instances[j]? = some oi ∧ oi.instanceId = id ∧
      o.removeObjectInstance id = (true, { o with instances := o.instances.eraseIdx j }) := by
  have hany : (o.instances.findIdx? (·.instanceId == id)).isSome := by
    rw [List.findIdx?_isSome, List.any_eq_true]
    simpa [ObjectNode.objectInstance, List.find?_isSome] using h
  obtain ⟨j, hj⟩ := Option.isSome_iff_exists.mp hany
  obtain ⟨hlt, heq, -⟩ := List.findIdx?_eq_some_iff_getElem.mp hj
  exact ⟨j, o.instances[j], List.getElem?_eq_getElem hlt, eq_of_beq heq,
    by rw [ObjectNode.removeObjectInstance, hj]⟩

end Remove

section Delete

/-- The lengths that the constructors check, and what C strings are. -/
def NamesFit (objects : List ObjectNode) : Prop :=
  ∀ o ∈ objects, o.name.length ≤ maxNameSize ∧ 0 ∉ o.name

def Removed (path : Bytes) (objects objects' : List ObjectNode) : Prop :=
  ∃ i o j oi, objects[i]? = some o ∧ o.instances[j]? = some oi ∧
    path = joinPath [o.name, idText oi.instanceId] ∧
    objects' = objects.set i { o with instances := o.instances.eraseIdx j }

/-- The path finds an instance, but what is removed is another one, whose id does not stand in the
path; or the path does not end where the C string does. -/
def Misdirected (path : Bytes) (objects : List ObjectNode) : Prop :=
  ∃ i j o oi, findResource (coapToString (some path)) objects = some (.objectInstance i j) ∧
    objects[i]? = some o ∧ o.instances[j]? = some oi ∧
    if oi.instanceId.toNat < 10000 then coapToString (some path) ≠ path
    else (o.objectInstance 0).isSome

/-- An instance that is found is removed if its id stands in the path, and else instance 0. -/
theorem handleDelete_eq {i j : Nat} {o : ObjectNode} {oi : M2MObjectInstance}
    (h : findResource path objects = some (.objectInstance i j)) (ho : objects[i]? = some o)
    (hoi : o.instances[j]? = some oi) (hname : o.name.length ≤ maxNameSize) :
    handleDelete objects path (.objectInstance i j) =
      let (success, o) := o.removeObjectInstance
        (if oi.instanceId.toNat < 10000 then oi.instanceId else 0)
      some (if success then (.deleted, objects.set i o) else (.changed, objects)) := by
  obtain ⟨o', oi', ho', hoi', hpath⟩ := findResource_objectInstance h
  obtain rfl : o' = o := Option.some.inj (ho'.symm.trans ho)
  obtain rfl : oi' = oi := Option.some.inj (hoi'.symm.trans hoi)
  have hsegment : lastSegment path = some (shortIdText oi'.instanceId) := by
    rw [← hpath, uriPath_objectInstance hname]
    exact lastSegment_append (slash_notMem_shortIdText _)
  have hid : UInt16.ofNat (strtoul (shortIdText oi'.instanceId)) =
      if oi'.instanceId.toNat < 10000 then oi'.instanceId else 0 := by
    unfold shortIdText
    split_ifs
    · rw [strtoul_idText, UInt16.ofNat_toNat]
    · rfl
  simp only [handleDelete, ho, hoi, findResource_self h ho hoi, hsegment, hid,
    Option.bind_eq_bind, Option.bind_some]

theorem handleDelete_other {e : Entity} (h : e.baseType ≠ .objectInstance) :
    handleDelete objects path e = some (.badRequest, objects) := by
  cases e with
  | objectInstance i j => exact absurd rfl h
  | object i => rfl
  | resource i j k => rfl
  | resourceInstance i j k n => rfl

/-- The last byte of an id is a digit. -/
theorem joinPath_ne_slash (name : Bytes) (id : UInt16) (a : Bytes) :
    joinPath [name, idText id] ≠ a ++ [slash] := by
  intro h
  have hsplit : joinPath [name, idText id] = name ++ slash :: idText id := by
    simp [joinPath, List.intercalate]
  have hsegment := lastSegment_append (a := a) (b := []) (by simp)
  rw [← h, hsplit, lastSegment_append (slash_notMem_idText id)] at hsegment
  exact idText_ne_nil id (Option.some.inj hsegment)

theorem notMem_joinPath {name : Bytes} (h : 0 ∉ name) (id : UInt16) :
    0 ∉ joinPath [name, idText id] := by
  have hdigits : 0 ∉ idText id := fun hc => by
    have hdigit := Decimal.digits_isDigit _ _ hc
    exact absurd hdigit (by decide)
  simp [joinPath, List.intercalate, h, hdigits, slash]

theorem coapToString_of_notMem {path : Bytes} (h : 0 ∉ path) : coapToString (some path) = path := by
  refine List.takeWhile_eq_self_iff.mpr fun b hb => ?_
  simpa using ne_of_mem_of_not_mem hb h

theorem misdirected_iff {path : Bytes} {i j : Nat} {o : ObjectNode} {oi : M2MObjectInstance}
    (h : findResource (coapToString (some path)) objects = some (.objectInstance i j))
    (ho : objects[i]? = some o) (hoi : o.instances[j]? = some oi) : Misdirected path objects ↔
      if oi.instanceId.toNat < 10000 then coapToString (some path) ≠ path
      else (o.objectInstance 0).isSome := by
  constructor
  · rintro ⟨i', j', o', oi', h', ho', hoi', hwrong⟩
    obtain ⟨rfl, rfl⟩ : i' = i ∧ j' = j := by simpa [h] using h'.symm
    obtain rfl : o' = o := Option.some.inj (ho'.symm.trans ho)
    obtain rfl : oi' = oi := Option.some.inj (hoi'.symm.trans hoi)
    exact hwrong
  · exact fun hwrong => ⟨i, j, o, oi, h, ho, hoi, hwrong⟩

/-- What is removed has a path without a NUL that does not end in a slash. -/
theorem Removed.ends {path : Bytes} {objects' : List ObjectNode} (hn : NamesFit objects)
    (h : Removed path objects objects') :
    coapToString (some path) = path ∧ ∀ a, path ≠ a ++ [slash] := by
  obtain ⟨i, o, j, oi, ho, -, rfl, -⟩ := h
  have hname := hn o (List.mem_of_getElem? ho)
  exact ⟨coapToString_of_notMem (notMem_joinPath hname.2 _), joinPath_ne_slash _ _⟩

structure DeleteSpec (path : Bytes) (objects : List ObjectNode) (msgCode : MsgCode)
    (objects' : List ObjectNode) : Prop where
  answers : msgCode ≠ .empty
  kept : msgCode ≠ .deleted → objects' = objects
  removed : msgCode = .deleted → (Removed path objects objects' ↔ ¬Misdirected path objects)
  misdirected : Misdirected path objects → msgCode = .deleted

theorem deleteSpec_objectInstance {path : Bytes} {i j : Nat} {o : ObjectNode}
    {oi : M2MObjectInstance} (hn : NamesFit objects)
    (h : findResource (coapToString (some path)) objects = some (.objectInstance i j))
    (ho : objects[i]? = some o) (hoi : o.instances[j]? = some oi) :
    ∃ msgCode objects', handleDelete objects (coapToString (some path)) (.objectInstance i j) =
        some (msgCode, objects') ∧ DeleteSpec path objects msgCode objects' := by
  have hname := hn o (List.mem_of_getElem? ho)
  have hmis := misdirected_iff h ho hoi
  have hpath : o.name ++ slash :: shortIdText oi.instanceId = coapToString (some path) := by
    obtain ⟨o', oi', ho', hoi', hpath⟩ := findResource_objectInstance h
    obtain rfl : o' = o := Option.some.inj (ho'.symm.trans ho)
    obtain rfl : oi' = oi := Option.some.inj (hoi'.symm.trans hoi)
    rw [← hpath, uriPath_objectInstance hname.1]
  rw [handleDelete_eq h ho hoi hname.1]
  by_cases hshort : oi.instanceId.toNat < 10000
  · rw [if_pos hshort] at hmis ⊢
    have hsome : (o.objectInstance oi.instanceId).isSome := by
      rw [ObjectNode.objectInstance, List.find?_isSome]
      exact ⟨oi, List.mem_of_getElem? hoi, beq_self_eq_true _⟩
    obtain ⟨j', oi', hoi', hid, hremove⟩ := removeObjectInstance_some hsome
    rw [hremove]
    refine ⟨_, _, rfl, by simp, fun hc => absurd rfl hc, fun _ => ?_, fun _ => rfl⟩
    rw [hmis, not_not]
    refine ⟨fun hremoved => (hremoved.ends hn).1, fun hc => ?_⟩
    refine ⟨i, o, j', oi', ho, hoi', ?_, rfl⟩
    have hjoin : joinPath [o.name, idText oi.instanceId] =
        o.name ++ slash :: shortIdText oi.instanceId := by
      simp [joinPath, List.intercalate, shortIdText, hshort]
    rw [hid, hjoin, hpath, hc]
  · rw [if_neg hshort] at hmis ⊢
    have htext : shortIdText oi.instanceId = [] := if_neg hshort
    rw [htext] at hpath
    by_cases hzero : (o.objectInstance 0).isSome
    · obtain ⟨j', oi', hoi', hid, hremove⟩ := removeObjectInstance_some hzero
      rw [hremove]
      refine ⟨_, _, rfl, by simp, fun hc => absurd rfl hc, fun _ => ?_, fun _ => rfl⟩
      refine iff_of_false (fun hremoved => ?_) (not_not.mpr (hmis.mpr hzero))
      obtain ⟨hcstr, hslash⟩ := hremoved.ends hn
      exact hslash o.name (hcstr.symm.trans hpath.symm)
    · have hnone : o.objectInstance 0 = none := by simpa using hzero
      rw [removeObjectInstance_none hnone]
      exact ⟨_, _, rfl, by simp, fun _ => rfl, fun hc => absurd hc (by decide),
        fun hc => absurd (hmis.mp hc) hzero⟩

/-- Where no instance is found nothing is removed. -/
theorem deleteSpec_refused {path : Bytes}
    (h : ∀ i j, findResource (coapToString (some path)) objects ≠ some (.objectInstance i j)) :
    DeleteSpec path objects .badRequest objects where
  answers := by simp
  kept _ := rfl
  removed hc := absurd hc (by decide)
  misdirected := fun ⟨i, j, _, _, hfound, _⟩ => absurd hfound (h i j)

theorem handleRequest_delete (path : Bytes) {w : Surroundings} {request : CoapHeader}
    (hn : NamesFit objects) (hdelete : request.msgCode = .requestDelete)
    (hpath : coapToString request.uriPath = coapToString (some path)) (h : Heap) :
    ∃ msgCode objects', handleRequest w objects request h =
        some (msgCode, unhandled h objects') ∧ DeleteSpec path objects msgCode objects' := by
  rw [handleRequest, hpath]
  cases hfound : findResource (coapToString (some path)) objects with
  | none => exact ⟨_, _, rfl, deleteSpec_refused fun i j => by simp [hfound]⟩
  | some e =>
    simp only [hdelete]
    by_cases hkind : e.baseType = .objectInstance
    · cases e with
      | objectInstance i j =>
        obtain ⟨o, oi, ho, hoi, -⟩ := findResource_objectInstance hfound
        obtain ⟨msgCode, objects', heq, hspec⟩ := deleteSpec_objectInstance hn hfound ho hoi
        exact ⟨msgCode, objects', by rw [heq]; rfl, hspec⟩
      | _ => simp [Entity.baseType] at hkind
    · refine ⟨_, _, by rw [handleDelete_other hkind]; rfl, deleteSpec_refused fun i j hc => ?_⟩
      obtain rfl := Option.some.inj (hfound.symm.trans hc)
      exact hkind rfl

/-- What is documented of `sn_nsdl_build_response`: a response has the code that was asked for and
is no part of a block-wise transfer. -/
def Surroundings.BuildsAsked (w : Surroundings) : Prop := ∀ request msgCode response,
  w.buildResponse request msgCode = some response →
    response.msgCode = msgCode ∧ response.coapStatus ≠ .blockwiseMsgReceiving

variable {w : Surroundings} {request : CoapHeader}

theorem sendResponse_of_built (hw : w.BuildsAsked) {msgCode : MsgCode} (hcode : msgCode ≠ .empty)
    {response : Response} (h : w.buildResponse request msgCode = some response) :
    sendResponse (some response) = [response] := by
  obtain ⟨hasked, hstatus⟩ := hw request msgCode response h
  rw [sendResponse, if_pos ⟨hstatus, by rwa [hasked]⟩]

/-- A DELETE removes the instance it addresses, and nothing when it answers otherwise, unless it is
misdirected. -/
theorem delete_addressed (hw : w.BuildsAsked) (hn : NamesFit objects)
    (hdelete : request.msgCode = .requestDelete) (h : Heap) :
    ∃ outcome, resourceCallback w objects request h = some outcome ∧
      ((∀ response ∈ outcome.sent,
        (response.msgCode = .deleted →
          Removed (request.uriPath.getD []) objects outcome.entity) ∧
        (response.msgCode ≠ .deleted → outcome.entity = objects)) ↔
      ((w.buildResponse request .deleted).isSome →
        ¬Misdirected (request.uriPath.getD []) objects)) := by
  obtain ⟨msgCode, objects', hrequest, hspec⟩ := handleRequest_delete (w := w)
    (request.uriPath.getD []) hn hdelete rfl h
  rw [resourceCallback, hrequest]
  refine ⟨_, rfl, ?_⟩
  simp only [unhandled, Option.none_or, List.nil_append]
  cases hbuilt : w.buildResponse request msgCode with
  | none =>
    refine iff_of_true (by simp [sendResponse]) fun hdeleted hmis => ?_
    rw [hspec.misdirected hmis] at hbuilt
    simp [hbuilt] at hdeleted
  | some response =>
    have hasked := (hw request msgCode response hbuilt).1
    rw [sendResponse_of_built hw hspec.answers hbuilt]
    simp only [List.mem_singleton, forall_eq, hasked]
    by_cases hcode : msgCode = .deleted
    · rw [hcode] at hbuilt
      simp only [hcode, hbuilt, Option.isSome_some, ne_eq, not_true_eq_false, false_implies,
        and_true, true_implies]
      exact hspec.removed hcode
    · refine iff_of_true ⟨fun hc => absurd hc hcode, fun hc => hspec.kept hc⟩ fun _ hmis => ?_
      exact hcode (hspec.misdirected hmis)

/-- Object "3" with the instances 0 and 10000, the latter first. -/
def zeroAndLong : ObjectNode := ⟨⟨⟨[⟨10000, []⟩, ⟨0, []⟩]⟩, [0x33]⟩, fun _ => {}⟩

def deleteLong : CoapHeader := { plainRequest .requestDelete with uriPath := some [0x33, 0x2F] }

theorem zeroAndLong_namesFit : NamesFit [zeroAndLong] := by
  simp [NamesFit, zeroAndLong, maxNameSize]

theorem echo_buildsAsked : echo.BuildsAsked := by
  rintro request msgCode response h
  obtain rfl := Option.some.inj h
  exact ⟨rfl, by simp⟩

/-- The path "3/" is that of instance 10000, and instance 0 is removed with 2.02. -/
theorem delete_misdirected : ∃ outcome,
    resourceCallback echo [zeroAndLong] deleteLong granted = some outcome ∧
      outcome.sent.map (·.msgCode) = [.deleted] ∧
      outcome.entity.map (·.instances) = [[⟨10000, []⟩]] ∧
      ¬Removed [0x33, 0x2F] [zeroAndLong] outcome.entity := by
  have hrun : (resourceCallback echo [zeroAndLong] deleteLong granted).map
      (fun outcome => (outcome.sent.map (·.msgCode), outcome.entity.map (·.instances))) =
        some ([.deleted], [[⟨10000, []⟩]]) := by
    decide +kernel
  obtain ⟨outcome, houtcome, heq⟩ := Option.map_eq_some_iff.mp hrun
  exact ⟨outcome, houtcome, congrArg Prod.fst heq, congrArg Prod.snd heq,
    fun hc => (hc.ends zeroAndLong_namesFit).2 [0x33] rfl⟩

theorem delete_addressed_zeroAndLong : ∃ outcome,
    resourceCallback echo [zeroAndLong] deleteLong granted = some outcome ∧
      ((∀ response ∈ outcome.sent,
        (response.msgCode = .deleted → Removed [0x33, 0x2F] [zeroAndLong] outcome.entity) ∧
        (response.msgCode ≠ .deleted → outcome.entity = [zeroAndLong])) ↔
      ((echo.buildResponse deleteLong .deleted).isSome →
        ¬Misdirected [0x33, 0x2F] [zeroAndLong])) :=
  delete_addressed echo_buildsAsked zeroAndLong_namesFit rfl granted

end Delete
end MbedClient.Nsdl
