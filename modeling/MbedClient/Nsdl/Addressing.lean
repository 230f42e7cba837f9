import MbedClient.Keyed
import MbedClient.Nsdl.Finish
import MbedClient.Tlv.Additions
import MbedClient.Tlv.Outcome

/-! Where a PUT of the bootstrap server goes: what its path names, and what is done with it. -/
namespace MbedClient.Nsdl
open Tlv (isType createsMembers)

section Path
variable (path : Bytes)

def firstSegment : Bytes := path.takeWhile (· != slash)

def secondSegment : Option Bytes :=
  match path.dropWhile (· != slash) with
  | [] => none
  | _ :: rest => some (rest.takeWhile (· != slash))

/-- The object instance that a path names: the first one if it has one segment only. -/
def instanceNamed : Option UInt16 :=
  match secondSegment path with
  | none => some 0
  | some text =>
    let id := UInt16.ofNat (Decimal.value text)
    if Decimal.digits id.toNat = text then some id else none

end Path

/-! Trees but for the operations that are allowed. -/
section Trees
variable {obj obj' obj'' : M2MObject}

def forgetOperation (r : M2MResource) : M2MResource :=
  { r with toM2MResourceBase := r.toM2MResourceBase.setOperation notAllowed }

def forgetOperations (obj : M2MObject) : M2MObject :=
  ⟨obj.instances.map fun oi => { oi with resources := oi.resources.map forgetOperation }⟩

/-- The same resources and resource instances, with the same values. -/
def Alike (obj obj' : M2MObject) : Prop := forgetOperations obj = forgetOperations obj'

theorem Alike.trans (h : Alike obj obj') (k : Alike obj' obj'') : Alike obj obj'' :=
  Eq.trans h k

theorem alike_map (oi : M2MObjectInstance) (operation : UInt8) :
    Alike ⟨[oi]⟩ ⟨[{ oi with resources := oi.resources.map fun r =>
      { r with toM2MResourceBase := r.toM2MResourceBase.setOperation operation } }]⟩ := by
  simp only [Alike, forgetOperations, List.map_cons, List.map_nil, List.map_map]
  rfl

theorem forgetOperations_base? (obj : M2MObject) (t : Target) :
    ((forgetOperations obj).base? t).isSome = (obj.base? t).isSome := by
  obtain ⟨j, k, m⟩ := t
  simp only [M2MObject.base?, forgetOperations, List.getElem?_map]
  cases obj.instances[j]? with
  | none => rfl
  | some oi =>
    simp only [Option.map_some, Option.bind_some, M2MObjectInstance.base?, List.getElem?_map]
    cases oi.resources[k]? with
    | none => rfl
    | some r => cases m <;> rfl

/-- A node that has been added shows. -/
theorem not_alike_of_base? {t : Target} (hnone : obj.base? t = none)
    (hsome : (obj'.base? t).isSome = true) : ¬Alike obj obj' := fun h => by
  have heq := congrArg (fun obj => (obj.base? t).isSome) h
  simp only [forgetOperations_base?] at heq
  rw [hnone, hsome] at heq
  cases heq

end Trees

section Decode
variable (request : CoapHeader) (operation : Tlv.Operation) (h : Heap) (obj : M2MObject)

/-- The first record is a resource. -/
def PlainRecords : Prop := isType typeResource request.payloadPtr = true

instance : Decidable (PlainRecords request) := inferInstanceAs (Decidable (_ = _))

def AcceptedBy (operation : Tlv.Operation) (a : Tlv.Addressee) : Prop :=
  ∃ tlv, request.payloadPtr = some tlv ∧ a.Accepted tlv request.payloadLen.toNat operation

def TakenBy (operation : Tlv.Operation) (a : Tlv.Addressee) : Prop :=
  ∃ tlv, request.payloadPtr = some tlv ∧ (a.Accepted tlv request.payloadLen.toNat operation ∨
    a.Enlarged tlv request.payloadLen.toNat operation h)

/-- Whom the payload is for has a property: the object if it starts with an object instance, and
the instance that the first id names if it starts with a resource. -/
def ForAddressee (property : Tlv.Operation → Tlv.Addressee → Prop) : Prop :=
  (isType typeObjectInstance request.payloadPtr = true ∧ property .put (.object obj)) ∨
  (PlainRecords request ∧ ∃ oi ∈ obj.instances,
    tlvInstanceId request.payloadPtr = some oi.instanceId ∧ property operation (.objectInstance oi))

def Accepted : Prop := ForAddressee request operation obj (AcceptedBy request)

def Taken : Prop := ForAddressee request operation obj (TakenBy request h)

/-- There is an instance with the first id of plain records. -/
def Defined : Prop := PlainRecords request →
  ∃ id, tlvInstanceId request.payloadPtr = some id ∧ ∃ oi ∈ obj.instances, oi.instanceId = id

/-- What the instance with an id makes of the payload, with the object around it: whether it found
no error, and what is left. -/
def decodeResources (id : UInt16) : Option (Bool × M2MObject) :=
  (Search.first (·.instanceId == id) obj.instances).map fun (j, oi) =>
    let decoded := Tlv.deserializeResources request.payloadPtr request.payloadLen.toNat operation
      (oi, ⟨h, []⟩)
    (decide (decoded.1 = .none), { instances := obj.instances.set j decoded.2.1 })

end Decode

section Parse
variable {request : CoapHeader} {operation : Tlv.Operation} {h : Heap} {obj obj' : M2MObject}

theorem not_plainRecords (hinstance : isType typeObjectInstance request.payloadPtr = true) :
    ¬PlainRecords request := fun hplain => by
  rw [PlainRecords] at hplain
  cases hdata : request.payloadPtr with
  | none => simp [hdata, isType] at hplain
  | some data =>
    rw [hdata] at hinstance hplain
    have heq : typeObjectInstance = typeResource :=
      (beq_iff_eq.mp hinstance).symm.trans (beq_iff_eq.mp hplain)
    exact absurd heq (by decide)

/-- What a payload does to an object that it is decoded into: no error is found if it is accepted,
nothing is done if it is not taken, and something that shows if it is. -/
structure Decoding (accepted taken : Prop) (operation : Tlv.Operation) (obj : M2MObject) (ok : Bool)
    (obj' : M2MObject) : Prop where
  length : obj'.instances.length = obj.instances.length
  accepts : ok = true ↔ accepted
  untaken : ¬taken → ok = false ∧ obj' = obj
  shows : taken → ok = true ∨
    operation = .post ∧ ∃ t, obj.base? t = none ∧ (obj'.base? t).isSome = true

/-- The decoders of objects and object instances. -/
theorem takenBy_spec (request : CoapHeader) (operation : Tlv.Operation) (h : Heap)
    {a : Tlv.Addressee} (hn : a.nested = true) :
    let t := Tlv.deserialize request.payloadPtr request.payloadLen.toNat operation a ⟨h, []⟩
    (decide (t.1 = .none) = true ↔ AcceptedBy request operation a) ∧
    (¬TakenBy request h operation a → decide (t.1 = .none) = false ∧ t.2.1 = a) ∧
    (TakenBy request h operation a → decide (t.1 = .none) = true ∨ operation = .post ∧
      ∃ i, a.forest.base? i = none ∧ (t.2.1.forest.base? i).isSome = true) := by
  cases hdata : request.payloadPtr with
  | none =>
    have habsent {tlv : Nat → UInt8} (htlv : request.payloadPtr = some tlv) : False :=
      nomatch hdata.symm.trans htlv
    refine ⟨iff_of_false ?_ fun ⟨_, htlv, _⟩ => habsent htlv, fun _ => ?_,
      fun ⟨_, htlv, _⟩ => (habsent htlv).elim⟩
    · cases a <;> exact Bool.false_ne_true
    · cases a <;> exact ⟨rfl, rfl⟩
  | some tlv =>
    have hnone := Tlv.deserialize_none tlv request.payloadLen.toNat operation ⟨h, []⟩ hn
    refine ⟨?_, ?_, ?_⟩
    · rw [decide_eq_true_iff, hnone, AcceptedBy, hdata]
      simp
    · intro hnot
      have hr : ¬a.Accepted tlv request.payloadLen.toNat operation :=
        fun hr => hnot ⟨tlv, hdata, .inl hr⟩
      exact ⟨decide_eq_false (mt hnone.mp hr),
        Tlv.Addressee.refused_spared hr fun hg => hnot ⟨tlv, hdata, .inr hg⟩⟩
    · rintro ⟨tlv', htlv', htaken⟩
      obtain rfl := Option.some.inj (hdata.symm.trans htlv')
      by_cases hr : a.Accepted tlv request.payloadLen.toNat operation
      · exact .inl (decide_eq_true (hnone.mpr hr))
      · have hg := htaken.resolve_left hr
        refine .inr ⟨?_, Tlv.Addressee.refused_enlarged hr hg⟩
        cases operation with
        | put => exact absurd hg.2 (Tlv.not_adds_put _ _ _)
        | post => rfl

/-- Plain records go to the instance that the code takes for theirs. -/
theorem parseInto_plain (operation : Tlv.Operation) (h : Heap) (obj : M2MObject)
    (hplain : PlainRecords request) {id : UInt16}
    (hid : tlvInstanceId request.payloadPtr = some id) :
    (parseInto request obj operation h).map (fun t => (t.1, t.2.1)) =
      decodeResources request operation h obj id := by
  have hinstance : ¬isType typeObjectInstance request.payloadPtr = true :=
    fun hinstance => not_plainRecords hinstance hplain
  have hresource : isType typeResource request.payloadPtr = true := hplain
  rw [parseInto, if_neg hinstance, if_pos hresource, hid, decodeResources]
  simp only [Option.bind_eq_bind, Option.bind_some]
  cases Search.first (·.instanceId == id) obj.instances <;> rfl

/-- What a payload does to the one instance of an object. -/
theorem parseInto_spec (operation : Tlv.Operation) (h : Heap) (hone : obj.instances.length ≤ 1)
    (hdefined : Defined request obj) :
    ∃ ok obj' h', parseInto request obj operation h = some (ok, obj', h') ∧
      Decoding (Accepted request operation obj) (Taken request operation h obj) operation obj ok
        obj' := by
  by_cases hinstance : isType typeObjectInstance request.payloadPtr = true
  · have hplain := not_plainRecords hinstance
    have hfor (property : Tlv.Operation → Tlv.Addressee → Prop) :
        ForAddressee request operation obj property ↔ property .put (.object obj) :=
      ⟨fun ht => (ht.resolve_right fun hc => hplain hc.1).2, fun ht => .inl ⟨hinstance, ht⟩⟩
    obtain ⟨haccepts, huntaken, hshows⟩ := takenBy_spec request .put h (a := .object obj) rfl
    have hgrows := Tlv.deserialize_outcome request.payloadPtr request.payloadLen.toNat .put
      (.object obj) ⟨h, []⟩ rfl
    rw [parseInto, if_pos hinstance, Accepted, Taken, hfor, hfor]
    exact ⟨_, _, _, rfl, Grown.length_eq hgrows, haccepts,
      fun hn => ⟨(huntaken hn).1, Tlv.Addressee.object.inj (huntaken hn).2⟩,
      fun ht => (hshows ht).imp_right fun hc => nomatch hc.1⟩
  · by_cases hplain : PlainRecords request
    · obtain ⟨id, hid, oi, hoi, hkey⟩ := hdefined hplain
      obtain ⟨instances⟩ := obj
      obtain rfl : instances = [oi] := by
        obtain _ | ⟨x, _ | ⟨y, l⟩⟩ := instances
        · cases hoi
        · rw [List.mem_singleton.mp hoi]
        · simp at hone
      have hfor (property : Tlv.Operation → Tlv.Addressee → Prop) :
          ForAddressee request operation ⟨[oi]⟩ property ↔
            property operation (.objectInstance oi) := by
        rw [ForAddressee]
        simp [hinstance, hplain, hid, hkey]
      obtain ⟨haccepts, huntaken, hshows⟩ :=
        takenBy_spec request operation h (a := .objectInstance oi) rfl
      have hparse := parseInto_plain operation h ⟨[oi]⟩ hplain hid
      have hfirst : Search.first (·.instanceId == id) [oi] = some (0, oi) := by
        simp [Search.first, hkey]
      rw [decodeResources, hfirst, Option.map_some] at hparse
      obtain ⟨⟨ok, obj', h'⟩, hsome, hpair⟩ := Option.map_eq_some_iff.mp hparse
      obtain ⟨rfl, rfl⟩ := Prod.mk.inj hpair
      rw [Accepted, Taken, hfor, hfor, hsome]
      refine ⟨_, _, _, rfl, rfl, haccepts, fun hn => ⟨(huntaken hn).1, ?_⟩, hshows⟩
      exact congrArg (fun oi => (⟨[oi]⟩ : M2MObject))
        (Tlv.Addressee.objectInstance.inj (huntaken hn).2)
    · have hresource : ¬isType typeResource request.payloadPtr = true := hplain
      have hnot (property : Tlv.Operation → Tlv.Addressee → Prop) :
          ¬ForAddressee request operation obj property :=
        fun ht => ht.elim (fun hc => hinstance hc.1) fun hc => hplain hc.1
      rw [parseInto, if_neg hinstance, if_neg hresource]
      exact ⟨_, _, _, rfl, rfl, iff_of_false Bool.false_ne_true (hnot _), fun _ => ⟨rfl, rfl⟩,
        fun ht => absurd ht (hnot _)⟩

theorem parseInto_none (hdefined : ¬Defined request obj) :
    parseInto request obj operation h = none := by
  obtain ⟨hplain, hnone⟩ := Classical.not_imp.mp hdefined
  cases hid : tlvInstanceId request.payloadPtr with
  | none =>
    have hdata : request.payloadPtr = none := by simpa [tlvInstanceId] using hid
    simp [PlainRecords, hdata, isType] at hplain
  | some id =>
    have hparse := parseInto_plain operation h obj hplain hid
    cases hfirst : Search.first (·.instanceId == id) obj.instances with
    | none =>
      rw [decodeResources, hfirst, Option.map_none, Option.map_eq_none_iff] at hparse
      exact hparse
    | some found =>
      obtain ⟨hmem, hkey⟩ := Keyed.first_entry hfirst
      exact absurd ⟨id, hid, found.2, List.mem_of_getElem? hmem, hkey⟩ hnone

end Parse

/-- The security object, which has no resources if there is none. -/
def NsdlInterface.securityObject (s : NsdlInterface) : M2MObject :=
  ⟨(s.security.bind (·.serverInstance)).toList⟩

/-- One of the two objects that a bootstrap server writes. -/
def NsdlInterface.object (s : NsdlInterface) (isSecurityObject : Bool) : M2MObject :=
  if isSecurityObject then s.securityObject else s.server.toObject

theorem NsdlInterface.object_length (s : NsdlInterface) (isSecurityObject : Bool) :
    (s.object isSecurityObject).instances.length ≤ 1 := by
  have htoList (oi : Option M2MObjectInstance) : oi.toList.length ≤ 1 := by cases oi <;> simp
  cases isSecurityObject <;> exact htoList _

/-- How the code decodes resources into it. -/
def putOperation (isSecurityObject : Bool) : Tlv.Operation :=
  if isSecurityObject then .put else .post

/-! What the steps of `handle_bootstrap_put_message` do to the two objects. -/
section Steps
variable {w : Surroundings} {request : CoapHeader} {s s' p : NsdlInterface} {security : M2MSecurity}

theorem securityObject_some (hs : s.security = some security) :
    s.securityObject = security.toObject := by
  rw [NsdlInterface.securityObject, hs]
  rfl

/-- The operations of all resources are set, if there is an instance to find them in. -/
theorem setOperations_cases (security : M2MSecurity) (operation : UInt8) :
    (security.toObject.instances = [] ∧ security.setOperations operation = none) ∨
    (security.toObject.instances ≠ [] ∧ ∃ security',
      security.setOperations operation = some security' ∧
        Alike security.toObject security'.toObject) := by
  rw [M2MSecurity.setOperations, M2MSecurity.toObject]
  cases security.serverInstance with
  | none => exact .inl ⟨rfl, rfl⟩
  | some oi => exact .inr ⟨by simp, _, rfl, alike_map oi operation⟩

/-- Empty messages at most, and reports. -/
def Preliminary (calls : List Call) : Prop :=
  ∀ response, Call.send response ∈ calls → response.msgCode = .empty

def restoreOperations (t : Bool × NsdlInterface) : Option (Bool × NsdlInterface) :=
  match t.2.security with
  | none => some t
  | some security => (security.setOperations notAllowed).map fun security =>
    (t.1, { t.2 with security := some security })

/-- The empty response in front of the real one. -/
theorem applyBootstrapPut_eq (w : Surroundings) (request : CoapHeader) (isSecurityObject : Bool)
    (s : NsdlInterface) :
    ∃ new, (w.Builds → Preliminary new) ∧ applyBootstrapPut w request isSecurityObject s =
      let s := { s with calls := s.calls ++ new }
      if request.contentFormat.getD 0 = coapContentOmaTlvType then
        (parseBootstrapMessage request isSecurityObject s).bind restoreOperations
      else some (false, s) := by
  have hrestore : (fun t : Bool × NsdlInterface => match t.2.security with
      | none => some t
      | some security => do
        let security ← security.setOperations notAllowed
        some (t.1, { t.2 with security := some security })) = restoreOperations := by
    funext t
    rw [restoreOperations]
    cases t.2.security with
    | none => rfl
    | some security =>
      dsimp only
      cases security.setOperations notAllowed <;> rfl
  have hnothing : Preliminary [] := fun _ hr => nomatch hr
  by_cases htoken : request.token = []
  · refine ⟨[], fun _ => hnothing, ?_⟩
    simp only [applyBootstrapPut, if_pos htoken, List.append_nil]
    rw [← hrestore]
    rfl
  · cases hr : w.buildResponse request .empty with
    | none =>
      refine ⟨[], fun _ => hnothing, ?_⟩
      simp only [applyBootstrapPut, if_neg htoken, hr, List.append_nil]
      rw [← hrestore]
      rfl
    | some r =>
      refine ⟨[.send { r with msgType := .acknowledgement }], fun hw response hresponse => ?_, ?_⟩
      · rw [Call.send.inj (List.mem_singleton.mp hresponse)]
        exact (hw.asked request .empty r hr).1
      · simp only [applyBootstrapPut, if_neg htoken, hr]
        rw [← hrestore]
        rfl

/-- What is decoded into the one instance goes back into its place. -/
theorem toObject_head (obj : M2MObject) (hone : obj.instances.length ≤ 1) :
    (⟨obj.instances.head?.toList⟩ : M2MObject) = obj := by
  obtain ⟨_ | ⟨oi, _ | ⟨x, l⟩⟩⟩ := obj
  · rfl
  · rfl
  · simp at hone

/-- What becomes of an object that a payload is decoded into, if that is defined. -/
theorem put_object (w : Surroundings) (isSecurityObject : Bool) (hs : s.security = some security)
    (htlv : request.contentFormat.getD 0 = coapContentOmaTlvType) :
    let obj := s.object isSecurityObject
    let operation := putOperation isSecurityObject
    (¬(Defined request obj ∧ s.securityObject.instances ≠ []) →
      applyBootstrapPut w request isSecurityObject s = none) ∧
    (Defined request obj → s.securityObject.instances ≠ [] →
      ∃ ok s' obj' h', parseInto request obj operation s.heap = some (ok, obj', h') ∧
        Decoding (Accepted request operation obj) (Taken request operation s.heap obj) operation obj
          ok obj' ∧
        applyBootstrapPut w request isSecurityObject s = some (ok, s') ∧
        Alike obj' (s'.object isSecurityObject) ∧
        Alike (s.object !isSecurityObject) (s'.object !isSecurityObject) ∧
        ∃ new, (w.Builds → Preliminary new) ∧ s'.calls = s.calls ++ new) := by
  obtain ⟨new, hnew, heq⟩ := applyBootstrapPut_eq w request isSecurityObject s
  have hobject := securityObject_some hs
  rw [heq, hobject]
  simp only [htlv, if_true, parseBootstrapMessage, hs]
  cases isSecurityObject with
  | true =>
    have hone : security.toObject.instances.length ≤ 1 := hobject ▸ s.object_length true
    simp only [NsdlInterface.object, if_true, hobject, putOperation]
    by_cases hdefined : Defined request security.toObject
    · obtain ⟨ok, obj', h', hparse, hdecoding⟩ := parseInto_spec .put s.heap hone hdefined
      have hkept : (security.ofObject obj').toObject = obj' :=
        toObject_head obj' (hdecoding.length ▸ hone)
      have hnil : obj'.instances = [] ↔ security.toObject.instances = [] := by
        rw [← List.length_eq_zero_iff, hdecoding.length, List.length_eq_zero_iff]
      rw [hparse, Option.map_some, Option.bind_some, restoreOperations]
      dsimp only
      obtain ⟨hmissing, hset⟩ | ⟨hinstances, security', hset, halike⟩ :=
        setOperations_cases (security.ofObject obj') notAllowed
      · rw [hkept, hnil] at hmissing
        rw [hset]
        exact ⟨fun _ => rfl, fun _ hinstances => absurd hmissing hinstances⟩
      · rw [hkept] at hinstances halike
        rw [hset]
        exact ⟨fun hundefined => absurd ⟨hdefined, mt hnil.mpr hinstances⟩ hundefined,
          fun _ _ => ⟨ok, _, obj', h', rfl, hdecoding, rfl, halike, rfl, new, hnew, rfl⟩⟩
    · rw [parseInto_none hdefined]
      exact ⟨fun _ => rfl, fun h => absurd h hdefined⟩
  | false =>
    have hone : s.server.toObject.instances.length ≤ 1 := s.object_length false
    simp only [NsdlInterface.object, Bool.false_eq_true, if_false, putOperation, hobject,
      Bool.not_false, if_true]
    by_cases hdefined : Defined request s.server.toObject
    · obtain ⟨ok, obj', h', hparse, hdecoding⟩ := parseInto_spec .post s.heap hone hdefined
      have hkept : (M2MServer.ofObject obj').toObject = obj' :=
        toObject_head obj' (hdecoding.length ▸ hone)
      rw [hparse, Option.map_some, Option.bind_some, restoreOperations]
      dsimp only
      obtain ⟨hnil, hset⟩ | ⟨hinstances, security', hset, halike⟩ :=
        setOperations_cases security notAllowed
      · rw [hset]
        exact ⟨fun _ => rfl, fun _ hinstances => absurd hnil hinstances⟩
      · rw [hset]
        exact ⟨fun hundefined => absurd ⟨hdefined, hinstances⟩ hundefined,
          fun _ _ => ⟨ok, _, obj', h', rfl, hdecoding, rfl, congrArg forgetOperations hkept.symm,
            halike, new, hnew, rfl⟩⟩
    · rw [parseInto_none hdefined]
      exact ⟨fun _ => rfl, fun h => absurd h hdefined⟩

end Steps

/-! The messages. -/
section Messages
variable {w : Surroundings} {request : CoapHeader} {s s' s'' p : NsdlInterface}
variable {isSecurityObject : Bool} {obj obj' : M2MObject}

def Answered (msgCode : MsgCode) (s s' : NsdlInterface) : Prop :=
  ∃ new r, Preliminary new ∧ s'.calls = s.calls ++ (new ++ [.send r]) ∧ r.msgCode = msgCode

/-- What there is in the end of an object. A refused PUT ends the bootstrap, and with it goes the
security object as a whole. -/
def Left (isSecurityObject : Bool) (obj : M2MObject) (s s' : NsdlInterface) : Prop :=
  Alike obj (s'.object isSecurityObject) ∨
    isSecurityObject = true ∧ s'.security = none ∧ Answered .badRequest s s'

/-- The object is what it was; one that did not exist is as it is made. -/
def Unchanged (isSecurityObject : Bool) (s s' : NsdlInterface) : Prop :=
  Left isSecurityObject ((constructSecurity s).object isSecurityObject) s s'

def Refused (s s' : NsdlInterface) : Prop :=
  Answered .badRequest s s' ∧ ∀ isSecurityObject, Unchanged isSecurityObject s s'

def codeOf (ok : Bool) : MsgCode := if ok then .changed else .badRequest

/-- It is answered by what a decoder has found, and leaves what that has left. -/
def Applied (isSecurityObject : Bool) (result : Bool × M2MObject) (s s' : NsdlInterface) : Prop :=
  Answered (codeOf result.1) s s' ∧ Left isSecurityObject result.2 s s'

theorem answered_unique {a b : MsgCode} (ha : Answered a s s') (hb : Answered b s s') : a = b := by
  obtain ⟨new, r, -, hcalls, rfl⟩ := ha
  obtain ⟨new', r', -, hcalls', rfl⟩ := hb
  have hlast := congrArg List.getLast? (List.append_cancel_left (hcalls.symm.trans hcalls'))
  rw [List.getLast?_concat, List.getLast?_concat] at hlast
  rw [Call.send.inj (Option.some.inj hlast)]

theorem Applied.ok_of_refused {ok : Bool} (h : Applied isSecurityObject (ok, obj) s s')
    (hr : Refused s s') : ok = false := by
  cases ok with
  | false => rfl
  | true => exact nomatch answered_unique h.1 hr.1

theorem answered_send (hw : w.Builds) (msgCode : MsgCode) {new : List Call} (hnew : Preliminary new)
    (hcalls : s'.calls = s.calls ++ new) :
    Answered msgCode s (s'.send (w.buildResponse request msgCode)) := by
  obtain ⟨r, hr, -⟩ := hw.built request msgCode
  refine ⟨new, r, hnew, ?_, (hw.asked request msgCode r hr).1⟩
  rw [hr, NsdlInterface.send, NsdlInterface.tell, hcalls, List.append_assoc]

theorem object_send (response : Option Response) (isSecurityObject : Bool) :
    (s.send response).object isSecurityObject = s.object isSecurityObject := by
  cases response <;> rfl

/-- How a PUT ends: with a message, and with an error if it has not been successful. -/
def concluded (w : Surroundings) (request : CoapHeader) (ok : Bool) (s : NsdlInterface) :
    NsdlInterface :=
  (if ok then s else s.handleBootstrapError).send (w.buildResponse request (codeOf ok))

theorem concluded_answered (hw : w.Builds) (request : CoapHeader) (ok : Bool) {new : List Call}
    (hnew : Preliminary new) (hcalls : s'.calls = s.calls ++ new) :
    Answered (codeOf ok) s (concluded w request ok s') := by
  cases ok with
  | true => exact answered_send hw .changed hnew hcalls
  | false =>
    have hnew' : Preliminary (new ++ [.bootstrapError]) := fun r hr => by
      obtain hr | hr := List.mem_append.mp hr
      · exact hnew r hr
      · exact nomatch List.mem_singleton.mp hr
    refine answered_send hw .badRequest hnew' ?_
    rw [← List.append_assoc, ← hcalls]
    rfl

theorem concluded_left (hw : w.Builds) (ok : Bool) {new : List Call} (hnew : Preliminary new)
    (hcalls : s'.calls = s.calls ++ new) (h : Alike obj (s'.object isSecurityObject)) :
    Left isSecurityObject obj s (concluded w request ok s') := by
  have hanswered := concluded_answered hw request ok hnew hcalls
  cases ok with
  | true =>
    refine .inl ?_
    rw [concluded, object_send]
    exact h
  | false =>
    cases isSecurityObject with
    | true =>
      refine .inr ⟨rfl, ?_, hanswered⟩
      rw [concluded]
      cases w.buildResponse request (codeOf false) <;> rfl
    | false =>
      refine .inl ?_
      rw [concluded, object_send]
      exact h

end Messages

/-! From the path to the object. -/
section Route
variable {w : Surroundings} {request : CoapHeader} {s s' p : NsdlInterface}

/-- The first segment of the paths of an object: "0" or "1". -/
def segmentOf (isSecurityObject : Bool) : Bytes := if isSecurityObject then [0x30] else [0x31]

/-- The state in which the payload is decoded, if the resources to prepare can be found. -/
def prepared (isSecurityObject : Bool) (s : NsdlInterface) : Option NsdlInterface :=
  if isSecurityObject then prepareSecurity (constructSecurity s) else some (constructSecurity s)

/-- The code compares one character. -/
def Routed (request : CoapHeader) (isSecurityObject : Bool) : Prop :=
  (request.uriPath.getD []).head? = (segmentOf isSecurityObject).head?

theorem bootstrapPut_routed {isSecurityObject : Bool} (hroute : Routed request isSecurityObject) :
    bootstrapPut w request (constructSecurity s) =
      (prepared isSecurityObject s).bind (applyBootstrapPut w request isSecurityObject) := by
  cases isSecurityObject with
  | true =>
    have hhead : (request.uriPath.getD []).head? = some 0x30 := hroute
    rw [bootstrapPut, if_pos hhead]
    rfl
  | false =>
    have hhead : (request.uriPath.getD []).head? = some 0x31 := hroute
    have hnot : ¬(request.uriPath.getD []).head? = some 0x30 := by
      rw [hhead]
      decide
    rw [bootstrapPut, if_neg hnot, if_pos hhead]
    rfl

theorem bootstrapPut_unrouted (hroute : ∀ isSecurityObject, ¬Routed request isSecurityObject) :
    bootstrapPut w request (constructSecurity s) = some (false, constructSecurity s) := by
  have hsecurity : ¬(request.uriPath.getD []).head? = some 0x30 := hroute true
  have hserver : ¬(request.uriPath.getD []).head? = some 0x31 := hroute false
  rw [bootstrapPut, if_neg hsecurity, if_neg hserver]

theorem routed_unique {a b : Bool} (ha : Routed request a) (hb : Routed request b) : a = b := by
  have heq : (segmentOf a).head? = (segmentOf b).head? := ha.symm.trans hb
  cases a <;> cases b <;> first | rfl | exact absurd heq (by decide)

/-- A path whose first segment is that of an object is taken for one of its paths. -/
theorem routed_of_segment {isSecurityObject : Bool}
    (h : firstSegment (request.uriPath.getD []) = segmentOf isSecurityObject) :
    Routed request isSecurityObject := by
  rw [Routed, ← h]
  generalize request.uriPath.getD [] = path at h ⊢
  rw [firstSegment] at h ⊢
  cases path with
  | nil => rfl
  | cons b rest =>
    rw [List.takeWhile_cons]
    split_ifs with hb
    · rfl
    · rw [List.takeWhile_cons, if_neg hb] at h
      cases isSecurityObject <;> cases h

theorem constructSecurity_spec (s : NsdlInterface) :
    (∃ security, (constructSecurity s).security = some security) ∧
      (constructSecurity s).calls = s.calls ∧ (constructSecurity s).server = s.server := by
  rw [constructSecurity]
  cases hs : s.security with
  | none => exact ⟨⟨_, rfl⟩, rfl, rfl⟩
  | some security => exact ⟨⟨security, hs⟩, rfl, rfl⟩

theorem prepareSecurity_spec (hs : ∃ security, s.security = some security)
    (h : prepareSecurity s = some p) : (∃ security, p.security = some security) ∧
      p.calls = s.calls ∧ p.server = s.server := by
  obtain ⟨security, hs⟩ := hs
  rw [prepareSecurity, hs] at h
  obtain ⟨security', -, h⟩ := Option.bind_eq_some_iff.mp h
  obtain rfl := Option.some.inj h
  exact ⟨⟨security', rfl⟩, rfl, rfl⟩

/-- Only the object that is to be written is prepared. -/
theorem prepared_spec {isSecurityObject : Bool} (h : prepared isSecurityObject s = some p) :
    (∃ security, p.security = some security) ∧ p.calls = s.calls ∧ p.server = s.server ∧
      p.object (!isSecurityObject) = (constructSecurity s).object !isSecurityObject := by
  obtain ⟨hsome, hcalls, hserver⟩ := constructSecurity_spec s
  cases isSecurityObject with
  | true =>
    obtain ⟨hp, hcalls', hserver'⟩ := prepareSecurity_spec hsome h
    exact ⟨hp, hcalls'.trans hcalls, hserver'.trans hserver, congrArg M2MServer.toObject hserver'⟩
  | false =>
    obtain rfl := Option.some.inj h
    exact ⟨hsome, hcalls, hserver, rfl⟩

end Route

section Put
variable {w : Surroundings} {request : CoapHeader} {s s' p : NsdlInterface}

/-- A payload that the code can decode: TLV, with a record of an object instance or of a resource in
front. -/
def Supported (request : CoapHeader) : Prop :=
  request.contentFormat.getD 0 = coapContentOmaTlvType ∧
    (isType typeObjectInstance request.payloadPtr = true ∨ PlainRecords request)

/-- What plain records make of the instance that the path names. -/
def decodeNamed (request : CoapHeader) (isSecurityObject : Bool) (p : NsdlInterface) :
    Option (Bool × M2MObject) :=
  (instanceNamed (request.uriPath.getD [])).bind
    (decodeResources request (putOperation isSecurityObject) p.heap (p.object isSecurityObject))

/-- A PUT goes where it is addressed: it changes nothing but the object of its first segment, is
refused where there is none or the payload is not supported, and plain records go to the instance
that the path names. If there is no such instance, they are refused. -/
structure Addressed (request : CoapHeader) (s s' : NsdlInterface) : Prop where
  changes : ∀ isSecurityObject, ¬Unchanged isSecurityObject s s' →
    firstSegment (request.uriPath.getD []) = segmentOf isSecurityObject
  answer : Answered .changed s s' ∨ Answered .badRequest s s'
  refused : ¬(Supported request ∧ ∃ isSecurityObject,
    firstSegment (request.uriPath.getD []) = segmentOf isSecurityObject) → Refused s s'
  records : ∀ isSecurityObject p, Supported request → PlainRecords request →
    firstSegment (request.uriPath.getD []) = segmentOf isSecurityObject →
      prepared isSecurityObject s = some p →
        match decodeNamed request isSecurityObject p with
        | none => Refused s s'
        | some result => Applied isSecurityObject result s s'

def PutsRight (w : Surroundings) (request : CoapHeader) (s : NsdlInterface) : Prop :=
  ∃ s', handleBootstrapPutMessage w request s = some s' ∧ Addressed request s s'

/-- The condition on a PUT that starts like the paths of an object: the security object has its
instance and, for a TLV payload, an instance with the first id of plain records exists; that is the
one that the path names, or nothing of the records is taken; and where the first segment goes on,
nothing of the payload is taken. -/
def Puttable (request : CoapHeader) (s : NsdlInterface) : Prop :=
  ∀ isSecurityObject, Routed request isSecurityObject →
    ∃ p, prepared isSecurityObject s = some p ∧
      (request.contentFormat.getD 0 = coapContentOmaTlvType →
        let obj := p.object isSecurityObject
        let taken := Taken request (putOperation isSecurityObject) p.heap obj
        p.securityObject.instances ≠ [] ∧ Defined request obj ∧
          if firstSegment (request.uriPath.getD []) = segmentOf isSecurityObject then
            PlainRecords request → tlvInstanceId request.payloadPtr =
              instanceNamed (request.uriPath.getD []) ∨ ¬taken
          else ¬taken)

theorem addressed_of_refused (h : Refused s s')
    (hnone : ∀ isSecurityObject,
      firstSegment (request.uriPath.getD []) ≠ segmentOf isSecurityObject) :
    Addressed request s s' :=
  ⟨fun isSecurityObject hc => absurd (h.2 isSecurityObject) hc, .inr h.1, fun _ => h,
    fun isSecurityObject _ _ _ hexact => absurd hexact (hnone isSecurityObject)⟩

theorem addressed_of_unsupported (h : Refused s s') (hnot : ¬Supported request) :
    Addressed request s s' :=
  ⟨fun isSecurityObject hc => absurd (h.2 isSecurityObject) hc, .inr h.1, fun _ => h,
    fun _ _ hsupported => absurd hsupported hnot⟩

theorem putsRight_iff_none (h : handleBootstrapPutMessage w request s = none) :
    ¬PutsRight w request s := fun ⟨_, hs', _⟩ => nomatch h.symm.trans hs'

theorem putsRight_iff_some (h : handleBootstrapPutMessage w request s = some s') :
    PutsRight w request s ↔ Addressed request s s' := by
  rw [PutsRight, h]
  simp

theorem concluded_discards (w : Surroundings) (request : CoapHeader) (s : NsdlInterface) :
    (concluded w request false s).security = none := by
  rw [concluded]
  cases w.buildResponse request (codeOf false) <;> rfl

/-- A TLV payload has been decoded into an object, and the other one is left as it was. -/
structure Decoded (request : CoapHeader) (isSecurityObject : Bool) (s p s' : NsdlInterface)
    (ok : Bool) (obj' : M2MObject) : Prop where
  parsed : ∃ h', parseInto request (p.object isSecurityObject) (putOperation isSecurityObject)
    p.heap = some (ok, obj', h')
  decoding : Decoding (Accepted request (putOperation isSecurityObject) (p.object isSecurityObject))
    (Taken request (putOperation isSecurityObject) p.heap (p.object isSecurityObject))
    (putOperation isSecurityObject) (p.object isSecurityObject) ok obj'
  applied : Applied isSecurityObject (ok, obj') s s'
  discarded : ok = false → s'.security = none
  other : Unchanged (!isSecurityObject) s s'

theorem handlePut_decoded (hw : w.Builds) {isSecurityObject : Bool}
    (hroute : Routed request isSecurityObject) (hp : prepared isSecurityObject s = some p)
    (htlv : request.contentFormat.getD 0 = coapContentOmaTlvType)
    (hdefined : Defined request (p.object isSecurityObject))
    (hinstances : p.securityObject.instances ≠ []) :
    ∃ s' ok obj', handleBootstrapPutMessage w request s = some s' ∧
      Decoded request isSecurityObject s p s' ok obj' := by
  obtain ⟨⟨security, hsecurity⟩, hcalls, -, hframe⟩ := prepared_spec hp
  obtain ⟨ok, s₁, obj', h', hparse, hdecoding, hput, halike, hother, new, hnew, hcalls₁⟩ :=
    (put_object w isSecurityObject hsecurity htlv).2 hdefined hinstances
  have hnew := hnew hw
  rw [hcalls] at hcalls₁
  rw [hframe] at hother
  refine ⟨concluded w request ok s₁, ok, obj', ?_, ⟨h', hparse⟩, hdecoding,
    ⟨concluded_answered hw request ok hnew hcalls₁, concluded_left hw ok hnew hcalls₁ halike⟩, ?_,
    concluded_left hw ok hnew hcalls₁ hother⟩
  · rw [handleBootstrapPutMessage, bootstrapPut_routed hroute, hp, Option.bind_some, hput]
    rfl
  · rintro rfl
    exact concluded_discards w request s₁

/-- Nothing has been taken of the request. -/
theorem refused_concluded (hw : w.Builds) (request : CoapHeader) {new : List Call}
    (hnew : Preliminary new) (hcalls : s'.calls = s.calls ++ new) (hserver : s'.server = s.server) :
    Refused s (concluded w request false s') := by
  have hanswered := concluded_answered hw request false hnew hcalls
  refine ⟨hanswered, fun isSecurityObject => ?_⟩
  cases isSecurityObject with
  | true => exact .inr ⟨rfl, concluded_discards w request s', hanswered⟩
  | false =>
    have hsame : (constructSecurity s).server = s'.server :=
      (constructSecurity_spec s).2.2.trans hserver.symm
    exact concluded_left hw false hnew hcalls
      (congrArg (fun server : M2MServer => forgetOperations server.toObject) hsame)

/-- A payload that is not TLV. -/
theorem handlePut_refused (hw : w.Builds) {isSecurityObject : Bool}
    (hroute : Routed request isSecurityObject) (hp : prepared isSecurityObject s = some p)
    (htlv : request.contentFormat.getD 0 ≠ coapContentOmaTlvType) :
    ∃ s', handleBootstrapPutMessage w request s = some s' ∧ Refused s s' := by
  obtain ⟨-, hcalls, hserver, -⟩ := prepared_spec hp
  obtain ⟨new, hnew, hput⟩ := applyBootstrapPut_eq w request isSecurityObject p
  have hnew := hnew hw
  rw [hcalls] at hput
  refine ⟨concluded w request false { p with calls := s.calls ++ new }, ?_,
    refused_concluded hw request hnew rfl hserver⟩
  rw [handleBootstrapPutMessage, bootstrapPut_routed hroute, hp, Option.bind_some, hput]
  dsimp only
  rw [if_neg htlv]
  rfl

/-- A path of neither object. -/
theorem handlePut_unrouted (hw : w.Builds)
    (hroute : ∀ isSecurityObject, ¬Routed request isSecurityObject) :
    ∃ s', handleBootstrapPutMessage w request s = some s' ∧ Refused s s' := by
  obtain ⟨-, hcalls, hserver⟩ := constructSecurity_spec s
  have hnothing : Preliminary [] := fun _ hr => nomatch hr
  refine ⟨concluded w request false (constructSecurity s), ?_,
    refused_concluded hw request hnothing (hcalls.trans (List.append_nil _).symm) hserver⟩
  rw [handleBootstrapPutMessage, bootstrapPut_unrouted hroute]
  rfl

/-- Something that is missing is used. -/
theorem handlePut_undefined (w : Surroundings) {isSecurityObject : Bool}
    (hroute : Routed request isSecurityObject) (hp : prepared isSecurityObject s = some p)
    (htlv : request.contentFormat.getD 0 = coapContentOmaTlvType)
    (hundefined :
      ¬(Defined request (p.object isSecurityObject) ∧ p.securityObject.instances ≠ [])) :
    handleBootstrapPutMessage w request s = none := by
  obtain ⟨⟨security, hsecurity⟩, -⟩ := prepared_spec hp
  have hput := (put_object w isSecurityObject hsecurity htlv).1 hundefined
  rw [handleBootstrapPutMessage, bootstrapPut_routed hroute, hp, Option.bind_some, hput]
  rfl

section Decided
variable {isSecurityObject ok : Bool} {obj' : M2MObject}

/-- What is taken shows, in the answer or in the server object. -/
theorem Decoded.refused_iff (h : Decoded request isSecurityObject s p s' ok obj')
    (hp : prepared isSecurityObject s = some p) : Refused s s' ↔
      ¬Taken request (putOperation isSecurityObject) p.heap (p.object isSecurityObject) := by
  constructor
  · intro hrefused htaken
    have hok := h.applied.ok_of_refused hrefused
    obtain htrue | ⟨hpost, t, hnone, hsome⟩ := h.decoding.shows htaken
    · exact nomatch hok.symm.trans htrue
    · cases isSecurityObject with
      | true => cases hpost
      | false =>
        have hbefore : Alike (p.object false) (s'.object false) := by
          obtain rfl := Option.some.inj hp
          exact (hrefused.2 false).resolve_right fun hc => nomatch hc.1
        have hafter : Alike obj' (s'.object false) :=
          h.applied.2.resolve_right fun hc => nomatch hc.1
        exact not_alike_of_base? hnone hsome (hbefore.trans hafter.symm)
  · intro huntaken
    obtain ⟨rfl, rfl⟩ := h.decoding.untaken huntaken
    have hanswered : Answered .badRequest s s' := h.applied.1
    have hown : Unchanged isSecurityObject s s' := by
      cases isSecurityObject with
      | true => exact .inr ⟨rfl, h.discarded rfl, hanswered⟩
      | false =>
        obtain rfl := Option.some.inj hp
        exact h.applied.2
    refine ⟨hanswered, fun b => ?_⟩
    by_cases hb : b = isSecurityObject
    · exact hb ▸ hown
    · exact (Bool.eq_not_of_ne hb) ▸ h.other

/-- Records for an instance that is not the one with the first id find none, since there is only
one. -/
theorem decodeNamed_none (hdefined : Defined request (p.object isSecurityObject))
    (hplain : PlainRecords request) (hother : tlvInstanceId request.payloadPtr ≠
      instanceNamed (request.uriPath.getD [])) : decodeNamed request isSecurityObject p = none := by
  obtain ⟨id, hid, oi, hoi, hkey⟩ := hdefined hplain
  rw [decodeNamed]
  cases hnamed : instanceNamed (request.uriPath.getD []) with
  | none => rfl
  | some id' =>
    rw [Option.bind_some, decodeResources, Option.map_eq_none_iff]
    cases hfirst : Search.first (·.instanceId == id') (p.object isSecurityObject).instances with
    | none => rfl
    | some found =>
      obtain ⟨hmem, hkey'⟩ := Keyed.first_entry hfirst
      have hone := p.object_length isSecurityObject
      have hsame : oi = found.2 := by
        have hfound := List.mem_of_getElem? hmem
        generalize (p.object isSecurityObject).instances = l at hoi hfound hone
        obtain _ | ⟨x, _ | ⟨y, l⟩⟩ := l
        · cases hoi
        · rw [List.mem_singleton.mp hoi, List.mem_singleton.mp hfound]
        · simp at hone
      exact absurd (hid.trans ((congrArg some (hkey.symm.trans (hsame ▸ hkey'))).trans hnamed.symm))
        hother

/-- Where the first segment is exactly that of the object, it matters which instance is taken. -/
theorem Decoded.addressed_exact (h : Decoded request isSecurityObject s p s' ok obj')
    (hp : prepared isSecurityObject s = some p)
    (htlv : request.contentFormat.getD 0 = coapContentOmaTlvType)
    (hdefined : Defined request (p.object isSecurityObject))
    (hexact : firstSegment (request.uriPath.getD []) = segmentOf isSecurityObject) :
    Addressed request s s' ↔ (PlainRecords request → tlvInstanceId request.payloadPtr =
      instanceNamed (request.uriPath.getD []) ∨
        ¬Taken request (putOperation isSecurityObject) p.heap (p.object isSecurityObject)) := by
  have hroute := routed_of_segment hexact
  refine ⟨fun ha hplain => or_iff_not_imp_left.mpr fun hother => ?_, fun hr => ?_⟩
  · have hrecords := ha.records isSecurityObject p ⟨htlv, .inr hplain⟩ hplain hexact hp
    rw [decodeNamed_none hdefined hplain hother] at hrecords
    exact (h.refused_iff hp).mp hrecords
  constructor
  case changes =>
    intro b hchanged
    by_cases hb : b = isSecurityObject
    · exact hb ▸ hexact
    · exact absurd ((Bool.eq_not_of_ne hb) ▸ h.other) hchanged
  case answer =>
    have hanswered := h.applied.1
    cases ok with
    | true => exact .inl hanswered
    | false => exact .inr hanswered
  case refused =>
    refine fun hnot => (h.refused_iff hp).mpr fun htaken =>
      hnot ⟨⟨htlv, ?_⟩, isSecurityObject, hexact⟩
    exact htaken.imp (·.1) (·.1)
  case records =>
    intro b p' _ hplain hsegment hp'
    obtain rfl := routed_unique (routed_of_segment hsegment) hroute
    obtain rfl := Option.some.inj (hp.symm.trans hp')
    by_cases hnamed : tlvInstanceId request.payloadPtr = instanceNamed (request.uriPath.getD [])
    · obtain ⟨id, hid, -⟩ := hdefined hplain
      obtain ⟨h', hparse⟩ := h.parsed
      have hresult := parseInto_plain (putOperation b) p.heap (p.object b) hplain hid
      rw [hparse] at hresult
      have hdecode : decodeNamed request b p = some (ok, obj') := by
        rw [decodeNamed, ← hnamed, hid, Option.bind_some, ← hresult]
        rfl
      rw [hdecode]
      exact h.applied
    · rw [decodeNamed_none hdefined hplain hnamed]
      exact (h.refused_iff hp).mpr ((hr hplain).resolve_left hnamed)

/-- Where it goes on, the PUT is to be refused. -/
theorem Decoded.addressed_longer (h : Decoded request isSecurityObject s p s' ok obj')
    (hp : prepared isSecurityObject s = some p) (hroute : Routed request isSecurityObject)
    (hlonger : firstSegment (request.uriPath.getD []) ≠ segmentOf isSecurityObject) :
    Addressed request s s' ↔
      ¬Taken request (putOperation isSecurityObject) p.heap (p.object isSecurityObject) := by
  have hnone (b : Bool) : firstSegment (request.uriPath.getD []) ≠ segmentOf b := fun hsegment => by
    obtain rfl := routed_unique (routed_of_segment hsegment) hroute
    exact hlonger hsegment
  rw [← h.refused_iff hp]
  exact ⟨fun ha => ha.refused fun hc => hc.2.elim hnone, fun hr => addressed_of_refused hr hnone⟩

end Decided

theorem puttable_iff {isSecurityObject : Bool} (hroute : Routed request isSecurityObject)
    (hp : prepared isSecurityObject s = some p) : Puttable request s ↔
      (request.contentFormat.getD 0 = coapContentOmaTlvType →
        let obj := p.object isSecurityObject
        let taken := Taken request (putOperation isSecurityObject) p.heap obj
        p.securityObject.instances ≠ [] ∧ Defined request obj ∧
          if firstSegment (request.uriPath.getD []) = segmentOf isSecurityObject then
            PlainRecords request → tlvInstanceId request.payloadPtr =
              instanceNamed (request.uriPath.getD []) ∨ ¬taken
          else ¬taken) := by
  refine ⟨fun h htlv => ?_, fun h other hother => ?_⟩
  · obtain ⟨p', hp', hput⟩ := h isSecurityObject hroute
    obtain rfl := Option.some.inj (hp.symm.trans hp')
    exact hput htlv
  · obtain rfl := routed_unique hother hroute
    exact ⟨p, hp, h⟩

/-- Resource 1 of "0/0", the flag of a bootstrap server. -/
def putFlag : CoapHeader := putTlv [0x30, 0x2F, 0x30] [0xC1, 0x01, 0x01]

/-- Resource 0 of object "10". -/
def putTen : CoapHeader := putTlv [0x31, 0x30] [0xC1, 0x00, 0x07]

end Put
end MbedClient.Nsdl
