import MbedClient.Nsdl.Addressing
import MbedClient.Nsdl.ServerPost

/-! Requests that are given to `received_from_server_callback`. One is taken for a response if its
id is one of those that are stored, whatever its code. -/
namespace MbedClient.Nsdl
open Tlv (Addressee)
variable {w : Surroundings} {header : CoapHeader} {s s' t : NsdlInterface}

section Put

/-- A PUT that is accepted: the path starts like that of one of the two objects, the security object
has its instance, and the check of the TLV payload finds no error. -/
def AcceptedPut (header : CoapHeader) (s : NsdlInterface) : Prop :=
  ∃ isSecurityObject, Routed header isSecurityObject ∧
    header.contentFormat.getD 0 = coapContentOmaTlvType ∧
    ∃ p, prepared isSecurityObject s = some p ∧ p.securityObject.instances ≠ [] ∧
      Accepted header (putOperation isSecurityObject) (p.object isSecurityObject)

theorem defined_of_accepted {operation : Tlv.Operation} {obj : M2MObject}
    (h : Accepted header operation obj) : Defined header obj := by
  intro hplain
  obtain ⟨hinstance, -⟩ | ⟨-, oi, hoi, hid, -⟩ := h
  · exact absurd hplain (not_plainRecords hinstance)
  · exact ⟨oi.instanceId, hid, oi, hoi, rfl⟩

theorem acceptedPut_iff {isSecurityObject : Bool} (hroute : Routed header isSecurityObject)
    {p : NsdlInterface} (hp : prepared isSecurityObject s = some p) :
    AcceptedPut header s ↔ header.contentFormat.getD 0 = coapContentOmaTlvType ∧
      p.securityObject.instances ≠ [] ∧
        Accepted header (putOperation isSecurityObject) (p.object isSecurityObject) := by
  constructor
  · rintro ⟨other, hother, htlv, p', hp', hput⟩
    obtain rfl := routed_unique hother hroute
    obtain rfl := Option.some.inj (hp.symm.trans hp')
    exact ⟨htlv, hput⟩
  · rintro ⟨htlv, hput⟩
    exact ⟨isSecurityObject, hroute, htlv, p, hp, hput⟩

theorem bootstrapPut_accepts (w : Surroundings) (header : CoapHeader) (s : NsdlInterface) :
    (∃ s', bootstrapPut w header (constructSecurity s) = some (true, s')) ↔
      AcceptedPut header s := by
  by_cases hrouted : ∃ isSecurityObject, Routed header isSecurityObject
  · obtain ⟨isSecurityObject, hroute⟩ := hrouted
    rw [bootstrapPut_routed hroute]
    cases hp : prepared isSecurityObject s with
    | none =>
      refine iff_of_false (fun ⟨_, hc⟩ => nomatch hc) ?_
      rintro ⟨other, hother, -, p, hp', -⟩
      obtain rfl := routed_unique hother hroute
      exact Option.some_ne_none _ (hp'.symm.trans hp)
    | some p =>
      rw [acceptedPut_iff hroute hp, Option.bind_some]
      by_cases htlv : header.contentFormat.getD 0 = coapContentOmaTlvType
      · obtain ⟨⟨security, hsecurity⟩, -⟩ := prepared_spec hp
        obtain ⟨hundefined, hdefined⟩ := put_object w isSecurityObject hsecurity htlv
        rw [and_iff_right htlv]
        by_cases hd : Defined header (p.object isSecurityObject) ∧ p.securityObject.instances ≠ []
        · obtain ⟨ok, s', obj', h', -, hdecoding, hput, -⟩ := hdefined hd.1 hd.2
          rw [hput, and_iff_right hd.2, ← hdecoding.accepts]
          simp
        · rw [hundefined hd]
          exact iff_of_false (fun ⟨_, hc⟩ => nomatch hc) fun hc =>
            hd ⟨defined_of_accepted hc.2, hc.1⟩
      · obtain ⟨new, -, hput⟩ := applyBootstrapPut_eq w header isSecurityObject p
        dsimp only at hput
        rw [if_neg htlv] at hput
        rw [hput]
        exact iff_of_false (by simp) fun hc => htlv hc.1
  · rw [bootstrapPut_unrouted (not_exists.mp hrouted)]
    exact iff_of_false (by simp) fun ⟨b, hb, _⟩ => hrouted ⟨b, hb⟩

/-- A PUT of the bootstrap server is reported exactly if it is not accepted. -/
theorem handleBootstrapPutMessage_unreported (ht : Reports t s []) :
    (∃ s', handleBootstrapPutMessage w header s = some s' ∧ Reports t s' []) ↔
      AcceptedPut header s := by
  rw [← bootstrapPut_accepts w]
  constructor
  · rintro ⟨s', hs', hreports⟩
    obtain ⟨success, s₁, hput, hreports', -⟩ := handleBootstrapPutMessage_reports hs'
    cases success with
    | true => exact ⟨s₁, hput⟩
    | false => exact absurd (hreports.unique (ht.trans hreports')) (List.cons_ne_nil _ _).symm
  · rintro ⟨s₁, hput⟩
    have hs' : handleBootstrapPutMessage w header s =
        some (s₁.send (w.buildResponse header .changed)) := by
      rw [handleBootstrapPutMessage, hput]
      rfl
    obtain ⟨success, s₂, hput', hreports, -⟩ := handleBootstrapPutMessage_reports hs'
    rw [hput] at hput'
    obtain ⟨rfl, rfl⟩ := Prod.mk.inj (Option.some.inj hput')
    exact ⟨_, hs', ht.trans hreports⟩

end Put

section Post
variable {o : ObjectNode} {id : UInt16} {h : Heap}

/-- A new instance without a response to write the code of its success into. -/
theorem post_new_none {name : Bytes} {data : Nat → UInt8} (hdata : header.payloadPtr = some data) :
    handlePostRequestObjectInstance w header ⟨id, []⟩ newParams h name = none ↔
      w.buildResponse header .changed = none ∧ Stays w header id := by
  have hpost : newParams.operation &&& snGrsPostAllowed ≠ 0 := by decide
  have hown : newParams.coapContentType = coapContentOmaTlvType.toUInt8 := rfl
  have hnone := Tlv.deserialize_none (a := .objectInstance ⟨id, []⟩) data
    header.payloadLen.toNat .post ⟨h, []⟩ rfl
  change (Tlv.deserializeResources (some data) header.payloadLen.toNat .post
    (⟨id, []⟩, ⟨h, []⟩)).1 = .none ↔ _ at hnone
  have hstays : Stays w header id ↔
      header.contentType (w.buildResponse header .changed).isSome coapContentOmaTlvType.toUInt8 =
        coapContentOmaTlvType ∧
      (Addressee.objectInstance ⟨id, []⟩).Accepted data header.payloadLen.toNat .post := by
    simp [Stays, hdata]
  rw [handlePostRequestObjectInstance, if_pos hpost, hown, hstays, ← hnone]
  by_cases htype : header.contentType (w.buildResponse header .changed).isSome
      coapContentOmaTlvType.toUInt8 = coapContentOmaTlvType
  · simp only [if_pos htype, hdata, tlvInstanceId, Option.map_some]
    by_cases herror : (Tlv.deserializeResources (some data) header.payloadLen.toNat .post
        (⟨id, []⟩, ⟨h, []⟩)).1 = .none
    · simp only [if_pos herror]
      cases hbuilt : w.buildResponse header .changed with
      | none =>
        rw [hbuilt] at htype
        exact iff_of_true rfl ⟨rfl, htype, herror⟩
      | some response =>
        refine iff_of_false ?_ fun hc => Option.some_ne_none _ hc.1
        dsimp only
        split_ifs
        · split
          · exact Option.some_ne_none _
          · exact Option.some_ne_none _
        · split
          · exact Option.some_ne_none _
          · exact Option.some_ne_none _
        · exact not_false
    · simp only [if_neg herror]
      exact iff_of_false (Option.some_ne_none _) fun hc => herror hc.2.2
  · simp only [if_neg htype]
    exact iff_of_false (Option.some_ne_none _) fun hc => htype hc.2.1

/-- A POST that has no defined outcome: its name is that of another kind of entity than an object,
or the success of a new instance has no response to be written into. -/
def UndefinedPost (w : Surroundings) (header : CoapHeader) (s : NsdlInterface) : Prop :=
  match postPlan header s.objects with
  | .undefined => True
  | .create _ o id => o.objectInstance id = none ∧ s.heap.newNode.1 = true ∧
    w.buildResponse header .changed = none ∧ Stays w header id
  | _ => False

theorem receivedPost_none : receivedPost w header s = none ↔ UndefinedPost w header s := by
  rw [receivedPost_eq, UndefinedPost]
  cases hplan : postPlan header s.objects with
  | ignore => exact iff_of_false (Option.some_ne_none _) not_false
  | reply msgCode => exact iff_of_false (Option.some_ne_none _) not_false
  | undefined => exact iff_of_true rfl trivial
  | create i o id =>
    obtain ⟨-, -, -, -, -, -, -, data, hdata⟩ := postPlan_create hplan
    dsimp only
    rw [postToObject, Option.map_eq_none_iff]
    by_cases hnew : o.objectInstance id = none ∧ s.heap.newNode.1 = true
    · obtain ⟨f, -, hcreate⟩ := createAndPost_created w header hnew.1 hnew.2
      rw [hcreate, Option.map_eq_none_iff, post_new_none hdata, and_iff_right hnew.1,
        and_iff_right hnew.2]
    · obtain ⟨h, hrun⟩ := createAndPost_missing w header hnew
      rw [hrun]
      exact iff_of_false (Option.some_ne_none _) fun hc => hnew ⟨hc.1, hc.2.1⟩

theorem postToObject_reports {i : Nat} {o : ObjectNode} {id : UInt16}
    (h : postToObject w header s i o id = some s') : Reports s s' [] := by
  rw [postToObject] at h
  obtain ⟨⟨response, told, o', heap⟩, -, rfl⟩ := Option.map_eq_some_iff.mp h
  dsimp only
  generalize (if response.any (·.msgCode ≠ .created) = true then (o'.removeObjectInstance id).2
    else o') = o''
  have hset : Reports s { s with objects := s.objects.set i o'', heap } [] := .of_calls rfl
  have hupdate : Reports s (if response.any (·.msgCode ≠ .created) = true then
      { s with objects := s.objects.set i o'', heap } else
      sendUpdateRegistration { s with objects := s.objects.set i o'', heap }) [] := by
    split_ifs
    · exact hset
    · exact (hset.quiet rfl).quiet rfl
  cases told with
  | true => exact (hupdate.send response).quiet (c := .valueUpdated) rfl
  | false => exact hupdate.send response

theorem receivedPost_reports (h : receivedPost w header s = some s') : Reports s s' [] := by
  rw [receivedPost_eq] at h
  cases hplan : postPlan header s.objects with
  | ignore =>
    rw [hplan] at h
    obtain rfl := Option.some.inj h
    exact .of_calls rfl
  | reply msgCode =>
    rw [hplan] at h
    obtain rfl := Option.some.inj h
    exact Reports.send (.of_calls rfl) _
  | create i o id =>
    rw [hplan] at h
    exact postToObject_reports h
  | undefined => simp [hplan] at h

end Post

section Request

def MsgCode.isRequest : MsgCode → Bool
  | .requestGet | .requestPut | .requestPost | .requestDelete => true
  | _ => false

/-- Requests that come to an end without a report. What finishes a bootstrap, and what it refuses,
is reported. -/
def Unreported (w : Surroundings) (header : CoapHeader) (s : NsdlInterface)
    (isBootstrapMsg : Bool) : Prop :=
  match header.msgCode with
  | .requestPut => isBootstrapMsg = true → AcceptedPut header s
  | .requestDelete => isBootstrapMsg = true → bootstrapDeleteAccepted w header s = true
  | .requestPost => isBootstrapMsg = false ∧ ¬UndefinedPost w header s
  | _ => True

section Reported
variable (ht : Reports t s [])
include ht

theorem receivedPost_unreported : (∃ s', receivedPost w header s = some s' ∧ Reports t s' []) ↔
    ¬UndefinedPost w header s := by
  rw [← receivedPost_none]
  cases hs' : receivedPost w header s with
  | none => exact iff_of_false (fun ⟨_, hc, _⟩ => nomatch hc) (not_not_intro rfl)
  | some s' =>
    exact iff_of_true ⟨s', rfl, ht.trans (receivedPost_reports hs')⟩ (Option.some_ne_none _)

theorem handleBootstrapDelete_unreported : Reports t (handleBootstrapDelete w header s) [] ↔
    bootstrapDeleteAccepted w header s = true := by
  have hreports := ht.trans (handleBootstrapDelete_reports w header s).1
  cases haccepted : bootstrapDeleteAccepted w header s with
  | true =>
    rw [haccepted] at hreports
    exact iff_of_true hreports rfl
  | false =>
    rw [haccepted] at hreports
    refine iff_of_false (fun hc => ?_) Bool.false_ne_true
    exact absurd (hc.unique hreports) (List.cons_ne_nil _ _).symm

theorem handleBootstrapFinished_reported :
    ¬∃ s', handleBootstrapFinished w header s = some s' ∧ Reports t s' [] := by
  rintro ⟨s', hs', hquiet⟩
  obtain ⟨-, ⟨n, hreports, -⟩ | ⟨hreports, -⟩⟩ := handleBootstrapFinished_reports hs'
  · exact absurd (hquiet.unique (ht.trans hreports)) (List.cons_ne_nil _ _).symm
  · exact absurd (hquiet.unique (ht.trans hreports)) (List.cons_ne_nil _ _).symm

/-- One case for each of the four codes. -/
theorem receivedRequest_unreported (hr : header.msgCode.isRequest = true) (isBootstrapMsg : Bool) :
    (∃ s', receivedRequest w header s isBootstrapMsg = some s' ∧ Reports t s' []) ↔
      Unreported w header s isBootstrapMsg := by
  have hsame : ∃ s', some s = some s' ∧ Reports t s' [] := ⟨s, rfl, ht⟩
  have hsent : ∃ s', some (s.send (w.buildResponse header .methodNotAllowed)) = some s' ∧
      Reports t s' [] := ⟨_, rfl, ht.send _⟩
  rw [receivedRequest, Unreported]
  cases hcode : header.msgCode with
  | requestGet => exact iff_of_true hsame trivial
  | requestPut =>
    cases isBootstrapMsg with
    | true => simp only [if_true, true_imp_iff, handleBootstrapPutMessage_unreported ht]
    | false => exact iff_of_true hsent fun hc => absurd hc Bool.false_ne_true
  | requestDelete =>
    cases isBootstrapMsg with
    | true => simp [handleBootstrapDelete_unreported ht]
    | false => exact iff_of_true hsent fun hc => absurd hc Bool.false_ne_true
  | requestPost =>
    cases isBootstrapMsg with
    | true => exact iff_of_false (handleBootstrapFinished_reported ht) fun hc => by cases hc.1
    | false =>
      dsimp only
      rw [if_neg Bool.false_ne_true, receivedPost_unreported ht, and_iff_right rfl]
  | _ => simp [hcode, MsgCode.isRequest] at hr

end Reported

theorem interfaceError_request (hr : header.msgCode.isRequest = true) :
    interfaceError header ≠ .errorNone := by
  unfold interfaceError
  split_ifs
  · simp
  · cases hcode : header.msgCode <;> simp [hcode, MsgCode.isRequest] at hr ⊢

/-- A request with a stored id is taken for a response, and reported as one. -/
theorem stored_reports {handle : NsdlHandle} (address : Option Address)
    (hr : header.msgCode.isRequest = true) (hid : header.msgId ∈ handle.storedIds) :
    ∃ s' call, receivedFromServer w handle header address s = some s' ∧ Reports s s' [call] := by
  have hcreated : header.msgCode ≠ .created := fun h => by simp [h, MsgCode.isRequest] at hr
  have hrefused : ¬(header.msgCode = .badRequest ∨ header.msgCode = .forbidden) := by
    rintro (h | h) <;> simp [h, MsgCode.isRequest] at hr
  have hdeleted : header.msgCode ≠ .deleted := fun h => by simp [h, MsgCode.isRequest] at hr
  have hchanged : header.msgCode ≠ .changed := fun h => by simp [h, MsgCode.isRequest] at hr
  have hprocessed : Reports s (s.tell .coapDataProcessed) [] := Reports.quiet (.of_calls rfl) rfl
  unfold receivedFromServer
  by_cases hregister : header.msgId = handle.registerMsgId
  · rw [if_pos hregister, receivedRegistration, if_neg hcreated, if_neg hrefused]
    exact ⟨_, _, rfl, hprocessed.tell (.registrationError .networkError true)⟩
  rw [if_neg hregister]
  by_cases hunregister : header.msgId = handle.unregisterMsgId
  · rw [if_pos hunregister, receivedUnregistration, if_neg hdeleted]
    exact ⟨_, _, rfl,
      (hprocessed.congr rfl).tell (.registrationError (interfaceError header) false)⟩
  rw [if_neg hunregister]
  by_cases hupdate : header.msgId = handle.updateRegisterMsgId
  · rw [if_pos hupdate, receivedUpdate, if_neg hchanged]
    exact ⟨_, _, rfl, (hprocessed.quiet rfl).tell .registerEndpoint⟩
  rw [if_neg hupdate]
  by_cases hbootstrap : header.msgId = handle.bootstrapMsgId
  · rw [if_pos hbootstrap, receivedBootstrap, if_pos (interfaceError_request hr)]
    exact ⟨_, _, rfl, Reports.error (hprocessed.congr rfl)⟩
  · simp [NsdlHandle.storedIds, hregister, hunregister, hupdate, hbootstrap] at hid

/-- A message is taken for a request: it comes to the end of the request branch, and no outcome is
reported. -/
def TakenForRequest (w : Surroundings) (handle : NsdlHandle) (header : CoapHeader)
    (address : Option Address) (s : NsdlInterface) : Prop :=
  ∃ s', receivedFromServer w handle header address s = some s' ∧
    receivedRequest w header (s.tell .coapDataProcessed) (handle.isBootstrapMsg address) = some s' ∧
      Reports s s' []

/-- A request is taken for one if its message id is none of those that are stored, and it comes to
an end without a report. -/
theorem request_taken_iff {handle : NsdlHandle} {address : Option Address}
    (hr : header.msgCode.isRequest = true) : TakenForRequest w handle header address s ↔
      header.msgId ∉ handle.storedIds ∧
        Unreported w header (s.tell .coapDataProcessed) (handle.isBootstrapMsg address) := by
  have hprocessed : Reports s (s.tell .coapDataProcessed) [] := Reports.quiet (.of_calls rfl) rfl
  by_cases hid : header.msgId ∈ handle.storedIds
  · refine iff_of_false (fun hc => ?_) fun hc => hc.1 hid
    obtain ⟨s', hs', -, hquiet⟩ := hc
    obtain ⟨s'', call, hrun, hreports⟩ := stored_reports (s := s) (w := w) address hr hid
    obtain rfl := Option.some.inj (hrun.symm.trans hs')
    exact absurd (hquiet.unique hreports) (List.cons_ne_nil _ _).symm
  · rw [TakenForRequest, not_stored hid, and_iff_right hid,
      ← receivedRequest_unreported hprocessed hr]
    constructor
    · rintro ⟨s', -, hs', hquiet⟩
      exact ⟨s', hs', hquiet⟩
    · rintro ⟨s', hs', hquiet⟩
      exact ⟨s', hs', hs', hquiet⟩

def getWithId (msgId : UInt16) : CoapHeader := { plainRequest .requestGet with msgId }

/-- A GET with the id of the registration is reported as its failure. -/
theorem get_taken_for_response :
    (receivedFromServer echo registering (getWithId 7) none initialInterface).map (·.calls) =
        some [.coapDataProcessed, .registrationError .networkError true] ∧
      ¬TakenForRequest echo registering (getWithId 7) none initialInterface := by
  refine ⟨rfl, ?_⟩
  rintro ⟨s', hs', hrequest, -⟩
  have hcalls := congrArg (Option.map NsdlInterface.calls) (hs'.trans hrequest.symm)
  exact absurd hcalls (by decide)

theorem request_taken_iff_nine :
    TakenForRequest echo registering (getWithId 9) none initialInterface ↔
      (9 : UInt16) ∉ registering.storedIds ∧
        Unreported echo (getWithId 9) (initialInterface.tell .coapDataProcessed)
          (registering.isBootstrapMsg none) :=
  request_taken_iff rfl

end Request
end MbedClient.Nsdl
