import MbedClient.Nsdl.Message
import MbedClient.Security
import MbedClient.Tlv.RoundTrip

/-! The notifications of an observation: `observation_to_be_sent` of the nsdl layer and the
functions it calls. The length of a payload is computed in 32 bits and sent in 16. -/
namespace MbedClient.Nsdl
open Tlv (Output)

/-- A message as `send_notification` fills it in, confirmable and with the code of a content. -/
structure Notification where
  token : Bytes
  payloadPtr : Option Bytes
  payloadLen : UInt16
  observe : UInt16
  maxAge : UInt32
  contentFormat : UInt8
  deriving DecidableEq

/-- What the sending functions ask of an entity besides its content. A token that is NULL is
empty. -/
structure Labels where
  token : Bytes
  maxAge : UInt32
  coapContentType : UInt8

/-- What an observation is about; a resource instance is never reported. -/
inductive Observed where
  | object (obj : M2MObject)
  | objectInstance (oi : M2MObjectInstance)
  | resource (r : M2MResource)
  | resourceInstance

def getObservationToken (token : Bytes) (h : Heap) : Bytes × Heap :=
  if 0 < token.length then
    let (copied, h) := h.malloc
    (if copied then token else [], h)
  else ([], h)

/-- The header and its list of options are allocated; without one of them nothing is sent. -/
def sendNotification (token : Bytes) (value : Option Bytes) (valueLength : UInt32)
    (observation : UInt16) (maxAge : UInt32) (coapContentType : UInt8) (h : Heap) :
    Option Notification × Heap :=
  let (header, h) := h.malloc
  if header then
    let (options, h) := h.malloc
    if options then
      (some { token, payloadPtr := value, payloadLen := valueLength.toUInt16
              observe := observation, maxAge, contentFormat := coapContentType }, h)
    else (none, h)
  else (none, h)

section Send
variable (commonWrite64Bit : UInt64 → Vector UInt8 8) (e : Labels) (obsNumber : UInt16) (h : Heap)

def notifiedInstances (obj : M2MObject) (changedInstanceIds : List UInt16) (sendObject : Bool) :
    List M2MObjectInstance :=
  if sendObject then obj.instances else changedInstanceIds.filterMap obj.objectInstance

/-- An empty list of changed instances is not given to the serializer. -/
def serializeNotified (obj : M2MObject) (changedInstanceIds : List UInt16) (sendObject : Bool) :
    Option (Output × Heap) :=
  let list := notifiedInstances obj changedInstanceIds sendObject
  if sendObject || !list.isEmpty then Tlv.serialize commonWrite64Bit (.objectInstances list) h
  else some (.empty, h)

def sendObjectObservation (obj : M2MObject) (changedInstanceIds : List UInt16) (sendObject : Bool) :
    Option (Option Notification × Heap) := do
  let (out, h) ← serializeNotified commonWrite64Bit h obj changedInstanceIds sendObject
  let (token, h) := getObservationToken e.token h
  some (sendNotification token out.data out.size obsNumber e.maxAge e.coapContentType h)

def sendObjectInstanceObservation (oi : M2MObjectInstance) :
    Option (Option Notification × Heap) := do
  let (out, h) ← Tlv.serialize commonWrite64Bit (.resources oi.resources) h
  let (token, h) := getObservationToken e.token h
  some (sendNotification token out.data out.size obsNumber e.maxAge e.coapContentType h)

/-- The number of instances decides between TLV and the value, and not what the resource
supports. -/
def sendResourceObservation (r : M2MResource) : Option (Option Notification × Heap) := do
  let (token, h) := getObservationToken e.token h
  if 0 < r.resourceInstanceCount then
    let (out, h) ← Tlv.serialize commonWrite64Bit (.resource r) h
    some (sendNotification token out.data out.size obsNumber e.maxAge
      coapContentOmaTlvType.toUInt8 h)
  else
    let (value, h) := r.toM2MResourceBase.getValue h
    let valueLength := UInt32.ofNat (value.getD []).length
    let contentType := if r.resourceType = .opaqueData then coapContentOmaOpaqueType.toUInt8 else 0
    some (sendNotification token value valueLength obsNumber e.maxAge contentType h)

/-- `observation_to_be_sent`. Nothing if the serializer leaves its buffers. -/
def observationToBeSent (observed : Observed) (changedInstanceIds : List UInt16)
    (sendObject : Bool) : Option (Option Notification × Heap) :=
  match observed with
  | .object obj =>
    sendObjectObservation commonWrite64Bit e obsNumber h obj changedInstanceIds sendObject
  | .objectInstance oi => sendObjectInstanceObservation commonWrite64Bit e obsNumber h oi
  | .resource r => sendResourceObservation commonWrite64Bit e obsNumber h r
  | .resourceInstance => some (none, h)

end Send

namespace Notification
variable (n : Notification)

def payload : Bytes := (n.payloadPtr.getD []).take n.payloadLen.toNat

/-- The message has the bytes that it says it has. -/
def Backed : Prop := n.payloadLen.toNat ≤ (n.payloadPtr.getD []).length

end Notification

namespace Observed
variable (wire : M2MResourceBase → Bytes) (changedInstanceIds : List UInt16) (sendObject : Bool)

def content : Observed → Bytes
  | .object obj =>
    (notifiedInstances obj changedInstanceIds sendObject).flatMap (Tlv.objectInstanceBytes wire)
  | .objectInstance oi => oi.resources.flatMap (Tlv.resourceBytes wire)
  | .resource r => if 0 < r.resourceInstanceCount then Tlv.resourceBytes wire r else r.value
  | .resourceInstance => []

/-- It is written by the serializer. -/
def inTlv : Observed → Bool
  | .resource r => decide (0 < r.resourceInstanceCount)
  | _ => true

/-- The label that says how to read it. -/
def contentFormat (e : Labels) : Observed → UInt8
  | .resource r =>
    if 0 < r.resourceInstanceCount then coapContentOmaTlvType.toUInt8
    else if r.resourceType = .opaqueData then coapContentOmaOpaqueType.toUInt8 else 0
  | _ => e.coapContentType

/-- All resources in it have a name that is an id. -/
def Named : Observed → Prop
  | .object obj => ∀ oi ∈ obj.instances, Tlv.allNamed oi.resources = true
  | .objectInstance oi => Tlv.allNamed oi.resources = true
  | .resource r => r.nameId ≠ -1
  | .resourceInstance => False

end Observed

section Granted
variable {commonWrite64Bit : UInt64 → Vector UInt8 8}

variable {e : Labels} {obsNumber : UInt16} {ids : List UInt16} {whole : Bool} {observed : Observed}

def Notification.about (e : Labels) (obsNumber : UInt16) (format : UInt8) (content : Bytes) :
    Notification :=
  { token := e.token, payloadPtr := if content = [] then none else some content
    payloadLen := UInt16.ofNat content.length, observe := obsNumber, maxAge := e.maxAge
    contentFormat := format }

theorem getObservationToken_granted (token : Bytes) :
    getObservationToken token (fun _ => true) = (token, fun _ => true) := by
  unfold getObservationToken
  split_ifs with h
  · rfl
  · simp only [List.length_pos_iff, not_not] at h
    rw [h]

theorem sendNotification_granted (format : UInt8) (content : Bytes) :
    sendNotification e.token (if content = [] then none else some content)
        (UInt32.ofNat content.length) obsNumber e.maxAge format (fun _ => true) =
      (some (.about e obsNumber format content), fun _ => true) := by
  have hlength : (UInt32.ofNat content.length).toUInt16 = UInt16.ofNat content.length := by
    rw [← UInt16.toNat_inj, UInt32.toNat_toUInt16, UInt32.toNat_ofNat', UInt16.toNat_ofNat']
    omega
  simp only [sendNotification, Heap.malloc, if_true, hlength]
  rfl

theorem named_notified {obj : M2MObject} (h : (Observed.object obj).Named) :
    ∀ oi ∈ notifiedInstances obj ids whole, Tlv.allNamed oi.resources = true := by
  intro oi hoi
  refine h oi ?_
  unfold notifiedInstances at hoi
  split_ifs at hoi
  · exact hoi
  · obtain ⟨id, -, hid⟩ := List.mem_filterMap.mp hoi
    exact List.mem_of_find?_eq_some hid

/-- The serializer returns NULL for an empty list as well. -/
theorem serializeNotified_eq (obj : M2MObject) (h : Heap) :
    serializeNotified commonWrite64Bit h obj ids whole =
      Tlv.serialize commonWrite64Bit (.objectInstances (notifiedInstances obj ids whole)) h := by
  unfold serializeNotified
  cases notifiedInstances obj ids whole with
  | nil =>
    dsimp only
    split_ifs
    · rfl
    · rfl
  | cons oi ois => simp

/-- What is sent of a buffer that was filled in full. -/
theorem send_granted (format : UInt8) {content : Bytes} {serialized : Option (Output × Heap)}
    (h : serialized =
      if content.length < 2 ^ 32 then some (.of content, fun _ => true) else none) :
    (serialized.bind fun s =>
      let t := getObservationToken e.token s.2
      some (sendNotification t.1 s.1.data s.1.size obsNumber e.maxAge format t.2)) =
      if 2 ^ 32 ≤ content.length then none
      else some (some (.about e obsNumber format content), fun _ => true) := by
  rw [h]
  by_cases hlt : content.length < 2 ^ 32
  · rw [if_pos hlt, if_neg (not_le.mpr hlt), Option.bind_some]
    simp only [getObservationToken_granted]
    exact congrArg some (sendNotification_granted format content)
  · rw [if_neg hlt, if_pos (not_lt.mp hlt)]
    rfl

/-- With every allocation granted a notification of the whole content is sent, unless its size does
not fit in the 32 bits of the serializer. -/
theorem observationToBeSent_granted (hnamed : observed.Named) :
    let content := observed.content (Tlv.wireValue commonWrite64Bit) ids whole
    observationToBeSent commonWrite64Bit e obsNumber (fun _ => true) observed ids whole =
      if observed.inTlv = true ∧ 2 ^ 32 ≤ content.length then none
      else some (some (.about e obsNumber (observed.contentFormat e) content), fun _ => true) := by
  intro content
  have hif (o : Observed) (P : Prop) (ho : o.inTlv = true) : (o.inTlv = true ∧ P) = P := by
    simp [ho]
  cases observed with
  | resourceInstance => exact hnamed.elim
  | object obj =>
    have hrun := @send_granted e obsNumber e.coapContentType _ _
      (@Tlv.serializeObjectInstances_granted commonWrite64Bit (notifiedInstances obj ids whole)
        (named_notified hnamed))
    rw [← serializeNotified_eq] at hrun
    simp only [hif (.object obj) _ rfl]
    exact hrun
  | objectInstance oi =>
    have hrun := @send_granted e obsNumber e.coapContentType _ _
      (@Tlv.serializeResources_granted commonWrite64Bit _ hnamed)
    simp only [hif (.objectInstance oi) _ rfl]
    exact hrun
  | resource r =>
    by_cases hcount : 0 < r.resourceInstanceCount
    · have hcontent : content = Tlv.resourceBytes (Tlv.wireValue commonWrite64Bit) r :=
        if_pos hcount
      have hrun := @Tlv.serializeResource_granted commonWrite64Bit _ hnamed
      simp only [hif (.resource r) _ (decide_eq_true hcount), observationToBeSent,
        sendResourceObservation, getObservationToken_granted, if_pos hcount,
        Observed.contentFormat, hcontent, hrun]
      by_cases hlt : (Tlv.resourceBytes (Tlv.wireValue commonWrite64Bit) r).length < 2 ^ 32
      · rw [if_pos hlt, if_neg (not_le.mpr hlt)]
        exact congrArg some (sendNotification_granted coapContentOmaTlvType.toUInt8
          (Tlv.resourceBytes (Tlv.wireValue commonWrite64Bit) r))
      · rw [if_neg hlt, if_pos (not_lt.mp hlt)]
        rfl
    · have hcontent : content = r.value := if_neg hcount
      have hvalue : r.toM2MResourceBase.getValue (fun _ => true) =
          (if r.value = [] then none else some r.value, fun _ => true) := by
        unfold M2MResourceBase.getValue
        cases r.value with
        | nil => rfl
        | cons b bs => rfl
      have hlength : ((if r.value = [] then none else some r.value : Option Bytes).getD []).length =
          r.value.length := by
        split_ifs with hnil
        · rw [hnil]
          rfl
        · rfl
      simp only [observationToBeSent, sendResourceObservation, getObservationToken_granted,
        if_neg hcount, hvalue, hlength, Observed.contentFormat, hcontent, sendNotification_granted]
      exact (if_neg fun h : (Observed.resource r).inTlv = true ∧ _ =>
        hcount (of_decide_eq_true h.1)).symm

/-- The sixteen bits of the length keep the content from its front. -/
theorem Notification.payload_about (format : UInt8) (content : Bytes) :
    (Notification.about e obsNumber format content).payload =
      content.take (content.length % 2 ^ 16) := by
  have hlength : (UInt16.ofNat content.length).toNat = content.length % 2 ^ 16 :=
    UInt16.toNat_ofNat'
  unfold payload about
  rw [hlength]
  split_ifs with hnil
  · simp [hnil]
  · rfl

/-- A notification carries what it is about, exactly if that has less than 65536 bytes. -/
theorem notification_whole_iff (e : Labels) (obsNumber : UInt16) (ids : List UInt16) (whole : Bool)
    (hnamed : observed.Named) :
    let content := observed.content (Tlv.wireValue commonWrite64Bit) ids whole
    (∃ n h, observationToBeSent commonWrite64Bit e obsNumber (fun _ => true) observed ids whole =
      some (some n, h) ∧ n.payload = content) ↔ content.length < 2 ^ 16 := by
  intro content
  rw [observationToBeSent_granted hnamed]
  constructor
  · intro hwhole
    obtain ⟨n, h, hsent, hpayload⟩ := hwhole
    split_ifs at hsent
    have hn := congrArg Prod.fst (Option.some.inj hsent)
    obtain rfl := Option.some.inj hn
    rw [Notification.payload_about] at hpayload
    have hlength := congrArg List.length hpayload
    rw [List.length_take] at hlength
    omega
  · intro hlt
    have hfits : ¬(observed.inTlv = true ∧ 2 ^ 32 ≤ content.length) := by omega
    refine ⟨_, _, if_neg hfits, ?_⟩
    rw [Notification.payload_about, Nat.mod_eq_of_lt hlt, List.take_length]

/-- Two resources with a letter each. -/
def twoLetters : M2MObjectInstance :=
  ⟨0, [⟨⟨.dynamic, getPutAllowed, .string, [65]⟩, [48], false, []⟩,
    ⟨⟨.dynamic, getPutAllowed, .string, [66]⟩, [49], false, []⟩]⟩

theorem notification_whole_twoLetters :
    (∃ n h, observationToBeSent Tlv.bigEndian ⟨[1], 0, 0⟩ 1 (fun _ => true) (.object ⟨[twoLetters]⟩)
      [0] false = some (some n, h) ∧
        n.payload =
          (Observed.object ⟨[twoLetters]⟩).content (Tlv.wireValue Tlv.bigEndian) [0] false) ↔
      ((Observed.object ⟨[twoLetters]⟩).content (Tlv.wireValue Tlv.bigEndian) [0] false).length <
        2 ^ 16 :=
  notification_whole_iff ⟨[1], 0, 0⟩ 1 [0] false fun oi hoi => by
    obtain rfl := List.mem_singleton.mp hoi
    decide

end Granted

/-! What is sent when allocations fail. A list of resources that is given up keeps the size that it
has reached, without the bytes. -/
section Backed
open Allocation
variable {commonWrite64Bit : UInt64 → Vector UInt8 8}

/-- The loop leaves what its first elements have written. -/
theorem appendAll_kept {α : Type*} {f : α → Output → Heap → Tlv.Appended} {bytes : α → Bytes}
    {requests : α → Nat → List Nat} {xs : List α}
    (hf : ∀ x ∈ xs, Tlv.Appends (f x) (bytes x) (requests x)) {pre : Bytes}
    (hpre : pre.length < 2 ^ 32) {heap : Heap} {s : Bool × Output × Heap}
    (h : Tlv.appendAll f xs (.of pre) heap = some s) :
    ∃ kept, kept <+: xs ∧ s.2.1 = .of (pre ++ kept.flatMap bytes) := by
  induction xs generalizing pre heap with
  | nil =>
    obtain rfl := Option.some.inj h
    exact ⟨[], List.prefix_refl _, by simp⟩
  | cons x xs ih =>
    have hx := hf x List.mem_cons_self
    rw [Tlv.appendAll, hx.run pre heap hpre] at h
    cases ha : attempt (requests x pre.length) heap with
    | none => simp [ha] at h
    | some r =>
      obtain ⟨granted, heap'⟩ := r
      cases granted with
      | false =>
        obtain rfl : (false, Output.of pre, heap') = s := by simpa [ha] using h
        exact ⟨[], List.nil_prefix, by simp⟩
      | true =>
        have hlt := hx.fits ha
        rw [← List.length_append] at hlt
        obtain ⟨kept, hkept, hout⟩ := ih (fun y hy => hf y (List.mem_cons_of_mem x hy)) hlt
          (by simpa [ha] using h)
        refine ⟨x :: kept, List.cons_prefix_cons.mpr ⟨rfl, hkept⟩, ?_⟩
        rw [hout, List.flatMap_cons, List.append_assoc]

/-- A request is refused after all those for the first resource were granted. -/
def Interrupted (wire : M2MResourceBase → Bytes) (rs : List M2MResource) (heap : Heap) : Prop :=
  Tlv.allNamed rs = true ∧ Allocation.Refused (Tlv.resourceListRequests wire rs) heap ∧
    ¬Allocation.Refused (Tlv.lead (Tlv.resourceRequests wire) rs 0) heap

section Interrupted
variable {rs : List M2MResource} {heap heap' : Heap} {ys : Bytes}

/-- What a refused loop has written lies in front of the rest of a short content, whose size a
message can tell. -/
theorem interrupted_size (hn : Tlv.allNamed rs = true)
    (hshort : (rs.flatMap (Tlv.resourceBytes (Tlv.wireValue commonWrite64Bit))).length < 2 ^ 16)
    (hlt : ys.length < 2 ^ 32)
    (happ : Tlv.appendAll (Tlv.serializeEither commonWrite64Bit) rs .empty heap =
      some (false, .of ys, heap')) : (Output.of ys).size.toUInt16.toNat ≤ 0 ↔ ys = [] := by
  have hpre : ([] : Bytes).length < 2 ^ 32 := by decide
  obtain ⟨kept, hkept, hsame⟩ :=
    appendAll_kept (Tlv.serializeEither_appends_all commonWrite64Bit hn) hpre happ
  rw [List.nil_append] at hsame
  have hbytes : kept.flatMap (Tlv.resourceBytes (Tlv.wireValue commonWrite64Bit)) <+:
      rs.flatMap (Tlv.resourceBytes (Tlv.wireValue commonWrite64Bit)) := by
    obtain ⟨rest, rfl⟩ := hkept
    rw [List.flatMap_append]
    exact List.prefix_append _ _
  have hle := hbytes.length_le
  have hsize : ys.length =
      (kept.flatMap (Tlv.resourceBytes (Tlv.wireValue commonWrite64Bit))).length := by
    have heq := congrArg (fun o : Output => o.size.toNat) hsame
    dsimp only at heq
    rwa [Output.size_of hlt, Output.size_of (by omega)] at heq
  rw [UInt32.toNat_toUInt16, Output.size_of hlt, Nat.mod_eq_of_lt (by omega), Nat.le_zero,
    List.length_eq_zero_iff]

/-- It has written nothing if it was refused in the first resource. -/
theorem interrupted_lead
    (ha : attempt (Tlv.resourceListRequests (Tlv.wireValue commonWrite64Bit) rs) heap =
      some (false, heap'))
    (hys : ys = [] ↔ attempt (Tlv.lead (Tlv.resourceRequests (Tlv.wireValue commonWrite64Bit)) rs 0)
      heap = some (false, heap')) :
    ys = [] ↔ Allocation.Refused
      (Tlv.lead (Tlv.resourceRequests (Tlv.wireValue commonWrite64Bit)) rs 0) heap := by
  rw [hys, Allocation.refused_iff]
  constructor
  · intro hl
    exact ⟨heap', hl⟩
  · rintro ⟨heap₃, hl⟩
    rw [hl, ← Tlv.attempt_running_of_lead hl]
    exact ha

theorem serializeResources_interrupted {out : Output}
    (h : Tlv.serialize commonWrite64Bit (.resources rs) heap = some (out, heap'))
    (hshort : (rs.flatMap (Tlv.resourceBytes (Tlv.wireValue commonWrite64Bit))).length < 2 ^ 16) :
    out.size.toUInt16.toNat ≤ (out.data.getD []).length ↔
      ¬Interrupted (Tlv.wireValue commonWrite64Bit) rs heap := by
  cases hn : Tlv.allNamed rs with
  | false =>
    rw [Tlv.serialize, Tlv.serializeResources_unnamed hn] at h
    obtain rfl : Output.empty = out := congrArg Prod.fst (Option.some.inj h)
    refine iff_of_true (Nat.zero_le _) fun hi => ?_
    rw [hi.1] at hn
    cases hn
  | true =>
    have hpre : ([] : Bytes).length < 2 ^ 32 := by decide
    have hrun := Tlv.appendAll_run (Tlv.serializeEither_appends_all commonWrite64Bit hn) hpre heap
    have hempty : Output.of [] = Output.empty := rfl
    rw [List.length_nil, ← Tlv.resourceListRequests, hempty] at hrun
    rw [Tlv.serialize, Tlv.serializeResources_named hn] at h
    cases ha : attempt (Tlv.resourceListRequests (Tlv.wireValue commonWrite64Bit) rs) heap with
    | none =>
      rw [ha] at hrun
      have hnone : Tlv.appendAll (Tlv.serializeEither commonWrite64Bit) rs .empty heap = none :=
        hrun
      simp [hnone] at h
    | some r =>
      obtain ⟨granted, heap''⟩ := r
      rw [ha] at hrun
      cases granted with
      | true =>
        obtain ⟨hlt, happ⟩ := hrun
        rw [List.nil_append] at hlt happ
        obtain rfl : Output.of _ = out := by simpa [happ] using congrArg (Option.map Prod.fst) h
        refine iff_of_true ?_ fun hi => ?_
        · rw [Output.getD_of]
          exact (UInt32.toNat_toUInt16 _).le.trans ((Nat.mod_le _ _).trans (Output.size_of hlt).le)
        · have hfalse := hi.2.1
          rw [Allocation.Refused, ha] at hfalse
          cases hfalse
      | false =>
        obtain ⟨ys, hlt, happ, hys⟩ := hrun
        rw [List.nil_append] at hlt happ
        have hout : (⟨none, (Output.of ys).size⟩ : Output) = out := by
          simpa [happ] using congrArg (Option.map Prod.fst) h
        have hrefused : Allocation.Refused
            (Tlv.resourceListRequests (Tlv.wireValue commonWrite64Bit) rs) heap :=
          Allocation.refused_iff.mpr ⟨heap'', ha⟩
        rw [← hout]
        change (Output.of ys).size.toUInt16.toNat ≤ 0 ↔ _
        rw [interrupted_size hn hshort hlt happ, interrupted_lead ha hys, Interrupted]
        simp [hn, hrefused]

end Interrupted

/-- Other subjects are never left with a size alone. -/
theorem serialize_of {subject : Tlv.Subject} (hs : ∀ rs, subject ≠ .resources rs)
    {heap heap' : Heap} {out : Output}
    (h : Tlv.serialize commonWrite64Bit subject heap = some (out, heap')) :
    ∃ bytes, out = .of bytes := by
  cases subject with
  | resources rs => exact absurd rfl (hs rs)
  | objectInstances ois =>
    have hrun := Tlv.appendEach_run (fun oi (_ : oi ∈ ois) =>
      @Tlv.serializeObjectInstance_tries commonWrite64Bit oi)
      (by decide : ([] : Bytes).length < 2 ^ 32) heap
    have happend : Tlv.appendEach (fun oi => Tlv.serializeObjectInstance commonWrite64Bit
        oi.instanceId oi) ois (.of []) heap = some (out, heap') := h
    rw [happend] at hrun
    obtain ⟨kept, -, hout, -⟩ := hrun
    exact ⟨_, hout⟩
  | resource r =>
    have hempty : Output.empty = .of [] := rfl
    rw [Tlv.serialize] at h
    by_cases hname : r.nameId = -1
    · have hrun :
          Tlv.serializeEither commonWrite64Bit r .empty heap = some (false, .empty, heap) := by
        simp [Tlv.serializeEither, hname]
      rw [hrun] at h
      exact ⟨[], (congrArg Prod.fst (Option.some.inj h)).symm⟩
    · have hrun := (@Tlv.serializeEither_appends commonWrite64Bit _ hname).run
        [] heap (by decide)
      rw [hempty, hrun] at h
      obtain ⟨p, hp, hout⟩ := Option.map_eq_some_iff.mp h
      obtain ⟨s, -, rfl⟩ := Option.map_eq_some_iff.mp hp
      have hfst := congrArg Prod.fst hout
      dsimp only at hfst
      split_ifs at hfst
      · exact ⟨_, hfst.symm⟩
      · exact ⟨_, hfst.symm⟩

theorem size_le_of (bytes : Bytes) :
    (Output.of bytes).size.toUInt16.toNat ≤ ((Output.of bytes).data.getD []).length := by
  have hsize : (Output.of bytes).size = UInt32.ofNat bytes.length := rfl
  rw [Output.getD_of, hsize, UInt32.toNat_toUInt16, UInt32.toNat_ofNat']
  exact (Nat.mod_le _ _).trans (Nat.mod_le _ _)

theorem sendNotification_sent {token : Bytes} {value : Option Bytes} {valueLength : UInt32}
    {observation : UInt16} {maxAge : UInt32} {format : UInt8} {heap : Heap} {n : Notification}
    (h : (sendNotification token value valueLength observation maxAge format heap).1 = some n) :
    n.payloadPtr = value ∧ n.payloadLen = valueLength.toUInt16 := by
  unfold sendNotification at h
  dsimp only at h
  split_ifs at h
  obtain rfl := Option.some.inj h
  exact ⟨rfl, rfl⟩

/-- Whatever allocations fail, a message has the bytes that it says it has; only an object instance
whose resources have been given up behind the first one is sent as NULL with a length. -/
theorem backed_iff {e : Labels} {obsNumber : UInt16} {ids : List UInt16} {whole : Bool}
    {observed : Observed} {heap heap' : Heap} {n : Notification}
    (hsent : observationToBeSent commonWrite64Bit e obsNumber heap observed ids whole =
      some (some n, heap'))
    (hshort : (observed.content (Tlv.wireValue commonWrite64Bit) ids whole).length < 2 ^ 16) :
    n.Backed ↔ ∀ oi, observed = .objectInstance oi →
      ¬Interrupted (Tlv.wireValue commonWrite64Bit) oi.resources heap := by
  unfold Notification.Backed
  cases observed with
  | resourceInstance => cases hsent
  | object obj =>
    refine iff_of_true ?_ fun oi hoi => by cases hoi
    obtain ⟨⟨out, heap₁⟩, hout, hsend⟩ := Option.bind_eq_some_iff.mp hsent
    rw [serializeNotified_eq] at hout
    obtain ⟨bytes, rfl⟩ := serialize_of (fun rs hrs => by cases hrs) hout
    obtain ⟨hptr, hlen⟩ := sendNotification_sent (congrArg Prod.fst (Option.some.inj hsend))
    rw [hptr, hlen]
    exact size_le_of bytes
  | objectInstance oi =>
    obtain ⟨⟨out, heap₁⟩, hout, hsend⟩ := Option.bind_eq_some_iff.mp hsent
    obtain ⟨hptr, hlen⟩ := sendNotification_sent (congrArg Prod.fst (Option.some.inj hsend))
    rw [hptr, hlen, serializeResources_interrupted hout hshort]
    constructor
    · intro hno oi' hoi
      cases hoi
      exact hno
    · intro hno
      exact hno oi rfl
  | resource r =>
    refine iff_of_true ?_ fun oi hoi => by cases hoi
    rw [observationToBeSent, sendResourceObservation] at hsent
    dsimp only at hsent
    split_ifs at hsent with hcount
    · obtain ⟨⟨out, heap₁⟩, hout, hsend⟩ := Option.bind_eq_some_iff.mp hsent
      obtain ⟨bytes, rfl⟩ := serialize_of (fun rs hrs => by cases hrs) hout
      obtain ⟨hptr, hlen⟩ := sendNotification_sent (congrArg Prod.fst (Option.some.inj hsend))
      rw [hptr, hlen]
      exact size_le_of bytes
    all_goals
      obtain ⟨hptr, hlen⟩ := sendNotification_sent (congrArg Prod.fst (Option.some.inj hsent))
      rw [hptr, hlen, UInt32.toNat_toUInt16, UInt32.toNat_ofNat']
      exact (Nat.mod_le _ _).trans (Nat.mod_le _ _)

/-- The second allocation is refused, and three bytes of NULL are sent. -/
theorem unbacked_twoLetters :
    let n : Notification := ⟨[1], none, 3, 1, 0, 0⟩
    (observationToBeSent Tlv.bigEndian ⟨[1], 0, 0⟩ 1 (fun k => k != 1)
      (.objectInstance twoLetters) []
      false).map Prod.fst = some (some n) ∧
      (n.Backed ↔ ∀ oi, Observed.objectInstance twoLetters = .objectInstance oi →
        ¬Interrupted (Tlv.wireValue Tlv.bigEndian) oi.resources fun k => k != 1) ∧ ¬n.Backed := by
  have hsent : observationToBeSent Tlv.bigEndian ⟨[1], 0, 0⟩ 1 (fun k => k != 1)
      (.objectInstance twoLetters) [] false = some (some ⟨[1], none, 3, 1, 0, 0⟩, _) := rfl
  refine ⟨congrArg (Option.map Prod.fst) hsent, backed_iff hsent (by decide +kernel), ?_⟩
  unfold Notification.Backed
  decide

end Backed

/-! What a server reads in the notification of an object: each object instance in it as a whole. -/
section Reading
open Tlv (Path written wireValue instanceVariables)

/-- The object instances in a buffer, each with the variables that it lists. -/
def readInstances (tlv : Nat → UInt8) (size : Nat) : List (UInt16 × List (Path × Bytes)) :=
  (Walk.span (frame tlv) 0 size).map fun q =>
    (recId tlv q, Tlv.pathValues tlv
      (Tlv.resourcePaths tlv (recId tlv q) (recContent tlv q) (recNext tlv q)))

/-- A server's copy of an object: what it knows of each object instance. -/
abbrev ServerCopy := UInt16 → Option (List (Path × Bytes))

namespace Notification

def update (n : Notification) (copy : ServerCopy) : ServerCopy := fun id =>
  ((readInstances (ofBytes n.payload) n.payload.length).lookup id).or (copy id)

end Notification

variable {wire : M2MResourceBase → Bytes}

theorem readInstances_eq {ois : List M2MObjectInstance}
    (hfits : ∀ oi ∈ ois, Tlv.ObjectInstanceFits wire oi) :
    let bytes := ois.flatMap (Tlv.objectInstanceBytes wire)
    readInstances (ofBytes bytes) bytes.length =
      ois.map fun oi => (oi.instanceId, written wire (instanceVariables oi)) := by
  intro bytes
  have hlists := Tlv.lists_of_holds (R := Tlv.ObjectInstanceRecord (ofBytes bytes) wire)
    (Tlv.holds_ofBytes bytes) fun oi hoi p hp => Tlv.objectInstanceRecord_of_holds (hfits oi hoi) hp
  rw [Nat.zero_add] at hlists
  have hmap := Tlv.flatMap_eq hlists.2 (f := fun q => [(recId (ofBytes bytes) q,
      Tlv.pathValues (ofBytes bytes) (Tlv.resourcePaths (ofBytes bytes)
        (recId (ofBytes bytes) q) (recContent (ofBytes bytes) q)
        (recNext (ofBytes bytes) q)))])
    (g := fun oi => [(oi.instanceId, written wire (instanceVariables oi))]) fun q oi hq => by
      rw [hq.2.1, Tlv.pathValues_resources hq.2.2]
      rfl
  rw [readInstances, List.map_eq_flatMap, List.map_eq_flatMap]
  exact hmap

theorem lookup_instances {β : Type*} (ois : List M2MObjectInstance) (f : M2MObjectInstance → β)
    (id : UInt16) : (ois.map fun oi => (oi.instanceId, f oi)).lookup id =
      (ois.find? (·.instanceId == id)).map f := by
  induction ois with
  | nil => rfl
  | cons oi ois ih =>
    rw [List.map_cons, List.lookup_cons, List.find?_cons, ih]
    by_cases hid : oi.instanceId = id
    · simp [hid]
    · have hne : (id == oi.instanceId) = false := by simpa using Ne.symm hid
      have hne' : (oi.instanceId == id) = false := by simpa using hid
      simp [hne, hne']

/-- A changed instance is found in the notification if the object still has it. -/
theorem find_notified (obj : M2MObject) (ids : List UInt16) (whole : Bool) (id : UInt16) :
    (notifiedInstances obj ids whole).find? (·.instanceId == id) =
      if whole = true ∨ id ∈ ids then obj.objectInstance id else none := by
  cases whole with
  | true => simp [notifiedInstances, M2MObject.objectInstance]
  | false =>
    simp only [notifiedInstances, Bool.false_eq_true, if_false, false_or]
    induction ids with
    | nil => simp
    | cons i ids ih =>
      rw [List.filterMap_cons]
      cases hi : obj.objectInstance i with
      | none =>
        dsimp only
        rw [ih]
        by_cases hid : id = i
        · subst hid
          simp [hi]
        · simp [hid]
      | some oi =>
        have hoi : oi.instanceId = i := by simpa using List.find?_some hi
        dsimp only
        rw [List.find?_cons, ih]
        by_cases hid : id = i
        · subst hid
          simp [hoi, hi]
        · have hne : (oi.instanceId == id) = false := by simpa [hoi] using Ne.symm hid
          simp [hne, hid]

/-- What an update carries: the named instances as they are, or all of them. -/
theorem update_about {e : Labels} {obsNumber : UInt16} {format : UInt8} {obj : M2MObject}
    {ids : List UInt16} {whole : Bool} (copy : ServerCopy)
    (hfits : ∀ oi ∈ obj.instances, Tlv.ObjectInstanceFits wire oi)
    (hshort : ((Observed.object obj).content wire ids whole).length < 2 ^ 16) (id : UInt16) :
    (Notification.about e obsNumber format ((Observed.object obj).content wire ids whole)).update
      copy id =
      if whole = true ∨ id ∈ ids then
        ((obj.objectInstance id).map fun oi => written wire (instanceVariables oi)).or (copy id)
      else copy id := by
  have hnotified : ∀ oi ∈ notifiedInstances obj ids whole, Tlv.ObjectInstanceFits wire oi := by
    intro oi hoi
    refine hfits oi ?_
    unfold notifiedInstances at hoi
    split_ifs at hoi
    · exact hoi
    · obtain ⟨i, -, hi⟩ := List.mem_filterMap.mp hoi
      exact List.mem_of_find?_eq_some hi
  rw [Notification.update, Notification.payload_about, Nat.mod_eq_of_lt hshort, List.take_length,
    Observed.content, readInstances_eq hnotified, lookup_instances, find_notified]
  split_ifs
  · rfl
  · rfl

end Reading
end MbedClient.Nsdl
