import MbedClient.Nsdl.Server
import MbedClient.Nsdl.Reply
import MbedClient.Nsdl.Exchange
import MbedClient.Trace

/-! The end of a bootstrap: which servers the client may go on to register with, and which ones
`handle_bootstrap_finished` takes. -/
namespace MbedClient

namespace M2MSecurity
variable (security : M2MSecurity)

def stored (r : SecurityResource) : Bytes := ((security.getResource r).map (·.value)).getD []

def HasKeys : Prop := security.isResourcePresent .publicKey ∧
  security.isResourcePresent .serverPublicKey ∧ security.isResourcePresent .secretkey

/-- There is an address, and what a security mode needs: nothing for NoSec, the keys for
Certificate. -/
def Connects (mode : Nat) : Prop := security.stored .m2mServerUri ≠ [] ∧
  (mode = 3 ∨ mode = 2 ∧ security.stored .publicKey ≠ [] ∧ security.stored .serverPublicKey ≠ [] ∧
    security.stored .secretkey ≠ [])

/-- The address is read as a C string, which does not start with a NUL. -/
def Read (mode : Nat) : Prop :=
  (security.stored .m2mServerUri).head? ≠ some 0 ∧ security.Connects mode

/-- The object describes a server to register with, and not a bootstrap server. The flag and the
mode are the numbers that have been written. -/
def Usable : Prop := BigEndian.value (security.stored .bootstrapServer) = 0 ∧
  security.Connects (BigEndian.value (security.stored .securityMode))

instance : Decidable security.HasKeys :=
  inferInstanceAs (Decidable (_ ∧ _ ∧ _))

instance (mode : Nat) : Decidable (security.Connects mode) :=
  inferInstanceAs (Decidable (_ ∧ (_ ∨ _ ∧ _ ∧ _ ∧ _)))

instance (mode : Nat) : Decidable (security.Read mode) := inferInstanceAs (Decidable (_ ∧ _))

instance : Decidable security.Usable := inferInstanceAs (Decidable (_ ∧ _))

variable {security} {r : SecurityResource}

theorem Connects.lt {mode : Nat} (h : security.Connects mode) : mode < 2 ^ 32 := by
  obtain rfl | ⟨rfl, -⟩ := h.2 <;> norm_num

/-- Where the mode is acceptable as it is read, the rest decides. -/
theorem usable_iff
    (h : security.Connects (BigEndian.value (security.stored .securityMode) % 2 ^ 32)) :
    security.Usable ↔ BigEndian.value (security.stored .bootstrapServer) = 0 ∧
      BigEndian.value (security.stored .securityMode) < 2 ^ 32 := by
  refine and_congr_right fun _ => ⟨Connects.lt, fun hlt => ?_⟩
  rwa [Nat.mod_eq_of_lt hlt] at h

theorem Usable.connects (h : security.Usable) :
    security.Connects (BigEndian.value (security.stored .securityMode) % 2 ^ 32) := by
  have hmode : security.Connects (BigEndian.value (security.stored .securityMode)) := h.2
  rwa [Nat.mod_eq_of_lt hmode.lt]

theorem not_connects_zero : ¬security.Connects 0 := fun h => by
  obtain h | ⟨h, -⟩ := h.2 <;> cases h

def readInt (bytes : Bytes) (h : Heap) : Option UInt32 :=
  if bytes ≠ [] ∧ h 0 = true then
    (convertArrayToInteger bytes).map fun v => v.toUInt64.toUInt32
  else some 0

theorem stored_of_present (hr : security.isResourcePresent r = true) :
    Nsdl.valueLength security r = some (security.stored r).length := by
  obtain ⟨res, hres⟩ := Option.isSome_iff_exists.mp hr
  rw [Nsdl.valueLength, stored, hres]
  rfl

theorem present_of_length {n : Nat} (hn : Nsdl.valueLength security r = some n) :
    security.isResourcePresent r = true := by
  obtain ⟨res, hres, -⟩ := Option.map_eq_some_iff.mp hn
  rw [isResourcePresent, hres]
  rfl

theorem resourceValueInt_stored (hint : r.isInteger = true) (h : Heap) :
    security.resourceValueInt r h =
      (readInt (security.stored r) h, if security.stored r = [] then h else h.malloc.2) := by
  rw [resourceValueInt, stored, readInt]
  cases security.getResource r with
  | none => rfl
  | some res =>
    simp only [hint, if_true, M2MResourceBase.getValue, List.length_pos_iff, Option.map_some,
      Option.getD_some]
    by_cases hne : res.value = []
    · simp [hne]
    · cases hm : h 0 <;> simp [hne, hm, Heap.malloc]

/-- The flag is no integer for `resource_value_int`. -/
theorem resourceValueInt_flag (h : Heap) :
    security.resourceValueInt .bootstrapServer h = (some 0, h) := by
  rw [resourceValueInt]
  cases security.getResource .bootstrapServer <;> rfl

theorem readInt_none {bytes : Bytes} {h : Heap} :
    readInt bytes h = none ↔ h 0 = true ∧ 8 < bytes.length := by
  rw [readInt]
  by_cases hne : bytes = []
  · simp [hne]
  · cases h 0 <;> simp [hne, convertArrayToInteger]

/-- The high words are lost. -/
theorem readInt_some {bytes : Bytes} {h : Heap} {v : UInt32} (hv : readInt bytes h = some v) :
    v.toNat = if h 0 = true then BigEndian.value bytes % 2 ^ 32 else 0 := by
  rw [readInt] at hv
  by_cases hc : bytes ≠ [] ∧ h 0 = true
  · rw [if_pos hc] at hv
    obtain ⟨temp, htemp, rfl⟩ := Option.map_eq_some_iff.mp hv
    rw [if_pos hc.2, UInt64.toNat_toUInt32, BigEndian.convertArrayToInteger_eq htemp]
  · rw [if_neg hc] at hv
    obtain rfl := Option.some.inj hv
    split_ifs with hm
    · rw [show bytes = [] by simpa [hm] using hc]
      rfl
    · rfl

end M2MSecurity

namespace Nsdl
open M2MSecurity

section Validate
variable {s : NsdlInterface} {security : M2MSecurity}

theorem cStr_ne_nil (s : Bytes) : cStr s ≠ [] ↔ s.head? ≠ some 0 ∧ s ≠ [] := by
  cases s with
  | nil => simp [cStr]
  | cons b s => by_cases hb : b = 0 <;> simp [cStr, hb]

theorem validates_read (mode : UInt32) :
    (!(cStr (security.stored .m2mServerUri)).isEmpty && (0 : UInt32) == 0 &&
      (if mode = certificateMode then (security.stored .publicKey).length != 0 &&
        (security.stored .serverPublicKey).length != 0 && (security.stored .secretkey).length != 0
      else mode == noSecurityMode)) = decide (security.Read mode.toNat) := by
  have hmode (n : UInt32) : mode.toNat = n.toNat ↔ mode = n := UInt32.toNat_inj
  have hcertificate : mode.toNat = 2 ↔ mode = certificateMode := hmode 2
  have hnone : mode.toNat = 3 ↔ mode = noSecurityMode := hmode 3
  rw [Bool.eq_iff_iff, decide_eq_true_iff, Read, Connects, hcertificate, hnone, ← and_assoc,
    ← cStr_ne_nil]
  by_cases hc : mode = certificateMode
  · subst hc
    simp [certificateMode, noSecurityMode, and_assoc]
  · simp [hc]

/-- What `validate_security_object` looks at. -/
theorem validateSecurityObject_eq (hs : s.security = some security) :
    validateSecurityObject s = if security.HasKeys then
      (readInt (security.stored .securityMode) s.heap).map fun mode =>
        (decide (security.Read mode.toNat), { s with heap :=
          if (security.stored .securityMode) = [] then s.heap else s.heap.malloc.2 })
    else none := by
  have haddress : ((security.getResource .m2mServerUri).map (·.value)).getD [] =
      security.stored .m2mServerUri := rfl
  simp only [validateSecurityObject, hs, haddress, resourceValueInt_stored (r := .securityMode) rfl,
    resourceValueInt_flag, Option.bind_eq_bind, Option.bind_some]
  by_cases hkeys : security.HasKeys
  · rw [if_pos hkeys]
    obtain ⟨hpublic, hserver, hsecret⟩ := hkeys
    rw [stored_of_present hpublic, stored_of_present hserver, stored_of_present hsecret]
    cases readInt (security.stored .securityMode) s.heap with
    | none => rfl
    | some mode =>
      rw [Option.bind_some, Option.map_some]
      simp only [Option.bind_some, validates_read]
  · rw [if_neg hkeys]
    cases readInt (security.stored .securityMode) s.heap with
    | none => rfl
    | some mode =>
      rw [Option.bind_some, Option.bind_eq_none_iff]
      intro publicKeySize hpublic
      rw [Option.bind_eq_none_iff]
      intro serverKeySize hserver
      rw [Option.bind_eq_none_iff]
      intro pkeySize hsecret
      exact absurd ⟨present_of_length hpublic, present_of_length hserver,
        present_of_length hsecret⟩ hkeys

end Validate

section Finish
variable {w : Surroundings} {request : CoapHeader} {s s' : NsdlInterface}

/-- The response has the code, and one report follows it. -/
def Ends (msgCode : MsgCode) (report : Call) (s s' : NsdlInterface) : Prop :=
  ∃ r, s'.calls = s.calls ++ [.send r, report] ∧ r.msgCode = msgCode

/-- A server that can be used is taken, and every other state is refused. -/
def FinishesRight (w : Surroundings) (request : CoapHeader) (s : NsdlInterface) : Prop :=
  ∃ s', handleBootstrapFinished w request s = some s' ∧
    if s.security.any (fun security => decide security.Usable) then
      Ends .changed (.bootstrapWait s.constructed) s s'
    else Ends .badRequest .bootstrapError s s'

/-- The resources that are used exist, the integers that are read have at most eight bytes, and the
flag is not set and the mode not cut where the rest is acceptable. Where the copy of the mode cannot
be allocated, it is read as 0; an address that starts with a NUL is read as empty. -/
def ReadsRight (security : M2MSecurity) (h : Heap) : Prop :=
  security.HasKeys ∧
    let mode := security.stored .securityMode
    if h 0 = true then
      mode.length ≤ 8 ∧
        if (security.stored .m2mServerUri).head? = some 0 then ¬security.Usable
        else security.Connects (BigEndian.value mode % 2 ^ 32) →
          BigEndian.value (security.stored .bootstrapServer) = 0 ∧ BigEndian.value mode < 2 ^ 32 ∧
            (h 1 = true → (security.stored .shortServerID).length ≤ 8)
    else ¬security.Usable

theorem ends_ne {report report' : Call} (h : Ends .changed report s s') :
    ¬Ends .badRequest report' s s' := by
  rintro ⟨r', hcalls', hcode'⟩
  obtain ⟨r, hcalls, hcode⟩ := h
  have heq := List.append_cancel_left (hcalls.symm.trans hcalls')
  obtain rfl : r = r' := by simpa using (List.cons.inj heq).1
  rw [hcode] at hcode'
  cases hcode'

theorem finish_refused (hw : w.Builds) (s : NsdlInterface) :
    Ends .badRequest .bootstrapError s
      (s.send (w.buildResponse request .badRequest)).handleBootstrapError := by
  obtain ⟨r, hr, -⟩ := hw.built request .badRequest
  refine ⟨r, ?_, (hw.asked request .badRequest r hr).1⟩
  rw [hr]
  simp [NsdlInterface.send, NsdlInterface.handleBootstrapError, NsdlInterface.tell]

theorem setShortServerId_calls (value : UInt32) (s : NsdlInterface) :
    (setShortServerId value s).calls = s.calls ∧
      (setShortServerId value s).constructed = s.constructed := by
  rw [setShortServerId]
  cases s.server.serverInstance <;> exact ⟨rfl, rfl⟩

theorem finish_accepted (hw : w.Builds) (hcalls : s'.calls = s.calls)
    (hconstructed : s'.constructed = s.constructed) :
    Ends .changed (.bootstrapWait s.constructed) s
      ((s'.send (w.buildResponse request .changed)).tell (.bootstrapWait s'.constructed)) := by
  obtain ⟨r, hr, -⟩ := hw.built request .changed
  refine ⟨r, ?_, (hw.asked request .changed r hr).1⟩
  rw [hr, hconstructed]
  simp [NsdlInterface.send, NsdlInterface.tell, hcalls]

theorem finishesRight_none (hw : w.Builds) (hpath : request.uriPath = some bootstrapUri)
    (hs : s.security = none) : FinishesRight w request s := by
  refine ⟨(s.send (w.buildResponse request .badRequest)).handleBootstrapError, ?_, ?_⟩
  · rw [handleBootstrapFinished, bootstrapComplete, hpath, Option.getD_some, if_pos rfl,
      validateSecurityObject, hs]
    rfl
  · rw [hs]
    exact finish_refused hw s

/-- What becomes of a finish where the object has its keys and the mode is read. -/
theorem handleBootstrapFinished_eq {security : M2MSecurity} (hs : s.security = some security)
    (hpath : request.uriPath = some bootstrapUri) (hkeys : security.HasKeys) {mode : UInt32}
    (hmode : readInt (security.stored .securityMode) s.heap = some mode) :
    handleBootstrapFinished w request s =
      let s := { s with heap :=
        if (security.stored .securityMode) = [] then s.heap else s.heap.malloc.2 }
      if security.Read mode.toNat then
        (readInt (security.stored .shortServerID) s.heap).map fun id =>
          let s := setShortServerId id { s with
            heap := (security.resourceValueInt .shortServerID s.heap).2 }
          (s.send (w.buildResponse request .changed)).tell (.bootstrapWait s.constructed)
      else some (s.send (w.buildResponse request .badRequest)).handleBootstrapError := by
  rw [handleBootstrapFinished, bootstrapComplete, hpath, Option.getD_some, if_pos rfl,
    validateSecurityObject_eq hs, if_pos hkeys, hmode]
  generalize hheap :
    (if (security.stored .securityMode) = [] then s.heap else s.heap.malloc.2) = heap
  simp only [Option.map_some, Option.bind_eq_bind, Option.bind_some, hs, decide_eq_true_eq]
  split_ifs
  · rw [resourceValueInt_stored (r := .shortServerID) rfl]
    cases readInt (security.stored .shortServerID) heap <;> rfl
  · rfl

section Security
variable {security : M2MSecurity}

theorem not_finishesRight (h : handleBootstrapFinished w request s = none) :
    ¬FinishesRight w request s := by
  rintro ⟨s', hs', -⟩
  rw [h] at hs'
  cases hs'

theorem finishesRight_accepted (hs : s.security = some security)
    (h : handleBootstrapFinished w request s = some s')
    (hends : Ends .changed (.bootstrapWait s.constructed) s s') :
    FinishesRight w request s ↔ security.Usable := by
  rw [FinishesRight, h, hs]
  simp only [Option.some.injEq, exists_eq_left', Option.any_some, decide_eq_true_eq]
  split_ifs with husable
  · exact iff_of_true hends husable
  · exact iff_of_false (ends_ne hends) husable

theorem finishesRight_refused (hs : s.security = some security)
    (h : handleBootstrapFinished w request s = some s')
    (hends : Ends .badRequest .bootstrapError s s') :
    FinishesRight w request s ↔ ¬security.Usable := by
  rw [FinishesRight, h, hs]
  simp only [Option.some.injEq, exists_eq_left', Option.any_some, decide_eq_true_eq]
  split_ifs with husable
  · exact iff_of_false (fun hc => ends_ne hc hends) (not_not_intro husable)
  · exact iff_of_true hends husable

/-- An acceptable mode has been copied. -/
theorem heap_of_connects {bytes : Bytes} {h : Heap} {mode : UInt32}
    (hmode : readInt bytes h = some mode) (hc : security.Connects mode.toNat) :
    h 0 = true ∧ bytes ≠ [] ∧ mode.toNat = BigEndian.value bytes % 2 ^ 32 := by
  have hnat := readInt_some hmode
  by_cases hm : h 0 = true
  · rw [if_pos hm] at hnat
    refine ⟨hm, fun hnil => ?_, hnat⟩
    rw [hnil] at hnat
    exact not_connects_zero (hnat ▸ hc)
  · rw [if_neg hm] at hnat
    exact absurd (hnat ▸ hc) not_connects_zero

theorem length_of_readInt {bytes : Bytes} {h : Heap} {v : UInt32} (hv : readInt bytes h = some v)
    (hm : h 0 = true) : bytes.length ≤ 8 := by
  by_contra hlong
  rw [readInt_none.mpr ⟨hm, not_le.mp hlong⟩] at hv
  cases hv

theorem readsRight_taken {h : Heap} {mode : UInt32} (hkeys : security.HasKeys)
    (hmode : readInt (security.stored .securityMode) h = some mode)
    (hc : security.Read mode.toNat) : ReadsRight security h ↔
      security.Usable ∧ (h 1 = true → (security.stored .shortServerID).length ≤ 8) := by
  obtain ⟨hstart, hc⟩ := hc
  obtain ⟨hm, -, hvalue⟩ := heap_of_connects hmode hc
  rw [hvalue] at hc
  simp only [ReadsRight, hkeys, hm, hstart, if_true, if_false, true_and]
  rw [usable_iff hc, and_assoc]
  exact ⟨fun h => h.2 hc, fun h => ⟨length_of_readInt hmode hm, fun _ => h⟩⟩

theorem readsRight_refused {h : Heap} {mode : UInt32} (hkeys : security.HasKeys)
    (hmode : readInt (security.stored .securityMode) h = some mode)
    (hc : ¬security.Read mode.toNat) : ReadsRight security h ↔ ¬security.Usable := by
  have hnat := readInt_some hmode
  simp only [ReadsRight, hkeys, true_and]
  by_cases hm : h 0 = true
  · have hlength := length_of_readInt hmode hm
    rw [if_pos hm] at hnat
    rw [hnat] at hc
    rw [if_pos hm]
    by_cases hstart : (security.stored .m2mServerUri).head? = some 0
    · rw [if_pos hstart, and_iff_right hlength]
    · have hc : ¬security.Connects _ := fun h => hc ⟨hstart, h⟩
      rw [if_neg hstart]
      exact iff_of_true ⟨hlength, fun h => absurd h hc⟩ fun h => hc h.connects
  · rw [if_neg hm]

theorem finishesRight_some (hw : w.Builds) (hpath : request.uriPath = some bootstrapUri)
    (hs : s.security = some security) :
    FinishesRight w request s ↔ ReadsRight security s.heap := by
  by_cases hkeys : security.HasKeys
  · cases hmode : readInt (security.stored .securityMode) s.heap with
    | none =>
      obtain ⟨hm, hlength⟩ := readInt_none.mp hmode
      refine iff_of_false (not_finishesRight ?_) fun hc => ?_
      · rw [handleBootstrapFinished, bootstrapComplete, hpath, Option.getD_some, if_pos rfl,
          validateSecurityObject_eq hs, if_pos hkeys, hmode]
        rfl
      · have hle := hc.2
        rw [if_pos hm] at hle
        exact hlength.not_ge hle.1
    | some mode =>
      have hfinish := handleBootstrapFinished_eq (w := w) hs hpath hkeys hmode
      by_cases hc : security.Read mode.toNat
      · obtain ⟨-, hne, -⟩ := heap_of_connects hmode hc.2
        rw [readsRight_taken hkeys hmode hc]
        rw [if_pos hc, if_neg hne] at hfinish
        cases hid : readInt (security.stored .shortServerID) s.heap.malloc.2 with
        | none =>
          rw [hid] at hfinish
          obtain ⟨hm, hlength⟩ := readInt_none.mp hid
          exact iff_of_false (not_finishesRight hfinish) fun h => hlength.not_ge (h.2 hm)
        | some id =>
          rw [hid] at hfinish
          obtain ⟨hcalls, hconstructed⟩ := setShortServerId_calls id { s with
            heap := (security.resourceValueInt .shortServerID s.heap.malloc.2).2 }
          have hshort : s.heap 1 = true → (security.stored .shortServerID).length ≤ 8 :=
            fun hm => length_of_readInt hid hm
          rw [and_iff_left hshort]
          exact finishesRight_accepted hs hfinish (finish_accepted hw hcalls hconstructed)
      · rw [readsRight_refused hkeys hmode hc]
        rw [if_neg hc] at hfinish
        exact finishesRight_refused hs hfinish (finish_refused hw _)
  · refine iff_of_false (not_finishesRight ?_) fun hc => hkeys hc.1
    rw [handleBootstrapFinished, bootstrapComplete, hpath, Option.getD_some, if_pos rfl,
      validateSecurityObject_eq hs, if_neg hkeys]
    rfl

end Security

/-- The condition on a state in which a bootstrap is finished. -/
def Finishable (s : NsdlInterface) : Prop :=
  ∀ security, s.security = some security → ReadsRight security s.heap

theorem finishesRight_iff (hw : w.Builds) (hpath : request.uriPath = some bootstrapUri) :
    FinishesRight w request s ↔ Finishable s := by
  rw [Finishable]
  cases hs : s.security with
  | none => exact iff_of_true (finishesRight_none hw hpath hs) fun _ h => nomatch h
  | some security =>
    rw [finishesRight_some hw hpath hs]
    exact ⟨fun h _ hsome => Option.some.inj hsome ▸ h, fun h => h security rfl⟩

end Finish

/-! Runs of requests of the bootstrap server. After something undefined there is no state. -/
section Run
variable {w : Surroundings}

def bootstrapStep (w : Surroundings) (request : CoapHeader) (s : Option NsdlInterface) :
    Option NsdlInterface := s.bind fun s => receivedRequest w request s true

/-- A POST of "bs". -/
def CoapHeader.finishes (request : CoapHeader) : Prop :=
  request.msgCode = .requestPost ∧ request.uriPath = some bootstrapUri

def EveryFinish (w : Surroundings) (P : CoapHeader → NsdlInterface → Prop) (l : List CoapHeader)
    (s : NsdlInterface) : Prop :=
  Trace.Along (bootstrapStep w)
    (fun request s => ∀ s', s = some s' → request.finishes → P request s') l (some s)

/-- In every run of requests, PUT and DELETE and others, whatever they carry. -/
theorem every_finish_right (hw : w.Builds) (l : List CoapHeader) (s : NsdlInterface) :
    EveryFinish w (FinishesRight w) l s ↔ EveryFinish w (fun _ => Finishable) l s := by
  refine Trace.along_congr (I := fun _ => True) (Q := fun _ => True) (fun _ _ _ => trivial)
    (fun request s _ _ => ?_) trivial (Trace.always_of_invariant (I := fun _ => True)
      (fun _ _ _ => trivial) (fun _ _ => trivial) trivial)
  exact forall_congr' fun s' => imp_congr_right fun _ => imp_congr_right fun hfinish =>
    finishesRight_iff hw hfinish.2

/-- The resources that the constructor of `M2MServer` adds: short server ID, lifetime, notification
storage, binding and registration update. -/
def serverResources : List (Bytes × ResourceType × UInt8) :=
  [([0x30], .integer, getPutAllowed), ([0x31], .integer, getPutPostAllowed),
    ([0x36], .boolean, getPutPostAllowed), ([0x37], .string, getPutPostAllowed),
    ([0x38], .opaqueData, snGrsPostAllowed)]

def newServer : M2MServer :=
  ⟨some ⟨0, serverResources.map fun (name, type, operation) =>
    ⟨⟨.dynamic, operation, type, []⟩, name, false, []⟩⟩⟩

/-- A client whose identity the bootstrap server has accepted. -/
def freshInterface : NsdlInterface where
  objects := []
  security := none
  constructed := 0
  server := newServer
  identityAccepted := true
  bootstrapId := 0
  unregisterOngoing := false
  lifetime := none
  heap := granted
  calls := []

def putTlv (path payload : Bytes) : CoapHeader :=
  { plainRequest .requestPut with
    uriPath := some path
    contentFormat := some coapContentOmaTlvType
    payloadPtr := some fun n => payload.getD n 0
    payloadLen := UInt16.ofNat payload.length }

def finishBootstrap : CoapHeader :=
  { plainRequest .requestPost with uriPath := some bootstrapUri }

/-- The address "c", the flag of a bootstrap server and NoSec. -/
def putBootstrapServer : CoapHeader :=
  putTlv [0x30] [0xC1, 0x00, 0x63, 0xC1, 0x01, 0x01, 0xC1, 0x02, 0x03]

theorem every_finish_right_fresh :
    EveryFinish echo (FinishesRight echo) [putBootstrapServer, finishBootstrap] freshInterface ↔
      EveryFinish echo (fun _ => Finishable) [putBootstrapServer, finishBootstrap] freshInterface :=
  every_finish_right echo_builds _ _

/-- A bootstrap server is taken for a server to register with. -/
theorem bootstrap_server_taken :
    ¬EveryFinish echo (FinishesRight echo) [putBootstrapServer, finishBootstrap]
      freshInterface := by
  intro h
  have hput : (bootstrapStep echo putBootstrapServer (some freshInterface)).isSome = true := by
    decide +kernel
  obtain ⟨s, hs⟩ := Option.isSome_iff_exists.mp hput
  have hcalls : (handleBootstrapFinished echo finishBootstrap s).map (fun s => s.calls.getLast?) =
      some (some (.bootstrapWait 1)) := by
    have hrun : ((bootstrapStep echo putBootstrapServer (some freshInterface)).bind
        (handleBootstrapFinished echo finishBootstrap)).map (fun s => s.calls.getLast?) =
        some (some (.bootstrapWait 1)) := by
      decide +kernel
    rwa [hs, Option.bind_some] at hrun
  have hunusable : s.security.any (fun security => decide security.Usable) = false := by
    have hrun : (bootstrapStep echo putBootstrapServer (some freshInterface)).all (fun s =>
        s.security.any (fun security => decide security.Usable) == false) = true := by
      decide +kernel
    rw [hs] at hrun
    simpa using hrun
  obtain ⟨s', hs', hright⟩ := h.2.1 s hs ⟨rfl, rfl⟩
  rw [hunusable, if_neg Bool.false_ne_true] at hright
  obtain ⟨r, hr, -⟩ := hright
  rw [hs', Option.map_some, hr] at hcalls
  simp at hcalls

end Run

end Nsdl
end MbedClient
