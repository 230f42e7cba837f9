import MbedClient.Nsdl.ReadWrite
import MbedClient.Nsdl.Server

/-! Which outcomes `received_from_server_callback` reports to the observer. -/
namespace MbedClient.Nsdl

/-- The calls that report how a registration, an update, an unregistration or a bootstrap went, and
the registration that follows an update that failed. -/
def Call.isOutcome : Call → Bool
  | .clientRegistered | .registrationUpdated | .registrationError .. | .clientUnregistered
  | .bootstrapWait _ | .bootstrapError | .registerEndpoint => true
  | _ => false

def Reports (s s' : NsdlInterface) (l : List Call) : Prop :=
  ∃ new, s'.calls = s.calls ++ new ∧ new.filter Call.isOutcome = l

namespace NsdlInterface

/-- The security object that `_security` points to, by its number. -/
def current (s : NsdlInterface) : Option Nat := s.security.map fun _ => s.constructed

end NsdlInterface

section Reports
variable {s s' s'' : NsdlInterface} {l m : List Call}

theorem Reports.of_calls (h : s'.calls = s.calls) : Reports s s' [] := ⟨[], by simp [h], rfl⟩

theorem Reports.trans (h : Reports s s' l) (k : Reports s' s'' m) : Reports s s'' (l ++ m) := by
  obtain ⟨new, hnew, rfl⟩ := h
  obtain ⟨more, hmore, rfl⟩ := k
  exact ⟨new ++ more, by rw [hmore, hnew, List.append_assoc], List.filter_append ..⟩

theorem Reports.tell (h : Reports s s' l) (call : Call) :
    Reports s (s'.tell call) (l ++ [call].filter Call.isOutcome) :=
  h.trans ⟨[call], rfl, rfl⟩

theorem Reports.quiet (h : Reports s s' l) {c : Call} (hc : c.isOutcome = false) :
    Reports s (s'.tell c) l := by
  simpa [hc] using h.tell c

theorem Reports.send (h : Reports s s' l) (response : Option Response) :
    Reports s (s'.send response) l := by
  cases response with
  | none => exact h
  | some response => exact h.quiet rfl

theorem Reports.error (h : Reports s s' l) :
    Reports s s'.handleBootstrapError (l ++ [.bootstrapError]) :=
  h.tell .bootstrapError

theorem Reports.congr (h : Reports s s' l) (hc : s''.calls = s'.calls) : Reports s s'' l := by
  obtain ⟨new, hnew, rfl⟩ := h
  exact ⟨new, hc.trans hnew, rfl⟩

/-- What is reported between two states is determined by them. -/
theorem Reports.unique (h : Reports s s' l) (k : Reports s s' m) : l = m := by
  obtain ⟨new, hnew, rfl⟩ := h
  obtain ⟨more, hmore, rfl⟩ := k
  rw [List.append_cancel_left (hnew.symm.trans hmore)]

@[simp] theorem current_send (response : Option Response) :
    (s.send response).current = s.current := by
  cases response <;> rfl

@[simp] theorem constructed_send (response : Option Response) :
    (s.send response).constructed = s.constructed := by
  cases response <;> rfl

end Reports

/-! What a request of the bootstrap server may do to the security object, and what it reports. -/
section Bootstrap
variable (w : Surroundings) (header : CoapHeader) {s s' : NsdlInterface}

/-- A message has been accepted (the object stays, or a first one has been constructed), it has
finished the bootstrap, or it has made it fail: then the object is gone. -/
inductive BootstrapMove (s s' : NsdlInterface) : Prop
  | accepted : Reports s s' [] → (s'.current = s.current ∧ s'.constructed = s.constructed ∨
      s.current = none ∧ s'.current = some (s.constructed + 1) ∧
        s'.constructed = s.constructed + 1) → BootstrapMove s s'
  | finished (n : Nat) : Reports s s' [.bootstrapWait n] → s.current = some n →
      s'.current = s.current → s'.constructed = s.constructed → BootstrapMove s s'
  | failed : Reports s s' [.bootstrapError] → s'.current = none →
      s.constructed ≤ s'.constructed → BootstrapMove s s'

/-- Nothing but the contents of the security object, the server object and the heap change. -/
structure Quiet (s s' : NsdlInterface) : Prop where
  reports : Reports s s' []
  current : s'.current = s.current
  constructed : s'.constructed = s.constructed

theorem Quiet.refl (s : NsdlInterface) : Quiet s s := ⟨.of_calls rfl, rfl, rfl⟩

theorem Quiet.trans {s'' : NsdlInterface} (h : Quiet s s') (k : Quiet s' s'') : Quiet s s'' :=
  ⟨h.reports.trans k.reports, k.current.trans h.current, k.constructed.trans h.constructed⟩

theorem Quiet.send (h : Quiet s s') (response : Option Response) : Quiet s (s'.send response) :=
  ⟨h.reports.send response, by rw [current_send, h.current],
    by rw [constructed_send, h.constructed]⟩

theorem Quiet.security (h : Quiet s s') {security security' : M2MSecurity} {heap : Heap}
    (hs : s'.security = some security) :
    Quiet s { s' with security := some security', heap } := by
  refine ⟨h.reports.congr rfl, ?_, h.constructed⟩
  rw [← h.current]
  simp [NsdlInterface.current, hs]

variable {w header}

theorem parseBootstrapMessage_quiet {isSecurityObject success : Bool}
    (h : parseBootstrapMessage header isSecurityObject s = some (success, s')) : Quiet s s' := by
  unfold parseBootstrapMessage at h
  cases hs : s.security with
  | none =>
    rw [hs] at h
    obtain ⟨-, rfl⟩ := Prod.mk.inj (Option.some.inj h)
    exact .refl s
  | some security =>
    rw [hs] at h
    cases isSecurityObject with
    | true =>
      obtain ⟨⟨ret, obj, heap⟩, -, hout⟩ := Option.map_eq_some_iff.mp h
      obtain ⟨-, rfl⟩ := Prod.mk.inj hout
      exact (Quiet.refl s).security hs
    | false =>
      obtain ⟨⟨ret, obj, heap⟩, -, hout⟩ := Option.map_eq_some_iff.mp h
      obtain ⟨-, rfl⟩ := Prod.mk.inj hout
      exact ⟨.of_calls rfl, by simp [NsdlInterface.current, hs], rfl⟩

theorem applyBootstrapPut_quiet {isSecurityObject success : Bool}
    (h : applyBootstrapPut w header isSecurityObject s = some (success, s')) : Quiet s s' := by
  have hack : Quiet s (if header.token = [] then s else s.send ((w.buildResponse header .empty).map
      fun r => { r with msgType := .acknowledgement })) := by
    split_ifs
    · exact .refl s
    · exact (Quiet.refl s).send _
  simp only [applyBootstrapPut, Option.bind_eq_bind] at h
  generalize (if header.token = [] then s else s.send ((w.buildResponse header .empty).map
      fun r => { r with msgType := .acknowledgement })) = acked at h hack
  split_ifs at h with htype
  · obtain ⟨⟨parsed, s₁⟩, hparse, h⟩ := Option.bind_eq_some_iff.mp h
    have hquiet := hack.trans (parseBootstrapMessage_quiet hparse)
    dsimp only at h
    cases hs : s₁.security with
    | none =>
      rw [hs] at h
      obtain ⟨-, rfl⟩ := Prod.mk.inj (Option.some.inj h)
      exact hquiet
    | some security =>
      rw [hs] at h
      obtain ⟨security', -, h⟩ := Option.bind_eq_some_iff.mp h
      obtain ⟨-, rfl⟩ := Prod.mk.inj (Option.some.inj h)
      exact hquiet.security hs
  · obtain ⟨-, rfl⟩ := Prod.mk.inj (Option.some.inj h)
    exact hack

theorem prepareSecurity_quiet (h : prepareSecurity s = some s') : Quiet s s' := by
  unfold prepareSecurity at h
  cases hs : s.security with
  | none =>
    rw [hs] at h
    obtain rfl := Option.some.inj h
    exact .refl s
  | some security =>
    rw [hs] at h
    obtain ⟨security', -, h⟩ := Option.bind_eq_some_iff.mp h
    obtain rfl := Option.some.inj h
    exact (Quiet.refl s).security hs

theorem bootstrapPut_quiet {success : Bool} (h : bootstrapPut w header s = some (success, s')) :
    Quiet s s' := by
  simp only [bootstrapPut] at h
  split_ifs at h
  · obtain ⟨prepared, hprepared, h⟩ := Option.bind_eq_some_iff.mp h
    exact (prepareSecurity_quiet hprepared).trans (applyBootstrapPut_quiet h)
  · exact applyBootstrapPut_quiet h
  · obtain ⟨-, rfl⟩ := Prod.mk.inj (Option.some.inj h)
    exact .refl s

theorem constructSecurity_quiet (hs : s.current ≠ none) : Quiet s (constructSecurity s) := by
  cases hsecurity : s.security with
  | none => simp [NsdlInterface.current, hsecurity] at hs
  | some security =>
    rw [constructSecurity, hsecurity]
    exact .refl s

theorem constructSecurity_new (hs : s.current = none) :
    (constructSecurity s).current = some (s.constructed + 1) ∧
      (constructSecurity s).constructed = s.constructed + 1 := by
  have hsecurity : s.security = none := by simpa [NsdlInterface.current] using hs
  rw [constructSecurity, hsecurity]
  exact ⟨rfl, rfl⟩

theorem constructSecurity_reports (s : NsdlInterface) : Reports s (constructSecurity s) [] := by
  refine .of_calls ?_
  unfold constructSecurity
  cases s.security <;> rfl

theorem handleBootstrapPutMessage_reports (h : handleBootstrapPutMessage w header s = some s') :
    ∃ success s₁, bootstrapPut w header (constructSecurity s) = some (success, s₁) ∧
      Reports s s' (if success then [] else [.bootstrapError]) ∧
      s'.current = (if success then (constructSecurity s).current else none) ∧
      s'.constructed = (constructSecurity s).constructed := by
  rw [handleBootstrapPutMessage] at h
  obtain ⟨⟨success, s₁⟩, hput, rfl⟩ := Option.map_eq_some_iff.mp h
  have hquiet := bootstrapPut_quiet hput
  have hreports := (constructSecurity_reports s).trans hquiet.reports
  refine ⟨success, s₁, hput, ?_⟩
  rw [current_send, constructed_send]
  cases success with
  | true => exact ⟨hreports.send _, hquiet.current, hquiet.constructed⟩
  | false => exact ⟨hreports.error.send _, rfl, hquiet.constructed⟩

theorem handleBootstrapPutMessage_move (h : handleBootstrapPutMessage w header s = some s') :
    BootstrapMove s s' := by
  obtain ⟨success, -, -, hreports, hcurrent, hconstructed⟩ := handleBootstrapPutMessage_reports h
  by_cases hs : s.current = none
  · obtain ⟨hnew, hcount⟩ := constructSecurity_new hs
    rw [hnew] at hcurrent
    rw [hcount] at hconstructed
    cases success with
    | true => exact .accepted hreports (.inr ⟨hs, hcurrent, hconstructed⟩)
    | false => exact .failed hreports hcurrent (by omega)
  · have hquiet := constructSecurity_quiet hs
    rw [hquiet.current] at hcurrent
    rw [hquiet.constructed] at hconstructed
    cases success with
    | true => exact .accepted hreports (.inl ⟨hcurrent, hconstructed⟩)
    | false => exact .failed hreports hcurrent hconstructed.ge

theorem bootstrapComplete_quiet {valid : Bool}
    (h : bootstrapComplete header s = some (valid, s')) : Quiet s s' := by
  unfold bootstrapComplete at h
  split_ifs at h
  · unfold validateSecurityObject at h
    cases hs : s.security with
    | none =>
      rw [hs] at h
      obtain ⟨-, rfl⟩ := Prod.mk.inj (Option.some.inj h)
      exact .refl s
    | some security =>
      simp only [hs, Option.bind_eq_bind, Option.bind_eq_some_iff, Option.some.injEq,
        Prod.mk.injEq] at h
      obtain ⟨-, -, -, -, -, -, -, -, -, -, -, rfl⟩ := h
      exact ⟨.of_calls rfl, by simp [NsdlInterface.current, hs], rfl⟩
  · obtain ⟨-, rfl⟩ := Prod.mk.inj (Option.some.inj h)
    exact .refl s

theorem setShortServerId_quiet (value : UInt32) : Quiet s (setShortServerId value s) := by
  unfold setShortServerId
  cases s.server.serverInstance <;> exact ⟨.of_calls rfl, rfl, rfl⟩

theorem handleBootstrapFinished_reports (h : handleBootstrapFinished w header s = some s') :
    s'.constructed = s.constructed ∧
    ((∃ n, Reports s s' [.bootstrapWait n] ∧ s.current = some n ∧ s'.current = s.current) ∨
      Reports s s' [.bootstrapError] ∧ s'.current = none) := by
  simp only [handleBootstrapFinished, Option.bind_eq_bind] at h
  obtain ⟨⟨valid, s₁⟩, hcomplete, h⟩ := Option.bind_eq_some_iff.mp h
  have hquiet := bootstrapComplete_quiet hcomplete
  cases valid with
  | true =>
    rw [if_pos rfl] at h
    obtain ⟨security, hsecurity, h⟩ := Option.bind_eq_some_iff.mp h
    obtain ⟨shortServerId, -, h⟩ := Option.bind_eq_some_iff.mp h
    obtain rfl := Option.some.inj h
    have hset := setShortServerId_quiet (s := { s₁ with
      heap := (security.resourceValueInt .shortServerID s₁.heap).2 }) shortServerId
    have hread : Quiet s₁ { s₁ with
        heap := (security.resourceValueInt .shortServerID s₁.heap).2 } := ⟨.of_calls rfl, rfl, rfl⟩
    have hall := hquiet.trans (hread.trans hset)
    change s₁.security = some security at hsecurity
    have hcurrent : s₁.current = some s₁.constructed := by simp [NsdlInterface.current, hsecurity]
    refine ⟨(hall.send _).constructed, .inl ⟨_, (hall.send _).reports.tell _, ?_,
      (hall.send _).current⟩⟩
    rw [hset.constructed, ← hcurrent]
    exact hquiet.current.symm
  | false =>
    obtain rfl := Option.some.inj h
    exact ⟨(hquiet.send _).constructed, .inr ⟨(hquiet.send _).reports.error, rfl⟩⟩

theorem handleBootstrapFinished_move (h : handleBootstrapFinished w header s = some s') :
    BootstrapMove s s' := by
  obtain ⟨hconstructed, ⟨n, hreports, hn, hcurrent⟩ | ⟨hreports, hcurrent⟩⟩ :=
    handleBootstrapFinished_reports h
  · exact .finished n hreports hn hcurrent hconstructed
  · exact .failed hreports hcurrent hconstructed.ge

/-- A DELETE is accepted, and its response is built. -/
def bootstrapDeleteAccepted (w : Surroundings) (header : CoapHeader) (s : NsdlInterface) : Bool :=
  s.identityAccepted && bootstrapDeletePath (header.uriPath.getD []) &&
    (w.buildResponse header .deleted).isSome

theorem handleBootstrapDelete_reports (w : Surroundings) (header : CoapHeader) (s : NsdlInterface) :
    let s' := handleBootstrapDelete w header s
    let accepted := bootstrapDeleteAccepted w header s
    Reports s s' (if accepted then [] else [.bootstrapError]) ∧
      s'.current = (if accepted then s.current else none) ∧ s'.constructed = s.constructed := by
  have hsent : ∀ response, Reports s { s.tell (.send response) with
      security := s.security.map (·.clearResources) } [] := fun response =>
    ((Reports.of_calls (s := s) rfl).quiet (c := .send response) rfl).congr rfl
  intro s' accepted
  cases haccepted : s.identityAccepted && bootstrapDeletePath (header.uriPath.getD []) with
  | false =>
    have hrefused : accepted = false := by simp [accepted, bootstrapDeleteAccepted, haccepted]
    rw [hrefused]
    simp only [s', handleBootstrapDelete, haccepted, Bool.false_eq_true, if_false]
    cases w.buildResponse header .badRequest with
    | none => exact ⟨Reports.error (.of_calls rfl), rfl, rfl⟩
    | some response => exact ⟨(hsent response).error, rfl, rfl⟩
  | true =>
    simp only [s', accepted, bootstrapDeleteAccepted, handleBootstrapDelete, haccepted, if_true,
      Bool.true_and]
    cases w.buildResponse header .deleted with
    | none => exact ⟨Reports.error (.of_calls rfl), rfl, rfl⟩
    | some response =>
      refine ⟨hsent response, ?_, rfl⟩
      simp [NsdlInterface.current, NsdlInterface.tell, Function.comp_def]

theorem handleBootstrapDelete_move : BootstrapMove s (handleBootstrapDelete w header s) := by
  obtain ⟨hreports, hcurrent, hconstructed⟩ := handleBootstrapDelete_reports w header s
  cases haccepted : bootstrapDeleteAccepted w header s with
  | true =>
    rw [haccepted] at hreports hcurrent
    exact .accepted hreports (.inl ⟨hcurrent, hconstructed⟩)
  | false =>
    rw [haccepted] at hreports hcurrent
    exact .failed hreports hcurrent hconstructed.ge

end Bootstrap

section Requests
variable {w : Surroundings} {header : CoapHeader} {s : NsdlInterface}

theorem not_stored {handle : NsdlHandle} {address : Option Address}
    (hid : header.msgId ∉ handle.storedIds) : receivedFromServer w handle header address s =
      receivedRequest w header (s.tell .coapDataProcessed) (handle.isBootstrapMsg address) := by
  simp only [NsdlHandle.storedIds, List.mem_cons, List.not_mem_nil, or_false, not_or] at hid
  obtain ⟨hregister, hunregister, hupdate, hbootstrap⟩ := hid
  rw [receivedFromServer, if_neg hregister, if_neg hunregister, if_neg hupdate, if_neg hbootstrap]

/-- The interface of a client that has not done anything yet. -/
def initialInterface : NsdlInterface :=
  { objects := [], security := none, constructed := 0, server := ⟨none⟩, identityAccepted := false
    bootstrapId := 0, unregisterOngoing := false, lifetime := none, heap := granted, calls := [] }

/-- A registration is under way; nothing else has been sent. -/
def registering : NsdlHandle :=
  { registerMsgId := 7, unregisterMsgId := 0, updateRegisterMsgId := 0, bootstrapMsgId := 0
    omaBsAddress := [], omaBsPort := 0 }

end Requests
end MbedClient.Nsdl
