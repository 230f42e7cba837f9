import MbedClient.Interface.Ownership
import MbedClient.Nsdl.Outcomes

/-! The nsdl layer under the interface: who owns the security object that a bootstrap constructs. -/
namespace MbedClient.Nsdl
open Callback
open Interface (M2MInterfaceImpl Entry Output Ownership SocketAddress machineWith ownership)

/-- The reports that hand the security object over, or tell of its end. -/
def Call.bootstraps : Call → Bool
  | .bootstrapWait _ | .bootstrapError => true
  | _ => false

theorem Call.isOutcome_of_bootstraps {c : Call} (h : c.bootstraps = true) : c.isOutcome = true := by
  cases c <;> first | rfl | cases h

/-- What a message may do to the security object, and what is called meanwhile. -/
inductive Move (s s' : NsdlInterface) (new : List Call) : Prop
  | aside : (∀ c ∈ new, c.bootstraps = false) →
      (s'.current = s.current ∧ s'.constructed = s.constructed ∨
        s.current = none ∧ s'.current = some (s.constructed + 1) ∧
          s'.constructed = s.constructed + 1) → Move s s' new
  | finished (n : Nat) : (∀ c ∈ new, c.bootstraps = true → c = .bootstrapWait n) →
      s.current = some n → s'.current = s.current → s'.constructed = s.constructed → Move s s' new
  | failed : (∀ c ∈ new, c.bootstraps = true → c = .bootstrapError) → s'.current = none →
      s.constructed ≤ s'.constructed → Move s s' new

structure Aside (s s' : NsdlInterface) : Prop where
  calls : ∃ new, s'.calls = s.calls ++ new ∧ ∀ c ∈ new, c.bootstraps = false
  current : s'.current = s.current
  constructed : s'.constructed = s.constructed

section Aside
variable {w : Surroundings} {header : CoapHeader} {s s' s'' : NsdlInterface} {new : List Call}

theorem Aside.refl (s : NsdlInterface) : Aside s s := ⟨⟨[], by simp⟩, rfl, rfl⟩

theorem Aside.congr (h : Aside s s') (hcalls : s''.calls = s'.calls)
    (hsecurity : s''.security = s'.security) (hconstructed : s''.constructed = s'.constructed) :
    Aside s s'' where
  calls := hcalls ▸ h.calls
  current := by rw [NsdlInterface.current, hsecurity, hconstructed]; exact h.current
  constructed := hconstructed.trans h.constructed

theorem Aside.tell (h : Aside s s') {c : Call} (hc : c.bootstraps = false) :
    Aside s (s'.tell c) := by
  obtain ⟨new, hnew, hquiet⟩ := h.calls
  refine ⟨⟨new ++ [c], ?_, fun c' hc' => ?_⟩, h.current, h.constructed⟩
  · rw [← List.append_assoc, ← hnew]
    rfl
  · obtain hmem | hmem := List.mem_append.mp hc'
    · exact hquiet c' hmem
    · rw [List.mem_singleton.mp hmem, hc]

theorem Aside.send (h : Aside s s') (response : Option Response) : Aside s (s'.send response) := by
  cases response with
  | none => exact h
  | some response => exact h.tell rfl

theorem Aside.move (h : Aside s s') : ∃ new, s'.calls = s.calls ++ new ∧ Move s s' new := by
  obtain ⟨new, hnew, hquiet⟩ := h.calls
  exact ⟨new, hnew, .aside hquiet (.inl ⟨h.current, h.constructed⟩)⟩

theorem receivedRegistration_aside (h : Aside s s') :
    Aside s (receivedRegistration header s') := by
  have htimer : ∀ s', Aside s s' → Aside s (if s'.lifetime.isSome then startRegistrationTimer s'
      else s') := by
    intro s' h
    split_ifs
    · exact (h.tell (c := .stopRegistrationTimer) rfl).tell rfl
    · exact h
  have hoptions : ∀ options s', Aside s s' → Aside s (takeOptions s' options) := by
    intro options s' h
    have hlifetime : Aside s (if options.maxAge > 0 then setEndpointLifetimeBuffer
        { s' with lifetime := none } options.maxAge.toInt32 else { s' with lifetime := none }) := by
      split_ifs
      · exact h.congr rfl rfl rfl
      · exact h.congr rfl rfl rfl
    rw [takeOptions]
    cases options.locationPath with
    | none => exact hlifetime
    | some location => exact hlifetime.tell rfl
  rw [receivedRegistration]
  split_ifs
  · refine htimer _ ?_
    cases header.options with
    | none => exact h.tell rfl
    | some options => exact hoptions options _ (h.tell rfl)
  · exact h.tell rfl
  · exact h.tell rfl

theorem receivedUnregistration_aside (h : Aside s s') :
    Aside s (receivedUnregistration header s') := by
  have hongoing : Aside s { s' with unregisterOngoing := false } := h.congr rfl rfl rfl
  rw [receivedUnregistration]
  split_ifs
  · exact (hongoing.tell (c := .stopRegistrationTimer) rfl).tell rfl
  · exact hongoing.tell rfl

theorem receivedUpdate_aside (h : Aside s s') : Aside s (receivedUpdate header s') := by
  rw [receivedUpdate]
  split_ifs
  · exact h.tell rfl
  · exact (h.tell (c := .stopRegistrationTimer) rfl).tell rfl

theorem receivedPost_aside (h : receivedPost w header s = some s') : Aside s s' := by
  rw [receivedPost_eq] at h
  cases hplan : postPlan header s.objects with
  | ignore =>
    rw [hplan] at h
    obtain rfl := Option.some.inj h
    exact .refl s
  | reply msgCode =>
    rw [hplan] at h
    obtain rfl := Option.some.inj h
    exact (Aside.refl s).send _
  | create i o id =>
    simp only [hplan, postToObject] at h
    obtain ⟨⟨response, told, o', heap⟩, -, rfl⟩ := Option.map_eq_some_iff.mp h
    dsimp only
    generalize (if response.any (·.msgCode ≠ .created) = true then (o'.removeObjectInstance id).2
      else o') = o''
    have hset : Aside s { s with objects := s.objects.set i o'', heap } :=
      (Aside.refl s).congr rfl rfl rfl
    have hupdate : Aside s (if response.any (·.msgCode ≠ .created) = true then
        { s with objects := s.objects.set i o'', heap } else
        sendUpdateRegistration { s with objects := s.objects.set i o'', heap }) := by
      split_ifs
      · exact hset
      · exact (hset.tell (c := .createNsdlListStructure) rfl).tell rfl
    cases told with
    | true => exact (hupdate.send response).tell rfl
    | false => exact hupdate.send response
  | undefined => simp [hplan] at h

theorem BootstrapMove.move (h : BootstrapMove s s') :
    ∃ new, s'.calls = s.calls ++ new ∧ Move s s' new := by
  have hmem : ∀ {l new : List Call}, new.filter Call.isOutcome = l → ∀ c ∈ new,
      c.bootstraps = true → c ∈ l := fun hl c hc hb =>
    hl ▸ List.mem_filter.mpr ⟨hc, Call.isOutcome_of_bootstraps hb⟩
  cases h with
  | accepted hreports hcurrent =>
    obtain ⟨new, hnew, hl⟩ := hreports
    refine ⟨new, hnew, .aside (fun c hc => ?_) hcurrent⟩
    exact Bool.eq_false_iff.mpr fun hb => nomatch hmem hl c hc hb
  | finished n hreports hn hcurrent hconstructed =>
    obtain ⟨new, hnew, hl⟩ := hreports
    exact ⟨new, hnew, .finished n (fun c hc hb => List.mem_singleton.mp (hmem hl c hc hb)) hn
      hcurrent hconstructed⟩
  | failed hreports hcurrent hconstructed =>
    obtain ⟨new, hnew, hl⟩ := hreports
    exact ⟨new, hnew, .failed (fun c hc hb => List.mem_singleton.mp (hmem hl c hc hb)) hcurrent
      hconstructed⟩

theorem receivedRequest_move {isBootstrapMsg : Bool}
    (h : receivedRequest w header s isBootstrapMsg = some s') :
    ∃ new, s'.calls = s.calls ++ new ∧ Move s s' new := by
  unfold receivedRequest at h
  cases hcode : header.msgCode with
  | requestPut =>
    rw [hcode] at h
    cases isBootstrapMsg with
    | true => exact (handleBootstrapPutMessage_move h).move
    | false =>
      obtain rfl := Option.some.inj h
      exact ((Aside.refl s).send _).move
  | requestDelete =>
    rw [hcode] at h
    cases isBootstrapMsg with
    | true =>
      obtain rfl := Option.some.inj h
      exact handleBootstrapDelete_move.move
    | false =>
      obtain rfl := Option.some.inj h
      exact ((Aside.refl s).send _).move
  | requestPost =>
    rw [hcode] at h
    cases isBootstrapMsg with
    | true => exact (handleBootstrapFinished_move h).move
    | false => exact (receivedPost_aside h).move
  | _ =>
    rw [hcode] at h
    obtain rfl := Option.some.inj h
    exact (Aside.refl s).move

theorem receivedBootstrap_move : ∃ new, (receivedBootstrap header s).calls = s.calls ++ new ∧
    Move s (receivedBootstrap header s) new := by
  rw [receivedBootstrap]
  split_ifs
  · exact ⟨[.bootstrapError], rfl, .failed (by simp) rfl le_rfl⟩
  · exact ⟨[], (List.append_nil _).symm, .aside (by simp) (.inl ⟨rfl, rfl⟩)⟩

/-- The security object in the course of any message. -/
theorem receivedFromServer_move {handle : NsdlHandle} {address : Option Address}
    (h : receivedFromServer w handle header address s = some s') :
    ∃ new, s'.calls = s.calls ++ new ∧ Move s s' new := by
  have hprocessed : Aside s (s.tell .coapDataProcessed) := (Aside.refl s).tell rfl
  have hlater : (∃ new, s'.calls = (s.tell .coapDataProcessed).calls ++ new ∧
      Move (s.tell .coapDataProcessed) s' new) → ∃ new, s'.calls = s.calls ++ new ∧
        Move s s' new := by
    rintro ⟨new, hnew, hmove⟩
    refine ⟨.coapDataProcessed :: new, ?_, ?_⟩
    · rw [hnew]
      exact List.append_assoc s.calls [.coapDataProcessed] new
    · cases hmove with
      | aside hquiet hcurrent =>
        refine .aside (fun c hc => ?_) hcurrent
        obtain rfl | hc := List.mem_cons.mp hc
        · rfl
        · exact hquiet c hc
      | finished n hcalls hn hcurrent hconstructed =>
        refine .finished n (fun c hc hb => ?_) hn hcurrent hconstructed
        obtain rfl | hc := List.mem_cons.mp hc
        · cases hb
        · exact hcalls c hc hb
      | failed hcalls hcurrent hconstructed =>
        refine .failed (fun c hc hb => ?_) hcurrent hconstructed
        obtain rfl | hc := List.mem_cons.mp hc
        · cases hb
        · exact hcalls c hc hb
  unfold receivedFromServer at h
  dsimp only at h
  split_ifs at h
  · obtain rfl := Option.some.inj h
    exact (receivedRegistration_aside hprocessed).move
  · obtain rfl := Option.some.inj h
    exact (receivedUnregistration_aside hprocessed).move
  · obtain rfl := Option.some.inj h
    exact (receivedUpdate_aside hprocessed).move
  · obtain rfl := Option.some.inj h
    exact hlater receivedBootstrap_move
  · exact hlater (receivedRequest_move h)

end Aside

/-- The pointer to a security object by the number of its construction: odd, so that the application
has the even ones for its own. -/
def pointerTo (n : Nat) : Nat := 2 * n + 1

/-- What the interface gets to see of the security object. -/
def NsdlInterface.handedOver (s : NsdlInterface) (n : Nat) : Interface.M2MSecurity :=
  { pointer := pointerTo n
    serverType := .lwm2mServer
    serverUri := ((s.security.bind (·.getResource .m2mServerUri)).map (·.value)).getD []
    securityMode := (s.security.bind fun security =>
      (security.resourceValueInt .securityMode s.heap).1).getD 0 }

/-- A message for the nsdl layer: where it comes from, if it is not one that could not be sent; the
bytes of the messages that are sent on account of it and the instance that it creates; and what
happens in the course of each of the callbacks. -/
structure Received where
  w : Surroundings
  handle : NsdlHandle
  header : CoapHeader
  address : Option Address
  origin : Option (Bytes × SocketAddress)
  sent : Call → Bytes
  created : Nat
  answers : List (List (Reply Entry))
  parsed : Bool
  rest : List (Reply Entry)

namespace Received
variable (r : Received) (s : NsdlInterface)

/-- The entry point of the interface that a call leads to. -/
def callback : Call → Option Entry
  | .coapDataProcessed => some .coapDataProcessed
  | .clientRegistered => some .clientRegistered
  | .registrationUpdated => some .registrationUpdated
  | .registrationError error retry =>
    some (.registrationError (UInt8.ofNat (Interface.Error.all.idxOf error)) retry)
  | .clientUnregistered => some .clientUnregistered
  | .bootstrapWait n => some (.bootstrapWait (some (s.handedOver n)))
  | .bootstrapError => some .bootstrapError
  | .valueUpdated => some (.valueUpdated (some r.created))
  | .send response => some (.coapMessageReady (r.sent (.send response)))
  | .registerEndpoint => some (.coapMessageReady (r.sent .registerEndpoint))
  | .updateRegistration => some (.coapMessageReady (r.sent .updateRegistration))
  | _ => none

def callbacks (calls : List Call) : List Entry := calls.filterMap (r.callback s)

/-- The callbacks come while `process_received_data` is under way, or from a timer of the nsdl layer
if a message could not be sent. -/
def scripts (calls : List Call) : List (Script Entry) :=
  let l := (r.callbacks s calls).mapIdx fun k e => .mk e (r.answers.getD k [])
  match r.origin with
  | none => l
  | some (data, address) =>
    let yes : Reply Entry := .mk true []
    [.mk (.dataAvailable data address) ([yes, yes, yes, .mk r.parsed l] ++ r.rest)]

end Received

/-- Both layers, with what is to be known of security objects. -/
structure Client where
  nsdl : NsdlInterface
  interface : M2MInterfaceImpl × Ownership

/-- Calls of the application, the connection handler and the timers, and other callbacks of the nsdl
layer, which may change anything there but the security object; and messages. -/
inductive Client.Event where
  | call (script : Script Entry) (change : NsdlInterface → NsdlInterface)
  | message (received : Received)

namespace Client
variable (noisy : Bool) (c : Client)

/-- The object that is deleted if the message on the way from `s` to `s'` fails. -/
def victim (s s' : NsdlInterface) : Option Nat :=
  if s.security.isSome || decide (s.constructed < s'.constructed) then
    some (pointerTo s'.constructed)
  else none

/-- Nothing if the nsdl layer does something undefined. -/
def step : Event → Option Client
  | .call script change =>
    let s := change c.nsdl
    if script.entry.bootstraps || s.current != c.nsdl.current ||
        s.constructed != c.nsdl.constructed then some c
    else some ⟨s, runScript (machineWith noisy fun e => !e.bootstraps) ownership script c.interface⟩
  | .message r => do
    let s ← receivedFromServer r.w r.handle r.header r.address c.nsdl
    let calls := s.calls.drop c.nsdl.calls.length
    some ⟨s, run (machineWith noisy fun e => decide (e ∈ r.callbacks s calls)) ownership
      (r.scripts s calls) (c.interface.1, { c.interface.2 with owned := victim c.nsdl s })⟩

def run (l : List Event) : Option Client := l.foldlM (step noisy) c

def create (server : M2MServer) (heap : Heap) (i : M2MInterfaceImpl) : Client where
  nsdl :=
    { objects := [], security := none, constructed := 0, server, identityAccepted := false
      bootstrapId := 0, unregisterOngoing := false, lifetime := none, heap, calls := [] }
  interface := (i, {})

end Client

/-- What is gone is what the nsdl layer has constructed and does not have any more. -/
def Deleted (s : NsdlInterface) (_ : Option Nat) (gone : List Nat) : Prop :=
  ∀ p ∈ gone, ∃ n ≤ s.constructed, p = pointerTo n ∧ s.current ≠ some n

/-- During a message that fails, the object it is about has been deleted, or is going to be. -/
def Failing (constructed : Nat) (owned : Option Nat) (gone : List Nat) : Prop :=
  ∀ p ∈ owned.toList ++ gone, ∃ n ≤ constructed, p = pointerTo n

section Client
variable {noisy : Bool} {c c' : Client} {s s' : NsdlInterface}

theorem pointerTo_inj {n n' : Nat} (h : pointerTo n = pointerTo n') : n = n' := by
  unfold pointerTo at h
  omega

open Interface (Held byHeld)

/-- The run of what a message leads to in the interface. -/
theorem held_scripts {K : Option Nat → List Nat → Prop} {r : Received} {calls : List Call}
    (hK : ∀ e ∈ r.callbacks s calls, e.admissible K) {t : M2MInterfaceImpl × Ownership}
    (ht : Held K t) : Held K (Callback.run
      (machineWith noisy fun e => decide (e ∈ r.callbacks s calls)) ownership
      (r.scripts s calls) t) := by
  have hC : Honours (machineWith noisy fun e => decide (e ∈ r.callbacks s calls)) ownership
      (byHeld K) := Interface.held_honours fun e he => hK e (of_decide_eq_true he)
  have hkeeps : ∀ e : Entry, e.admissible K → Keeps (machineWith noisy fun e =>
      decide (e ∈ r.callbacks s calls)) ownership (byHeld K) (Held K) e := fun e he =>
    Keeps.congr (M := Interface.machine noisy) (Interface.held_keeps he) rfl rfl
  refine Trace.fold_invariant (fun script hmem t' ht' => hC.runScript script _ t' (hkeeps _ ?_) ht')
    ht
  unfold Received.scripts at hmem
  cases ho : r.origin with
  | none =>
    rw [ho] at hmem
    obtain ⟨k, hk, rfl⟩ := List.mem_mapIdx.mp hmem
    exact hK _ (List.getElem_mem hk)
  | some origin =>
    rw [ho] at hmem
    rw [List.mem_singleton.mp hmem]
    trivial

/-- A callback about a bootstrap comes of such a call. -/
theorem callback_bootstraps {r : Received} {call : Call} {e : Entry}
    (h : r.callback s call = some e) (he : e.bootstraps = true) : call.bootstraps = true := by
  cases call <;> first | rfl | (obtain rfl := Option.some.inj h; cases he) | cases h

theorem message_held {r : Received} {new : List Call} (hc : Held (Deleted s) c.interface)
    (hmove : Move s s' new) :
    Held (Deleted s') (Callback.run (machineWith noisy fun e => decide (e ∈ r.callbacks s' new))
      ownership (r.scripts s' new)
        (c.interface.1, { c.interface.2 with owned := Client.victim s s' })) := by
  have hvictim : ∀ {K : Option Nat → List Nat → Prop}, K (Client.victim s s') c.interface.2.gone →
      Held K (c.interface.1, { c.interface.2 with owned := Client.victim s s' }) := fun h =>
    ⟨hc.quiet, hc.excused, hc.cached, h⟩
  have hcalled : ∀ e ∈ r.callbacks s' new, e.bootstraps = true →
      ∃ call ∈ new, call.bootstraps = true ∧ r.callback s' call = some e := by
    intro e he hb
    obtain ⟨call, hcall, hentry⟩ := List.mem_filterMap.mp he
    exact ⟨call, hcall, callback_bootstraps hentry hb, hentry⟩
  cases hmove with
  | aside hquiet hcurrent =>
    have hK : ∀ e ∈ r.callbacks s' new, e.admissible (Deleted s) := by
      intro e he
      refine Interface.Entry.admissible_of_not_bootstraps (Bool.eq_false_iff.mpr fun hb => ?_)
      obtain ⟨call, hcall, hboot, -⟩ := hcalled e he hb
      exact nomatch (hquiet call hcall).symm.trans hboot
    refine (held_scripts hK (hvictim hc.known)).weaken fun h p hp => ?_
    obtain ⟨n, hn, rfl, hdead⟩ := h p hp
    obtain ⟨hsame, hcount⟩ | ⟨-, hnew, hcount⟩ := hcurrent
    · exact ⟨n, hcount ▸ hn, rfl, hsame ▸ hdead⟩
    · refine ⟨n, by omega, rfl, fun hcur => ?_⟩
      have heq : s.constructed + 1 = n := Option.some.inj (hnew.symm.trans hcur)
      omega
  | finished n hcalls hn hcurrent hconstructed =>
    have hK : ∀ e ∈ r.callbacks s' new, e.admissible (Deleted s) := by
      intro e he
      cases hb : e.bootstraps with
      | false => exact Interface.Entry.admissible_of_not_bootstraps hb
      | true =>
        obtain ⟨call, hcall, hboot, hentry⟩ := hcalled e he hb
        obtain rfl := hcalls call hcall hboot
        obtain rfl := Option.some.inj hentry
        -- what is handed over is the object that is there, and is not gone
        rintro owned gone hdeleted security hs hmem
        obtain rfl := Option.some.inj hs
        obtain ⟨n', -, hp, hdead⟩ := hdeleted _ hmem
        exact hdead (pointerTo_inj hp ▸ hn)
    refine (held_scripts hK (hvictim hc.known)).weaken fun h p hp => ?_
    obtain ⟨n', hn', rfl, hdead⟩ := h p hp
    exact ⟨n', hconstructed ▸ hn', rfl, hcurrent ▸ hdead⟩
  | failed hcalls hcurrent hconstructed =>
    have hK : ∀ e ∈ r.callbacks s' new, e.admissible (Failing s'.constructed) := by
      intro e he
      cases hb : e.bootstraps with
      | false => exact Interface.Entry.admissible_of_not_bootstraps hb
      | true =>
        obtain ⟨call, hcall, hboot, hentry⟩ := hcalled e he hb
        obtain rfl := hcalls call hcall hboot
        obtain rfl := Option.some.inj hentry
        exact fun owned gone h => h
    have hfailing : Failing s'.constructed (Client.victim s s') c.interface.2.gone := by
      intro p hp
      obtain howned | hgone := List.mem_append.mp hp
      · unfold Client.victim at howned
        split_ifs at howned
        · exact ⟨s'.constructed, le_rfl, (List.mem_singleton.mp howned)⟩
        · cases howned
      · obtain ⟨n, hn, rfl, -⟩ := hc.known p hgone
        exact ⟨n, hn.trans hconstructed, rfl⟩
    refine (held_scripts hK (hvictim hfailing)).weaken fun h p hp => ?_
    obtain ⟨n, hn, rfl⟩ := h p (List.mem_append.mpr (Or.inr hp))
    exact ⟨n, hn, rfl, by simp [hcurrent]⟩

theorem step_held {event : Client.Event} (hc : Held (Deleted c.nsdl) c.interface)
    (h : c.step noisy event = some c') : Held (Deleted c'.nsdl) c'.interface := by
  cases event with
  | call script change =>
    simp only [Client.step] at h
    split_ifs at h with hguard
    · obtain rfl := Option.some.inj h
      exact hc
    · obtain rfl := Option.some.inj h
      simp only [Bool.or_eq_true, not_or, bne_iff_ne, ne_eq, not_not, Bool.not_eq_true] at hguard
      obtain ⟨⟨hentry, hcurrent⟩, hconstructed⟩ := hguard
      have hC : Honours (machineWith noisy fun e => !e.bootstraps) ownership
          (byHeld (Deleted c.nsdl)) := Interface.held_honours fun e he =>
        Interface.Entry.admissible_of_not_bootstraps ((Bool.not_eq_true' _).mp he)
      have hkeeps : Keeps (machineWith noisy fun e => !e.bootstraps) ownership
          (byHeld (Deleted c.nsdl)) (Held (Deleted c.nsdl)) script.entry :=
        Keeps.congr (M := Interface.machine noisy)
          (Interface.held_keeps (Interface.Entry.admissible_of_not_bootstraps hentry)) rfl rfl
      refine (hC.runScript script _ _ hkeeps hc).weaken fun hdeleted p hp => ?_
      obtain ⟨n, hn, rfl, hdead⟩ := hdeleted p hp
      exact ⟨n, hconstructed ▸ hn, rfl, hcurrent ▸ hdead⟩
  | message r =>
    obtain ⟨s, hs, h⟩ := Option.bind_eq_some_iff.mp h
    obtain rfl := Option.some.inj h
    obtain ⟨new, hnew, hmove⟩ := receivedFromServer_move hs
    dsimp only
    rw [hnew, List.drop_left]
    exact message_held hc hmove

theorem run_held (l : List Client.Event) (hc : Held (Deleted c.nsdl) c.interface)
    (h : c.run noisy l = some c') : Held (Deleted c'.nsdl) c'.interface := by
  induction l generalizing c with
  | nil =>
    obtain rfl := Option.some.inj h
    exact hc
  | cons event l ih =>
    obtain ⟨c₁, hstep, hrest⟩ := Option.bind_eq_some_iff.mp h
    exact ih (step_held hc hstep) hrest

/-- In every run of both layers, as long as no message fails while the object that is deleted for it
is in use, and none that is gone comes back from the application: the interface uses no object that
is gone. -/
theorem uses_what_is_there (config : Interface.Config) (endpointName domain : Bytes)
    (bindingMode : Interface.BindingMode) (listenPort : UInt16) (server : M2MServer) (heap : Heap)
    (l : List Client.Event)
    (h : (Client.create server heap (M2MInterfaceImpl.create config endpointName
      domain bindingMode listenPort)).run noisy l = some c') :
    c'.interface.2.unfit = false → c'.interface.2.wrong = false := by
  intro hu
  have hc : Held (Deleted c'.nsdl) c'.interface :=
    run_held l ⟨rfl, fun hw => Bool.noConfusion hw, fun hd => Bool.noConfusion hd,
      fun _ hp => (List.not_mem_nil hp).elim⟩ h
  exact Bool.eq_false_iff.mpr fun hw => Bool.false_ne_true (hu.symm.trans (hc.excused hw))

/-- A bootstrap server, its address, and a message that comes from there. -/
def bootstrapServer : Interface.M2MSecurity :=
  ⟨2, .bootstrap, Interface.coapScheme ++ [0x61, 0x3A, 0x31], Interface.noSecurity⟩

def bootstrapAddress : SocketAddress := ⟨.lwipIPv4, [0x7F, 0, 0, 1], 1⟩

def fromBootstrapServer (header : CoapHeader) : Client.Event :=
  let yes : Reply Entry := .mk true []
  .message
    { w := echo
      handle := { registerMsgId := 7, unregisterMsgId := 7, updateRegisterMsgId := 7
                  bootstrapMsgId := 8, omaBsAddress := [], omaBsPort := 0 }
      header, address := some ⟨[], 0⟩, origin := some ([], bootstrapAddress), sent := fun _ => []
      created := 0, answers := [[yes, yes], [yes, yes, yes], [yes, yes, yes]], parsed := true
      rest := [] }

def bootstrapAsked : List Client.Event :=
  let yes : Reply Entry := .mk true []
  [.call (.mk (.bootstrap (some bootstrapServer)) [yes, yes, yes]) id,
    .call (.mk (.addressReady bootstrapAddress .bootstrap 1)
      [yes, yes, .mk true [.mk (.coapMessageReady []) [yes, yes, yes]], yes]) id,
    fromBootstrapServer { plainRequest .requestGet with msgCode := .changed, msgId := 8 }]

/-- The URI and the security mode of a server, and the end of the bootstrap. -/
def bootstrapDelivered : List Client.Event :=
  [fromBootstrapServer { plainRequest .requestPut with
      uriPath := some [0x30], contentFormat := some coapContentOmaTlvType
      payloadPtr := some fun k => [0xC1, 0x00, 0x61, 0xC1, 0x02, 0x03].getD k 0, payloadLen := 6 },
    fromBootstrapServer { plainRequest .requestPost with uriPath := some bootstrapUri }]

def unknownDelete : Client.Event :=
  fromBootstrapServer { plainRequest .requestDelete with uriPath := some [0x39] }

/-- A bootstrap whose first message fails, and which is then carried out. -/
def bootstrapRetried : List Client.Event :=
  bootstrapAsked ++ [fromBootstrapServer { plainRequest .requestPut with uriPath := some [0x39] },
    .call (.mk (.timerExpired .retryTimer) []) id] ++ bootstrapDelivered ++
      [.call (.mk .dataSent []) id]

def newClient : Client := Client.create ⟨none⟩ granted (M2MInterfaceImpl.create {} [] [] .udp 0)

theorem bootstrapRetried_defined : (newClient.run true bootstrapRetried).isSome = true := by
  decide +kernel

theorem uses_what_is_there_retried :
    let c := (newClient.run true bootstrapRetried).get bootstrapRetried_defined
    c.interface.2.gone = [pointerTo 1] ∧ c.interface.1.currentState = .bootstrapped ∧
      c.interface.2.wrong = false :=
  ⟨by decide +kernel, by decide +kernel, uses_what_is_there {} [] [] .udp 0 ⟨none⟩ granted
    bootstrapRetried (Option.some_get bootstrapRetried_defined).symm (by decide +kernel)⟩

/-- A message that fails after the end of the bootstrap deletes the object that the interface has
been told to wait with, and the retry uses it. -/
theorem uses_what_is_gone :
    (newClient.run true (bootstrapAsked ++ bootstrapDelivered ++ [unknownDelete,
      .call (.mk (.timerExpired .retryTimer) []) id])).map (fun c =>
      (c.interface.1.currentState, c.interface.1.security.map (·.pointer), c.interface.2)) =
    some (.bootstrap, some (pointerTo 1),
      { owned := none, gone := [pointerTo 1], wrong := true, unfit := true }) := by
  decide +kernel

end Client
end MbedClient.Nsdl
