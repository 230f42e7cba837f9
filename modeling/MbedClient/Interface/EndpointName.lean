import MbedClient.Interface.Steady

/-! The name under which the client asks the bootstrap server for its objects. -/
namespace MbedClient.Interface
open Callback Callback.Prog

/-- `M2MInterfaceFactory::create_interface`, with the parameters that it looks at and those that the
interface keeps here. -/
def createInterface (config : Config) (endpointName endpointType : Bytes) (lifeTime : Int32)
    (listenPort : UInt16) (domain : Bytes) (mode : BindingMode) : Option M2MInterfaceImpl :=
  let endpointTypeValid :=
    endpointType.isEmpty || decide (endpointType.length ≤ maxAllowedStringLength)
  let domainValid := domain.isEmpty || decide (domain.length ≤ maxAllowedStringLength)
  if (lifeTime == -1 || decide (minimumRegistrationTime.toInt32 ≤ lifeTime)) &&
      !endpointName.isEmpty && decide (endpointName.length ≤ maxAllowedStringLength) &&
      endpointTypeValid && domainValid then
    -- `create_endpoint` assigns the name, which keeps what `c_str` shows of it
    some (M2MInterfaceImpl.create config (cStr endpointName) domain mode listenPort)
  else none

def fullName (endpointName domain : Bytes) : Bytes :=
  if domain.isEmpty then endpointName else endpointName ++ [0x40] ++ domain

section Text

/-- What is in the buffer by the second check is the name, which that check counts again. -/
theorem bootstrapName_eq {endpointName : Bytes} (hn : endpointName.length < maxPathSize)
    (domain : Bytes) : bootstrapName endpointName domain =
      if domain.isEmpty then some (cStr endpointName)
      else if (cStr endpointName).length + endpointName.length + domain.length + 2 ≤ maxPathSize
        then some (cStr endpointName ++ [0x40] ++ cStr domain)
      else none := by
  have hle := cStr_length_le endpointName
  have hled := cStr_length_le domain
  have hfirst : (StringBuffer.new (by decide) : StringBuffer maxPathSize).ensureSpace
      (endpointName.length + 1) = true := decide_eq_true hn
  have hname : ((StringBuffer.new (by decide) : StringBuffer maxPathSize).append
      (cStr endpointName)).2.text = cStr endpointName := by
    rw [StringBuffer.append_text, if_pos]
    · rfl
    · exact (Nat.zero_add _).symm ▸ hle.trans_lt hn
  rw [bootstrapName]
  dsimp only
  rw [if_pos hfirst]
  generalize (StringBuffer.new (by decide) : StringBuffer maxPathSize).append
    (cStr endpointName) = named at hname
  split_ifs with hd hsecond hfits hfits
  · rw [hname]
  · have hat : (named.2.append [0x40]).2.text = cStr endpointName ++ [0x40] := by
      rw [StringBuffer.append_text, hname, if_pos]
      rw [List.length_singleton]
      omega
    rw [StringBuffer.append_text, hat, if_pos]
    rw [List.length_append, List.length_singleton]
    omega
  · rw [StringBuffer.ensureSpace, decide_eq_true_eq, hname] at hsecond
    omega
  · rw [StringBuffer.ensureSpace, decide_eq_true_eq, hname] at hsecond
    omega
  · rfl

theorem bootstrapName_eq_fullName_iff {endpointName domain : Bytes}
    (hn : endpointName.length ≤ maxAllowedStringLength) :
    bootstrapName (cStr endpointName) domain = some (fullName endpointName domain) ↔
      0 ∉ endpointName ∧ 0 ∉ domain ∧
        (domain = [] ∨ 2 * endpointName.length + domain.length ≤ 140) := by
  have hle := cStr_length_le endpointName
  have hled := cStr_length_le domain
  have hmax : maxAllowedStringLength < maxPathSize := by decide
  rw [bootstrapName_eq (hle.trans_lt (hn.trans_lt hmax)), cStr_cStr, fullName]
  by_cases hd : domain = []
  · subst hd
    simp [cStr_eq_self]
  rw [if_neg (mt List.isEmpty_iff.mp hd), if_neg (mt List.isEmpty_iff.mp hd)]
  refine ⟨fun h => ?_, fun h => ?_⟩
  · split_ifs at h with hfits
    have htext := Option.some.inj h
    have hlen := congrArg List.length htext
    simp only [List.length_append, List.length_cons, List.length_nil] at hlen
    have hname : cStr endpointName = endpointName := cStr_eq_of_length (by omega)
    have hdomain : cStr domain = domain := cStr_eq_of_length (by omega)
    rw [hname] at hfits
    refine ⟨(cStr_eq_self _).mp hname, (cStr_eq_self _).mp hdomain, Or.inr ?_⟩
    rw [maxPathSize] at hfits
    omega
  · obtain ⟨hname, hdomain, hsum⟩ := h
    rw [(cStr_eq_self _).mpr hname, (cStr_eq_self _).mpr hdomain, if_pos]
    rw [maxPathSize]
    cases hsum with
    | inl hempty => exact (hd hempty).elim
    | inr hsum => omega

theorem createInterface_spec {config : Config} {endpointName endpointType domain : Bytes}
    {lifeTime : Int32} {listenPort : UInt16} {mode : BindingMode} {created : M2MInterfaceImpl}
    (h : createInterface config endpointName endpointType lifeTime listenPort domain mode =
      some created) :
    endpointName.length ≤ maxAllowedStringLength ∧ created.endpointName = cStr endpointName ∧
      created.domain = domain := by
  rw [createInterface] at h
  split_ifs at h with hvalid
  obtain rfl := Option.some.inj h
  simp only [Bool.and_eq_true, decide_eq_true_eq] at hvalid
  obtain ⟨⟨⟨_, hlen⟩, _⟩, _⟩ := hvalid
  exact ⟨hlen, rfl, rfl⟩

end Text

/-- How many entry points are active, and the calls that the outermost of them makes itself, with
the states in which it makes them. -/
def own : Monitor M2MInterfaceImpl Output Entry (Nat × List (Output × EStates))
  | .entered _, _, y => (y.1 + 1, y.2)
  | .left _, _, y => (y.1 - 1, y.2)
  | .called o, i, (1, log) => (1, log ++ [(o, i.currentState)])
  | _, _, y => y

/-- The bootstrap server is asked under this name and no other, and what goes wrong is reported in
the idle state. -/
structure Named (name : Bytes) (log : List (Output × EStates)) : Prop where
  created : ∃ type port address state,
    (.createBootstrapResource type port address name, state) ∈ log
  only : ∀ type port address name' state,
    (.createBootstrapResource type port address name', state) ∈ log → name' = name
  idle : ∀ error state, (.error error, state) ∈ log → state = .idle

theorem Named.unique {name name' : Bytes} {log : List (Output × EStates)} (h : Named name log)
    (h' : Named name' log) : name = name' := by
  obtain ⟨type, port, address, state, hmem⟩ := h.created
  exact h'.only type port address name state hmem

/-- Nothing but that has happened, `depth` entry points deep. -/
structure Beneath (depth : Nat) (log : List (Output × EStates))
    (t : M2MInterfaceImpl × (Nat × List (Output × EStates))) : Prop where
  quiet : t.1.eventGenerated = false
  same : t.2 = (depth, log)

section Beneath
variable {noisy : Bool} {depth : Nat} {log : List (Output × EStates)}
variable {t : M2MInterfaceImpl × (Nat × List (Output × EStates))}

/-- Callbacks come from within an entry point. -/
abbrev byBeneath : Contract M2MInterfaceImpl Output (Nat × List (Output × EStates)) :=
  fun _ _ I => ∃ depth log, I = Beneath (depth + 1) log

theorem Beneath.assign (ht : Beneath depth log t) {i : M2MInterfaceImpl}
    (hi : i.eventGenerated = t.1.eventGenerated) : Beneath depth log (i, t.2) :=
  ⟨hi.trans ht.quiet, ht.same⟩

/-- Calls of inner entry points are not looked at. -/
theorem Beneath.called (ht : Beneath (depth + 2) log t) (o : Output) :
    Beneath (depth + 2) log (own.see (.called o) t) := by
  obtain ⟨i, y⟩ := t
  obtain ⟨hquiet, rfl⟩ := ht
  exact ⟨hquiet, rfl⟩

theorem Beneath.answered (ht : Beneath depth log t) (o : Output) (b : Bool) :
    Beneath depth log (own.see (.answered o b) t) := ht

theorem Beneath.enter (ht : Beneath (depth + 2) log t) (s : EStates) (data : Option EventData)
    (b : Bool) : Beneath (depth + 2) log (entering own s data b t) := by
  obtain ⟨i, y⟩ := t
  obtain ⟨-, rfl⟩ := ht
  exact ⟨rfl, rfl⟩

theorem Beneath.ask (ht : Beneath (depth + 2) log t) (o : Output) :
    wp (machine noisy) own byBeneath (.ask o) (fun _ => Beneath (depth + 2) log) t :=
  wp_ask_keep (fun _ => ⟨depth + 1, log, rfl⟩) (ht.called o) fun b _ h => h.answered o b

theorem beneath_lawful :
    Lawful own byBeneath (Beneath (depth + 2) log) (Beneath (depth + 2) log) where
  quiet _ ht := ht.quiet
  contract _ _ _ := ⟨depth + 1, log, rfl⟩
  called o _ _ ht := ht.called o
  answered o b _ _ ht := ht.answered o b
  refused o _ _ ht := ht.answered o false
  minor _ _ ht hi _ := ht.assign hi.eventGenerated
  enter s b _ _ ht := ht.enter s none b
  idle b _ ht := ht.enter .idle none b

theorem beneath_connects :
    Connects own byBeneath (Beneath (depth + 2) log) (Beneath (depth + 2) log) where
  weaken _ ht := ht
  minor _ _ ht hi := ht.assign hi.eventGenerated
  created _ _ _ ht := ht.called _
  contract _ _ _ _ _ := ⟨depth + 1, log, rfl⟩
  called _ _ _ _ _ ht := ht.called _
  answered _ _ _ _ _ _ ht := ht

theorem Beneath.event (ht : Beneath (depth + 2) log t) (s : EStates) (data : Option EventData) :
    wp (machine noisy) own byBeneath (internalEvent s data)
      (fun _ => Beneath (depth + 2) log) t := by
  apply beneath_lawful.event beneath_connects _ _ fun b => ht.enter s data b
  · exact fun _ _ ht' hi _ => ht'.assign hi
  · exact fun _ _ _ _ _ ht' => ht'.ask _

theorem beneath_steady : Steady noisy own byBeneath (Beneath (depth + 2) log) where
  lawful := beneath_lawful
  assign _ _ ht hi _ _ := ht.assign hi
  consulted operation _ _ _ ht := ht.called (.transition operation)
  update security lifetime objectList t ht := by
    have hasked := ht.called (.transition .updateRegistration)
    apply wp_externalEvent
    · exact fun _ _ => hasked.assign rfl
    · exact fun s _ _ => hasked.event s _
  event s data _ _ _ _ ht := ht.event s data

theorem beneath_honours : Honours (machine noisy) own byBeneath := by
  intro o b I hI e _ t ht
  obtain ⟨depth, log, rfl⟩ := hI
  have hin : Beneath (depth + 2) log (own.see (.entered e) t) :=
    ⟨ht.quiet, congrArg (fun y => (y.1 + 1, y.2)) ht.same⟩
  have hcode : wp (machine noisy) own byBeneath (code e) (fun _ => Beneath (depth + 2) log)
      (own.see (.entered e) t) :=
    beneath_steady.codeAll (fun _ h => h.event _ _) (fun _ _ _ h => h.event _ _) e hin
  exact wp_mono (fun _ t' ht' => ⟨ht'.quiet, congrArg (fun y => (y.1 - 1, y.2)) ht'.same⟩) hcode

end Beneath

section Report
variable {noisy : Bool} {i : M2MInterfaceImpl}

/-- A name that has not been put together is reported from the state itself. -/
def Reported (passed : Option Bytes) (log : List (Output × EStates)) : Prop :=
  match passed with
  | none => (.error .invalidParameters, .bootstrapAddressResolved) ∈ log
  | some name => Named name log

theorem Reported.named_iff {passed : Option Bytes} {log : List (Output × EStates)}
    (h : Reported passed log) (name : Bytes) : Named name log ↔ passed = some name := by
  cases passed with
  | none =>
    refine ⟨fun hn => ?_, nofun⟩
    exact absurd (hn.idle _ _ h) (by decide)
  | some name' =>
    refine ⟨fun hn => congrArg some (Named.unique h hn), fun heq => ?_⟩
    obtain rfl := Option.some.inj heq
    exact h

theorem addressReady_reports (address : SocketAddress) (port : UInt16) :
    wp (machine noisy) own byBeneath (addressReady address .bootstrap port)
      (fun _ t => Reported (bootstrapName i.endpointName i.domain) t.2.2) (i, (1, [])) := by
  change wp (machine noisy) own byBeneath (internalEventAt 4 .bootstrapAddressResolved
    (some (.resolvedAddress address port))) _ _
  rw [wp_internalEventAt]
  intro b
  change wp (machine noisy) own byBeneath (stateBootstrapAddressResolved (internalEventAt 3)
    (some (.resolvedAddress address port))) _ _
  rw [stateBootstrapAddressResolved, wp_bind, wp_tell fun _ => rfl]
  intro b'
  rw [wp_bind, wp_read]
  change wp (machine noisy) own byBeneath
    (match bootstrapName i.endpointName i.domain with
      | none => _
      | some name => _) _ _
  cases bootstrapName i.endpointName i.domain with
  | none =>
    refine wp_tell_keep (fun _ => ⟨0, _, rfl⟩) ⟨rfl, rfl⟩ fun _ t ht => ⟨ht.quiet, ?_⟩
    change _ ∈ t.2.2
    rw [ht.same]
    exact List.mem_concat_self
  | some name =>
    rw [wp_bind]
    refine wp_ask_keep (fun _ => ⟨0, _, rfl⟩) ⟨rfl, rfl⟩ fun created t ht => ?_
    obtain ⟨i', y⟩ := t
    obtain ⟨-, rfl⟩ := ht
    cases created with
    | true =>
      refine (wp_internalEventAt 2 .bootstrapResourceCreated none).mpr fun _ => ⟨rfl, rfl, ?_⟩
      change Named name [(.stateFunction _ _, _), (.startListeningForData, _),
        (.createBootstrapResource _ _ _ name, .bootstrapAddressResolved), (.stateFunction _ _, _)]
      exact ⟨⟨_, _, _, _, .tail _ (.tail _ (.head _))⟩, by simp +contextual, by simp⟩
    | false =>
      change wp (machine noisy) own byBeneath (fail (internalEventAt 3) .invalidParameters) _ _
      rw [fail, wp_bind, wp_internalEventAt]
      intro b''
      change wp (machine noisy) own byBeneath (.tell .stopTimers) _ _
      rw [wp_tell fun _ => rfl]
      refine fun _ => ⟨rfl, ?_⟩
      refine wp_tell_keep (fun _ => ⟨0, _, rfl⟩) ⟨rfl, rfl⟩ fun _ t ht => ⟨ht.quiet, ?_⟩
      change Named name t.2.2
      rw [ht.same]
      change Named name [(.stateFunction _ _, _), (.startListeningForData, _),
        (.createBootstrapResource _ _ _ name, .bootstrapAddressResolved), (.stateFunction _ _, _),
        (.stopTimers, _), (.error .invalidParameters, .idle)]
      exact ⟨⟨_, _, _, _, .tail _ (.tail _ (.head _))⟩, by simp +contextual, by simp⟩

/-- What the interface does when the address of the bootstrap server is there, in any
surroundings. -/
def bootstrapCalls (noisy : Bool) (address : SocketAddress) (port : UInt16)
    (replies : List (Reply Entry)) (i : M2MInterfaceImpl) : List (Output × EStates) :=
  (runScript (machine noisy) own (.mk (.addressReady address .bootstrap port) replies)
    (i, (0, []))).2.2

theorem bootstrapCalls_reported (address : SocketAddress) (port : UInt16)
    (replies : List (Reply Entry)) :
    Reported (bootstrapName i.endpointName i.domain)
      (bootstrapCalls noisy address port replies i) := by
  have hcode : wp (machine noisy) own byBeneath (code (.addressReady address .bootstrap port))
      (fun _ t => Reported (bootstrapName i.endpointName i.domain) t.2.2) (i, (1, [])) :=
    addressReady_reports address port
  rw [bootstrapCalls, runScript]
  obtain ⟨-, ht⟩ := exec_wp (beneath_honours.runReplies replies) hcode
  exact ht

end Report

/-- With the names that a client has been created with, the bootstrap server is asked under the full
name, and no error is reported outside the idle state, if and only if that name is short enough to
have its first part counted twice, and has no NUL in it. -/
theorem bootstrap_named_iff {noisy : Bool} {config : Config}
    {endpointName endpointType domain : Bytes} {lifeTime : Int32} {listenPort : UInt16}
    {mode : BindingMode} {created i : M2MInterfaceImpl} (address : SocketAddress) (port : UInt16)
    (replies : List (Reply Entry))
    (h : createInterface config endpointName endpointType lifeTime listenPort domain mode =
      some created)
    (hname : i.endpointName = created.endpointName) (hdomain : i.domain = created.domain) :
    Named (fullName endpointName domain) (bootstrapCalls noisy address port replies i) ↔
      0 ∉ endpointName ∧ 0 ∉ domain ∧
        (domain = [] ∨ 2 * endpointName.length + domain.length ≤ 140) := by
  obtain ⟨hlen, hstored, hkept⟩ := createInterface_spec h
  have hcalls : Reported _ (bootstrapCalls noisy address port replies i) :=
    bootstrapCalls_reported address port replies
  rw [hname, hdomain, hstored, hkept] at hcalls
  rw [hcalls.named_iff, bootstrapName_eq_fullName_iff hlen]

/-- A name and a domain of one byte each, and a server that cannot be asked. -/
theorem short_name_named :
    let i := M2MInterfaceImpl.create {} [0x61] [0x62] .udp 0
    createInterface {} [0x61] [] 60 0 [0x62] .udp = some i ∧
      Named (fullName [0x61] [0x62])
        (bootstrapCalls true ⟨.lwipIPv4, [127, 0, 0, 1], 0⟩ 5683 [] i) := by
  have hcreated : createInterface {} [0x61] [] 60 0 [0x62] .udp =
      some (M2MInterfaceImpl.create {} [0x61] [0x62] .udp 0) := by decide
  exact ⟨hcreated, (bootstrap_named_iff _ _ _ hcreated rfl rfl).mpr (by decide)⟩

/-- A name and a domain of 64 bytes are accepted, and then reported from the state in which they are
put together, in which the client stays. -/
theorem long_name_unnamed :
    let endpointName := List.replicate 64 0x61
    let domain := List.replicate 64 0x62
    let i := M2MInterfaceImpl.create {} endpointName domain .udp 0
    createInterface {} endpointName [] 60 0 domain .udp = some i ∧
      (fullName endpointName domain).length < maxPathSize ∧
      ¬ Named (fullName endpointName domain)
        (bootstrapCalls true ⟨.lwipIPv4, [127, 0, 0, 1], 0⟩ 5683 [] i) := by
  refine ⟨by decide +kernel, by decide +kernel, fun h => ?_⟩
  have hreport := h.idle .invalidParameters .bootstrapAddressResolved (by decide +kernel)
  cases hreport

end MbedClient.Interface
