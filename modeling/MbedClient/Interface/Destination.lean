import MbedClient.Interface.Steady

/-! Which server the interface asks the connection handler for, and which one it was told to use. -/
namespace MbedClient.Interface
open Callback Callback.Prog

def usable (server : Bytes × UInt16) : Option (Bytes × UInt16) :=
  if server.1.isEmpty then none else some server

def M2MSecurity.destination (s : M2MSecurity) : Option (Bytes × UInt16) :=
  s.serverAddress.bind fun a => usable (processAddress a [] 0)

/-- What a run has been told: the security objects of the most recent accepted calls of
`register_object` and `bootstrap`, which of the two was the later one, and the object whose URI
`process_address` was last given. `opening` is one whose URI is next. -/
structure Destination where
  lastRegister : Option M2MSecurity := none
  lastBootstrap : Option M2MSecurity := none
  lastAccepted : Option ServerType := none
  retrying : Bool := false
  opening : Option M2MSecurity := none
  read : Option M2MSecurity := none
  /-- a server that was asked for was not the one to use -/
  wrong : Bool := false
  /-- an attempt was made on a cache of another server -/
  astray : Bool := false
deriving DecidableEq

namespace Destination

def due (y : Destination) : ServerType → Option M2MSecurity
  | .lwm2mServer => y.lastRegister
  | .bootstrap => y.lastBootstrap

def accept (y : Destination) : ServerType → Option EventData → Destination
  | .lwm2mServer, some (.register security _) =>
    { y with lastRegister := some security, lastAccepted := some .lwm2mServer }
  | .bootstrap, some (.security security) =>
    { y with lastBootstrap := some security, lastAccepted := some .bootstrap }
  | _, _ => y

/-- An attempt without event data is a retry. -/
def note (y : Destination) (type : ServerType) (data : Option EventData) : Destination :=
  { y.accept type data with retrying := data.isNone }

/-- The address, the port and the pointer are those of the server that is due, whose type, in a
retry, is that of the last accepted call. -/
def right (y : Destination) (address : Bytes) (port : UInt16) (type : ServerType)
    (security : Option M2MSecurity) : Bool :=
  match y.due type with
  | none => false
  | some s => security.map (·.pointer) == some s.pointer && s.destination == some (address, port) &&
      (!y.retrying || y.lastAccepted == some type)

def source (y : Destination) : Option (Bytes × UInt16) := y.read.bind (·.destination)

/-- The object an attempt is made with is the one that is due, and the URI that was last read names
the server that the URI of that one names. -/
def aims (y : Destination) (type : ServerType) (security : M2MSecurity) : Bool :=
  match y.due type with
  | none => false
  | some s => security.pointer == s.pointer && s.destination.isSome && s.destination == y.source &&
      (!y.retrying || y.lastAccepted == some type)

def judge (y : Destination) (type : ServerType) (security : M2MSecurity) : Destination :=
  { y with astray := y.astray || !y.aims type security }

/-- An address without a colon is not read. -/
def hear (y : Destination) (security : M2MSecurity) (a : Bytes) : Destination :=
  { y with read := if (findLastOf 0x3A a).isSome then some security else y.read }

/-- A first connection reads the URI of its object, and asks for a server if there is a host. -/
def firstContact (y : Destination) (type : ServerType) (security : M2MSecurity) : Destination :=
  match security.serverAddress with
  | none => y
  | some a =>
    let y := y.hear security a
    if y.source.isSome then y.judge type security else y

/-- An attempt starts; a first registration has its objects created before it goes on. -/
def attempt (y : Destination) (cached : Option M2MSecurity) (type : ServerType)
    (data : Option EventData) : Destination :=
  let y := y.note type data
  match cached with
  | some security => y.judge type security
  | none =>
    match data.bind (·.object) with
    | none => y
    | some security =>
      if security.serverType = type then
        match type with
        | .bootstrap => y.firstContact type security
        | .lwm2mServer => { y with opening := some security }
      else y

def created (y : Destination) (b : Bool) : Destination :=
  match y.opening with
  | none => y
  | some security =>
    let y := { y with opening := none }
    if b then y.firstContact .lwm2mServer security else y

end Destination

def destination : Monitor M2MInterfaceImpl Output Entry Destination
  | .called (.stateFunction .register data), i, y => y.attempt i.security .lwm2mServer data
  | .called (.stateFunction .bootstrap data), i, y => y.attempt i.security .bootstrap data
  | .answered (.createNsdlListStructure _) b, _, y => y.created b
  | .called (.resolveServerAddress address port type security), _, y =>
    { y with wrong := y.wrong || !y.right address port type security }
  | _, _, y => y

section Address

theorem processAddress_of_colon {a : Bytes} (ha : (findLastOf 0x3A a).isSome = true)
    (ip : Bytes) (port : UInt16) : processAddress a ip port = processAddress a [] 0 := by
  obtain ⟨k, hk⟩ := Option.isSome_iff_exists.mp ha
  simp only [processAddress, hk]

theorem processAddress_of_no_colon {a : Bytes} (ha : (findLastOf 0x3A a).isSome = false)
    (ip : Bytes) (port : UInt16) : processAddress a ip port = (ip, port) := by
  rw [Option.isSome_eq_false_iff, Option.isNone_iff_eq_none] at ha
  simp only [processAddress, ha]

theorem usable_isSome (server : Bytes × UInt16) : (usable server).isSome = !server.1.isEmpty := by
  unfold usable
  split_ifs with h <;> simp [h]

theorem usable_eq_some {server d : Bytes × UInt16} :
    usable server = some d ↔ server = d ∧ d.1.isEmpty = false := by
  unfold usable
  split_ifs with h
  · exact ⟨fun hd => (nomatch hd), fun hd => absurd (hd.1 ▸ h) (Bool.eq_false_iff.mp hd.2)⟩
  · exact ⟨fun hd => Option.some.inj hd ▸ ⟨rfl, Bool.eq_false_iff.mpr h⟩,
      fun hd => congrArg some hd.1⟩

theorem M2MSecurity.destination_host {s : M2MSecurity} {d : Bytes × UInt16}
    (h : s.destination = some d) : d.1.isEmpty = false := by
  obtain ⟨a, -, ha⟩ := Option.bind_eq_some_iff.mp h
  exact (usable_eq_some.mp ha).2

end Address

theorem Destination.note_rest (y : Destination) (type : ServerType) (data : Option EventData) :
    (y.note type data).opening = y.opening ∧ (y.note type data).read = y.read ∧
      (y.note type data).wrong = y.wrong ∧ (y.note type data).astray = y.astray := by
  cases type <;> rcases data with _ | event <;>
    first | exact ⟨rfl, rfl, rfl, rfl⟩ | (cases event <;> exact ⟨rfl, rfl, rfl, rfl⟩)

theorem Destination.created_of_closed {y : Destination} (hy : y.opening = none) (b : Bool) :
    y.created b = y := by
  rw [Destination.created, hy]

/-- A first registration goes on when its objects have been created, or not at all. -/
theorem Destination.created_opening {y : Destination} (hy : y.opening = none)
    (security : M2MSecurity) (b : Bool) : { y with opening := some security }.created b =
      if b then y.firstContact .lwm2mServer security else y := by
  obtain ⟨_, _, _, _, _, _, _, _⟩ := y
  subst hy
  rfl

/-- What is cached is what was last read, so that a wrong server is asked for where an attempt is
astray, and there only. -/
structure Bound (t : M2MInterfaceImpl × Destination) : Prop where
  quiet : t.1.eventGenerated = false
  closed : t.2.opening = none
  cached : t.2.source = usable t.1.server
  same : t.2.wrong = t.2.astray

section Bound
variable {noisy : Bool} {t : M2MInterfaceImpl × Destination}

abbrev byBound : Contract M2MInterfaceImpl Output Destination := fun _ _ I => I = Bound

theorem Bound.assign (ht : Bound t) {i : M2MInterfaceImpl}
    (hi : i.eventGenerated = t.1.eventGenerated) (hs : i.server = t.1.server) : Bound (i, t.2) :=
  ⟨hi.trans ht.quiet, ht.closed, ht.cached.trans (congrArg usable hs.symm), ht.same⟩

theorem Bound.startFlowTimer (ht : Bound t) (type : M2MTimerObserver) :
    Bound (t.1.startFlowTimer type, t.2) := ht.assign rfl rfl

theorem Bound.created (ht : Bound t) (b : Bool) : Bound (t.1, t.2.created b) := by
  rw [Destination.created_of_closed ht.closed]
  exact ht

theorem Bound.enter (ht : Bound t) {s : EStates} (hs : s ≠ .register ∧ s ≠ .bootstrap)
    (data : Option EventData) (b : Bool) : Bound (entering destination s data b t) := by
  cases s with
  | register => exact (hs.1 rfl).elim
  | bootstrap => exact (hs.2 rfl).elim
  | _ => exact ⟨rfl, ht.closed, ht.cached, ht.same⟩

theorem bound_lawful : Lawful destination byBound Bound Bound where
  quiet _ ht := ht.quiet
  contract _ _ _ := rfl
  called o t ho ht := by cases o <;> first | exact ht | cases ho
  answered o b t _ ht := by
    cases o with
    | createNsdlListStructure => exact ht.created b
    | _ => exact ht
  refused o t ho ht := by cases o <;> first | exact ht | cases ho
  minor _ _ ht hi hs := ht.assign hi.eventGenerated hs
  enter s b _ hs ht := ht.enter (by cases s <;> simp [EStates.raised] at hs ⊢) none b
  idle b _ ht := ht.enter (s := .idle) (by decide) none b

/-- A cache is right for a call that aims at its server. -/
theorem Bound.right_eq_aims (ht : Bound t) (type : ServerType) (security : M2MSecurity) :
    t.2.right t.1.serverIpAddress t.1.serverPort type (some security) = t.2.aims type security := by
  unfold Destination.right Destination.aims
  cases t.2.due type with
  | none => rfl
  | some s =>
    have hserver : (s.destination == some t.1.server) =
        (s.destination.isSome && s.destination == t.2.source) := by
      rw [ht.cached]
      cases hd : s.destination with
      | none => rfl
      | some d =>
        have husable : usable t.1.server = some d ↔ t.1.server = d := by
          rw [usable_eq_some, M2MSecurity.destination_host hd, eq_self, and_true]
        rw [Option.isSome_some, Bool.true_and, Bool.eq_iff_iff, beq_iff_eq, beq_iff_eq,
          eq_comm (b := usable t.1.server), husable, Option.some_inj, eq_comm]
    simp only [Option.map_some]
    rw [Bool.and_assoc (security.pointer == s.pointer) s.destination.isSome, ← hserver]
    rfl

/-- An attempt that has been judged asks for the server in the cache. -/
theorem Bound.resolve (ht : Bound t) {type : ServerType} {cached : Option M2MSecurity}
    {security : M2MSecurity} (hs : cached = some security)
    {Q : Unit → M2MInterfaceImpl × Destination → Prop} (hQ : ∀ t, Bound t → Q () t) :
    wp (machine noisy) destination byBound (.tell (.resolveServerAddress t.1.serverIpAddress
      t.1.serverPort type cached)) Q (t.1, t.2.judge type security) := by
  subst hs
  refine wp_tell_keep (fun _ => rfl) ⟨ht.quiet, ht.closed, ht.cached, ?_⟩ fun _ t' ht' => hQ t' ht'
  change (t.2.wrong || !t.2.right t.1.serverIpAddress t.1.serverPort type (some security)) =
    (t.2.astray || !t.2.aims type security)
  rw [ht.same, ht.right_eq_aims]

/-- The URI of a first connection takes the place of the one that was read before, in the cache as
in what is known of it. -/
theorem Bound.hear (ht : Bound t) {security : M2MSecurity} {a : Bytes}
    (ha : security.serverAddress = some a) :
    Bound ({ t.1 with
        serverIpAddress := (processAddress a t.1.serverIpAddress t.1.serverPort).1
        serverPort := (processAddress a t.1.serverIpAddress t.1.serverPort).2 },
      t.2.hear security a) := by
  refine ⟨ht.quiet, ht.closed, ?_, ht.same⟩
  change (if (findLastOf 0x3A a).isSome then some security else t.2.read).bind (·.destination) =
    usable (processAddress a t.1.serverIpAddress t.1.serverPort)
  split_ifs with hc
  · rw [Option.bind_some, M2MSecurity.destination, ha, Option.bind_some,
      processAddress_of_colon hc t.1.serverIpAddress]
  · rw [processAddress_of_no_colon (Bool.eq_false_iff.mpr hc)]
    exact ht.cached

theorem Bound.connect (ht : Bound t) {type : ServerType} {flow : M2MTimerObserver}
    {security : M2MSecurity} (hs : t.1.security = some security) :
    wp (machine noisy) destination byBound (connect type flow security) (fun _ => Bound)
      (t.1, t.2.firstContact type security) := by
  unfold Interface.connect Destination.firstContact
  cases ha : security.serverAddress with
  | none => exact ht
  | some a =>
    have hread := ht.hear ha
    simp only [wp_bind, wp_modify, wp_read]
    -- there is a server to judge by if there is one to ask for
    have hsome := (congrArg Option.isSome hread.cached).trans (usable_isSome _)
    split_ifs with hip hsource hsource
    · exact absurd (hsource.symm.trans hsome) (by simpa [M2MInterfaceImpl.server] using hip)
    · exact hread
    · simp only [wp_bind, wp_modify]
      exact (hread.startFlowTimer flow).resolve hs fun _ ht' => ht'
    · rw [Bool.eq_false_iff.mpr hsource] at hsome
      exact (hip ((Bool.not_eq_false' _).mp hsome.symm)).elim

/-- A first registration reads the URI once the objects have been created. -/
theorem Bound.connectCreated (ht : Bound t) {security : M2MSecurity}
    (hs : t.1.security = some security) (objectList : Option M2MObjectList) :
    wp (machine noisy) destination byBound (do
      let created ← Prog.ask (.createNsdlListStructure objectList)
      if created then Interface.connect .lwm2mServer .registrationFlowTimer security
      else pure false)
      (fun _ => Bound) (t.1, { t.2 with opening := some security }) := by
  rw [wp_bind, wp_ask fun _ => rfl]
  intro created
  change wp (machine noisy) destination byBound _ (fun _ => Bound)
    (t.1, { t.2 with opening := some security }.created created)
  rw [Destination.created_opening ht.closed]
  cases created with
  | false => exact ht
  | true => exact ht.connect hs

/-- An attempt has been noted, though not yet judged. -/
theorem Bound.noted (ht : Bound t) (type : ServerType) (data : Option EventData) :
    Bound (t.1, t.2.note type data) := by
  obtain ⟨hopening, hread, hwrong, hastray⟩ := t.2.note_rest type data
  refine ⟨ht.quiet, hopening.trans ht.closed, ?_, hwrong.trans (ht.same.trans hastray.symm)⟩
  rw [Destination.source, hread]
  exact ht.cached

theorem Bound.stateBootstrap (ht : Bound t) (data : Option EventData) :
    wp (machine noisy) destination byBound (stateBootstrap (internalEventAt 3) data)
      (fun _ => Bound) (t.1, t.2.attempt t.1.security .bootstrap data) := by
  have hev : Raises noisy destination byBound Bound Bound (internalEventAt 3) 2 :=
    bound_lawful.orderly.raises 2 (by decide)
  have hnoted := ht.noted .bootstrap data
  unfold Interface.stateBootstrap Destination.attempt
  simp only [wp_bind, wp_modify, wp_read]
  cases hs : t.1.security with
  | none =>
    rw [if_pos Option.isNone_none]
    refine bound_lawful.orderly.giveUp hev ?_
    simp only [ite_self]
    cases data with
    | none => exact hnoted.assign rfl rfl
    | some event =>
      simp only [firstBootstrap, wp_bind, wp_modify, Option.bind_some]
      have hset := hnoted.assign
        (i := { t.1 with bootstrapped := false, security := event.object }) rfl rfl
      cases hobj : event.object with
      | none =>
        rw [hobj] at hset
        exact hset
      | some security =>
        rw [hobj] at hset
        dsimp only
        split_ifs
        · exact hset.connect rfl
        · exact hset
  | some security =>
    simp only [Option.isNone_some, Bool.false_eq_true, if_false]
    simp only [wp_bind, wp_modify]
    rw [wp_tell fun _ => rfl]
    intro _
    rw [wp_tell fun _ => rfl]
    intro _
    have hport := hnoted.assign
      (i := { t.1 with bootstrapped := false, listenPort := 0, security := some security }) rfl rfl
    exact (hport.startFlowTimer .bootstrapFlowTimer).resolve rfl fun _ h => h

theorem Bound.stateRegister (ht : Bound t) (data : Option EventData) :
    wp (machine noisy) destination byBound (stateRegister (internalEventAt 3) data)
      (fun _ => Bound) (t.1, t.2.attempt t.1.security .lwm2mServer data) := by
  have hev : Raises noisy destination byBound Bound Bound (internalEventAt 3) 2 :=
    bound_lawful.orderly.raises 2 (by decide)
  have hnoted := ht.noted .lwm2mServer data
  unfold Interface.stateRegister Destination.attempt
  simp only [wp_bind, wp_read]
  cases hs : t.1.security with
  | none =>
    rw [if_pos Option.isNone_none]
    refine bound_lawful.orderly.giveUp hev ?_
    simp only [ite_self]
    cases data with
    | none => exact hnoted.assign rfl rfl
    | some event =>
      simp only [firstRegister, wp_bind, wp_modify, Option.bind_some]
      have hset := hnoted.assign (i := { t.1 with security := event.object }) rfl rfl
      cases hobj : event.object with
      | none =>
        rw [hobj] at hset
        exact hset
      | some security =>
        rw [hobj] at hset
        dsimp only
        split_ifs
        · exact hset.connectCreated rfl _
        · exact hset
  | some security =>
    simp only [Option.isNone_some, Bool.false_eq_true, if_false]
    have hport := hnoted.assign (i := { t.1 with listenPort := 0 }) rfl rfl
    have hstarted := hport.startFlowTimer .registrationFlowTimer
    simp only [wp_bind, wp_modify]
    rw [wp_tell fun _ => rfl]
    intro _
    cases data with
    | none =>
      simp only [wp_bind, wp_modify]
      rw [wp_tell fun _ => rfl]
      exact fun _ => hstarted.resolve rfl fun _ h => h
    | some event =>
      simp only [wp_bind, wp_modify]
      rw [wp_tell fun _ => rfl]
      intro b
      rw [wp_tell fun _ => rfl]
      intro _
      have hclosed : ((t.2.note .lwm2mServer (some event)).judge .lwm2mServer security).opening =
          none := hnoted.closed
      change wp (machine noisy) destination byBound _ _
        (_, ((t.2.note .lwm2mServer (some event)).judge .lwm2mServer security).created b)
      rw [Destination.created_of_closed hclosed]
      exact hstarted.resolve rfl fun _ h => h

/-- An internal event of any kind. -/
theorem Bound.event {s : EStates} {data : Option EventData} (ht : Bound t) :
    wp (machine noisy) destination byBound (internalEvent s data) (fun _ => Bound) t := by
  apply bound_lawful.orderly.event _ _ fun hs => ht.enter hs data
  · intro hs
    have hentered (s : EStates) : Bound (t.1.enter s, t.2) := ⟨rfl, ht.closed, ht.cached, ht.same⟩
    obtain rfl | rfl := hs
    · exact bound_lawful.orderly.eventAt fun _ => (hentered .register).stateRegister data
    · exact bound_lawful.orderly.eventAt fun _ => (hentered .bootstrap).stateBootstrap data
  · exact fun _ ht' => ht'.assign rfl rfl
  · exact fun _ _ _ _ _ ht' => wp_ask_keep (fun _ => rfl) ht' fun _ _ h => h

theorem bound_steady : Steady noisy destination byBound Bound where
  lawful := bound_lawful
  assign _ _ ht hi _ hs := ht.assign hi hs
  consulted _ _ _ _ ht := ht
  update security lifetime objectList t ht := by
    apply wp_externalEvent
    · exact fun _ _ => ht.assign rfl rfl
    · exact fun _ _ _ => Bound.event ht
  event _ _ _ _ _ _ ht := ht.event

theorem bound_keeps (e : Entry) : Keeps (machine noisy) destination byBound Bound e := by
  intro t ht
  apply bound_steady.codeAll _ _ e ht
  · exact fun _ ht' => ht'.event
  · exact fun _ _ _ ht' => ht'.event

theorem bound_honours : Honours (machine noisy) destination byBound := by
  rintro o b I rfl e -
  exact bound_keeps e

end Bound

end MbedClient.Interface
