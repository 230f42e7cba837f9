import MbedClient.Interface.Steady

/-! `bootstrap_wait`, and the `data_sent` that is to complete the bootstrap. -/
namespace MbedClient.Interface
open Callback Callback.Prog

/-- Entry points that end the wait for a completion: bootstrap errors and socket errors, whoever
reports them. -/
def Entry.fails : Entry → Bool
  | .bootstrapError | .socketError _ _ | .registrationError _ true
  | .timerExpired .bootstrapFlowTimer | .timerExpired .registrationFlowTimer => true
  | _ => false

/-- Entry points that take the machine to another state than that it waits in. -/
def Entry.moves : Entry → Bool
  | .coapMessageReady _ | .clientRegistered | .registrationUpdated | .registrationError _ false
  | .clientUnregistered | .bootstrapDone _ | .coapDataProcessed | .dataAvailable _ _
  | .addressReady _ _ _ | .timerExpired .retryTimer => true
  | _ => false

/-- The security object whose bootstrap awaits its completion, and whether something has come
between; what the `data_sent` that is being handled has to report; whether such a report has been
left out; and whether a `data_sent` has come late. -/
structure Completion where
  awaited : Option (Option M2MSecurity) := none
  moved : Bool := false
  due : Option (Option M2MSecurity) := none
  lost : Bool := false
  late : Bool := false
deriving DecidableEq

namespace Completion

def enter (y : Completion) (e : Entry) : Completion :=
  match e with
  | .dataSent =>
    { y with awaited := none, due := y.awaited, late := y.late || (y.awaited.isSome && y.moved) }
  | .bootstrapWait _ => { y with awaited := none }
  | e => if e.fails then { y with awaited := none } else { y with moved := y.moved || e.moves }

def leave (y : Completion) (e : Entry) : Completion :=
  match e with
  | .dataSent => { y with due := none, lost := y.lost || y.due.isSome }
  | .bootstrapWait security => { y with awaited := some security, moved := false }
  | e => if e.fails then { y with awaited := none } else y

theorem enter_of_ne {e : Entry} (hs : e ≠ .dataSent) (hw : ∀ security, e ≠ .bootstrapWait security)
    (y : Completion) : y.enter e =
      if e.fails then { y with awaited := none } else { y with moved := y.moved || e.moves } := by
  cases e <;> first | rfl | exact (hs rfl).elim | exact (hw _ rfl).elim

theorem leave_of_ne {e : Entry} (hs : e ≠ .dataSent) (hw : ∀ security, e ≠ .bootstrapWait security)
    (y : Completion) : y.leave e = if e.fails then { y with awaited := none } else y := by
  cases e <;> first | rfl | exact (hs rfl).elim | exact (hw _ rfl).elim

end Completion

def completion : Monitor M2MInterfaceImpl Output Entry Completion
  | .entered e, _, y => y.enter e
  | .called (.bootstrapDone security), _, y =>
    { y with due := if y.due = some security then none else y.due }
  | .answered (.sendData _) false, _, y => { y with awaited := none }
  | .left e, _, y => y.leave e
  | _, _, y => y

structure Accounted (t : M2MInterfaceImpl × Completion) : Prop where
  quiet : t.1.eventGenerated = false
  lost : t.2.lost = true → t.2.late = true
  due : t.2.due.isSome = true → t.2.late = true

/-- As long as nothing has come between, the machine is where `data_sent` expects it. -/
structure Waiting (t : M2MInterfaceImpl × Completion) : Prop extends Accounted t where
  waits : ∀ security, t.2.awaited = some security → t.2.moved = false →
    t.1.currentState = .bootstrapWait ∧ t.1.security = security

/-- Nothing is awaited, or something has come between. -/
structure Settled (t : M2MInterfaceImpl × Completion) : Prop extends Accounted t where
  settled : t.2.awaited.isSome = true → t.2.moved = true

section Completion
variable {noisy : Bool} {t : M2MInterfaceImpl × Completion}

/-- Only what has been received leads to a new wait. -/
abbrev byWaiting : Contract M2MInterfaceImpl Output Completion
  | .processReceivedData _ _ _ _, _, I => I = Waiting
  | _, _, I => I = Waiting ∨ I = Settled

theorem Settled.waiting (ht : Settled t) : Waiting t :=
  ⟨ht.toAccounted, fun security ha hm => by
    have := ht.settled (by rw [ha]; rfl)
    rw [hm] at this
    cases this⟩

theorem Accounted.assign (ht : Accounted t) {i : M2MInterfaceImpl}
    (hi : i.eventGenerated = t.1.eventGenerated) : Accounted (i, t.2) :=
  ⟨hi.trans ht.quiet, ht.lost, ht.due⟩

theorem Settled.assign (ht : Settled t) {i : M2MInterfaceImpl}
    (hi : i.eventGenerated = t.1.eventGenerated) : Settled (i, t.2) :=
  ⟨ht.toAccounted.assign hi, ht.settled⟩

theorem Waiting.assign (ht : Waiting t) {i : M2MInterfaceImpl}
    (hi : i.eventGenerated = t.1.eventGenerated) (hs : i.currentState = t.1.currentState)
    (hsec : i.security = t.1.security) : Waiting (i, t.2) :=
  ⟨ht.toAccounted.assign hi, fun security ha hm =>
    (ht.waits security ha hm).imp hs.trans hsec.trans⟩

theorem Accounted.called (ht : Accounted t) (o : Output) :
    Accounted (completion.see (.called o) t) := by
  cases o with
  | bootstrapDone security =>
    refine ⟨ht.quiet, ht.lost, fun hd => ht.due ?_⟩
    change (if t.2.due = some security then none else t.2.due).isSome = true at hd
    split_ifs at hd
    · cases hd
    · exact hd
  | _ => exact ht

theorem Accounted.answered (ht : Accounted t) (o : Output) (b : Bool) :
    Accounted (completion.see (.answered o b) t) := by
  cases o with
  | sendData data => cases b <;> exact ⟨ht.quiet, ht.lost, ht.due⟩
  | _ => exact ht

theorem Settled.called (ht : Settled t) (o : Output) : Settled (completion.see (.called o) t) := by
  refine ⟨ht.toAccounted.called o, ?_⟩
  cases o <;> exact ht.settled

theorem Settled.answered (ht : Settled t) (o : Output) (b : Bool) :
    Settled (completion.see (.answered o b) t) := by
  refine ⟨ht.toAccounted.answered o b, ?_⟩
  cases o with
  | sendData data => cases b <;> first | exact ht.settled | exact nofun
  | _ => exact ht.settled

theorem Waiting.called (ht : Waiting t) (o : Output) : Waiting (completion.see (.called o) t) := by
  refine ⟨ht.toAccounted.called o, ?_⟩
  cases o <;> exact ht.waits

theorem Waiting.answered (ht : Waiting t) (o : Output) (b : Bool) :
    Waiting (completion.see (.answered o b) t) := by
  refine ⟨ht.toAccounted.answered o b, ?_⟩
  cases o with
  | sendData data => cases b <;> first | exact ht.waits | exact nofun
  | _ => exact ht.waits

theorem Settled.enterState (ht : Settled t) (s : EStates) (data : Option EventData) (b : Bool) :
    Settled (entering completion s data b t) := ⟨⟨rfl, ht.lost, ht.due⟩, ht.settled⟩

theorem settled_lawful : Lawful completion byWaiting Settled Settled where
  quiet _ ht := ht.quiet
  contract o _ ho := by cases o <;> first | exact Or.inr rfl | cases ho
  called o _ _ ht := ht.called o
  answered o b _ _ ht := ht.answered o b
  refused o _ _ ht := ht.answered o false
  minor _ _ ht hi _ := ht.assign hi.eventGenerated
  enter s b _ _ ht := ht.enterState s none b
  idle b _ ht := ht.enterState .idle none b

theorem settled_connects : Connects completion byWaiting Settled Settled where
  weaken _ ht := ht
  minor _ _ ht hi := ht.assign hi.eventGenerated
  created _ _ _ ht := ht
  contract _ _ _ _ _ := Or.inr rfl
  called _ _ _ _ _ ht := ht
  answered _ _ _ _ _ _ ht := ht

theorem Settled.event {s : EStates} {data : Option EventData} (hs : s ≠ .coapDataReceived)
    (ht : Settled t) :
    wp (machine noisy) completion byWaiting (internalEvent s data) (fun _ => Settled) t := by
  have he := fun b => ht.enterState s data b
  by_cases ho : s.ordinary = true
  · exact settled_lawful.orderly.eventOrdinary ho he
  cases s with
  | bootstrap => exact settled_lawful.orderly.eventBootstrap settled_connects he fun _ => he
  | register => exact settled_lawful.orderly.eventRegister settled_connects he fun _ => he
  | registered => exact settled_lawful.orderly.eventAt fun b => (he b).assign rfl
  | unregistered =>
    exact settled_lawful.orderly.eventAt fun b =>
      (settled_lawful.orderly.raises 2 (by decide)).idle _ (by decide) (he b)
  | coapDataReceived => exact (hs rfl).elim
  | _ => exact (ho rfl).elim

theorem settled_steady : Steady noisy completion byWaiting Settled where
  lawful := settled_lawful
  assign _ _ ht hi _ _ := ht.assign hi
  consulted _ _ _ _ ht := ht
  update security lifetime objectList t ht := by
    apply wp_externalEvent
    · exact fun _ _ => ht.assign rfl
    · intro s hs _
      refine Settled.event ?_ ht
      rintro rfl
      exact absurd (transition_target hs) (by decide)
  event _ _ _ _ hr _ ht := ht.event hr

/-- Events that end the wait, or come between, leave nothing to be awaited for sure. -/
theorem Waiting.settles (ht : Waiting t) {e : Entry} (he : e.fails = true ∨ e.moves = true) :
    Settled (completion.see (.entered e) t) := by
  have hs : e ≠ .dataSent := by rintro rfl; cases he <;> contradiction
  have hw :
    ∀ security, e ≠ .bootstrapWait security := by rintro security rfl; cases he <;> contradiction
  have hy : (completion.see (.entered e) t).2 = _ := Completion.enter_of_ne hs hw t.2
  cases hf : e.fails with
  | true =>
    rw [hf, if_pos rfl] at hy
    exact ⟨⟨ht.quiet, by rw [hy]; exact ht.lost, by rw [hy]; exact ht.due⟩, by rw [hy]; exact nofun⟩
  | false =>
    rw [hf] at he
    rw [hf, if_neg Bool.false_ne_true, he.resolve_left Bool.false_ne_true, Bool.or_true] at hy
    exact ⟨⟨ht.quiet, by rw [hy]; exact ht.lost, by rw [hy]; exact ht.due⟩, by
      rw [hy]
      exact fun _ => rfl⟩

theorem Settled.entered (ht : Settled t) {e : Entry}
    (hw : ∀ security, e ≠ .bootstrapWait security) :
    Settled (completion.see (.entered e) t) := by
  by_cases hs : e = .dataSent
  · subst hs
    refine ⟨⟨ht.quiet, fun hl => ?_, fun hd => ?_⟩, nofun⟩
    · exact Bool.or_eq_true_iff.mpr (Or.inl (ht.lost hl))
    · exact Bool.or_eq_true_iff.mpr (Or.inr (Bool.and_eq_true_iff.mpr ⟨hd, ht.settled hd⟩))
  · have hy : (completion.see (.entered e) t).2 = _ := Completion.enter_of_ne hs hw t.2
    split_ifs at hy
    · exact ⟨⟨ht.quiet, by rw [hy]; exact ht.lost, by rw [hy]; exact ht.due⟩,
        by rw [hy]; exact nofun⟩
    · refine ⟨⟨ht.quiet, by rw [hy]; exact ht.lost, by rw [hy]; exact ht.due⟩, ?_⟩
      rw [hy]
      exact fun ha => Bool.or_eq_true_iff.mpr (Or.inl (ht.settled ha))

theorem Settled.left (ht : Settled t) {e : Entry} (hw : ∀ security, e ≠ .bootstrapWait security) :
    Settled (completion.see (.left e) t) := by
  by_cases hs : e = .dataSent
  · subst hs
    refine ⟨⟨ht.quiet, fun hl => ?_, nofun⟩, ht.settled⟩
    exact (Bool.or_eq_true_iff.mp hl).elim ht.lost ht.due
  · have hy : (completion.see (.left e) t).2 = _ := Completion.leave_of_ne hs hw t.2
    split_ifs at hy
    · exact ⟨⟨ht.quiet, by rw [hy]; exact ht.lost, by rw [hy]; exact ht.due⟩,
        by rw [hy]; exact nofun⟩
    · exact ⟨⟨ht.quiet, by rw [hy]; exact ht.lost, by rw [hy]; exact ht.due⟩, by
        rw [hy]
        exact ht.settled⟩

theorem settled_keeps {e : Entry} (he : e.special = false) :
    Keeps (machine noisy) completion byWaiting Settled e := by
  have hw : ∀ security, e ≠ .bootstrapWait security := by
    rintro security rfl
    cases he
  exact fun t ht => wp_mono (fun _ t' ht' => ht'.left hw) (settled_steady.code he (ht.entered hw))

/-- Either nothing depends on the state of the machine, or it is where `data_sent` expects it. -/
theorem Waiting.cases (ht : Waiting t) : Settled t ∨ ∃ security, t.2.awaited = some security ∧
    t.2.moved = false ∧ t.1.currentState = .bootstrapWait ∧ t.1.security = security := by
  cases ha : t.2.awaited with
  | none => exact Or.inl ⟨ht.toAccounted, by rw [ha]; exact nofun⟩
  | some security =>
    cases hm : t.2.moved with
    | true => exact Or.inl ⟨ht.toAccounted, fun _ => hm⟩
    | false => exact Or.inr ⟨security, rfl, rfl, ht.waits security ha hm⟩

theorem transition_bootstrapWait (operation : Operation) :
    transition operation .bootstrapWait = none := by cases operation <;> rfl

theorem waiting_calm : Calm noisy completion byWaiting Waiting where
  tell o t ho ht := wp_tell_keep (fun _ => by cases o <;> first | exact Or.inl rfl | cases ho)
    (ht.called o) fun b t' ht' => ht'.answered o b
  assign _ _ ht hi _ hsec := ht.assign hi.eventGenerated hi.currentState hsec
  external operation data t hdata ht := by
    cases ht.cases with
    | inl hset =>
      exact wp_mono (fun _ t' ht' => ht'.waiting)
        (settled_steady.steadfast.externalEvent hdata hset)
    | inr hwait =>
      -- the call is ignored in the state that is waited in
      obtain ⟨security, -, -, hs, -⟩ := hwait
      apply wp_externalEvent
      · exact fun _ _ => ht.assign rfl rfl rfl
      · intro s htaken
        rw [hs, transition_bootstrapWait] at htaken
        cases htaken

/-- A call that is neither here nor there. -/
theorem Waiting.entered (ht : Waiting t) {e : Entry} (hs : e ≠ .dataSent)
    (hw : ∀ security, e ≠ .bootstrapWait security) (hf : e.fails = false) (hm : e.moves = false) :
    Waiting (completion.see (.entered e) t) := by
  have hy : completion.see (.entered e) t = t := by
    refine Prod.ext rfl ((Completion.enter_of_ne hs hw t.2).trans ?_)
    rw [hf, hm, Bool.or_false, if_neg Bool.false_ne_true]
  exact hy.symm ▸ ht

theorem waiting_bootstrapWait (security : Option M2MSecurity) :
    Keeps (machine noisy) completion byWaiting Waiting (.bootstrapWait security) := by
  intro t ht
  change wp (machine noisy) completion byWaiting (bootstrapWait security) _ _
  rw [bootstrapWait, wp_bind, wp_modify]
  refine (wp_internalEventAt 3 .bootstrapWait none).mpr fun b => ⟨rfl, ⟨rfl, ht.lost, ht.due⟩, ?_⟩
  rintro _ ⟨⟩ -
  exact ⟨rfl, rfl⟩

/-- The completion is reported before anything can call back. -/
theorem waiting_bootstrapDone {security : Option M2MSecurity} {i : M2MInterfaceImpl}
    {y : Completion} (hd : y.due = some security) (ha : y.awaited = none)
    (hl : y.lost = true → y.late = true) :
    wp (machine noisy) completion byWaiting (bootstrapDone security)
      (fun _ t' => Settled (completion.see (.left .dataSent) t')) (i, y) := by
  rw [bootstrapDone]
  simp only [wp_bind, wp_modify]
  refine (wp_internalEventAt 3 .bootstrapped none).mpr fun b => ⟨rfl, ?_⟩
  refine wp_tell_keep (I := Settled) (fun _ => Or.inr rfl) ⟨⟨rfl, hl, ?_⟩, ?_⟩
    fun b t' ht' => (ht'.answered _ b).left nofun
  · change (if y.due = some security then none else y.due).isSome = true → _
    rw [if_pos hd]
    exact nofun
  · change y.awaited.isSome = true → _
    rw [ha]
    exact nofun

theorem waiting_dataSent : Keeps (machine noisy) completion byWaiting Waiting .dataSent := by
  intro t ht
  cases ht.cases with
  | inl hset =>
    exact wp_mono (fun _ t' ht' => ht'.waiting) (settled_keeps (e := .dataSent) rfl t hset)
  | inr hwait =>
    obtain ⟨security, ha, hm, hs, hsec⟩ := hwait
    refine wp_dataSent (fun _ timer => ?_) fun hne => absurd hs hne
    refine wp_mono (fun _ t' ht' => ht'.waiting)
      (waiting_bootstrapDone (ha.trans (congrArg some hsec.symm)) rfl fun hl => ?_)
    exact Bool.or_eq_true_iff.mpr (Or.inl (ht.lost hl))

theorem waiting_dataAvailable (data : Bytes) (address : SocketAddress) :
    Keeps (machine noisy) completion byWaiting Waiting (.dataAvailable data address) := by
  intro t ht
  have hset := ht.settles (e := .dataAvailable data address) (Or.inr rfl)
  refine settled_lawful.orderly.eventReceived (J := Waiting) (hset.enterState .coapDataReceived _)
    (fun _ h => h.waiting) (fun _ h => h.quiet) fun bytes type port address t' ht' => ?_
  rw [wp_bind]
  refine wp_ask_keep (fun _ => rfl) ht'.waiting fun b t'' ht'' =>
    wp_whenM.mpr ⟨fun _ => ?_, fun _ => ht''⟩
  exact waiting_calm.tell _ t'' rfl ht''

theorem waiting_timerExpired {type : M2MTimerObserver}
    (hend : (Entry.timerExpired type).fails = false ∧ (Entry.timerExpired type).moves = false)
    (ht : Waiting t) :
    wp (machine noisy) completion byWaiting (timerExpired type) (fun _ => Waiting) t := by
  unfold timerExpired
  rw [wp_bind, wp_modify]
  have hi : Waiting (t.1.ranOut type, t.2) := by
    cases type <;> exact ht.assign rfl rfl rfl
  cases type with
  | queueSleep =>
    rw [wp_bind, wp_read, wp_whenM]
    exact ⟨fun _ => waiting_calm.tell _ _ rfl hi, fun _ => hi⟩
  | retryTimer => exact nomatch (show true = false from hend.2)
  | bootstrapFlowTimer => exact nomatch (show true = false from hend.1)
  | registrationFlowTimer => exact nomatch (show true = false from hend.1)
  | _ => exact hi

theorem waiting_keeps (e : Entry) : Keeps (machine noisy) completion byWaiting Waiting e := by
  by_cases hspecial : e.special = true
  · cases e with
    | bootstrapWait security => exact waiting_bootstrapWait security
    | dataAvailable data address => exact waiting_dataAvailable data address
    | _ => cases hspecial
  rw [Bool.not_eq_true] at hspecial
  have hw : ∀ security, e ≠ .bootstrapWait security := by
    rintro security rfl
    cases hspecial
  by_cases hend : e.fails = true ∨ e.moves = true
  · exact fun t ht => wp_mono (fun _ t' ht' => (ht'.left hw).waiting)
      (settled_steady.code hspecial (ht.settles hend))
  rw [not_or, Bool.not_eq_true, Bool.not_eq_true] at hend
  by_cases hs : e = .dataSent
  · exact hs ▸ waiting_dataSent
  intro t ht
  have hent := ht.entered hs hw hend.1 hend.2
  refine wp_mono (Q := fun _ => Waiting) (fun _ t' ht' => ?_) ?_
  · have hy : completion.see (.left e) t' = t' := by
      refine Prod.ext rfl ((Completion.leave_of_ne hs hw t'.2).trans ?_)
      rw [hend.1, if_neg Bool.false_ne_true]
    exact hy.symm ▸ ht'
  cases e with
  | bootstrap security => exact waiting_calm.bootstrap security hent
  | registerObject security objectList => exact waiting_calm.registerObject security objectList hent
  | updateRegistration security objectList lifetime =>
    exact waiting_calm.updateRegistration security objectList lifetime hent
  | unregisterObject => exact waiting_calm.unregisterObject hent
  | setQueueSleepHandler handler => exact hent.assign rfl rfl rfl
  | valueUpdated base => exact waiting_calm.valueUpdated base hent
  | timerExpired type => exact waiting_timerExpired hend hent
  | dataSent => exact (hs rfl).elim
  | registrationError code retry =>
    cases retry with
    | true => exact nomatch (show true = false from hend.1)
    | false => exact nomatch (show true = false from hend.2)
  | _ => first
    | exact nomatch (show true = false from hend.1)
    | exact nomatch (show true = false from hend.2)
    | exact nomatch (show true = false from hspecial)

theorem waiting_honours : Honours (machine noisy) completion byWaiting := by
  intro o b I hI e hadm
  have hcase : I = Waiting ∨ I = Settled ∧ e.special = false := by
    cases o <;> first
      | exact Or.inl hI
      | exact hI.imp_right fun h => ⟨h, by cases e <;> first | rfl | cases hadm⟩
  cases hcase with
  | inl h => exact h ▸ waiting_keeps e
  | inr h => exact h.1 ▸ settled_keeps h.2

end Completion

/-- In every run, as long as no `data_sent` has come after something else had moved the state
machine on, each bootstrap that awaited its completion has been reported as done. -/
theorem completion_reported (noisy : Bool) (config : Config) (endpointName domain : Bytes)
    (bindingMode : BindingMode) (listenPort : UInt16) (l : List (Script Entry)) :
    let t := run (machine noisy) completion l
      (M2MInterfaceImpl.create config endpointName domain bindingMode listenPort, {})
    t.2.late = false → t.2.lost = false := by
  intro t hl
  have ht : Waiting t := waiting_honours.run waiting_keeps l ⟨⟨rfl, nofun, nofun⟩, nofun⟩
  exact Bool.eq_false_iff.mpr fun h => Bool.false_ne_true (hl.symm.trans (ht.lost h))

/-- A bootstrap that is completed at once, and calls of the application in between. -/
theorem completion_reported_at_once :
    let server : M2MSecurity := ⟨1, .bootstrap, [], noSecurity⟩
    let t := run (machine false) completion
      [.mk (.bootstrapWait (some server)) [], .mk (.updateRegistration none [] 0) [],
        .mk .dataSent []]
      (M2MInterfaceImpl.create {} [] [] .udp 0, {})
    t.2.lost = false :=
  completion_reported false {} [] [] .udp 0
    [.mk (.bootstrapWait (some ⟨1, .bootstrap, [], noSecurity⟩)) [],
      .mk (.updateRegistration none [] 0) [], .mk .dataSent []]
    (by decide +kernel)

/-- A message that is sent, with success, before the acknowledgement has been. -/
theorem completion_lost :
    let server : M2MSecurity := ⟨1, .bootstrap, [], noSecurity⟩
    let yes : Reply Entry := .mk true []
    let t := run (machine false) completion
      [.mk (.bootstrapWait (some server)) [yes], .mk (.coapMessageReady []) [yes, yes, yes],
        .mk .dataSent []]
      (M2MInterfaceImpl.create {} [] [] .udp 0, {})
    t.1.currentState = .waiting ∧ t.2.lost = true := by
  decide +kernel

end MbedClient.Interface
