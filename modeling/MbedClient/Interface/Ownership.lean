import MbedClient.Interface.Attempt

/-! Which security objects are gone, and whether the interface uses one of them. -/
namespace MbedClient.Interface
open Callback Callback.Prog

/-- The object that the nsdl layer deletes if the message it is handling fails, and those that it
has deleted; whether the interface has used one of these; and whether one was in use when it was
deleted, or was handed over by the application. All are known by their pointers. -/
structure Ownership where
  owned : Option Nat := none
  gone : List Nat := []
  wrong : Bool := false
  unfit : Bool := false
deriving DecidableEq

namespace Ownership

/-- The pointer is that of an object which has been deleted. -/
def dangling (y : Ownership) (security : Option M2MSecurity) : Bool :=
  security.any fun s => decide (s.pointer ∈ y.gone)

theorem dangling_iff {y : Ownership} {security : Option M2MSecurity} :
    y.dangling security = true ↔ ∃ s, security = some s ∧ s.pointer ∈ y.gone := by
  cases security <;> simp [dangling]

/-- `_security` is read, or passed on. -/
def use (y : Ownership) (security : Option M2MSecurity) : Ownership :=
  { y with wrong := y.wrong || y.dangling security }

/-- Without an object in the cache, an attempt takes the one that the event data name. -/
def attempt (y : Ownership) (i : M2MInterfaceImpl) (data : Option EventData) : Ownership :=
  if i.security.isSome then y.use i.security
  else
    { y.use (data.bind (·.object)) with unfit := y.unfit || y.dangling (data.bind (·.object)) }

/-- The object is deleted, right before `bootstrap_error` is called. -/
def delete (y : Ownership) (i : M2MInterfaceImpl) : Ownership :=
  { y with
    owned := none
    gone := y.owned.toList ++ y.gone
    unfit := y.unfit || i.security.any fun s => decide (some s.pointer = y.owned) }

end Ownership

def ownership : Monitor M2MInterfaceImpl Output Entry Ownership
  | .entered .bootstrapError, i, y => y.delete i
  | .entered .dataSent, i, y => if i.currentState = .bootstrapWait then y.use i.security else y
  | .called (.stateFunction .bootstrap data), i, y => y.attempt i data
  | .called (.stateFunction .register data), i, y => y.attempt i data
  | .called (.resolveServerAddress _ _ _ security), _, y => y.use security
  | .called (.bootstrapDone security), _, y => y.use security
  | _, _, y => y

/-- Every use of an object that is gone has an excuse, and so would a use of the one in the cache.
`K` is what is known of the objects that are gone. -/
structure Held (K : Option Nat → List Nat → Prop) (t : M2MInterfaceImpl × Ownership) : Prop where
  quiet : t.1.eventGenerated = false
  excused : t.2.wrong = true → t.2.unfit = true
  cached : t.2.dangling t.1.security = true → t.2.unfit = true
  known : K t.2.owned t.2.gone

section Held
variable {noisy : Bool} {t : M2MInterfaceImpl × Ownership} {K : Option Nat → List Nat → Prop}

abbrev byHeld (K : Option Nat → List Nat → Prop) : Contract M2MInterfaceImpl Output Ownership :=
  fun _ _ I => I = Held K

theorem Held.assign (ht : Held K t) {i : M2MInterfaceImpl}
    (hi : i.eventGenerated = t.1.eventGenerated) (hs : i.security = t.1.security) :
    Held K (i, t.2) := ⟨hi.trans ht.quiet, ht.excused, hs ▸ ht.cached, ht.known⟩

theorem Held.weaken {K' : Option Nat → List Nat → Prop} (ht : Held K t)
    (h : K t.2.owned t.2.gone → K' t.2.owned t.2.gone) : Held K' t :=
  ⟨ht.quiet, ht.excused, ht.cached, h ht.known⟩

theorem Held.use (ht : Held K t) {security : Option M2MSecurity}
    (hs : t.2.dangling security = true → t.2.unfit = true) : Held K (t.1, t.2.use security) :=
  ⟨ht.quiet, fun hw => (Bool.or_eq_true_iff.mp hw).elim ht.excused hs, ht.cached, ht.known⟩

theorem Held.enter (ht : Held K t) {s : EStates} (hs : s ≠ .register ∧ s ≠ .bootstrap)
    (data : Option EventData) (b : Bool) : Held K (entering ownership s data b t) := by
  cases s <;> first
    | exact ⟨rfl, ht.excused, ht.cached, ht.known⟩
    | exact (hs.1 rfl).elim
    | exact (hs.2 rfl).elim

theorem held_orderly (K : Option Nat → List Nat → Prop) :
    Orderly ownership (byHeld K) (Held K) (Held K) where
  quiet _ ht := ht.quiet
  contract _ _ _ := rfl
  called o t ho ht := by cases o <;> first | exact ht | cases ho
  answered _ _ _ _ ht := ht
  refused _ _ _ ht := ht
  minor _ _ ht hi _ hs := ht.assign hi.eventGenerated hs
  enter s b _ hs ht := ht.enter (by cases s <;> simp [EStates.raised] at hs ⊢) none b
  idle b _ ht := ht.enter (s := .idle) (by decide) none b

/-- On the way to the connection handler, where an object of the event data has its excuse if it is
going to be used. -/
structure Fetched (K : Option Nat → List Nat → Prop) (data : Option EventData)
    (t : M2MInterfaceImpl × Ownership) : Prop extends Held K t where
  fetched : t.1.security = none → t.2.dangling (data.bind (·.object)) = true → t.2.unfit = true

theorem Held.attempt (ht : Held K t) {s : EStates} (hs : s = .register ∨ s = .bootstrap)
    (data : Option EventData) (b : Bool) : Fetched K data (entering ownership s data b t) := by
  have hy : entering ownership s data b t = (t.1.enter s, t.2.attempt (t.1.enter s) data) := by
    obtain rfl | rfl := hs <;> rfl
  have he : Held K (t.1.enter s, t.2) := ht.assign (i := t.1.enter s) ht.quiet.symm rfl
  rw [hy]
  cases hc : t.1.security with
  | some security =>
    have hsome : t.2.attempt (t.1.enter s) data = t.2.use t.1.security :=
      if_pos (Option.isSome_iff_exists.mpr ⟨security, hc⟩)
    rw [hsome]
    exact ⟨he.use ht.cached, fun hnone => nomatch hc.symm.trans hnone⟩
  | none =>
    have hnone : t.2.attempt (t.1.enter s) data =
        { t.2.use (data.bind (·.object)) with
          unfit := t.2.unfit || t.2.dangling (data.bind (·.object)) } := by
      refine if_neg ?_
      change ¬ t.1.security.isSome = true
      rw [hc]
      exact Bool.false_ne_true
    rw [hnone]
    refine ⟨⟨rfl, fun hw => ?_, fun hd => ?_, ht.known⟩, fun _ hd => ?_⟩
    · exact Bool.or_eq_true_iff.mpr ((Bool.or_eq_true_iff.mp hw).imp_left ht.excused)
    · exact Bool.or_eq_true_iff.mpr (Or.inl (ht.cached hd))
    · exact Bool.or_eq_true_iff.mpr (Or.inr hd)

theorem fetched_approach (data : Option EventData) :
    Approach noisy ownership (byHeld K) (Held K) (Fetched K data) data where
  minor _ _ ht hi hs := ⟨ht.toHeld.assign hi.eventGenerated hs, fun hn => ht.fetched (hs ▸ hn)⟩
  cached t i e hd ht hn hi hs := by
    have hobject : data.bind (·.object) = i.security := by rw [hd, hs]; rfl
    have hexcuse : t.2.dangling i.security = true → t.2.unfit = true :=
      hobject ▸ ht.fetched hn
    exact ⟨⟨hi.eventGenerated.trans ht.quiet, ht.excused, hexcuse, ht.known⟩,
      fun _ => ht.fetched hn⟩
  preliminary o _ _ ho ht := by cases o <;> first | exact ht | cases ho
  resolve _ _ _ _ ht := wp_tell_keep (I := Held K) (fun _ => rfl) (ht.toHeld.use ht.cached)
    fun _ _ ht' => ht'

/-- An internal event of any kind. -/
theorem Held.event (ht : Held K t) {s : EStates} {data : Option EventData} :
    wp (machine noisy) ownership (byHeld K) (internalEvent s data) (fun _ => Held K) t := by
  have h := held_orderly K
  apply h.event _ _ fun hs => ht.enter hs data
  · intro hs
    obtain rfl | rfl := hs
    · exact Approach.eventRegister h
        (fun b => ⟨fetched_approach data, ht.attempt (Or.inl rfl) data b⟩) fun _ _ ht' => ht'.toHeld
    · exact Approach.eventBootstrap h
        (fun b => ⟨fetched_approach data, ht.attempt (Or.inr rfl) data b⟩) fun _ _ ht' => ht'.toHeld
  · exact fun _ ht' => ht'.assign rfl rfl
  · exact fun _ _ _ _ _ ht' => wp_ask_keep (fun _ => rfl) ht' fun _ _ h => h

theorem held_steadfast (K : Option Nat → List Nat → Prop) :
    Steadfast noisy ownership (byHeld K) (Held K) where
  orderly := held_orderly K
  assign _ _ ht hg _ _ hs := ht.assign hg hs
  registered _ _ ht := wp_tell_keep (fun _ => rfl) ht fun _ _ ht' => ht'
  updated _ _ ht := wp_tell_keep (fun _ => rfl) ht fun _ _ ht' => ht'
  consulted _ _ _ _ ht := ht
  update security lifetime objectList t ht := by
    apply wp_externalEvent
    · exact fun _ _ => ht.assign rfl rfl
    · exact fun _ _ _ => Held.event ht
  event _ _ _ _ _ _ ht := ht.event

theorem Held.bootstrapDone (ht : Held K t) {security : Option M2MSecurity}
    (hs : t.2.dangling security = true → t.2.unfit = true) :
    wp (machine noisy) ownership (byHeld K) (bootstrapDone security) (fun _ => Held K) t := by
  rw [Interface.bootstrapDone]
  simp only [wp_bind, wp_modify]
  refine (wp_internalEventAt 3 .bootstrapped none).mpr fun b => ⟨rfl, ?_⟩
  refine wp_tell_keep (fun _ => rfl) ?_ fun _ _ ht' => ht'
  have hdone : Held K (t.1.enter .bootstrapped, t.2) := ht.assign ht.quiet.symm rfl
  exact (hdone.use hs).assign rfl rfl

/-- At the end of a bootstrap the object in the cache is passed on. -/
theorem Held.dataSent (ht : Held K t) :
    wp (machine noisy) ownership (byHeld K) dataSent (fun _ => Held K) t := by
  refine wp_dataSent (fun _ timer => ?_) fun _ timer => ?_
  · have hnone : Held K ({ t.1 with queueSleepTimer := timer, security := none }, t.2) :=
      ⟨ht.quiet, ht.excused, nofun, ht.known⟩
    exact hnone.bootstrapDone ht.cached
  · have hi : Held K ({ t.1 with queueSleepTimer := timer }, t.2) := ht.assign rfl rfl
    exact hi.event

/-- Callbacks that only the messages of a bootstrap lead to. -/
def Entry.bootstraps : Entry → Bool
  | .bootstrapWait _ | .bootstrapError | .bootstrapDone _ => true
  | _ => false

/-- What may be called while `K` is what is known: an object that is handed over is not gone, and a
deletion leaves `K` true. -/
def Entry.admissible (K : Option Nat → List Nat → Prop) : Entry → Prop
  | .bootstrapError => ∀ owned gone, K owned gone → K none (owned.toList ++ gone)
  | .bootstrapWait security => ∀ owned gone, K owned gone → ∀ s, security = some s →
    s.pointer ∉ gone
  | .bootstrapDone _ => False
  | _ => True

theorem Entry.admissible_of_not_bootstraps {e : Entry} (h : e.bootstraps = false) :
    e.admissible K := by
  cases e <;> trivial

theorem Held.delete (ht : Held K t) (hK : Entry.bootstrapError.admissible K) :
    Held K (ownership.see (.entered .bootstrapError) t) := by
  refine ⟨ht.quiet, fun hw => Bool.or_eq_true_iff.mpr (Or.inl (ht.excused hw)), fun hd => ?_,
    hK _ _ ht.known⟩
  obtain ⟨s, hs, hmem⟩ := Ownership.dangling_iff.mp hd
  have hsec : t.1.security = some s := hs
  obtain howned | hgone := List.mem_append.mp hmem
  · refine Bool.or_eq_true_iff.mpr (Or.inr ?_)
    rw [hsec, Option.any_some]
    exact decide_eq_true (Option.mem_toList.mp howned).symm
  · exact Bool.or_eq_true_iff.mpr (Or.inl (ht.cached (Ownership.dangling_iff.mpr ⟨s, hsec, hgone⟩)))

theorem held_keeps {e : Entry} (he : e.admissible K) :
    Keeps (machine noisy) ownership (byHeld K) (Held K) e := by
  intro t ht
  change wp (machine noisy) ownership (byHeld K) (code e) (fun _ => Held K)
    (ownership.see (.entered e) t)
  have hsteadfast : Steadfast noisy ownership (byHeld K) (Held K) := held_steadfast K
  cases e with
  | bootstrapError => exact hsteadfast.code rfl rfl (ht.delete he)
  | bootstrapWait security =>
    have hset : Held K ({ t.1 with security := security }, t.2) := by
      refine ⟨ht.quiet, ht.excused, fun hd => ?_, ht.known⟩
      obtain ⟨s, hs, hmem⟩ := Ownership.dangling_iff.mp hd
      exact (he _ _ ht.known s hs hmem).elim
    exact hset.event
  | bootstrapDone security => exact he.elim
  | dataAvailable data address => exact ht.event
  | dataSent =>
    refine Held.dataSent ?_
    change Held K (t.1, if t.1.currentState = .bootstrapWait then t.2.use t.1.security else t.2)
    split_ifs
    · exact ht.use ht.cached
    · exact ht
  | _ => exact hsteadfast.code rfl rfl ht

end Held

/-- The interface, where the nsdl layer calls back as `allowed` says while it handles a message. -/
def machineWith (noisy : Bool) (allowed : Entry → Bool) :
    Machine M2MInterfaceImpl Output Entry where
  code := code
  admits
    | .processReceivedData _ _ _ _, _, e => allowed e
    | o, b, e => admits noisy o b e
  reenters := reenters noisy
  reenters_of_admits o b e h := by
    cases o <;> first | rfl | exact reenters_of_admits h

theorem held_honours {noisy : Bool} {K : Option Nat → List Nat → Prop} {allowed : Entry → Bool}
    (h : ∀ e, allowed e = true → e.admissible K) :
    Honours (machineWith noisy allowed) ownership (byHeld K) := by
  rintro o b I rfl e hadm
  refine Keeps.congr (M := machine noisy) (held_keeps ?_) rfl rfl
  cases o <;> first
    | exact h e hadm
    | (cases e <;> trivial)

end MbedClient.Interface
