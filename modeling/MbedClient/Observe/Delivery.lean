import MbedClient.Observe.Steps

/-! Whether the observation handler hears of the entities of an object. The end of one observation
takes the handler from all of them. -/
namespace MbedClient.Observe
open Report (CFloat)

namespace Client
variable {F : Type*} [CFloat F]

/-- A notification of an entity that is observed, and the deletion of one that is published, reach
the observation handler. -/
structure Heard (m : Client F) (e : Entity) : Prop where
  notification : m.isUnderObservation e = true → ∀ ids number sendObject,
    (m.observationToBeSent e ids number sendObject).log =
      m.log ++ [.observationToBeSent e ids number sendObject]
  deletion : m.published e = true → (m.freeResources e).log = m.log ++ [.resourceToBeDeleted e]

def Handled (m : Client F) : Prop := ∀ e,
  m.isUnderObservation e = true ∨ m.published e = true → m.observationHandler e.objectIndex = true

theorem heard_iff (m : Client F) : (∀ e, Heard m e) ↔ Handled m := by
  constructor
  · rintro h e (hu | hp)
    · by_contra hn
      simpa [observationToBeSent, hn] using (h e).notification hu Report.ChangedIds.empty 0 false
    · by_contra hn
      simpa [freeResources, hn] using (h e).deletion hp
  · intro h e
    refine ⟨fun hu ids number sendObject => ?_, fun hp => ?_⟩
    · rw [observationToBeSent, if_pos (h e (Or.inl hu))]
      rfl
    · rw [freeResources, if_pos (h e (Or.inr hp))]
      rfl

/-- The request ends the observation of the entity it finds. -/
def Cancels (m : Client F) (t : ObjectList) (request : GetRequest) (e : Entity) : Prop :=
  m.findResource t request.uriPath none = some e ∧ t.accepts e request = true ∧
    request.observe.toUInt32.toUInt8 = stopObservation

/-- An observation is only ended while nothing of its object is published and nothing else of it
is observed. -/
def CancelsAlone (t : ObjectList) (ev : Event) (m : Client F) : Prop :=
  ∀ request e, ev = .get request → m.Cancels t request e → ∀ b, b.objectIndex = e.objectIndex →
    m.published b = false ∧ (b ≠ e → m.isUnderObservation b = false)

namespace Handled
variable {m m' : Client F} (t : ObjectList)

theorem minor (hm : Handled m) (h : Minor m m') : Handled m' := by
  rintro e (hu | hp)
  · rw [isUnderObservation_eq, h.standing, ← isUnderObservation_eq] at hu
    exact h.observationHandler _ (hm e (Or.inl hu))
  · exact (h.published e hp).elim (fun hp => h.observationHandler _ (hm e (Or.inr hp))) id

/-- Where the handler of one object is set and no other entity becomes observed or published. -/
theorem of_set {e : Entity} (hm : Handled m)
    (ho : m'.observationHandler = Function.update m.observationHandler e.objectIndex true)
    (hu : ∀ b, b ≠ e → m'.isUnderObservation b = true → m.isUnderObservation b = true)
    (hp : m'.published = m.published) : Handled m' := by
  intro b hb
  rw [ho]
  by_cases hbe : b.objectIndex = e.objectIndex
  · simp [hbe]
  · have hne : b ≠ e := fun h => hbe (h ▸ rfl)
    rw [Function.update_of_ne hbe]
    exact hm b (hb.imp (hu b hne) (by rw [hp]; exact id))

end Handled

theorem startAt_isUnderObservation (m : Client F) (t : ObjectList) {e b : Entity} (hb : b ≠ e) :
    (m.startAt t e).isUnderObservation b = m.isUnderObservation b := by
  rw [isUnderObservation_eq, isUnderObservation_eq]
  rcases m.startAt_other t hb with h | h <;> rw [h]
  cases m.standing b <;> rfl

theorem stopAt_isUnderObservation (m : Client F) (t : ObjectList) {e b : Entity} (hb : b ≠ e) :
    (m.stopAt t e).isUnderObservation b = m.isUnderObservation b := by
  rw [isUnderObservation_eq, isUnderObservation_eq]
  rcases m.stopAt_other t hb with h | ⟨-, h⟩ <;> rw [h]
  cases m.standing b <;> rfl

theorem resetAt_isUnderObservation (m : Client F) (t : ObjectList) {e b : Entity} (hb : b ≠ e) :
    (m.resetAt t e).isUnderObservation b = m.isUnderObservation b := by
  rw [isUnderObservation_eq, isUnderObservation_eq]
  rcases m.resetAt_other t hb with h | ⟨-, h⟩ <;> rw [h]
  cases m.standing b <;> rfl

theorem withToken_isUnderObservation (m : Client F) (e b : Entity) (request : GetRequest) :
    (m.withToken e request).isUnderObservation b = m.isUnderObservation b := by
  unfold withToken
  split
  · rfl
  · rw [isUnderObservation_eq, isUnderObservation_eq, setObservationToken_standing]
    by_cases hb : b = e
    · subst hb
      rw [Function.update_self]
      cases m.standing b <;> rfl
    · rw [Function.update_of_ne hb]

theorem withToken_observationHandler (m : Client F) (e : Entity) (request : GetRequest) :
    (m.withToken e request).observationHandler = m.observationHandler := by
  unfold withToken
  split <;> rfl

theorem withToken_published (m : Client F) (e : Entity) (request : GetRequest) :
    (m.withToken e request).published = m.published := by
  unfold withToken
  split <;> rfl

section Run
variable {t : ObjectList} {atof : Bytes → F} {ev : Event} {m : Client F}

theorem Handled.get (hm : Handled m) {request : GetRequest}
    (hok : CancelsAlone t (.get request) m) : Handled (m.get t request) := by
  rw [get_eq]
  cases hf : m.findResource t request.uriPath none with
  | none => exact hm
  | some e =>
    by_cases hacc : t.accepts e request = true
    · simp only [if_pos hacc, answer]
      split_ifs with hstart hzero hstop
      · refine hm.of_set (e := e) ?_ (fun b hb hu => ?_) ?_
        · rw [withToken_observationHandler, startAt_observationHandler]
        · rwa [withToken_isUnderObservation, startAt_isUnderObservation _ _ hb] at hu
        · rw [withToken_published, startAt_published]
      · intro b hb
        rw [withToken_isUnderObservation, withToken_published] at hb
        rw [withToken_observationHandler]
        exact hm b hb
      · intro b hb
        have halone := hok request e rfl ⟨hf, hacc, hstop⟩ b
        rw [stopAt_published] at hb
        rw [stopAt_observationHandler]
        by_cases hbe : b.objectIndex = e.objectIndex
        · obtain ⟨hp, hu⟩ := halone hbe
          rcases hb with hb | hb
          · by_cases hne : b = e
            · rw [isUnderObservation_eq, hne, stopAt_self] at hb
              simp at hb
            · rw [stopAt_isUnderObservation _ _ hne, hu hne] at hb
              contradiction
          · rw [hp] at hb
            contradiction
        · have hne : b ≠ e := fun h => hbe (h ▸ rfl)
          rw [stopAt_isUnderObservation _ _ hne] at hb
          rw [Function.update_of_ne hbe]
          exact hm b hb
      · exact hm
    · simpa only [if_neg hacc] using hm

theorem Handled.reset (hm : Handled m) (token : Option Bytes) : Handled (m.reset t token) := by
  rw [reset_eq]
  cases m.findResource t [] token with
  | none => exact hm
  | some e =>
    refine hm.of_set (e := e) (m.resetAt_observationHandler t e) (fun b hb hu => ?_)
      (m.resetAt_published t e)
    rwa [resetAt_isUnderObservation _ _ hb] at hu

theorem Handled.step (hm : Handled m) (hok : CancelsAlone t ev m) :
    Handled (step t atof ev m) := by
  have hclear : Handled { m with log := [] } := hm
  cases ev with
  | get request => exact hclear.get hok
  | reset token => exact hclear.reset token
  | setValue e value copied put => exact hclear.minor (Minor.setValue t atof put e value copied)
  | clearValue e put => exact hclear.minor (Minor.clearValue t atof put e)
  | putValue uriPath value copied put =>
    exact hclear.minor (Minor.putValue t atof put uriPath value copied)
  | publish i put => exact hclear.minor (Minor.createNsdlObjectStructure t put _)

/-- A cancellation that leaves every entity heard found nothing else to be heard. -/
theorem cancelsAlone_of_handled (h : Handled (Client.step t atof ev m)) : CancelsAlone t ev m := by
  rintro request e rfl ⟨hf, hacc, hstop⟩ b hb
  have hstep :
      Client.step t atof (.get request) m = ({ m with log := [] } : Client F).stopAt t e := by
    show ({ m with log := [] } : Client F).get t request = _
    rw [get_eq]
    have hf' : ({ m with log := [] } : Client F).findResource t request.uriPath none = some e := hf
    have hns : request.observe.toUInt32.toUInt8 ≠ startObservation := by
      rw [hstop]
      decide
    simp only [hf', if_pos hacc, answer, if_neg hns, if_pos hstop]
  have hnone : (({ m with log := [] } : Client F).stopAt t e).observationHandler b.objectIndex =
      false := by
    rw [stopAt_observationHandler, hb, Function.update_self]
  rw [hstep] at h
  have hb' := h b
  rw [hnone, stopAt_published] at hb'
  refine ⟨eq_false_of_ne_true fun hp => Bool.false_ne_true (hb' (Or.inr hp)), fun hne => ?_⟩
  rw [stopAt_isUnderObservation _ _ hne] at hb'
  exact eq_false_of_ne_true fun hu => Bool.false_ne_true (hb' (Or.inl hu))

/-- Every notification and every deletion is heard throughout a run, exactly if observations are
only ended where there is nothing else to hear. -/
theorem heard_iff_cancelsAlone (t : ObjectList) (atof : Bytes → F) (l : List Event)
    (value : Entity → Bytes) :
    Trace.Always (Client.step t atof) (fun m => ∀ e, Heard m e) l (fresh value) ↔
      Trace.Along (Client.step t atof) (CancelsAlone t) l (fresh value) := by
  refine Trace.always_iff_along (I := Handled) (fun ev m hm hok => hm.step hok)
    (fun m => (heard_iff m).mpr) (fun ev m _ h => ?_) ?_
  · exact cancelsAlone_of_handled ((heard_iff _).mp h)
  · rintro e (h | h) <;> simp [fresh, isUnderObservation] at h

end Run

/-- The object is still observed after the observation of a resource in it has ended, but no
notification of it and no deletion is heard any more. -/
theorem cancel_silences :
    let m : Client Int := Trace.fold (Client.step device atoll)
      [.publish 0 fun _ => true, .get (.served [51] 0 [1]),
        .get (.served [51, 47, 48, 47, 57] 0 [2]),
        .get (.served [51, 47, 48, 47, 57] 1 [2])] (fresh fun _ => [])
    m.isUnderObservation (.object 0) = true ∧ m.published (.resource 0 0 0) = true ∧
      (m.observationToBeSent (.object 0) Report.ChangedIds.empty 1 false).log = m.log ∧
      (m.freeResources (.resource 0 0 0)).log = m.log ∧ ¬Heard m (.object 0) := by
  refine ⟨by decide +kernel, by decide +kernel, by decide +kernel, by decide +kernel, fun h => ?_⟩
  have hlog := h.notification (by decide +kernel) Report.ChangedIds.empty 1 false
  revert hlog
  decide +kernel

end Client
end MbedClient.Observe
