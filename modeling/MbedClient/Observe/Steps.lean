import MbedClient.Observe.Order
import MbedClient.Observe.Rules

/-! What a request, a RESET and a change of a value can do to the standing of the entities. -/
namespace MbedClient.Observe
open Report (CFloat Call)

namespace Entity

def ownLevel : Entity → Observation
  | object .. => Observation.oAttribute
  | objectInstance .. => Observation.oiAttribute
  | resource .. | resourceInstance .. => Observation.rAttribute

def inLevel : Entity → Observation → Bool
  | object .., l => l.o
  | objectInstance .., l => l.oi
  | resource .., l | resourceInstance .., l => l.r

theorem inLevel_own (e : Entity) (l : Observation) : e.inLevel (l.union e.ownLevel) = true := by
  cases e <;> simp [inLevel, ownLevel, Observation.union, Observation.oAttribute,
    Observation.oiAttribute, Observation.rAttribute]

theorem inLevel_union {e : Entity} {l : Observation} (h : e.inLevel l = true) (l' : Observation) :
    e.inLevel (l.union l') = true := by
  cases e <;> simp_all [inLevel, Observation.union]

/-- What lies below an entity keeps its own level, unless it is a resource instance. -/
theorem inLevel_below {e b : Entity} {j : Nat} {s : List Nat} (h : b.path = e.path ++ j :: s)
    (hb : b.baseType ≠ .resourceInstance) (l : Observation) :
    b.inLevel (l.minus e.ownLevel) = b.inLevel l := by
  cases e <;> cases b <;> simp_all [path, baseType, ownLevel, inLevel, Observation.minus,
    Observation.oAttribute, Observation.oiAttribute]

end Entity

/-- The request reaches the observe option of an entity that can be observed. -/
def ObjectList.accepts (t : ObjectList) (e : Entity) (request : GetRequest) : Bool :=
  match t.params? e with
  | none => false
  | some p =>
    decide (p.operation &&& snGrsGetAllowed ≠ 0) && request.response &&
      decide (request.observe ≠ -1 ∧ p.isObservable = true ∧
        (e.baseType = .object ∨ e.baseType = .objectInstance →
          (request.tlv && request.serialized) = true))

namespace Client
variable {F : Type*} [CFloat F] (m : Client F) (t : ObjectList)
open ObjectList

def startAt (e : Entity) : Client F :=
  match e with
  | .object .. | .objectInstance .. =>
    (m.setUnderObservation e true true).addObservationLevel t e e.ownLevel
  | _ =>
    let m := if t.supportsMultipleInstances e then
        (t.children e).foldl (fun m e => m.addOwnLevel Observation.rAttribute e) m
      else m
    (m.setUnderObservation e true true).addOwnLevel Observation.rAttribute e

def stopAt (e : Entity) : Client F :=
  match e with
  | .object .. | .objectInstance .. =>
    (m.setUnderObservation e false false).removeObservationLevel t e e.ownLevel
  | _ =>
    let m := (m.setUnderObservation e false false).removeOwnLevel Observation.rAttribute e
    if t.supportsMultipleInstances e then
      (t.children e).foldl (fun m e => m.removeOwnLevel Observation.rAttribute e) m
    else m

def resetAt (e : Entity) : Client F :=
  let m := if e.baseType = .resourceInstance then m else m.removeObservationLevel t e e.ownLevel
  m.setUnderObservation e false true

def withToken (e : Entity) (request : GetRequest) : Client F :=
  match request.token with
  | none => m
  | some token => m.setObservationToken e token request.tokenCopied

def answer (e : Entity) (request : GetRequest) : Client F :=
  if request.observe.toUInt32.toUInt8 = startObservation then
    (if request.observe = 0 then m.startAt t e else m).withToken e request
  else if request.observe.toUInt32.toUInt8 = stopObservation then m.stopAt t e
  else m

theorem handleObserve_fst {e : Entity} (request : GetRequest) (msgCode : MsgCode)
    {start stop : Client F → Client F} (hstart : start m = m.startAt t e)
    (hstop : stop m = m.stopAt t e) : (m.handleObserve t e request msgCode start stop).1 =
      if request.observe ≠ -1 ∧ t.isObservable e = true then m.answer t e request else m := by
  unfold handleObserve answer withToken
  by_cases h1 : request.observe = -1
  · simp [h1]
  · by_cases h2 : t.isObservable e = true
    · simp only [h1, h2, Bool.not_true, Bool.false_eq_true, if_false, hstart, hstop, ne_eq,
        not_false_eq_true, and_self, if_true]
      split_ifs <;> (try split) <;> simp_all
    · simp [h1, h2]

theorem handleGetRequestAs_fst (e : Entity) (request : GetRequest) :
    (m.handleGetRequestAs t e request).1 =
      if request.observe ≠ -1 ∧ t.isObservable e = true ∧
          (e.baseType = .object ∨ e.baseType = .objectInstance →
            (request.tlv && request.serialized) = true) then m.answer t e request else m := by
  cases e with
  | object | objectInstance =>
    simp only [handleGetRequestAs, handleGetRequestTree, Entity.baseType]
    by_cases hs : (request.tlv && request.serialized) = true
    · rw [if_pos hs, handleObserve_fst]
      · simp [hs]
      · rfl
      · rfl
    · simp [hs]
  | resource i j k =>
    simp only [handleGetRequestAs, handleGetRequestMulti, handleGetRequestBase, Entity.baseType]
    by_cases hm : t.supportsMultipleInstances (.resource i j k) = true
    · rw [if_pos hm, handleObserve_fst]
      · simp
      · simp [startAt, hm]
      · simp [stopAt, hm]
    · rw [if_neg hm, handleObserve_fst]
      · simp
      · simp [startAt, hm]
      · simp [stopAt, hm]
  | resourceInstance i j k n =>
    have hm : t.supportsMultipleInstances (.resourceInstance i j k n) = false := rfl
    simp only [handleGetRequestAs, handleGetRequestBase, Entity.baseType]
    rw [handleObserve_fst]
    · simp
    · simp [startAt, hm]
    · simp [stopAt, hm]

theorem handleGetRequest_fst (e : Entity) (request : GetRequest) :
    (m.handleGetRequest t e request).1 =
      if t.accepts e request then m.answer t e request else m := by
  unfold handleGetRequest
  cases hp : t.params? e with
  | none => simp [accepts, hp]
  | some p =>
    have hobs : t.isObservable e = p.isObservable := by rw [isObservable, hp]
    simp only [accepts, hp]
    by_cases hop : p.operation &&& snGrsGetAllowed = 0
    · simp [hop]
    by_cases hr : request.response = true
    · simp [hop, hr, handleGetRequestAs_fst, hobs, imp_iff_not_or]
    · simp [hop, hr]

theorem get_eq (request : GetRequest) : m.get t request =
    match m.findResource t request.uriPath none with
    | none => m
    | some e => if t.accepts e request then m.answer t e request else m := by
  unfold get
  cases m.findResource t request.uriPath none with
  | none => rfl
  | some e => exact m.handleGetRequest_fst t e request

/-- A RESET stops the observation that is found under its token. -/
theorem reset_eq (token : Option Bytes) : m.reset t token =
    match m.findResource t [] token with
    | none => m
    | some e => m.resetAt t e := by
  unfold reset
  cases m.findResource t [] token with
  | none => rfl
  | some e => cases e <;> rfl

theorem not_mem_children (e : Entity) : e ∉ t.children e := by
  intro h
  obtain ⟨j, hj⟩ := children_path t h
  simpa using congrArg List.length hj

/-- Below a resource the level comes first. -/
theorem raised_standing (l : Observation) (e b : Entity) :
    (if t.supportsMultipleInstances e then
        (t.children e).foldl (fun m e => m.addOwnLevel l e) m else m).standing b =
      if t.supportsMultipleInstances e = true ∧ b ∈ t.children e then (m.standing b).map (·.join l)
      else m.standing b := by
  by_cases hm : t.supportsMultipleInstances e = true
  · simp only [hm, if_true, true_and, foldl_addOwnLevel]
  · simp [hm]

theorem lowered_standing (l : Observation) (e b : Entity) :
    (if t.supportsMultipleInstances e then
        (t.children e).foldl (fun m e => m.removeOwnLevel l e) m else m).standing b =
      if t.supportsMultipleInstances e = true ∧ b ∈ t.children e then (m.standing b).map (·.leave l)
      else m.standing b := by
  by_cases hm : t.supportsMultipleInstances e = true
  · simp only [hm, if_true, true_and, foldl_removeOwnLevel]
  · simp [hm]

section Standing
variable {e : Entity}

theorem startAt_self (he : e.baseType ≠ .resourceInstance) : (m.startAt t e).standing e =
    some ({ (m.standing e).getD {} with underObservation := true : Standing }.join e.ownLevel) := by
  cases e with
  | object | objectInstance =>
    simp only [startAt, addObservationLevel, foldl_addOwnLevel, setUnderObservation_start _ _ he]
    rw [if_pos (mem_subtree_self t _), Function.update_self, Option.map_some]
  | resource i j k =>
    simp only [startAt, addOwnLevel_standing, setUnderObservation_start _ _ he,
      Function.update_self,
      raised_standing, not_mem_children, and_false, if_false, Option.map_some]
    rfl
  | resourceInstance => exact absurd rfl he

/-- A resource instance never gets a report handler from an observation. -/
theorem startAt_resourceInstance (he : e.baseType = .resourceInstance) :
    (m.startAt t e).standing = Function.update m.standing e ((m.standing e).map fun s =>
      { s with underObservation := true : Standing }.join e.ownLevel) := by
  cases e with
  | resourceInstance i j k n =>
    have hm : t.supportsMultipleInstances (.resourceInstance i j k n) = false := rfl
    simp [startAt, hm, setUnderObservation_resourceInstance _ _ he, Entity.ownLevel,
      Function.comp_def]
  | object | objectInstance | resource => simp [Entity.baseType] at he

theorem startAt_other {b : Entity} (hb : b ≠ e) : (m.startAt t e).standing b = m.standing b ∨
    (m.startAt t e).standing b = (m.standing b).map (·.join e.ownLevel) := by
  cases e with
  | object | objectInstance =>
    simp only [startAt, addObservationLevel, foldl_addOwnLevel, setUnderObservation_other _ _ hb]
    split_ifs
    · exact Or.inr rfl
    · exact Or.inl rfl
  | resource | resourceInstance =>
    simp only [startAt, addOwnLevel_standing, Function.update_of_ne hb,
      setUnderObservation_other _ _ hb, raised_standing]
    split_ifs
    · exact Or.inr rfl
    · exact Or.inl rfl

theorem stopAt_self (e : Entity) : (m.stopAt t e).standing e = none := by
  cases e with
  | object | objectInstance =>
    simp only [stopAt, removeObservationLevel, foldl_removeOwnLevel, setUnderObservation_cancel,
      Function.update_self, Option.map_none, ite_self]
  | resource | resourceInstance =>
    simp only [stopAt, lowered_standing, removeOwnLevel_standing, setUnderObservation_cancel,
      Function.update_self, Option.map_none, ite_self]

/-- The end of an observation takes its level from what lies below the entity. -/
theorem stopAt_other {b : Entity} (hb : b ≠ e) : (m.stopAt t e).standing b = m.standing b ∨
    (∃ j s, b.path = e.path ++ j :: s) ∧
      (m.stopAt t e).standing b = (m.standing b).map (·.leave e.ownLevel) := by
  cases e with
  | object | objectInstance =>
    simp only [stopAt, removeObservationLevel, foldl_removeOwnLevel, setUnderObservation_cancel,
      Function.update_of_ne hb]
    split_ifs with hmem
    · exact Or.inr ⟨mem_subtree_below t hmem hb, rfl⟩
    · exact Or.inl rfl
  | resource | resourceInstance =>
    simp only [stopAt, lowered_standing, removeOwnLevel_standing, setUnderObservation_cancel,
      Function.update_of_ne hb]
    split_ifs with hmem
    · obtain ⟨j, hj⟩ := children_path t hmem.2
      exact Or.inr ⟨⟨j, [], hj⟩, rfl⟩
    · exact Or.inl rfl

theorem resetAt_self (e : Entity) : ∃ l : Observation → Observation,
    (m.resetAt t e).standing e = (m.standing e).map fun s =>
    { s with underObservation := false, attributeState := 0, level := l s.level } := by
  unfold resetAt
  split_ifs
  · exact ⟨id, by simp [setUnderObservation_reset]⟩
  · refine ⟨(·.minus e.ownLevel), ?_⟩
    simp only [setUnderObservation_reset, Function.update_self, removeObservationLevel,
      foldl_removeOwnLevel, if_pos (mem_subtree_self t e), Option.map_map]
    rfl

theorem resetAt_other {b : Entity} (hb : b ≠ e) : (m.resetAt t e).standing b = m.standing b ∨
    (∃ j s, b.path = e.path ++ j :: s) ∧
      (m.resetAt t e).standing b = (m.standing b).map (·.leave e.ownLevel) := by
  unfold resetAt
  split_ifs
  · exact Or.inl (by simp [setUnderObservation_reset, hb])
  · simp only [setUnderObservation_reset, Function.update_of_ne hb, removeObservationLevel,
      foldl_removeOwnLevel]
    split_ifs with hmem
    · exact Or.inr ⟨mem_subtree_below t hmem hb, rfl⟩
    · exact Or.inl rfl

end Standing

section Handlers
variable (e : Entity)

theorem startAt_observationHandler : (m.startAt t e).observationHandler =
    Function.update m.observationHandler e.objectIndex true := by
  cases e <;> simp only [startAt, addObservationLevel] <;> (try split_ifs) <;> simp

theorem stopAt_observationHandler : (m.stopAt t e).observationHandler =
    Function.update m.observationHandler e.objectIndex false := by
  cases e <;> simp only [stopAt, removeObservationLevel] <;> (try split_ifs) <;> simp

theorem resetAt_observationHandler : (m.resetAt t e).observationHandler =
    Function.update m.observationHandler e.objectIndex true := by
  unfold resetAt removeObservationLevel
  split_ifs <;> simp

theorem startAt_published : (m.startAt t e).published = m.published := by
  cases e <;> simp only [startAt, addObservationLevel] <;> (try split_ifs) <;> simp

theorem stopAt_published : (m.stopAt t e).published = m.published := by
  cases e <;> simp only [stopAt, removeObservationLevel] <;> (try split_ifs) <;> simp

theorem resetAt_published : (m.resetAt t e).published = m.published := by
  unfold resetAt removeObservationLevel
  split_ifs <;> simp

end Handlers

/-- What changes of values and publications do: nobody starts or stops to be observed, and the
interface stays or becomes the observation handler. -/
structure Minor (m m' : Client F) : Prop where
  standing : m'.standing = m.standing
  observationHandler : ∀ i, m.observationHandler i = true → m'.observationHandler i = true
  published : ∀ e, m'.published e = true →
    m.published e = true ∨ m'.observationHandler e.objectIndex = true

namespace Minor
variable {m} {m' m'' : Client F}

theorem refl : Minor m m := ⟨rfl, fun _ h => h, fun _ h => Or.inl h⟩

theorem trans (h : Minor m m') (h' : Minor m' m'') : Minor m m'' where
  standing := h'.standing.trans h.standing
  observationHandler i hi := h'.observationHandler i (h.observationHandler i hi)
  published e he := (h'.published e he).elim
    (fun hp => (h.published e hp).imp id (h'.observationHandler _)) Or.inr

theorem of_eq (hs : m'.standing = m.standing) (ho : m'.observationHandler = m.observationHandler)
    (hp : m'.published = m.published) : Minor m m' :=
  ⟨hs, fun i hi => by rwa [ho], fun e he => Or.inl (by rwa [← hp])⟩

theorem emit (o : Output) : Minor m (m.emit o) := of_eq rfl rfl rfl

theorem store (e : Entity) (value : Bytes) : Minor m (m.store e value) := of_eq rfl rfl rfl

theorem onReportHandler (e : Entity)
    {f : Report.M2MReportHandler F → Report.M2MReportHandler F × List Call}
    (hf : Report.M2MReportHandler.Passing f) : Minor m (m.onReportHandler e f) :=
  of_eq (m.onReportHandler_passing e hf) (by simp) (by simp)

theorem ite {c : Prop} [Decidable c] (h : Minor m m') (h' : Minor m m'') :
    Minor m (if c then m' else m'') := by
  split_ifs
  · exact h
  · exact h'

section Publication
variable (t : ObjectList) (put : Entity → Bool)

theorem createNsdlResource (e : Entity) : Minor m (m.createNsdlResource put e).2 := by
  have hset : Minor m (m.setObservationHandler e true) :=
    ⟨rfl, fun i hi => by by_cases h : i = e.objectIndex <;> simp [h, hi], fun _ h => Or.inl h⟩
  have hput (m : Client F) (h : m.observationHandler e.objectIndex = true) :
      Minor m { m with published := Function.update m.published e true } := by
    refine ⟨rfl, fun _ hi => hi, fun b hb => ?_⟩
    by_cases hbe : b = e
    · exact Or.inr (hbe ▸ h)
    · exact Or.inl (by simpa [hbe] using hb)
  unfold Client.createNsdlResource
  by_cases h : m.observationHandler e.objectIndex = true
  · simp only [if_pos h]
    split_ifs
    · exact hput m h
    · exact refl
  · simp only [if_neg h]
    split_ifs
    · exact hset.trans (hput _ (by simp))
    · exact hset

theorem createNsdlResources (es : List Entity) :
    Minor m (Client.createNsdlResources put es m).2 := by
  induction es generalizing m with
  | nil => exact refl
  | cons e es ih =>
    have h := createNsdlResource (m := m) put e
    unfold Client.createNsdlResources
    split
    · rename_i m' heq
      rw [heq] at h
      exact h.trans ih
    · rename_i m' heq
      rwa [heq] at h

theorem createNsdlResourceStructure (e : Entity) :
    Minor m (m.createNsdlResourceStructure t put e).2 := by
  have h := createNsdlResources (m := m) put (t.children e)
  unfold Client.createNsdlResourceStructure
  split_ifs
  · exact refl
  · split
    · rename_i m' heq
      rw [heq] at h
      exact h.trans (createNsdlResource put e)
    · rename_i m' heq
      rwa [heq] at h
  · exact createNsdlResource put e

theorem createNsdlTreeStructure {each : Client F → Entity → Bool × Client F}
    (heach : ∀ m e, Minor m (each m e).2) (e : Entity) :
    Minor m (m.createNsdlTreeStructure t put each e).2 := by
  have hloop (es : List Entity) (b : Bool) :
      Minor m (es.foldl (fun (s : Bool × Client F) e => each s.2 e) (b, m)).2 := by
    induction es generalizing b m with
    | nil => exact refl
    | cons c es ih => exact (heach m c).trans (ih _)
  have h := hloop (t.children e) false
  unfold Client.createNsdlTreeStructure
  simp only
  split
  · split_ifs
    · exact h.trans (createNsdlResource put e)
    · exact h
  · exact h

theorem createNsdlObjectStructure (e : Entity) :
    Minor m (m.createNsdlObjectStructure t put e).2 :=
  createNsdlTreeStructure t put (fun _ e => createNsdlTreeStructure t put
    (fun _ e => createNsdlResourceStructure t put e) e) e

theorem valueUpdated (e : Entity) : Minor m (m.valueUpdated t put e) := by
  cases e with
  | object i => exact (createNsdlObjectStructure t put _).trans (emit _)
  | objectInstance i j =>
    exact (createNsdlTreeStructure t put (fun _ e => createNsdlResourceStructure t put e) _).trans
      (emit _)
  | resource i j k => exact (createNsdlResourceStructure t put _).trans (emit _)
  | resourceInstance i j k n => exact (createNsdlResource put _).trans (emit _)

end Publication

section Values
variable (t : ObjectList) (atof : Bytes → F) (put : Entity → Bool)

theorem notificationUpdate (i j : Nat) (level : Observation) :
    Minor m (m.notificationUpdate t i j level) := by
  have htrigger (m : Client F) (e : Entity) (id : UInt16) :
      Minor m (m.onReportHandler e (·.setNotificationTrigger id)) :=
    onReportHandler e (Report.M2MReportHandler.setNotificationTrigger_passing id)
  unfold Client.notificationUpdate
  refine trans ?_ (ite (htrigger _ _ _) refl)
  split
  · exact ite (ite (htrigger _ _ _) refl) refl
  · exact refl

theorem reportInstance (e : Entity) : Minor m (m.reportInstance t e) := by
  unfold Client.reportInstance
  split
  · exact ite (notificationUpdate t _ _ _) refl
  · exact ite (notificationUpdate t _ _ _) refl
  · exact refl

theorem reportResource (e : Entity) (p : ResourceParams) (ownLevel level : Observation) :
    Minor m (m.reportResource t atof put e p ownLevel level) := by
  unfold Client.reportResource
  refine ite (ite (ite (onReportHandler e (Report.M2MReportHandler.setValue_passing _)) refl) ?_)
    (ite (valueUpdated t put e) refl)
  split
  · split
    · exact ite
        (onReportHandler _ (Report.M2MReportHandler.setNotificationTrigger_passing _)) refl
    · exact refl
  · exact refl

theorem report (e : Entity) : Minor m (m.report t atof put e) := by
  unfold Client.report
  split
  · exact refl
  · exact (reportInstance t e).trans (reportResource t atof put e _ _ _)

theorem clearValue (e : Entity) : Minor m (m.clearValue t atof put e) :=
  (store e []).trans (report t atof put e)

theorem setValue (e : Entity) (value : Bytes) (copied : Bool) :
    Minor m (m.setValue t atof put e value copied) := by
  have hstring : Minor m (if (m.store e value).isUnderObservation e then
      (m.store e value).onReportHandler e (·.setNotificationTrigger 0) else m.store e value) :=
    ite ((store e value).trans
      (onReportHandler e (Report.M2MReportHandler.setNotificationTrigger_passing 0)))
        (store e value)
  unfold Client.setValue
  split
  · exact refl
  · exact ite (ite (ite (ite hstring ((store e value).trans (report t atof put e)))
      (store e value)) (store e [])) refl

theorem putValue (uriPath value : Bytes) (copied : Bool) :
    Minor m (m.putValue t atof put uriPath value copied) := by
  unfold Client.putValue
  split
  · exact refl
  · split
    · exact refl
    · exact ite (ite ((setValue t atof put _ value copied).trans (valueUpdated t put _))
        (setValue t atof put _ value copied)) refl

end Values
end Minor

end Client
end MbedClient.Observe
