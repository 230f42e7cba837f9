import MbedClient.Observe.Requests
import MbedClient.Report.Plain

/-! What each operation on the object tree does to the four parts of the memory. -/
namespace MbedClient.Observe
open Report (CFloat Call)

namespace Observation

theorem union_idem (a b : Observation) : (a.union b).union b = a.union b := by
  simp [union]

theorem minus_idem (a b : Observation) : (a.minus b).minus b = a.minus b := by
  simp [minus]

end Observation

namespace Client
variable {F : Type*} [CFloat F] (m : Client F) (t : ObjectList)

section Frame
variable (e : Entity) (h : Option (ReportHandler F)) (b : Bool) (o : Output)

@[simp] theorem emit_reportHandler : (m.emit o).reportHandler = m.reportHandler := rfl
@[simp] theorem emit_observationHandler : (m.emit o).observationHandler = m.observationHandler :=
  rfl
@[simp] theorem emit_value : (m.emit o).value = m.value := rfl
@[simp] theorem emit_published : (m.emit o).published = m.published := rfl
@[simp] theorem emit_log : (m.emit o).log = m.log ++ [o] := rfl

@[simp] theorem setObservationHandler_reportHandler :
    (m.setObservationHandler e b).reportHandler = m.reportHandler := rfl
@[simp] theorem setObservationHandler_observationHandler :
    (m.setObservationHandler e b).observationHandler =
      Function.update m.observationHandler e.objectIndex b := rfl
@[simp] theorem setObservationHandler_value :
    (m.setObservationHandler e b).value = m.value := rfl
@[simp] theorem setObservationHandler_published :
    (m.setObservationHandler e b).published = m.published := rfl

@[simp] theorem setReportHandler_reportHandler :
    (m.setReportHandler e h).reportHandler = Function.update m.reportHandler e h := rfl
@[simp] theorem setReportHandler_observationHandler :
    (m.setReportHandler e h).observationHandler = m.observationHandler := rfl
@[simp] theorem setReportHandler_value : (m.setReportHandler e h).value = m.value := rfl
@[simp] theorem setReportHandler_published : (m.setReportHandler e h).published = m.published := rfl
@[simp] theorem setReportHandler_log : (m.setReportHandler e h).log = m.log := rfl

end Frame

structure SameMemory (m m' : Client F) : Prop where
  reportHandler : m'.reportHandler = m.reportHandler
  observationHandler : m'.observationHandler = m.observationHandler
  value : m'.value = m.value
  published : m'.published = m.published

namespace SameMemory
variable {m} {m' m'' : Client F}

theorem refl : SameMemory m m := ⟨rfl, rfl, rfl, rfl⟩

theorem trans (h : SameMemory m m') (h' : SameMemory m' m'') : SameMemory m m'' :=
  ⟨h'.1.trans h.1, h'.2.trans h.2, h'.3.trans h.3, h'.4.trans h.4⟩

theorem emit (o : Output) : SameMemory m (m.emit o) := ⟨rfl, rfl, rfl, rfl⟩

theorem observe (e : Entity) (call : Call) : SameMemory m (m.observe e call) := by
  cases call with
  | observationToBeSent ids number sendObject =>
    simp only [Client.observe, observationToBeSent]
    split_ifs
    · exact (emit _).trans (emit _)
    · exact emit _
  | startTimer => exact emit _
  | stopTimer => exact emit _

theorem observeAll (e : Entity) (calls : List Call) :
    SameMemory m (calls.foldl (fun m call => m.observe e call) m) := by
  induction calls generalizing m with
  | nil => exact refl
  | cons call calls ih => exact (observe e call).trans ih

end SameMemory

section OnReportHandler
variable (e : Entity) (f : Report.M2MReportHandler F → Report.M2MReportHandler F × List Call)

def called (h : ReportHandler F) : ReportHandler F :=
  { h with toM2MReportHandler := (f h.toM2MReportHandler).1 }

theorem onReportHandler_sameMemory :
    SameMemory (m.setReportHandler e ((m.reportHandler e).map (called f)))
      (m.onReportHandler e f) := by
  cases h : m.reportHandler e with
  | none =>
    rw [onReportHandler, h]
    exact ⟨(Function.update_eq_self_iff.mpr h.symm).symm, rfl, rfl, rfl⟩
  | some h' =>
    rw [onReportHandler, h]
    exact SameMemory.observeAll e _

@[simp] theorem onReportHandler_reportHandler : (m.onReportHandler e f).reportHandler =
    Function.update m.reportHandler e ((m.reportHandler e).map (called f)) :=
  (m.onReportHandler_sameMemory e f).reportHandler

@[simp] theorem onReportHandler_observationHandler :
    (m.onReportHandler e f).observationHandler = m.observationHandler :=
  (m.onReportHandler_sameMemory e f).observationHandler

@[simp] theorem onReportHandler_value : (m.onReportHandler e f).value = m.value :=
  (m.onReportHandler_sameMemory e f).value

@[simp] theorem onReportHandler_published : (m.onReportHandler e f).published = m.published :=
  (m.onReportHandler_sameMemory e f).published

end OnReportHandler

@[simp] theorem addOwnLevel_observationHandler (l : Observation) (e : Entity) :
    (m.addOwnLevel l e).observationHandler = m.observationHandler := rfl
@[simp] theorem addOwnLevel_published (l : Observation) (e : Entity) :
    (m.addOwnLevel l e).published = m.published := rfl
@[simp] theorem removeOwnLevel_observationHandler (l : Observation) (e : Entity) :
    (m.removeOwnLevel l e).observationHandler = m.observationHandler := rfl
@[simp] theorem removeOwnLevel_published (l : Observation) (e : Entity) :
    (m.removeOwnLevel l e).published = m.published := rfl
@[simp] theorem setObservationToken_observationHandler (e : Entity) (token : Bytes) (c : Bool) :
    (m.setObservationToken e token c).observationHandler = m.observationHandler := rfl
@[simp] theorem setObservationToken_published (e : Entity) (token : Bytes) (c : Bool) :
    (m.setObservationToken e token c).published = m.published := rfl

end Client

/-- What of a report handler says who is observed, and how. -/
structure Standing where
  underObservation : Bool := false
  attributeState : UInt8 := 0
  token : Bytes := []
  level : Observation := Observation.none

namespace Standing
variable (s : Standing) (l : Observation)

def join : Standing := { s with level := s.level.union l }
def leave : Standing := { s with level := s.level.minus l }

theorem join_join : (s.join l).join l = s.join l := by
  simp [join, Observation.union_idem]

theorem leave_leave : (s.leave l).leave l = s.leave l := by
  simp [leave, Observation.minus_idem]

end Standing

def ReportHandler.standing {F : Type*} [CFloat F] (h : ReportHandler F) : Standing :=
  ⟨h.isUnderObservation, h.attributeState, h.token, h.observationLevel⟩

namespace Client
variable {F : Type*} [CFloat F] (m : Client F) (t : ObjectList)

def standing (e : Entity) : Option Standing := (m.reportHandler e).map ReportHandler.standing

theorem isUnderObservation_eq (e : Entity) :
    m.isUnderObservation e = (m.standing e).any (·.underObservation) := by
  unfold isUnderObservation standing
  cases m.reportHandler e <;> rfl

theorem observationLevel_eq (e : Entity) :
    m.observationLevel e = ((m.standing e).map (·.level)).getD Observation.none := by
  unfold observationLevel standing
  cases m.reportHandler e <;> rfl

theorem standing_congr {m m' : Client F} (h : m'.reportHandler = m.reportHandler) :
    m'.standing = m.standing := by
  funext e
  rw [standing, standing, h]

section Standing
variable (e : Entity)

@[simp] theorem setReportHandler_standing (h : Option (ReportHandler F)) :
    (m.setReportHandler e h).standing =
      Function.update m.standing e (h.map ReportHandler.standing) :=
  Function.comp_update (Option.map ReportHandler.standing) m.reportHandler e h

@[simp] theorem setObservationHandler_standing (b : Bool) :
    (m.setObservationHandler e b).standing = m.standing := rfl

theorem onReportHandler_standing
    (f : Report.M2MReportHandler F → Report.M2MReportHandler F × List Call) :
    (m.onReportHandler e f).standing =
      Function.update m.standing e ((m.reportHandler e).map fun h => (called f h).standing) := by
  rw [standing_congr (m.onReportHandler_sameMemory e f).reportHandler, setReportHandler_standing,
    Option.map_map]
  rfl

/-- Changes of a value pass the standing by. -/
theorem onReportHandler_passing
    {f : Report.M2MReportHandler F → Report.M2MReportHandler F × List Call}
    (hf : Report.M2MReportHandler.Passing f) : (m.onReportHandler e f).standing = m.standing := by
  have hs : (fun h => (called f h).standing) = ReportHandler.standing (F := F) := by
    funext h
    simp only [called, ReportHandler.standing, (hf h.toM2MReportHandler).1,
      (hf h.toM2MReportHandler).2]
  rw [onReportHandler_standing, hs]
  exact Function.update_eq_self e m.standing

@[simp] theorem addOwnLevel_standing (l : Observation) :
    (m.addOwnLevel l e).standing = Function.update m.standing e
    ((m.standing e).map (·.join l)) := by
  rw [addOwnLevel, setReportHandler_standing, standing, Option.map_map, Option.map_map]
  rfl

@[simp] theorem removeOwnLevel_standing (l : Observation) :
    (m.removeOwnLevel l e).standing =
      Function.update m.standing e ((m.standing e).map (·.leave l)) := by
  rw [removeOwnLevel, setReportHandler_standing, standing, Option.map_map, Option.map_map]
  rfl

@[simp] theorem setObservationToken_standing (token : Bytes) (copied : Bool) :
    (m.setObservationToken e token copied).standing = Function.update m.standing e
      ((m.standing e).map fun s => { s with token := if copied then token else [] }) := by
  rw [setObservationToken, setReportHandler_standing, standing, Option.map_map, Option.map_map]
  rfl

/-- The first call of `set_under_observation`, with the standing it leaves. -/
theorem setUnderObservation_called (observed : Bool) (h : ReportHandler F) :
    (called (·.setUnderObservation observed) h).standing =
      ⟨observed, if observed then h.attributeState else 0, h.token, h.observationLevel⟩ := by
  simp only [called, ReportHandler.standing,
    Report.M2MReportHandler.setUnderObservation_isUnderObservation,
    Report.M2MReportHandler.setUnderObservation_attributeState]

theorem onReportHandler_setUnderObservation (observed : Bool) :
    (m.onReportHandler e (·.setUnderObservation observed)).standing = Function.update m.standing e
      ((m.standing e).map fun s => { s with
        underObservation := observed
        attributeState := if observed then s.attributeState else 0 }) := by
  simp only [onReportHandler_standing, setUnderObservation_called, standing, Option.map_map]
  rfl

theorem setUnderObservation_cancel :
    (m.setUnderObservation e false false).standing = Function.update m.standing e none := by
  simp [setUnderObservation, onReportHandler_setUnderObservation]

theorem setUnderObservation_reset :
    (m.setUnderObservation e false true).standing = Function.update m.standing e
      ((m.standing e).map fun s => { s with underObservation := false, attributeState := 0 }) := by
  by_cases he : e.baseType = .resourceInstance <;>
    simp [setUnderObservation, he, onReportHandler_setUnderObservation, Function.comp_def]

/-- An observation starts from the standing an earlier one left, if there is one. -/
theorem setUnderObservation_start (he : e.baseType ≠ .resourceInstance) :
    (m.setUnderObservation e true true).standing = Function.update m.standing e
      (some { (m.standing e).getD {} with underObservation := true }) := by
  have hcreate (m : Client F) : (m.createReportHandler e).standing =
      Function.update m.standing e (some ((m.standing e).getD {})) := by
    unfold createReportHandler
    cases h : m.reportHandler e with
    | none =>
      rw [setReportHandler_standing, standing, h]
      rfl
    | some h' => simp [standing, h]
  simp only [setUnderObservation, if_pos he]
  simp only [if_true, onReportHandler_setUnderObservation, hcreate, setObservationHandler_standing]
  cases m.standing e <;> simp

theorem setUnderObservation_resourceInstance (he : e.baseType = .resourceInstance) :
    (m.setUnderObservation e true true).standing = Function.update m.standing e
      ((m.standing e).map fun s => { s with underObservation := true }) := by
  simp [setUnderObservation, he, onReportHandler_setUnderObservation]

theorem setUnderObservation_other {b : Entity} (hb : b ≠ e) :
    (m.setUnderObservation e true true).standing b = m.standing b := by
  by_cases he : e.baseType = .resourceInstance
  · rw [setUnderObservation_resourceInstance _ _ he, Function.update_of_ne hb]
  · rw [setUnderObservation_start _ _ he, Function.update_of_ne hb]

@[simp] theorem setUnderObservation_observationHandler (observed handler : Bool) :
    (m.setUnderObservation e observed handler).observationHandler =
      Function.update m.observationHandler e.objectIndex handler := by
  simp only [setUnderObservation, createReportHandler]
  split_ifs <;> (try split) <;> simp

@[simp] theorem setUnderObservation_published (observed handler : Bool) :
    (m.setUnderObservation e observed handler).published = m.published := by
  simp only [setUnderObservation, createReportHandler]
  split_ifs <;> (try split) <;> simp

end Standing

section Levels
variable (es : List Entity) (l : Observation)

/-- Where entities are updated one after the other, the order and repetitions do not matter. -/
theorem foldl_update {σ : Type*} (proj : Client F → Entity → Option σ)
    (f : Client F → Entity → Client F) (g : σ → σ)
    (hf : ∀ m e, proj (f m e) = Function.update (proj m) e ((proj m e).map g))
    (hg : ∀ s, g (g s) = g s) (b : Entity) :
    proj (es.foldl f m) b = if b ∈ es then (proj m b).map g else proj m b := by
  induction es generalizing m with
  | nil => rfl
  | cons e es ih =>
    rw [List.foldl_cons, ih, hf]
    by_cases hb : b = e
    · subst hb
      simp [Function.comp_def, hg]
    · simp [hb]

theorem foldl_addOwnLevel (b : Entity) :
    (es.foldl (fun m e => m.addOwnLevel l e) m).standing b =
      if b ∈ es then (m.standing b).map (·.join l) else m.standing b :=
  m.foldl_update es standing _ _ (fun m e => m.addOwnLevel_standing e l) (fun s => s.join_join l) b

theorem foldl_removeOwnLevel (b : Entity) :
    (es.foldl (fun m e => m.removeOwnLevel l e) m).standing b =
      if b ∈ es then (m.standing b).map (·.leave l) else m.standing b :=
  m.foldl_update es standing _ _ (fun m e => m.removeOwnLevel_standing e l)
    (fun s => s.leave_leave l) b

/-- The same of the whole report handler. -/
theorem foldl_removeOwnLevel_reportHandler (b : Entity) :
    (es.foldl (fun m e => m.removeOwnLevel l e) m).reportHandler b =
      if b ∈ es then (m.reportHandler b).map fun h =>
        { h with observationLevel := h.observationLevel.minus l }
      else m.reportHandler b :=
  m.foldl_update es reportHandler _ _ (fun _ _ => rfl)
    (fun h => by simp only [Observation.minus_idem]) b

theorem foldl_same {β : Type*} (proj : Client F → β) (f : Client F → Entity → Client F)
    (hf : ∀ m e, proj (f m e) = proj m) : proj (es.foldl f m) = proj m := by
  induction es generalizing m with
  | nil => rfl
  | cons e es ih => rw [List.foldl_cons, ih, hf]

@[simp] theorem foldl_addOwnLevel_observationHandler :
    (es.foldl (fun m e => m.addOwnLevel l e) m).observationHandler = m.observationHandler :=
  m.foldl_same es (·.observationHandler) _ fun _ _ => rfl

@[simp] theorem foldl_addOwnLevel_published :
    (es.foldl (fun m e => m.addOwnLevel l e) m).published = m.published :=
  m.foldl_same es (·.published) _ fun _ _ => rfl

@[simp] theorem foldl_removeOwnLevel_observationHandler :
    (es.foldl (fun m e => m.removeOwnLevel l e) m).observationHandler = m.observationHandler :=
  m.foldl_same es (·.observationHandler) _ fun _ _ => rfl

@[simp] theorem foldl_removeOwnLevel_published :
    (es.foldl (fun m e => m.removeOwnLevel l e) m).published = m.published :=
  m.foldl_same es (·.published) _ fun _ _ => rfl

end Levels
end Client
end MbedClient.Observe
