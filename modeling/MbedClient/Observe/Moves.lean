import Mathlib.Logic.Relation
import MbedClient.Observe.Steps
import MbedClient.Report.Rejection

/-! What the news of a value comes to: messages, calls of report handlers and publications, in any
order. The expiry of a timer and a query for write attributes join the events. -/
namespace MbedClient.Observe
open Report (CFloat CFloatText Call)

namespace Client
section Moves
variable {F : Type*} [CFloat F] {m m' m'' : Client F} (t : ObjectList)

/-- One of the things that the news of a value sets off. An object is only told that there is a
new value. -/
inductive Move : Client F → Client F → Prop
  | updated (m : Client F) (e : Entity) : Move m (m.emit (.valueUpdated e))
  | value (m : Client F) {e : Entity} (v : F) (he : e.baseType ≠ .object) :
    Move m (m.onReportHandler e (·.setValue v))
  | trigger (m : Client F) (e : Entity) (id : UInt16) :
    Move m (m.onReportHandler e (·.setNotificationTrigger id))
  | handle (m : Client F) (e : Entity) : Move m (m.setObservationHandler e true)
  | publish (m : Client F) (e : Entity) :
    Move m { m with published := Function.update m.published e true }

/-- What the news of a value may have set off in the end. -/
def Moves : Client F → Client F → Prop := Relation.ReflTransGen Move

theorem Moves.refl (m : Client F) : Moves m m := Relation.ReflTransGen.refl

theorem Moves.trans (h : Moves m m') (h' : Moves m' m'') : Moves m m'' :=
  Relation.ReflTransGen.trans h h'

theorem Move.moves (h : Move m m') : Moves m m' := Relation.ReflTransGen.single h

theorem Moves.ite {c : Prop} [Decidable c] (h : Moves m m') (h' : Moves m m'') :
    Moves m (if c then m' else m'') := by
  split_ifs
  · exact h
  · exact h'

/-- A property that no single move changes is not changed. -/
theorem Moves.invariant {I : Client F → Prop} (hstep : ∀ m m', Move m m' → I m → I m')
    (h : Moves m m') (hm : I m) : I m' := by
  induction h with
  | refl => exact hm
  | tail _ hmove ih => exact hstep _ _ hmove ih

section Publication
variable (put : Entity → Bool)

theorem createNsdlResource_moves (m : Client F) (e : Entity) :
    Moves m (m.createNsdlResource put e).2 := by
  have hput (m : Client F) : Moves m
      (if put e then (true, { m with published := Function.update m.published e true })
        else (false, m) : Bool × Client F).2 := by
    split_ifs
    · exact (Move.publish m e).moves
    · exact Moves.refl m
  unfold Client.createNsdlResource
  by_cases hhandled : m.observationHandler e.objectIndex = true
  · rw [if_pos hhandled]
    exact hput m
  · rw [if_neg hhandled]
    exact (Move.handle m e).moves.trans (hput _)

theorem createNsdlResources_moves (es : List Entity) (m : Client F) :
    Moves m (Client.createNsdlResources put es m).2 := by
  induction es generalizing m with
  | nil => exact Moves.refl m
  | cons e es ih =>
    have h := createNsdlResource_moves put m e
    rw [Client.createNsdlResources]
    generalize m.createNsdlResource put e = r at h ⊢
    obtain ⟨success, m'⟩ := r
    cases success with
    | true => exact h.trans (ih m')
    | false => exact h

theorem createNsdlResourceStructure_moves (m : Client F) (e : Entity) :
    Moves m (m.createNsdlResourceStructure t put e).2 := by
  have h := createNsdlResources_moves put (t.children e) m
  rw [Client.createNsdlResourceStructure]
  split_ifs
  · exact Moves.refl m
  · generalize Client.createNsdlResources put (t.children e) m = r at h ⊢
    obtain ⟨success, m'⟩ := r
    cases success with
    | true => exact h.trans (createNsdlResource_moves put m' e)
    | false => exact h
  · exact createNsdlResource_moves put m e

theorem createNsdlTreeStructure_moves {each : Client F → Entity → Bool × Client F}
    (heach : ∀ m e, Moves m (each m e).2) (m : Client F) (e : Entity) :
    Moves m (m.createNsdlTreeStructure t put each e).2 := by
  have hloop (es : List Entity) (s : Bool × Client F) :
      Moves s.2 (es.foldl (fun (s : Bool × Client F) e => each s.2 e) s).2 := by
    induction es generalizing s with
    | nil => exact Moves.refl s.2
    | cons c es ih => exact (heach s.2 c).trans (ih (each s.2 c))
  have h := hloop (t.children e) (false, m)
  unfold Client.createNsdlTreeStructure
  dsimp only
  cases t.params? e with
  | none => exact h
  | some p =>
    dsimp only
    split_ifs
    · exact h.trans (createNsdlResource_moves put _ e)
    · exact h

theorem createNsdlObjectStructure_moves (m : Client F) (e : Entity) :
    Moves m (m.createNsdlObjectStructure t put e).2 :=
  createNsdlTreeStructure_moves t put (fun m e => createNsdlTreeStructure_moves t put
    (fun m e => createNsdlResourceStructure_moves t put m e) m e) m e

theorem valueUpdated_moves (m : Client F) (e : Entity) : Moves m (m.valueUpdated t put e) := by
  cases e with
  | object i => exact (createNsdlObjectStructure_moves t put m _).trans (Move.updated _ _).moves
  | objectInstance i j =>
    exact (createNsdlTreeStructure_moves t put
      (fun m e => createNsdlResourceStructure_moves t put m e) m _).trans (Move.updated _ _).moves
  | resource i j k =>
    exact (createNsdlResourceStructure_moves t put m _).trans (Move.updated _ _).moves
  | resourceInstance i j k n =>
    exact (createNsdlResource_moves put m _).trans (Move.updated _ _).moves

end Publication

section Values
variable (atof : Bytes → F) (put : Entity → Bool)

theorem trigger_moves (m : Client F) (e : Entity) (id : UInt16) :
    Moves m (m.onReportHandler e (·.setNotificationTrigger id)) :=
  (Move.trigger m e id).moves

theorem notificationUpdate_moves (m : Client F) (i j : Nat) (level : Observation) :
    Moves m (m.notificationUpdate t i j level) := by
  unfold Client.notificationUpdate
  refine Moves.trans ?_ ((trigger_moves _ _ _).ite (Moves.refl _))
  cases t.objectInstance? i j with
  | none => exact Moves.refl m
  | some x => exact ((trigger_moves m _ _).ite (Moves.refl m)).ite (Moves.refl m)

theorem reportInstance_moves (m : Client F) (e : Entity) : Moves m (m.reportInstance t e) := by
  cases e with
  | object | objectInstance => exact Moves.refl m
  | resource | resourceInstance =>
    exact (notificationUpdate_moves t m _ _ _).ite (Moves.refl m)

theorem reportResource_moves (m : Client F) {e : Entity} (he : e.baseType ≠ .object)
    (p : ResourceParams) (ownLevel level : Observation) :
    Moves m (m.reportResource t atof put e p ownLevel level) := by
  unfold Client.reportResource
  refine (((Move.value m _ he).moves.ite (Moves.refl m)).ite ?_).ite
    ((valueUpdated_moves t put m e).ite (Moves.refl m))
  cases e with
  | resourceInstance i j k n =>
    dsimp only
    cases t.objectInstance? i j with
    | none => exact Moves.refl m
    | some x => exact (trigger_moves m _ _).ite (Moves.refl m)
  | object | objectInstance | resource => exact Moves.refl m

theorem baseType_of_params {e : Entity} {p : ResourceParams} (hp : t.resourceParams? e = some p) :
    e.baseType ≠ .object := by
  intro he
  cases e with
  | object i => cases hp
  | objectInstance | resource | resourceInstance => cases he

theorem report_moves (m : Client F) (e : Entity) : Moves m (m.report t atof put e) := by
  unfold Client.report
  cases hp : t.resourceParams? e with
  | none => exact Moves.refl m
  | some p =>
    exact (reportInstance_moves t m e).trans
      (reportResource_moves t atof put _ (baseType_of_params t hp) p _ _)

/-- `set_value` stores nothing, or something else than before, and then spreads the news. -/
theorem setValue_cases (m : Client F) (e : Entity) (value : Bytes) (copied : Bool) :
    m.setValue t atof put e value copied = m ∨
    ∃ p, t.resourceParams? e = some p ∧ (copied = false ∧
        m.setValue t atof put e value copied = m.store e [] ∨
      copied = true ∧ value = m.value e ∧
        m.setValue t atof put e value copied = m.store e value ∨
      copied = true ∧ value ≠ m.value e ∧ p.resourceType = .string ∧
        Moves (m.store e value) (m.setValue t atof put e value copied) ∨
      copied = true ∧ value ≠ m.value e ∧ p.resourceType ≠ .string ∧
        m.setValue t atof put e value copied = (m.store e value).report t atof put e) := by
  unfold Client.setValue
  cases hp : t.resourceParams? e with
  | none => exact .inl rfl
  | some p =>
    by_cases hlen : 0 < value.length
    · refine .inr ⟨p, rfl, ?_⟩
      dsimp only
      rw [if_pos hlen]
      cases copied with
      | false => exact .inl ⟨rfl, rfl⟩
      | true =>
        by_cases hsame : value = m.value e
        · have hbne : (value != m.value e) = false := by simp [hsame]
          exact .inr (.inl ⟨rfl, hsame, by rw [hbne]; rfl⟩)
        · have hbne : (value != m.value e) = true := by simpa using hsame
          rw [hbne, if_pos rfl, if_pos rfl]
          by_cases hstring : p.resourceType = .string
          · rw [if_pos hstring]
            exact .inr (.inr (.inl ⟨rfl, hsame, hstring,
              (trigger_moves _ e 0).ite (Moves.refl _)⟩))
          · rw [if_neg hstring]
            exact .inr (.inr (.inr ⟨rfl, hsame, hstring, rfl⟩))
    · dsimp only
      rw [if_neg hlen]
      exact .inl rfl

end Values
end Moves
end Client
end MbedClient.Observe
