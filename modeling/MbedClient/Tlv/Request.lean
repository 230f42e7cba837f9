import MbedClient.Tlv.Itinerary

/-! The three public entry points as one function of what a buffer is addressed to. -/
namespace MbedClient.Tlv

inductive Addressee where
  | object (obj : M2MObject)
  | objectInstance (oi : M2MObjectInstance)
  | resource (r : M2MResource)

/-- The public function for what a buffer is addressed to. -/
def deserialize (tlv : Option (Nat → UInt8)) (size : Nat) (operation : Operation) (a : Addressee)
    (env : Env) : Error × (Addressee × Env) :=
  match a with
  | .object obj =>
    let (error, obj, env) := deserialiseObjectInstances tlv size operation (obj, env)
    (error, (.object obj, env))
  | .objectInstance oi =>
    let (error, oi, env) := deserializeResources tlv size operation (oi, env)
    (error, (.objectInstance oi, env))
  | .resource r =>
    let (error, r, env) := deserializeResourceInstances tlv size operation (r, env)
    (error, (.resource r, env))

def pass (tlv : Nat → UInt8) (size : Nat) (operation : Operation) (update : Bool)
    (s : Addressee × Env) : Error × (Addressee × Env) :=
  match s.1 with
  | .object obj =>
    let (error, obj, env) := deserializeObjectInstancesAt tlv size operation update 0 (obj, s.2)
    (error, (.object obj, env))
  | .objectInstance oi =>
    let (error, oi, env) := deserializeResourcesAt tlv size operation update 0 (oi, s.2)
    (error, (.objectInstance oi, env))
  | .resource r =>
    let (error, r, env) :=
      deserializeResourceInstancesOf tlv size operation update (valueOffset tlv) (r, s.2)
    (error, (.resource r, env))

namespace Addressee

/-- The first record has a type the entry point starts on. -/
def startsOn (tlv : Nat → UInt8) : Addressee → Bool
  | .object _ => recType tlv 0 == typeObjectInstance
  | .objectInstance _ => recType tlv 0 == typeResource || recType tlv 0 == typeMultipleResource
  | .resource _ => recType tlv 0 == typeMultipleResource

/-- Addressees as trees of one kind: an object instance or resource is put into an otherwise empty
object. -/
def forest : Addressee → M2MObject
  | .object obj => obj
  | .objectInstance oi => ⟨[oi]⟩
  | .resource r => ⟨[⟨0, [r]⟩]⟩

/-- Walks over resource instances get the object instance. -/
def nested : Addressee → Bool
  | .object _ => true
  | .objectInstance _ => true
  | .resource _ => false

def SameKind : Addressee → Addressee → Prop
  | .object _, .object _ => True
  | .objectInstance _, .objectInstance _ => True
  | .resource _, .resource _ => True
  | _, _ => False

def visits (tlv : Nat → UInt8) (size : Nat) : Addressee → List Visit
  | .object obj => objectVisits tlv size obj 0
  | .objectInstance oi => (resourceVisits tlv size oi 0).map (.inside 0)
  | .resource _ => (memberRecords tlv size false (recContent tlv 0)).map
      fun p => .inside 0 (.member 0 p)

theorem SameKind.refl (a : Addressee) : a.SameKind a := by cases a <;> trivial

theorem SameKind.trans {a b c : Addressee} (h : a.SameKind b) (k : b.SameKind c) :
    a.SameKind c := by
  cases a <;> cases b <;> cases c <;> trivial

theorem SameKind.eq {a b : Addressee} (h : a.SameKind b) (hf : b.forest = a.forest) : b = a := by
  cases a <;> cases b <;> first | exact h.elim | simpa [forest] using hf

theorem SameKind.nested {a b : Addressee} (h : a.SameKind b) : b.nested = a.nested := by
  cases a <;> cases b <;> first | rfl | exact h.elim

end Addressee

variable (tlv : Nat → UInt8) (size : Nat) (operation : Operation) (update : Bool)

theorem recType_zero (type : UInt8) : isType type (some tlv) = (recType tlv 0 == type) := by
  rw [recType_eq]
  rfl

theorem valueOffset_eq : valueOffset tlv = recContent tlv 0 := by
  have hsizes : ∀ n : Fin 256, (let b : UInt8 := UInt8.ofFin n
      let offset := if b &&& 0x20 = 0 then 2 else 3
      if b &&& 0x18 = 0x08 then offset + 1 else if b &&& 0x18 = 0x10 then offset + 2
      else if b &&& 0x18 = 0x18 then offset + 3 else offset) =
      0 + 1 + TypeIdLength.idSize (UInt8.ofFin n &&& id16) +
        TypeIdLength.lengthSize (UInt8.ofFin n &&& length24) := by
    decide +kernel
  rw [recContent_eq, valueOffset]
  exact hsizes (tlv 0).toFin

/-- Repackaging the state of a walk repackages its two passes. -/
theorem twice_map {σ τ : Type*} (f : σ → τ) (walk : Bool → σ → Error × σ)
    (walk' : Bool → τ → Error × τ)
    (h : ∀ update s, walk' update (f s) = ((walk update s).1, f (walk update s).2))
    (s : σ) : twice walk' (f s) = ((twice walk s).1, f (twice walk s).2) := by
  simp only [twice, h]
  split_ifs <;> rfl

/-- An entry point refuses a buffer it does not start on, and else makes its passes. -/
theorem deserialize_eq (a : Addressee) (env : Env) :
    deserialize (some tlv) size operation a env =
      if a.startsOn tlv then twice (pass tlv size operation) (a, env.note (.byte 0))
      else (.notValid, (a, env.note (.byte 0))) := by
  cases a with
  | object obj =>
    have ht := twice_map (fun s : M2MObject × Env => (Addressee.object s.1, s.2))
      (fun update => deserializeObjectInstancesAt tlv size operation update 0)
      (pass tlv size operation) (fun update s => rfl) (obj, env.note (.byte 0))
    simp only [deserialize, deserialiseObjectInstances, recType_zero, Addressee.startsOn]
    by_cases h : (recType tlv 0 == typeObjectInstance) = true
    · simp only [h, if_true]
      exact ht.symm
    · simp only [h, Bool.false_eq_true, if_false]
  | objectInstance oi =>
    have ht := twice_map (fun s : M2MObjectInstance × Env => (Addressee.objectInstance s.1, s.2))
      (fun update => deserializeResourcesAt tlv size operation update 0)
      (pass tlv size operation) (fun update s => rfl) (oi, env.note (.byte 0))
    simp only [deserialize, deserializeResources, recType_zero, Addressee.startsOn, ← Bool.not_or]
    by_cases h : (recType tlv 0 == typeResource || recType tlv 0 == typeMultipleResource) = true
    · simp only [h, Bool.not_true, Bool.false_eq_true, if_false, if_true]
      exact ht.symm
    · simp only [h, Bool.not_false, Bool.false_eq_true, if_false, if_true]
  | resource r =>
    have ht := twice_map (fun s : M2MResource × Env => (Addressee.resource s.1, s.2))
      (fun update => deserializeResourceInstancesOf tlv size operation update (valueOffset tlv))
      (pass tlv size operation) (fun update s => rfl) (r, env.note (.byte 0))
    simp only [deserialize, deserializeResourceInstances, recType_zero, Addressee.startsOn]
    by_cases h : (recType tlv 0 == typeMultipleResource) = true
    · simp only [h, Bool.not_true, Bool.false_eq_true, if_false, if_true]
      exact ht.symm
    · simp only [h, Bool.not_false, Bool.false_eq_true, if_false, if_true]

/-- A pass is the run over its visits and answers with the verdict of the last one. -/
theorem pass_run (a : Addressee) (env : Env) :
    let t := pass tlv size operation update (a, env)
    t.1 = lastVerdict (objectVerdict tlv operation update a.nested a.forest) (a.visits tlv size) ∧
      a.SameKind t.2.1 ∧ (t.2.1.forest, t.2.2) =
        Trace.fold (objectVisit tlv operation update a.nested) (a.visits tlv size)
          (a.forest, env) := by
  cases a with
  | object obj =>
    simp only [pass, objects_run]
    exact ⟨rfl, trivial, rfl⟩
  | objectInstance oi =>
    simp only [pass, resources_run]
    refine ⟨?_, trivial, ?_⟩
    · rw [lastVerdict, lastVerdict, Addressee.visits, List.getLast?_map, Option.map_map]
      rfl
    · have hvisit : (fun v => objectVisit tlv operation update true (.inside 0 v)) =
          fun v => (M2MObject.instanceAt 0).zoom (resourceVisit tlv operation update true v) := rfl
      rw [Addressee.visits, Trace.fold_map, Addressee.nested, hvisit, ← Slot.zoom_fold]
      exact (Slot.zoom_some (s := (⟨[oi]⟩, env)) (M2MObject.instanceAt 0) rfl).symm
  | resource r =>
    simp only [pass, deserializeResourceInstancesOf_eq, valueOffset_eq]
    refine ⟨?_, trivial, ?_⟩
    · rw [lastVerdict, lastVerdict, Addressee.visits, List.getLast?_map, Option.map_map]
      rfl
    · have hvisit : (fun p => objectVisit tlv operation update false (.inside 0 (.member 0 p))) =
          fun p => (M2MObject.resourceAt 0 0).zoom (memberStep tlv operation update none p) := by
        funext p s
        rw [M2MObject.resourceAt, Slot.trans_zoom]
        rfl
      rw [Addressee.visits, Trace.fold_map, Addressee.nested, hvisit, ← Slot.zoom_fold]
      exact (Slot.zoom_some (s := (⟨[⟨0, [r]⟩]⟩, env)) (M2MObject.resourceAt 0 0) rfl).symm

end MbedClient.Tlv
