import MbedClient.Paths
import MbedClient.Tlv.Passes

/-! The decoder names what it adds by a number, so that the names of a tree stay valid. -/
namespace MbedClient
open Identity (ValidName)

def M2MObjectInstance.Named (oi : M2MObjectInstance) : Prop := ∀ r ∈ oi.resources, ValidName r.name

def M2MObject.Named (obj : M2MObject) : Prop := ∀ oi ∈ obj.instances, oi.Named

theorem M2MObjectInstance.Named.set {oi : M2MObjectInstance} (h : oi.Named) {k : Nat}
    {r r' : M2MResource} (hk : oi.resources[k]? = some r) (hr : r'.name = r.name) :
    ({ oi with resources := oi.resources.set k r' } : M2MObjectInstance).Named := by
  intro r'' hr''
  rcases List.mem_or_eq_of_mem_set hr'' with hmem | rfl
  · exact h r'' hmem
  · rw [hr]
    exact h r (List.mem_of_getElem? hk)

theorem M2MObject.Named.set {obj : M2MObject} (h : obj.Named) {oi : M2MObjectInstance}
    (hoi : oi.Named) (j : Nat) : M2MObject.Named ⟨obj.instances.set j oi⟩ := by
  intro oi' hoi'
  rcases List.mem_or_eq_of_mem_set hoi' with hmem | rfl
  · exact h oi' hmem
  · exact hoi

theorem validName_idText (id : UInt16) : ValidName (idText id) :=
  ⟨List.length_pos_iff.mpr (idText_ne_nil id),
    (length_idText_le id).trans (by decide), slash_notMem_idText id⟩

namespace Tlv
variable (tlv : Nat → UInt8) (size : Nat) (operation : Operation) (update : Bool)

theorem ownStep_named (o : Nat) (s : M2MObjectInstance × Env) (h : s.1.Named) :
    (ownStep tlv operation update o s).1.Named := by
  obtain ⟨-, -, hs⟩ | ⟨k, r, -, -, hk, -, hs⟩ | ⟨-, -, -, hs⟩ :=
    ownStep_cases tlv operation update o s
  · rw [hs]
    exact h
  · rw [hs]
    exact h.set hk (storeResource_grows tlv o _ false r _).name
  · rw [hs, createResource_eq]
    split_ifs
    · intro r hr
      rcases List.mem_append.mp hr with hmem | hmem
      · exact h r hmem
      · rw [List.mem_singleton.mp hmem]
        exact validName_idText (recId tlv o)
    · exact h
    · exact h

theorem resourceVisit_named (nested : Bool) (v : ResourceVisit) (s : M2MObjectInstance × Env)
    (h : s.1.Named) : (resourceVisit tlv operation update nested v s).1.Named := by
  cases v with
  | own p => exact ownStep_named tlv operation update p s h
  | member k p =>
    cases hk : s.1.resources[k]? with
    | none =>
      rw [resourceVisit, Slot.zoom_none _ (by exact hk)]
      exact h
    | some r =>
      rw [resourceVisit, Slot.zoom_some (a := r) _ (by exact hk)]
      exact h.set hk (memberStep_grows tlv operation update _ p (r, s.2)).name

theorem objectVisit_named (nested : Bool) (v : Visit) (s : M2MObject × Env) (h : s.1.Named) :
    (objectVisit tlv operation update nested v s).1.Named := by
  cases v with
  | object p => exact h
  | inside j v =>
    cases hj : s.1.instances[j]? with
    | none =>
      rw [objectVisit, Slot.zoom_none _ (by exact hj)]
      exact h
    | some oi =>
      rw [objectVisit, Slot.zoom_some (a := oi) _ (by exact hj)]
      exact h.set (resourceVisit_named tlv operation update nested v (oi, s.2)
        (h oi (List.mem_of_getElem? hj))) j

theorem pass_named (a : Addressee) (env : Env) (h : a.forest.Named) :
    (pass tlv size operation update (a, env)).2.1.forest.Named := by
  rw [pass_forest]
  exact Trace.fold_invariant (I := fun s : M2MObject × Env => s.1.Named)
    (fun v _ s hs => objectVisit_named tlv operation update a.nested v s hs) h

theorem deserialize_named (tlv : Option (Nat → UInt8)) (a : Addressee) (env : Env)
    (h : a.forest.Named) : (deserialize tlv size operation a env).2.1.forest.Named := by
  cases tlv with
  | none => cases a <;> exact h
  | some tlv =>
    have hchecked := pass_named tlv size operation false a (env.note (.byte 0)) h
    by_cases hc : a.Accepted tlv size operation
    · rw [deserialize_accepted tlv size operation a env hc]
      exact pass_named tlv size operation true _ _ hchecked
    · obtain hr | ⟨-, hr⟩ := deserialize_refused tlv size operation a env hc
      · rw [hr]
        exact h
      · rw [hr]
        exact hchecked

/-! The three public functions leave the names of what they decode into. -/
section Public
variable (tlv : Option (Nat → UInt8)) (env : Env)

theorem deserialiseObjectInstances_kept {obj : M2MObject} (h : obj.Named) :
    (deserialiseObjectInstances tlv size operation (obj, env)).2.1.Named :=
  deserialize_named size operation tlv (.object obj) env h

theorem deserializeResources_kept (oi : M2MObjectInstance) :
    let oi' := (deserializeResources tlv size operation (oi, env)).2.1
    oi'.instanceId = oi.instanceId ∧ (oi.Named → oi'.Named) := by
  intro oi'
  constructor
  · cases tlv with
    | none => rfl
    | some tlv =>
      cases deserialize_grows tlv size operation (.objectInstance oi) env with
      | cons hoi _ => exact hoi.instanceId
  · intro h
    have hforest : (Addressee.objectInstance oi).forest.Named := by
      intro oi'' hoi''
      rwa [List.mem_singleton.mp hoi'']
    exact deserialize_named size operation tlv (.objectInstance oi) env hforest oi'
      (List.mem_singleton_self _)

theorem deserializeResourceInstances_kept (r : M2MResource) :
    (deserializeResourceInstances tlv size operation (r, env)).2.1.name = r.name := by
  cases tlv with
  | none => rfl
  | some tlv =>
    cases deserialize_grows tlv size operation (.resource r) env with
    | cons hoi _ =>
      cases hoi.resources with
      | cons hr _ => exact hr.name

end Public
end Tlv
end MbedClient
