import MbedClient.Membership
import MbedClient.Tlv.Passes

/-! The decoder gives no two nodes of a list the same name or id. -/
namespace MbedClient.Tlv
variable (tlv : Nat → UInt8) (size : Nat) (operation : Operation) (update : Bool)

theorem memberStep_unique (owner : Option UInt16) (o : Nat) (s : M2MResource × Env)
    (h : s.1.Unique) : (memberStep tlv operation update owner o s).1.Unique := by
  obtain ⟨-, -, hs⟩ | ⟨k, i, -, -, hk, -, hs⟩ | ⟨-, -, -, hs⟩ :=
    memberStep_cases tlv operation update owner o s
  · rw [hs]
    exact h
  · rw [hs]
    exact Keyed.Unique.set h hk (storeMember_keeps tlv owner o _ i _).instanceId
  · rw [hs, createMember_eq]
    split_ifs with hc
    · exact h.append (i := newMember tlv o) (Bool.and_eq_true_iff.mp hc).2
    · exact h
    · exact h

theorem ownStep_unique (o : Nat) (s : M2MObjectInstance × Env) (h : s.1.Unique) :
    (ownStep tlv operation update o s).1.Unique := by
  obtain ⟨-, -, hs⟩ | ⟨k, r, -, -, hk, -, hs⟩ | ⟨-, -, -, hs⟩ :=
    ownStep_cases tlv operation update o s
  · rw [hs]
    exact h
  · rw [hs]
    exact h.set hk rfl (h.members r (List.mem_of_getElem? hk))
  · rw [hs, createResource_eq]
    split_ifs with hc
    · exact h.push (r := newResource tlv o) hc rfl
    · exact h
    · exact h

theorem resourceVisit_unique (nested : Bool) (v : ResourceVisit) (s : M2MObjectInstance × Env)
    (h : s.1.Unique) : (resourceVisit tlv operation update nested v s).1.Unique := by
  cases v with
  | own p => exact ownStep_unique tlv operation update p s h
  | member k p =>
    cases hk : s.1.resources[k]? with
    | none =>
      rw [resourceVisit, Slot.zoom_none _ (by exact hk)]
      exact h
    | some r =>
      rw [resourceVisit, Slot.zoom_some (a := r) _ (by exact hk)]
      exact h.set hk (memberStep_grows tlv operation update _ p (r, s.2)).name
        (memberStep_unique tlv operation update _ p (r, s.2)
          (h.members r (List.mem_of_getElem? hk)))

theorem objectVisit_unique (nested : Bool) (v : Visit) (s : M2MObject × Env) (h : s.1.Unique) :
    (objectVisit tlv operation update nested v s).1.Unique := by
  cases v with
  | object p => exact h
  | inside j v =>
    cases hj : s.1.instances[j]? with
    | none =>
      rw [objectVisit, Slot.zoom_none _ (by exact hj)]
      exact h
    | some oi =>
      rw [objectVisit, Slot.zoom_some (a := oi) _ (by exact hj)]
      exact h.set hj (resourceVisit_grows tlv operation update nested v (oi, s.2)).instanceId
        (resourceVisit_unique tlv operation update nested v (oi, s.2)
          (h.instances oi (List.mem_of_getElem? hj)))

theorem pass_unique (a : Addressee) (env : Env) (h : a.forest.Unique) :
    (pass tlv size operation update (a, env)).2.1.forest.Unique := by
  rw [pass_forest]
  exact Trace.fold_invariant (I := fun s : M2MObject × Env => s.1.Unique)
    (fun v _ s hs => objectVisit_unique tlv operation update a.nested v s hs) h

/-- Whatever is decoded, and whether it is accepted or not. -/
theorem deserialize_unique (tlv : Option (Nat → UInt8)) (a : Addressee) (env : Env)
    (h : a.forest.Unique) : (deserialize tlv size operation a env).2.1.forest.Unique := by
  cases tlv with
  | none => cases a <;> exact h
  | some tlv =>
    have hchecked := pass_unique tlv size operation false a (env.note (.byte 0)) h
    by_cases hc : a.Accepted tlv size operation
    · rw [deserialize_accepted tlv size operation a env hc]
      exact pass_unique tlv size operation true _ _ hchecked
    · obtain hr | ⟨-, hr⟩ := deserialize_refused tlv size operation a env hc
      · rw [hr]
        exact h
      · rw [hr]
        exact hchecked

end MbedClient.Tlv
