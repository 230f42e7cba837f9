import MbedClient.Tlv.Creation

/-! What the checking pass adds to a tree. `Post` makes the nodes that it misses as far as there is
memory for them, and before it is known whether the check finds an error. -/
namespace MbedClient.Tlv
variable (tlv : Nat → UInt8) (operation : Operation) (nested : Bool)

/-- Of the visits that miss a node that can be made, one gets the memory for it. -/
def Adds (obj : M2MObject) : List Visit → Heap → Prop
  | [], _ => False
  | v :: l, h =>
    (visitCreatable tlv operation nested obj v ∧ (h.newNode.1 = true ∨ Adds obj l h.newNode.2)) ∨
    (¬visitCreatable tlv operation nested obj v ∧ Adds obj l h)

/-- A check that adds nothing: it leaves the tree and, if it tried, one allocation less. -/
structure Spares {σ : Type} (creatable : Prop) (s s' : σ × Env) : Prop where
  tree : s'.1 = s.1
  tried : creatable → s'.2.heap = s.2.heap.newNode.2
  passed : ¬creatable → s'.2.heap = s.2.heap

variable {tlv operation nested}

theorem memberStep_spares {owner : Option UInt16} {p : Nat} {s : M2MResource × Env}
    (h : ¬memberCreated tlv operation owner p s) :
    Spares (memberTarget tlv p s.1 = none ∧ instanceStop tlv owner.isSome p = false ∧
      createsMembers operation owner.isSome = true ∧ memberCreatable tlv p s.1 = true)
      s (memberStep tlv operation false owner p s) := by
  obtain ⟨-, hc, hs⟩ | ⟨k, i, hu, -⟩ | ⟨ht, hstop, hc, hs⟩ :=
    memberStep_cases tlv operation false owner p s
  · rw [hs]
    exact ⟨rfl, fun h => absurd ((hc h.1 h.2.1).symm.trans h.2.2.1) Bool.false_ne_true,
      fun _ => rfl⟩
  · cases hu
  · rw [hs, createMember_eq]
    have hh : (s.2.read (header tlv p)).heap = s.2.heap := rfl
    rw [hh]
    split_ifs with hm hn
    · exact absurd ⟨ht, hstop, hc, hm, hn⟩ h
    · exact ⟨rfl, fun _ => rfl, fun h => absurd ⟨ht, hstop, hc, hm⟩ h⟩
    · exact ⟨rfl, fun h => absurd h.2.2.2 hm, fun _ => rfl⟩

theorem ownStep_spares {p : Nat} {s : M2MObjectInstance × Env}
    (h : ¬resourceCreated tlv operation p s) :
    Spares (resourceCreatableBy tlv operation nested s.1 (.own p)) s
      (ownStep tlv operation false p s) := by
  obtain ⟨-, hc, hs⟩ | ⟨k, r, hu, -⟩ | ⟨ht, hown, hc, hs⟩ :=
    ownStep_cases tlv operation false p s
  · rw [hs]
    exact ⟨rfl, fun h => absurd ((hc h.1 h.2.1).symm.trans h.2.2.1) (by decide), fun _ => rfl⟩
  · cases hu
  · rw [hs, createResource_eq]
    have hh : (s.2.read (header tlv p)).heap = s.2.heap := rfl
    rw [hh]
    split_ifs with hm hn
    · exact absurd ⟨ht, hown, hc, hm, hn⟩ h
    · exact ⟨rfl, fun _ => rfl, fun h => absurd ⟨ht, hown, hc, hm⟩ h⟩
    · exact ⟨rfl, fun h => absurd h.2.2.2 hm, fun _ => rfl⟩

/-- What is spared inside a place is spared. -/
theorem Spares.zoom {σ α : Type} {l : Slot σ α} {f : α × Env → α × Env} {s : σ × Env} {a : α}
    {creatable creatable' : Prop} (ha : l.get s.1 = some a)
    (h : Spares creatable (a, s.2) (f (a, s.2))) (hc : creatable' ↔ creatable) :
    Spares creatable' s (l.zoom f s) := by
  rw [Slot.zoom_some _ ha]
  refine ⟨?_, fun h' => h.tried (hc.mp h'), fun h' => h.passed (mt hc.mpr h')⟩
  rw [h.tree]
  exact l.put_get s.1 a ha

theorem Spares.missing {σ α : Type} {l : Slot σ α} {f : α × Env → α × Env} {s : σ × Env}
    {creatable : Prop} (ha : l.get s.1 = none) (hc : ¬creatable) :
    Spares creatable s (l.zoom f s) := by
  rw [Slot.zoom_none _ ha]
  exact ⟨rfl, fun h => absurd h hc, fun _ => rfl⟩

theorem resourceVisit_spares {v : ResourceVisit} {s : M2MObjectInstance × Env}
    (h : ¬resourceCreates tlv operation nested v s) :
    Spares (resourceCreatableBy tlv operation nested s.1 v) s
      (resourceVisit tlv operation false nested v s) := by
  cases v with
  | own p => exact ownStep_spares h
  | member k p =>
    cases hk : s.1.resources[k]? with
    | none => exact Spares.missing (by exact hk) fun ⟨r, hr, _⟩ => nomatch hk.symm.trans hr
    | some r =>
      have hnot : ¬memberCreated tlv operation (ownerOf nested s.1) p (r, s.2) :=
        fun hc => h ⟨r, hk, hc⟩
      refine (memberStep_spares hnot).zoom (by exact hk) ?_
      simp [resourceCreatableBy, hk, ownerOf_isSome]

theorem objectVisit_spares {v : Visit} {s : M2MObject × Env}
    (h : ¬visitCreates tlv operation nested v s) :
    Spares (visitCreatable tlv operation nested s.1 v) s
      (objectVisit tlv operation false nested v s) := by
  cases v with
  | object p => exact ⟨rfl, fun h => h.elim, fun _ => rfl⟩
  | inside j v =>
    cases hj : s.1.instances[j]? with
    | none => exact Spares.missing (by exact hj) fun ⟨oi, hoi, _⟩ => nomatch hj.symm.trans hoi
    | some oi =>
      have hnot : ¬resourceCreates tlv operation nested v (oi, s.2) := fun hc => h ⟨oi, hj, hc⟩
      refine (resourceVisit_spares hnot).zoom (by exact hj) ?_
      simp [visitCreatable, hj]

/-- A node that is added comes with a variable that was not there. -/
theorem visitCreates_base {v : Visit} {s : M2MObject × Env} (update : Bool)
    (h : visitCreates tlv operation nested v s) : ∃ t, s.1.base? t = none ∧
      ((objectVisit tlv operation update nested v s).1.base? t).isSome = true := by
  cases v with
  | object p => exact h.elim
  | inside j v =>
    obtain ⟨oi, hj, hc⟩ := h
    have hjlt := (List.getElem?_eq_some_iff.mp hj).1
    rw [objectVisit, Slot.zoom_some (a := oi) _ (by exact hj)]
    cases v with
    | own p =>
      obtain ⟨ht, hown, rfl, hcr, hn⟩ := hc
      have hstep : (ownStep tlv .post update p (oi, s.2)).1.resources =
          oi.resources ++ [newResource tlv p] := by
        have hcreate := createResource_eq tlv p oi (s.2.read (header tlv p))
        rw [if_pos hcr, if_pos (by exact hn)] at hcreate
        simp [ownStep, ht, hown, hcreate]
      refine ⟨⟨j, oi.resources.length, none⟩,
        by simp [M2MObject.base?, M2MObjectInstance.base?, hj], ?_⟩
      simp [M2MObject.base?, M2MObject.instanceAt, Slot.entry, hjlt, resourceVisit,
        M2MObjectInstance.base?, hstep, M2MResource.base?]
    | member k p =>
      obtain ⟨r, hk, ht, hs, hcr, hm, hn⟩ := hc
      have hklt := (List.getElem?_eq_some_iff.mp hk).1
      have hstep : (memberStep tlv operation update (ownerOf nested oi) p (r, s.2)).1.instances =
          r.instances ++ [newMember tlv p] := by
        have hcreate := createMember_eq tlv (ownerOf nested oi) p r (s.2.read (header tlv p))
        rw [if_pos hm, if_pos (by exact hn)] at hcreate
        simp only [ownerOf_isSome] at hs hcr
        simp [memberStep, ht, ownerOf_isSome, hs, hcr, hcreate]
      refine ⟨⟨j, k, some r.instances.length⟩,
        by simp [M2MObject.base?, M2MObjectInstance.base?, M2MResource.base?, hj, hk], ?_⟩
      rw [resourceVisit, Slot.zoom_some (a := r) _ (by exact hk)]
      simp [M2MObject.base?, M2MObject.instanceAt, Slot.entry, hjlt, M2MObjectInstance.resourceAt,
        M2MObjectInstance.base?, hklt, hstep, M2MResource.base?]

section Fold
variable {c : Bool} {l : List Visit}

theorem fold_spared {s : M2MObject × Env} (h : ¬Adds tlv operation nested s.1 l s.2.heap) :
    (Trace.fold (objectVisit tlv operation false nested) l s).1 = s.1 := by
  induction l generalizing s with
  | nil => rfl
  | cons v l ih =>
    obtain ⟨hmade, hrest⟩ := not_or.mp h
    have hnot : ¬visitCreates tlv operation nested v s := fun hc => by
      obtain ⟨hv, hn⟩ := (visitCreates_iff tlv operation nested v s).mp hc
      exact hmade ⟨hv, .inl hn⟩
    have hspares := objectVisit_spares hnot
    rw [Trace.fold_cons, ih, hspares.tree]
    rw [hspares.tree]
    by_cases hv : visitCreatable tlv operation nested s.1 v
    · rw [hspares.tried hv]
      exact fun hadds => hmade ⟨hv, .inr hadds⟩
    · rw [hspares.passed hv]
      exact fun hadds => hrest ⟨hv, hadds⟩

/-- The tree is not what it was, since what has been added stays. -/
theorem fold_added (hc : ∀ v ∈ l, v.creates operation nested = true → c = true)
    {s : M2MObject × Env} (h : Adds tlv operation nested s.1 l s.2.heap) : ∃ t, s.1.base? t = none ∧
      ((Trace.fold (objectVisit tlv operation false nested) l s).1.base? t).isSome = true := by
  induction l generalizing s with
  | nil => exact h.elim
  | cons v l ih =>
    have hcl : ∀ v ∈ l, v.creates operation nested = true → c = true :=
      fun v hv => hc v (List.mem_cons_of_mem _ hv)
    rw [Trace.fold_cons]
    by_cases hv : visitCreates tlv operation nested v s
    · obtain ⟨t, hnone, hsome⟩ := visitCreates_base false hv
      obtain ⟨b, hb⟩ := Option.isSome_iff_exists.mp hsome
      obtain ⟨b', hb', -⟩ := (objectVisits_fold_grows tlv operation false nested hcl _).base? hb
      exact ⟨t, hnone, by rw [hb', Option.isSome_some]⟩
    · have hspares := objectVisit_spares hv
      rw [← hspares.tree]
      refine ih hcl ?_
      rw [hspares.tree]
      obtain ⟨hcreatable, hn | hrest⟩ | ⟨hcreatable, hrest⟩ := h
      · exact absurd ((visitCreates_iff tlv operation nested v s).mpr ⟨hcreatable, hn⟩) hv
      · rwa [hspares.tried hcreatable]
      · rwa [hspares.passed hcreatable]

/-- A PUT adds nothing. -/
theorem not_adds_put (obj : M2MObject) (l : List Visit) (h : Heap) :
    ¬Adds tlv .put nested obj l h := by
  have hnever (v : Visit) : ¬visitCreatable tlv .put nested obj v := fun hv => by
    cases v with
    | object p => exact hv
    | inside j v =>
      obtain ⟨oi, -, hv⟩ := hv
      cases v with
      | own p => exact nomatch hv.2.2.1
      | member k p =>
        obtain ⟨r, -, -, -, hc, -⟩ := hv
        simp [createsMembers] at hc
  induction l generalizing h with
  | nil => exact id
  | cons v l ih => exact fun hadds => hadds.elim (fun hc => hnever v hc.1) fun hc => ih h hc.2

end Fold

namespace Addressee
variable {size : Nat} {a : Addressee} {env : Env}

/-- A decoder that gets as far as its first pass adds a node to what it was given. -/
def Enlarged (tlv : Nat → UInt8) (size : Nat) (operation : Operation) (h : Heap) (a : Addressee) :
    Prop := a.startsOn tlv = true ∧ Adds tlv operation a.nested a.forest (a.visits tlv size) h

theorem refused_spared (hr : ¬a.Accepted tlv size operation)
    (h : ¬a.Enlarged tlv size operation env.heap) :
    (deserialize (some tlv) size operation a env).2.1 = a := by
  rw [deserialize_eq]
  cases hs : a.startsOn tlv with
  | false => rfl
  | true =>
    have hv : a.verdict tlv size operation ≠ .none := fun hv => hr ⟨hs, hv⟩
    rw [if_pos rfl, twice, pass_verdict, if_neg hv]
    have hforest := pass_forest tlv size operation false a (env.note (.byte 0))
    rw [fold_spared (fun hadds => h ⟨hs, hadds⟩)] at hforest
    exact (pass_kind tlv size operation false a _).eq hforest

theorem refused_enlarged (hr : ¬a.Accepted tlv size operation)
    (h : a.Enlarged tlv size operation env.heap) : ∃ t, a.forest.base? t = none ∧
      ((deserialize (some tlv) size operation a env).2.1.forest.base? t).isSome = true := by
  have hv : a.verdict tlv size operation ≠ .none := fun hv => hr ⟨h.1, hv⟩
  rw [deserialize_eq, if_pos h.1, twice, pass_verdict, if_neg hv]
  have hforest := pass_forest tlv size operation false a (env.note (.byte 0))
  rw [hforest]
  exact fold_added (visits_create tlv size operation a) (s := (a.forest, env.note (.byte 0))) h.2

end Addressee
end MbedClient.Tlv
