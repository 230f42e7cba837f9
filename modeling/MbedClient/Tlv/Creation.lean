import MbedClient.Tlv.Trail

/-! Which visits have a variable to assign to, and which ones add a node when they miss one. -/
namespace MbedClient.Tlv
variable (tlv : Nat → UInt8) (operation : Operation) (update nested : Bool)

/-- A visit that can assign at all: it reads its record as a resource or resource instance. -/
def ResourceVisit.Assigns : ResourceVisit → Prop
  | .own p => isOwn tlv p = true
  | .member _ p => recType tlv p = typeResourceInstance

def Visit.Assigns : Visit → Prop
  | .object _ => False
  | .inside _ v => v.Assigns tlv

def resourceCreatableBy (oi : M2MObjectInstance) : ResourceVisit → Prop
  | .own p => ownTarget tlv p oi = none ∧ isOwn tlv p = true ∧ operation = .post ∧
    resourceCreatable tlv p oi = true
  | .member k p => ∃ r, oi.resources[k]? = some r ∧ memberTarget tlv p r = none ∧
    instanceStop tlv nested p = false ∧ createsMembers operation nested = true ∧
    memberCreatable tlv p r = true

def visitCreatable (obj : M2MObject) : Visit → Prop
  | .object _ => False
  | .inside j v => ∃ oi, obj.instances[j]? = some oi ∧
    resourceCreatableBy tlv operation nested oi v

theorem ownerOf_isSome (oi : M2MObjectInstance) : (ownerOf nested oi).isSome = nested := by
  cases nested <;> rfl

theorem visitCreates_iff (v : Visit) (s : M2MObject × Env) :
    visitCreates tlv operation nested v s ↔
      visitCreatable tlv operation nested s.1 v ∧ s.2.heap.newNode.1 = true := by
  cases v with
  | object p => simp [visitCreates, visitCreatable]
  | inside j v =>
    cases v with
    | own p =>
      simp only [visitCreates, resourceCreates, resourceCreated, visitCreatable,
        resourceCreatableBy]
      tauto
    | member k p =>
      simp only [visitCreates, resourceCreates, memberCreated, visitCreatable,
        resourceCreatableBy, ownerOf_isSome]
      tauto

section Targets
variable {tlv nested} {obj obj' : M2MObject} {writes creates : Bool}

theorem ownTarget_isSome {oi : M2MObjectInstance} {p : Nat} : (ownTarget tlv p oi).isSome = true ↔
    isOwn tlv p = true ∧ oi.resources.any (ownHit tlv p) = true := by
  unfold ownTarget
  split_ifs with h <;> simp [h]

theorem memberTarget_isSome {r : M2MResource} {p : Nat} : (memberTarget tlv p r).isSome = true ↔
    r.instances.any (memberHit tlv p) = true := by
  rw [memberTarget, List.findIdx?_isSome]

theorem memberTarget_of_type {r : M2MResource} {p : Nat}
    (h : recType tlv p ≠ typeResourceInstance) :
    memberTarget tlv p r = none := by
  rw [memberTarget, List.findIdx?_eq_none_iff]
  intro i _
  simp [memberHit, h]

theorem assigns_of_target {v : Visit} (h : (visitTarget tlv obj v).isSome = true) :
    v.Assigns tlv := by
  obtain ⟨t, ht⟩ := Option.isSome_iff_exists.mp h
  cases v with
  | object p => simp [visitTarget] at ht
  | inside j v =>
    obtain ⟨oi, -, ht⟩ := Option.bind_eq_some_iff.mp ht
    obtain ⟨x, hx, -⟩ := Option.map_eq_some_iff.mp ht
    cases v with
    | own p =>
      obtain ⟨k, hk, -⟩ := Option.map_eq_some_iff.mp hx
      exact (ownTarget_some tlv p hk).1
    | member k p =>
      obtain ⟨r, -, hx⟩ := Option.bind_eq_some_iff.mp hx
      obtain ⟨m, hm, -⟩ := Option.map_eq_some_iff.mp hx
      obtain ⟨i, -, hi⟩ := memberTarget_some tlv p hm
      exact eq_of_beq (Bool.and_eq_true_iff.mp hi).2

theorem visitTarget_mono (h : obj.Grows writes creates obj') {v : Visit}
    (hv : (visitTarget tlv obj v).isSome = true) : (visitTarget tlv obj' v).isSome = true := by
  cases v with
  | object p => simp [visitTarget] at hv
  | inside j v =>
    cases hj : obj.instances[j]? with
    | none => simp [visitTarget, hj] at hv
    | some oi =>
      obtain ⟨oi', hj', hoi⟩ := Grown.getElem? h hj
      simp only [visitTarget, hj, hj', Option.bind_some, Option.isSome_map] at hv ⊢
      cases v with
      | own p =>
        simp only [resourceTarget, Option.isSome_map, ownTarget_isSome] at hv ⊢
        exact ⟨hv.1, Grown.any_mono (fun _ _ => ownHit_grows tlv) hoi.resources hv.2⟩
      | member k p =>
        cases hk : oi.resources[k]? with
        | none => simp [resourceTarget, hk] at hv
        | some r =>
          obtain ⟨r', hk', hr⟩ := hoi.resources.getElem? hk
          simp only [resourceTarget, hk, hk', Option.bind_some, Option.isSome_map,
            memberTarget_isSome] at hv ⊢
          exact Grown.any_mono (fun _ _ => memberHit_keeps tlv) hr.instances hv

/-- Growth without creation adds no targets. -/
theorem visitTarget_same (h : obj.Grows writes false obj') {v : Visit}
    (hp : v.Placed nested obj) (hv : (visitTarget tlv obj' v).isSome = true) :
    (visitTarget tlv obj v).isSome = true := by
  cases v with
  | object p => simp [visitTarget] at hv
  | inside j v =>
    obtain ⟨oi, hj, hp⟩ := hp
    obtain ⟨oi', hj', hoi⟩ := Grown.getElem? h hj
    simp only [visitTarget, hj, hj', Option.bind_some, Option.isSome_map] at hv ⊢
    cases v with
    | own p =>
      simp only [resourceTarget, Option.isSome_map, ownTarget_isSome] at hv ⊢
      have hany := Grown.any_eq (f := ownHit tlv p) (fun _ _ => ownHit_grows tlv)
        (fun r (k : M2MResource.Fresh false r) => absurd k.1 Bool.false_ne_true) hoi.resources
      exact ⟨hv.1, hany ▸ hv.2⟩
    | member k p =>
      obtain ⟨r, hk, -⟩ := hp
      obtain ⟨r', hk', hr⟩ := hoi.resources.getElem? hk
      simp only [resourceTarget, hk, hk', Option.bind_some, Option.isSome_map,
        memberTarget_isSome] at hv ⊢
      have hany := Grown.any_eq (f := memberHit tlv p) (fun _ _ => memberHit_keeps tlv)
        (fun i (k : M2MResourceInstance.Fresh false i) => absurd k.1 Bool.false_ne_true)
        hr.instances
      exact hany ▸ hv

/-- A target that is found on the way was there before or has been created. -/
theorem visitTarget_grown (h : obj.Grows writes creates obj') {v : Visit}
    (hp : v.Placed nested obj) (hv : (visitTarget tlv obj' v).isSome = true) :
    (visitTarget tlv obj v).isSome = true ∨ (creates = true ∧ v.Assigns tlv) := by
  cases creates with
  | false => exact Or.inl (visitTarget_same h hp hv)
  | true => exact Or.inr ⟨rfl, assigns_of_target hv⟩

end Targets

section Creation
variable {tlv operation nested} {obj obj' : M2MObject} {v : Visit}

/-- A missing resource of an id has no resource with the id's numeral as name either. -/
theorem resourceCreatable_of_target {oi : M2MObjectInstance} {p : Nat} (hown : isOwn tlv p = true)
    (h : ownTarget tlv p oi = none) : resourceCreatable tlv p oi = true := by
  have hlt : (recId tlv p).toNat < 2 ^ 16 := (recId tlv p).toNat_lt
  rw [ownTarget, if_pos hown, List.findIdx?_eq_none_iff] at h
  rw [resourceCreatable, M2MObjectInstance.resource, Option.isNone_iff_eq_none, List.find?_eq_none]
  intro r hr hname
  have hid : r.nameId = ((recId tlv p).toNat : Int) := by
    rw [M2MResource.nameId, eq_of_beq hname]
    exact nameId_digits (by omega)
  exact absurd (h r hr) (by simp [ownHit, hid])

/-- A missing resource instance can be added to a valid multi-instance resource. -/
theorem memberCreatable_of_target {r : M2MResource} {p : Nat}
    (hname : validateStringLength r.name 1 maxAllowedStringLength = true)
    (hmulti : r.multipleInstance = true) (htype : recType tlv p = typeResourceInstance)
    (h : memberTarget tlv p r = none) : memberCreatable tlv p r = true := by
  have hnone : r.resourceInstance (recId tlv p) = none := by
    rw [M2MResource.resourceInstance, List.find?_eq_none]
    rw [memberTarget, List.findIdx?_eq_none_iff] at h
    intro i hi
    simpa [memberHit, htype] using h i hi
  simp [memberCreatable, hname, hmulti, hnone]

theorem visitCreatable_of_target (hpost : createsMembers operation nested = true)
    (hp : v.Placed nested obj) (hv : v.Assigns tlv) (ht : visitTarget tlv obj v = none) :
    visitCreatable tlv operation nested obj v := by
  obtain ⟨hn, ho⟩ : nested = true ∧ operation = .post := by
    simpa [createsMembers] using hpost
  cases v with
  | object p => exact hv.elim
  | inside j v =>
    obtain ⟨oi, hj, hp⟩ := hp
    refine ⟨oi, hj, ?_⟩
    simp only [visitTarget, hj, Option.bind_some, Option.map_eq_none_iff] at ht
    cases v with
    | own p =>
      have ht : ownTarget tlv p oi = none := by simpa [resourceTarget] using ht
      exact ⟨ht, hv, ho, resourceCreatable_of_target hv ht⟩
    | member k p =>
      obtain ⟨r, hk, hr⟩ := hp
      obtain ⟨hmulti, hname⟩ := hr hn
      have htype : recType tlv p = typeResourceInstance := hv
      have ht : memberTarget tlv p r = none := by simpa [resourceTarget, hk] using ht
      exact ⟨r, hk, ht, by simp [instanceStop, htype], hpost,
        memberCreatable_of_target hname hmulti htype ht⟩

/-- What can be added late could have been added before. -/
theorem visitCreatable_grown {writes creates : Bool} (h : obj.Grows writes creates obj')
    (hp : v.Placed nested obj) (hv : visitCreatable tlv operation nested obj' v) :
    visitCreatable tlv operation nested obj v := by
  cases v with
  | object p => exact hv
  | inside j v =>
    obtain ⟨oi, hj, hp⟩ := hp
    obtain ⟨oi', hj', hoi⟩ := Grown.getElem? h hj
    obtain ⟨oi'', hj'', hv⟩ := hv
    obtain rfl : oi' = oi'' := Option.some.inj (hj'.symm.trans hj'')
    refine ⟨oi, hj, ?_⟩
    cases v with
    | own p =>
      obtain ⟨ht, hown, ho, -⟩ := hv
      have ht : ownTarget tlv p oi = none := by
        rw [ownTarget, if_pos hown, ← Option.not_isSome_iff_eq_none, List.findIdx?_isSome] at ht ⊢
        exact fun hc => ht (Grown.any_mono (fun _ _ => ownHit_grows tlv) hoi.resources hc)
      exact ⟨ht, hown, ho, resourceCreatable_of_target hown ht⟩
    | member k p =>
      obtain ⟨r, hk, -⟩ := hp
      obtain ⟨r', hk', hr⟩ := hoi.resources.getElem? hk
      obtain ⟨r'', hk'', ht, hs, hc, hm⟩ := hv
      obtain rfl : r' = r'' := Option.some.inj (hk'.symm.trans hk'')
      refine ⟨r, hk, ?_, hs, hc, ?_⟩
      · rw [memberTarget, ← Option.not_isSome_iff_eq_none, List.findIdx?_isSome] at ht ⊢
        exact fun hc => ht (Grown.any_mono (fun _ _ => memberHit_keeps tlv) hr.instances hc)
      · have hid : ∀ i i' : M2MResourceInstance, i.Keeps writes i' →
            (i'.instanceId == recId tlv p) = (i.instanceId == recId tlv p) :=
          fun i i' k => by rw [k.instanceId]
        simp only [memberCreatable, Bool.and_eq_true, M2MResource.resourceInstance,
          Option.isNone_iff_eq_none, ← Option.not_isSome_iff_eq_none, List.find?_isSome,
          ← List.any_eq_true] at hm ⊢
        rw [hr.name, hr.multi] at hm
        exact ⟨hm.1, fun hc => hm.2 (Grown.any_mono hid hr.instances hc)⟩

/-- A visit that adds a node to assign to finds it afterwards. -/
theorem visitTarget_created {s : M2MObject × Env} (hc : visitCreates tlv operation nested v s)
    (hv : v.Assigns tlv) :
    (visitTarget tlv (objectVisit tlv operation update nested v s).1 v).isSome = true := by
  cases v with
  | object p => exact hv.elim
  | inside j v =>
    obtain ⟨oi, hj, hc⟩ := hc
    have hjlt := (List.getElem?_eq_some_iff.mp hj).1
    rw [objectVisit, Slot.zoom_some (a := oi) _ (by exact hj)]
    simp only [visitTarget, M2MObject.instanceAt, Slot.entry, List.getElem?_set_self hjlt,
      Option.bind_some, Option.isSome_map]
    cases v with
    | own p =>
      obtain ⟨ht, hown, rfl, hcr, hn⟩ := hc
      have hstep : (ownStep tlv .post update p (oi, s.2)).1.resources =
          oi.resources ++ [newResource tlv p] := by
        have hcreate := createResource_eq tlv p oi (s.2.read (header tlv p))
        rw [if_pos hcr, if_pos (by exact hn)] at hcreate
        simp [ownStep, ht, hown, hcreate]
      have hid := nameId_digits (n := (recId tlv p).toNat)
        (by have := (recId tlv p).toNat_lt; omega)
      simp [resourceVisit, resourceTarget, ownTarget_isSome, hstep, hown, ownHit, newResource,
        M2MResource.nameId, hid]
    | member k p =>
      obtain ⟨r, hk, ht, hs, hcr, hm, hn⟩ := hc
      have hklt := (List.getElem?_eq_some_iff.mp hk).1
      have htype : recType tlv p = typeResourceInstance := hv
      have hstep : (memberStep tlv operation update (ownerOf nested oi) p (r, s.2)).1.instances =
          r.instances ++ [newMember tlv p] := by
        have hcreate := createMember_eq tlv (ownerOf nested oi) p r (s.2.read (header tlv p))
        rw [if_pos hm, if_pos (by exact hn)] at hcreate
        simp only [ownerOf_isSome] at hs hcr
        simp [memberStep, ht, ownerOf_isSome, hs, hcr, hcreate]
      rw [resourceVisit, Slot.zoom_some (a := r) _ (by exact hk)]
      simp [resourceTarget, M2MObjectInstance.resourceAt, Slot.entry, hklt,
        memberTarget_isSome, hstep, memberHit, newMember, htype]

end Creation

section Check
variable (size : Nat) (a : Addressee) (env : Env)

def Addressee.Stores (v : Visit) : Prop := (visitTarget tlv a.forest v).isSome = true ∨
  (createsMembers operation a.nested = true ∧ v.Assigns tlv)

/-- The first pass makes the variables that the second one will assign to. -/
theorem target_after_check (hheap : env.heap = fun _ => true) {v : Visit}
    (hv : v ∈ a.visits tlv size) (hs : a.Stores tlv operation v) :
    (visitTarget tlv (pass tlv size operation false (a, env)).2.1.forest v).isSome = true := by
  rcases hs with ht | ⟨hc, hassigns⟩
  · exact visitTarget_mono (pass_grows tlv size operation false a env) ht
  · obtain ⟨s, ⟨hg, hs⟩, -, hend⟩ := pass_log_reach tlv size operation false a env
      (stable_const true) hheap hv
    refine visitTarget_mono hend ?_
    by_cases ht : (visitTarget tlv s.1 v).isSome = true
    · exact visitTarget_mono (objectVisit_grows tlv operation false a.nested v s) ht
    · refine visitTarget_created false ((visitCreates_iff tlv operation a.nested v s).mpr
        ⟨?_, ?_⟩) hassigns
      · exact visitCreatable_of_target hc ((visits_placed tlv size a v hv).grows hg) hassigns
          (by simpa using ht)
      · rw [hs]
        rfl

end Check
end MbedClient.Tlv
