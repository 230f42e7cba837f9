import MbedClient.Tlv.Creation
import MbedClient.Tlv.Outcome

/-! A checking pass that adds nothing: every record that misses a node asks the allocator for one,
and each of these requests is refused. -/
namespace MbedClient.Tlv
variable {tlv : Nat → UInt8} {size : Nat} {operation : Operation} {nested : Bool}

/-- The next `n` nodes cannot be allocated. -/
def Starved : Nat → Heap → Prop
  | 0, _ => True
  | n + 1, h => h.newNode.1 = false ∧ Starved n h.newNode.2

section Check

/-- What a step of the check makes of a node and the allocator. -/
structure Tried {α : Type*} (creatable : Prop) (x x' : α) (h h' : Heap) : Prop where
  made : creatable → h' = h.newNode.2 ∧ (x' = x ↔ h.newNode.1 = false)
  left : ¬creatable → x' = x ∧ h' = h

theorem Tried.map {α β : Type*} {p : Prop} {x x' : α} {h h' : Heap} (t : Tried p x x' h h')
    {y y' : β} (he : y' = y ↔ x' = x) : Tried p y y' h h' where
  made hp := ⟨(t.made hp).1, he.trans (t.made hp).2⟩
  left hp := ⟨he.mpr (t.left hp).1, (t.left hp).2⟩

theorem put_eq_iff {σ α : Type*} {l : Slot σ α} {s : σ} {x y : α} (hx : l.get s = some x) :
    l.put y s = s ↔ y = x := by
  refine ⟨fun h => ?_, fun h => by rw [h, l.put_get s x hx]⟩
  have hget := l.get_put s y (by simp [hx])
  rw [h, hx] at hget
  exact (Option.some.inj hget).symm

variable {p : Nat}

theorem memberStep_tried (tlv : Nat → UInt8) (operation : Operation) (owner : Option UInt16)
    (p : Nat) (s : M2MResource × Env) :
    let s' := memberStep tlv operation false owner p s
    Tried (memberTarget tlv p s.1 = none ∧ instanceStop tlv owner.isSome p = false ∧
      createsMembers operation owner.isSome = true ∧ memberCreatable tlv p s.1 = true)
      s.1 s'.1 s.2.heap s'.2.heap := by
  rcases memberStep_cases tlv operation false owner p s with
    ⟨-, hc, h⟩ | ⟨k, i, hu, -⟩ | ⟨ht, hs, hc, h⟩
  · rw [h]
    exact ⟨fun hp => absurd ((hc hp.1 hp.2.1).symm.trans hp.2.2.1) Bool.false_ne_true,
      fun _ => ⟨rfl, rfl⟩⟩
  · exact absurd hu Bool.false_ne_true
  · have hh : (s.2.read (header tlv p)).heap = s.2.heap := rfl
    rw [h, createMember_eq, hh]
    cases hm : memberCreatable tlv p s.1 with
    | false => exact ⟨fun hp => absurd hp.2.2.2 (by simp), fun _ => ⟨rfl, rfl⟩⟩
    | true =>
      refine ⟨fun _ => ?_, fun hp => absurd ⟨ht, hs, hc, rfl⟩ hp⟩
      cases hn : s.2.heap.newNode.1 with
      | false => exact ⟨rfl, by simp⟩
      | true =>
        refine ⟨rfl, iff_of_false (fun he => ?_) (by simp)⟩
        have hlength := congrArg (fun r : M2MResource => r.instances.length) he
        simp at hlength

theorem ownStep_tried (s : M2MObjectInstance × Env) :
    let s' := ownStep tlv operation false p s
    Tried (resourceCreatableBy tlv operation nested s.1 (.own p)) s.1 s'.1 s.2.heap s'.2.heap := by
  rcases ownStep_cases tlv operation false p s with
    ⟨-, hc, h⟩ | ⟨k, r, hu, -⟩ | ⟨ht, ho, rfl, h⟩
  · rw [h]
    exact ⟨fun hp => absurd ((hc hp.1 hp.2.1).symm.trans hp.2.2.1) (by decide),
      fun _ => ⟨rfl, rfl⟩⟩
  · exact absurd hu Bool.false_ne_true
  · have hh : (s.2.read (header tlv p)).heap = s.2.heap := rfl
    rw [h, createResource_eq, hh]
    cases hm : resourceCreatable tlv p s.1 with
    | false => exact ⟨fun hp => absurd (hm.symm.trans hp.2.2.2) Bool.false_ne_true,
        fun _ => ⟨rfl, rfl⟩⟩
    | true =>
      refine ⟨fun _ => ?_, fun hp => absurd ⟨ht, ho, rfl, hm⟩ hp⟩
      cases hn : s.2.heap.newNode.1 with
      | false => exact ⟨rfl, by simp⟩
      | true =>
        refine ⟨rfl, iff_of_false (fun he => ?_) (by simp)⟩
        have hlength := congrArg (fun oi : M2MObjectInstance => oi.resources.length) he
        simp at hlength

theorem resourceVisit_tried (tlv : Nat → UInt8) (operation : Operation) (nested : Bool)
    (v : ResourceVisit) (s : M2MObjectInstance × Env) :
    let s' := resourceVisit tlv operation false nested v s
    Tried (resourceCreatableBy tlv operation nested s.1 v) s.1 s'.1 s.2.heap s'.2.heap := by
  cases v with
  | own p => exact ownStep_tried s
  | member k p =>
    cases hk : s.1.resources[k]? with
    | none =>
      rw [resourceVisit, Slot.zoom_none _ (by exact hk)]
      refine ⟨fun hcreatable => ?_, fun _ => ⟨rfl, rfl⟩⟩
      obtain ⟨r, hr, -⟩ := hcreatable
      cases hk.symm.trans hr
    | some r =>
      rw [resourceVisit, Slot.zoom_some (a := r) _ (by exact hk)]
      have htried := memberStep_tried tlv operation (ownerOf nested s.1) p (r, s.2)
      rw [ownerOf_isSome] at htried
      have hcreatable : resourceCreatableBy tlv operation nested s.1 (.member k p) ↔
          memberTarget tlv p r = none ∧ instanceStop tlv nested p = false ∧
            createsMembers operation nested = true ∧ memberCreatable tlv p r = true := by
        simp [resourceCreatableBy, hk]
      rw [hcreatable]
      exact htried.map (put_eq_iff (l := M2MObjectInstance.resourceAt k) hk)

theorem objectVisit_tried (tlv : Nat → UInt8) (operation : Operation) (nested : Bool) (v : Visit)
    (s : M2MObject × Env) :
    let s' := objectVisit tlv operation false nested v s
    Tried (visitCreatable tlv operation nested s.1 v) s.1 s'.1 s.2.heap s'.2.heap := by
  cases v with
  | object p => exact ⟨False.elim, fun _ => ⟨rfl, rfl⟩⟩
  | inside j v =>
    cases hj : s.1.instances[j]? with
    | none =>
      rw [objectVisit, Slot.zoom_none _ (by exact hj)]
      refine ⟨fun hcreatable => ?_, fun _ => ⟨rfl, rfl⟩⟩
      obtain ⟨oi, hoi, -⟩ := hcreatable
      cases hj.symm.trans hoi
    | some oi =>
      rw [objectVisit, Slot.zoom_some (a := oi) _ (by exact hj)]
      have htried := resourceVisit_tried tlv operation nested v (oi, s.2)
      have hcreatable : visitCreatable tlv operation nested s.1 (.inside j v) ↔
          resourceCreatableBy tlv operation nested oi v := by
        simp [visitCreatable, hj]
      rw [hcreatable]
      exact htried.map (put_eq_iff (l := M2MObject.instanceAt j) hj)

end Check

section Count

instance (oi : M2MObjectInstance) (v : ResourceVisit) :
    Decidable (resourceCreatableBy tlv operation nested oi v) :=
  match v with
  | .own _ => inferInstanceAs (Decidable (_ ∧ _ ∧ _ ∧ _))
  | .member k p =>
    match hk : oi.resources[k]? with
    | none => isFalse fun ⟨r, hr, _⟩ => by simp [hk] at hr
    | some r => decidable_of_iff (memberTarget tlv p r = none ∧ instanceStop tlv nested p = false ∧
        createsMembers operation nested = true ∧ memberCreatable tlv p r = true)
        (by simp [resourceCreatableBy, hk])

instance (obj : M2MObject) (v : Visit) :
    Decidable (visitCreatable tlv operation nested obj v) :=
  match v with
  | .object _ => isFalse id
  | .inside j v =>
    match hj : obj.instances[j]? with
    | none => isFalse fun ⟨oi, hoi, _⟩ => by simp [hj] at hoi
    | some oi => decidable_of_iff (resourceCreatableBy tlv operation nested oi v)
        (by simp [visitCreatable, hj])

/-- How many visits of a pass miss a node and try to add it. -/
def missed (tlv : Nat → UInt8) (operation : Operation) (nested : Bool) (obj : M2MObject)
    (l : List Visit) : Nat := l.countP fun v => visitCreatable tlv operation nested obj v

theorem fold_same_iff {l : List Visit} {obj : M2MObject} (env : Env) :
    (Trace.fold (objectVisit tlv operation false nested) l (obj, env)).1 = obj ↔
      Starved (missed tlv operation nested obj l) env.heap := by
  induction l generalizing env with
  | nil => exact iff_of_true rfl trivial
  | cons v l ih =>
    have htried := objectVisit_tried tlv operation nested v (obj, env)
    rw [Trace.fold_cons]
    have hpair : objectVisit tlv operation false nested v (obj, env) =
      ((objectVisit tlv operation false nested v (obj, env)).1,
        (objectVisit tlv operation false nested v (obj, env)).2) := rfl
    by_cases hc : visitCreatable tlv operation nested obj v
    · obtain ⟨hheap, hsame⟩ := htried.made hc
      have hmissed : missed tlv operation nested obj (v :: l) =
          missed tlv operation nested obj l + 1 := by simp [missed, hc]
      rw [hmissed, Starved]
      cases hn : env.heap.newNode.1 with
      | false => rw [hpair, hsame.mpr hn, ih, hheap]; simp
      | true =>
        -- a node that has been added is there to stay
        refine iff_of_false (fun hlast => ?_) (by simp)
        have hfirst : (objectVisit tlv operation false nested v (obj, env)).1 ≠ obj := fun he => by
          simpa [hn] using hsame.mp he
        have hgrows := objectVisit_grows tlv operation false nested v (obj, env)
        have hrest := objectVisits_fold_grows tlv operation false nested (l := l) (c := true)
          (fun _ _ _ => rfl) (objectVisit tlv operation false nested v (obj, env))
        rw [hlast] at hrest
        exact hfirst ((hgrows.mono fun _ => rfl).antisymm hrest)
    · obtain ⟨hsame, hheap⟩ := htried.left hc
      have hmissed : missed tlv operation nested obj (v :: l) =
          missed tlv operation nested obj l := by simp [missed, hc]
      rw [hmissed, hpair, hsame, ih, hheap]

variable {a : Addressee}

/-- A refused request leaves the tree alone if none of the nodes it misses can be allocated. -/
theorem deserialize_same_iff (env : Env) (hs : a.startsOn tlv = true)
    (ha : ¬a.Accepted tlv size operation) :
    (deserialize (some tlv) size operation a env).2.1 = a ↔
      Starved (missed tlv operation a.nested a.forest (a.visits tlv size)) env.heap := by
  have hv : a.verdict tlv size operation ≠ .none := fun hv => ha ⟨hs, hv⟩
  have hforest := pass_forest tlv size operation false a (env.note (.byte 0))
  rw [deserialize_eq, if_pos hs, twice, pass_verdict, if_neg hv]
  refine Iff.trans ⟨fun h => ?_, fun h => ?_⟩ (fold_same_iff (env.note (.byte 0)))
  · rw [← hforest, h]
  · exact (pass_kind tlv size operation false a _).eq (hforest.trans h)

end Count
end MbedClient.Tlv
