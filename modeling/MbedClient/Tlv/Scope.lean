import MbedClient.Tlv.Complete

/-! Which containers a write comes from. A walk over resource instances does not stop at the end
of its container; what it meets behind cannot be written, but a `Post` takes a multiple resource
record there for a resource instance to create. -/
namespace MbedClient.Tlv
variable {tlv : Nat → UInt8} {size : Nat}

/-- A resource is touched by a record about it, a resource instance by a resource instance record
inside a multiple resource record about its resource. In a buffer that is addressed to a resource,
the one multiple resource record is about it if it has its id. -/
def Addressee.Scoped (tlv : Nat → UInt8) (size : Nat) (a : Addressee) : Access → Prop
  | .byte _ => True
  | .value _ _ => True
  | .resource p i id => ∃ n : UInt16, id = n.toNat ∧ (p, .resource i n) ∈ a.paths tlv size
  | .member p (some i) id m =>
    ∃ n : UInt16, id = n.toNat ∧ (p, .member i n m) ∈ a.paths tlv size
  | .member p none id m =>
    ∃ i, ∃ n : UInt16, id = n.toNat ∧ (p, .member i n m) ∈ a.paths tlv size

/-! Where a visit stands in a well-formed buffer. -/
section Standing

/-- A visit reads a record of the right container, or one that it cannot write. -/
def ResourceVisit.Stands (tlv : Nat → UInt8) (paths : List (Nat × Path)) (i : UInt16)
    (oi : M2MObjectInstance) : ResourceVisit → Prop
  | .own p => (p, .resource i (recId tlv p)) ∈ paths ∨ isOwn tlv p = false
  | .member k p => recType tlv p ≠ typeResourceInstance ∨ ∃ r, oi.resources[k]? = some r ∧
    ∃ n : UInt16, r.nameId = n.toNat ∧ (p, .member i n (recId tlv p)) ∈ paths

theorem ResourceVisit.Stands.mono {paths paths' : List (Nat × Path)} {i : UInt16}
    {oi : M2MObjectInstance} {v : ResourceVisit} (h : v.Stands tlv paths i oi)
    (hsub : ∀ x ∈ paths, x ∈ paths') : v.Stands tlv paths' i oi := by
  cases v with
  | own p => exact h.imp_left (hsub _)
  | member k p =>
    refine h.imp_right ?_
    rintro ⟨r, hk, n, hid, hp⟩
    exact ⟨r, hk, n, hid, hsub _ hp⟩

theorem Region.stands {o e : Nat} (h : Region tlv size o e) {oi : M2MObjectInstance}
    (hin : ∀ v ∈ resourceVisits tlv size oi o, v.record < size) (i : UInt16) :
    ∀ v ∈ resourceVisits tlv size oi o, v.Stands tlv (resourcePaths tlv i o e) i oi := by
  intro v hv
  obtain ⟨p, hp, hvp⟩ := (mem_resourceVisits tlv size).mp hv
  have hvisited := h.visited fun p hp => hin (.own p)
    ((mem_resourceVisits tlv size).mpr ⟨p, hp, List.mem_cons_self⟩)
  have hmem : p ∈ Walk.span (frame tlv) o e ∨ recType tlv p = typeObjectInstance := by
    rw [hvisited, List.mem_append] at hp
    refine hp.imp_right fun hp => ?_
    split_ifs at hp with hsz
    · rw [List.mem_singleton.mp hp]
      exact (h.closed hsz).1
    · exact absurd hp List.not_mem_nil
  cases v with
  | own q =>
    obtain rfl := mem_recordVisits_own tlv size hvp
    rcases hmem with hq | ht
    · rcases h.format.2 q hq with ht | ⟨ht, -⟩
      · refine Or.inl (List.mem_flatMap.mpr ⟨q, hq, ?_⟩)
        have hne : (recType tlv q == typeMultipleResource) = false := by rw [ht]; decide
        simp [recordPaths, hne]
      · exact Or.inr (isOwn_multiple ht)
    · exact Or.inr (by rw [isOwn, ht]; decide)
  | member k m =>
    obtain ⟨ht, hm, r, hk, hr⟩ := mem_recordVisits tlv size hvp
    rcases hmem with hp' | ht'
    · rcases h.format.2 p hp' with ht' | ⟨-, hf⟩
      · rw [ht] at ht'
        exact absurd ht' (by decide)
      · obtain ⟨behind, heq, hb⟩ := h.memberRecords hp' hf fun m' hm' => hin (.member k m')
          ((mem_resourceVisits tlv size).mpr
            ⟨p, hp, mem_recordVisits_member tlv size ht hk hr hm'⟩)
        rw [heq, List.mem_append] at hm
        rcases hm with hm | hm
        · refine Or.inr ⟨r, hk, recId tlv p, eq_of_beq (Bool.and_eq_true_iff.mp hr).2, ?_⟩
          refine List.mem_flatMap.mpr ⟨p, hp', ?_⟩
          simp [recordPaths, ht, memberPaths, hm]
        · exact Or.inl (hb m hm).1
    · rw [ht'] at ht
      exact absurd ht (by decide)

/-- The same for visits of a whole buffer. -/
def Visit.Stands (tlv : Nat → UInt8) (size : Nat) (a : Addressee) : Visit → Prop
  | .object _ => True
  | .inside j v => ∃ oi, a.forest.instances[j]? = some oi ∧ match a, v with
    | .resource _, .own _ => False
    | .resource _, .member _ p =>
      ∃ i, (p, .member i (recId tlv 0) (recId tlv p)) ∈ a.paths tlv size
    | a, v => v.Stands tlv (a.paths tlv size) oi.instanceId oi

theorem visits_stand {a : Addressee} (hwf : a.WellFormed tlv size)
    (hin : ∀ v ∈ a.visits tlv size, v.record < size) :
    ∀ v ∈ a.visits tlv size, v.Stands tlv size a := by
  intro v hv
  obtain ⟨hsize, hwf⟩ := hwf
  cases a with
  | object obj =>
    obtain ⟨q, hq, hvq⟩ := List.mem_flatMap.mp hv
    have hq' : q ∈ Walk.span (frame tlv) 0 size := objects_visited hwf hsize ▸ hq
    cases v with
    | object p => trivial
    | inside j v =>
      obtain ⟨ht, oi, hj, hoi, hv⟩ := mem_objectRecordVisits tlv size hvq
      have hid : oi.instanceId = recId tlv q := eq_of_beq hoi
      refine ⟨oi, hj, ((region_of_mem_span hwf hq').stands (fun w hw => ?_) _ v hv).mono ?_⟩
      · exact hin (.inside j w) (List.mem_flatMap.mpr ⟨q, hq,
          mem_objectRecordVisits_inside tlv size ht hj hoi hw⟩)
      · intro x hx
        rw [hid] at hx
        exact List.mem_flatMap.mpr ⟨q, hq', List.mem_cons_of_mem _ hx⟩
  | objectInstance oi =>
    obtain ⟨w, hw, rfl⟩ := List.mem_map.mp hv
    exact ⟨oi, rfl, (region_all hwf).stands
      (fun w hw => hin (.inside 0 w) (List.mem_map_of_mem hw)) _ w hw⟩
  | resource r =>
    obtain ⟨p, hp, rfl⟩ := List.mem_map.mp hv
    refine ⟨⟨0, [r]⟩, rfl, 0, List.mem_cons_of_mem _ (List.mem_map.mpr ⟨p, ?_, rfl⟩)⟩
    have hstart := hin (.inside 0 (.member 0 (recContent tlv 0)))
      (List.mem_map_of_mem (Walk.mem_visited_self _ _ _ _))
    rw [memberRecords, Walk.visited_eq_span hwf.2.2.1 hstart
      fun p hp => members_go false hwf.2.2 hp] at hp
    rwa [hwf.2.1]

end Standing

/-! A check whose allocations fail changes nothing, so any one visit can be the first to add. -/
section Failing
variable (operation : Operation)

def failing (n : Nat) (h : Heap) : Heap := fun i => if i < n then false else h (i - n)

theorem failing_zero (h : Heap) : failing 0 h = h := by
  funext i
  simp [failing]

theorem failing_add (m n : Nat) (h : Heap) : failing (m + n) h = failing m (failing n h) := by
  funext i
  simp only [failing]
  split_ifs <;> first | rfl | omega | (congr 1; omega)

theorem newNode_failing (h : Heap) : (failing 1 h).newNode = (false, h) := by
  simp [Heap.newNode, Heap.malloc, failing]

theorem memberStep_failing (owner : Option UInt16) (p : Nat) (r : M2MResource) :
    ∃ m, ∀ h log, ∃ log', memberStep tlv operation false owner p (r, ⟨failing m h, log⟩) =
      (r, ⟨h, log'⟩) := by
  by_cases hc : memberTarget tlv p r = none ∧ (!instanceStop tlv owner.isSome p &&
      createsMembers operation owner.isSome) = true ∧ memberCreatable tlv p r = true
  · refine ⟨1, fun h log => ?_⟩
    obtain ⟨ht, hs, hm⟩ := hc
    have hcreate := createMember_eq tlv owner p r (Env.read (header tlv p) ⟨failing 1 h, log⟩)
    simp only [Env.read, newNode_failing, hm, if_true, Bool.false_eq_true, if_false] at hcreate
    simp only [memberStep, ht, hs, if_true, Env.read, hcreate]
    exact ⟨_, rfl⟩
  · refine ⟨0, fun h log => ?_⟩
    rw [failing_zero]
    cases ht : memberTarget tlv p r with
    | some k => simp [memberStep, ht, Env.read]
    | none =>
      cases hs : !instanceStop tlv owner.isSome p && createsMembers operation owner.isSome with
      | false => simp [memberStep, ht, hs, Env.read]
      | true =>
        have hm : ¬memberCreatable tlv p r = true := fun hm => hc ⟨ht, hs, hm⟩
        simp [memberStep, ht, hs, createMember_eq, hm, Env.read]

theorem ownStep_failing (p : Nat) (oi : M2MObjectInstance) :
    ∃ m, ∀ h log, ∃ log', ownStep tlv operation false p (oi, ⟨failing m h, log⟩) =
      (oi, ⟨h, log'⟩) := by
  by_cases hc : ownTarget tlv p oi = none ∧ (isOwn tlv p && operation == .post) = true ∧
      resourceCreatable tlv p oi = true
  · refine ⟨1, fun h log => ?_⟩
    obtain ⟨ht, hs, hm⟩ := hc
    have hcreate := createResource_eq tlv p oi (Env.read (header tlv p) ⟨failing 1 h, log⟩)
    simp only [Env.read, newNode_failing, hm, if_true, Bool.false_eq_true, if_false] at hcreate
    simp only [ownStep, ht, hs, if_true, Env.read, hcreate]
    exact ⟨_, rfl⟩
  · refine ⟨0, fun h log => ?_⟩
    rw [failing_zero]
    cases ht : ownTarget tlv p oi with
    | some k => simp [ownStep, ht, Env.read]
    | none =>
      cases hs : isOwn tlv p && operation == .post with
      | false => simp [ownStep, ht, hs, Env.read]
      | true =>
        have hm : ¬resourceCreatable tlv p oi = true := fun hm => hc ⟨ht, hs, hm⟩
        simp [ownStep, ht, hs, createResource_eq, hm, Env.read]

/-- A step inside a place that leaves its part alone leaves everything alone. -/
theorem zoom_failing {σ α : Type*} (l : Slot σ α) (f : α × Env → α × Env) (s : σ)
    (hf : ∀ a, l.get s = some a → ∃ m, ∀ h log, ∃ log', f (a, ⟨failing m h, log⟩) =
      (a, ⟨h, log'⟩)) :
    ∃ m, ∀ h log, ∃ log', l.zoom f (s, ⟨failing m h, log⟩) = (s, ⟨h, log'⟩) := by
  cases ha : l.get s with
  | none =>
    refine ⟨0, fun h log => ⟨log, ?_⟩⟩
    rw [l.zoom_none ha, failing_zero]
  | some a =>
    obtain ⟨m, hm⟩ := hf a ha
    refine ⟨m, fun h log => ?_⟩
    obtain ⟨log', heq⟩ := hm h log
    refine ⟨log', ?_⟩
    rw [l.zoom_some ha, heq, l.put_get s a ha]

theorem objectVisit_failing (nested : Bool) (v : Visit) (obj : M2MObject) :
    ∃ m, ∀ h log, ∃ log', objectVisit tlv operation false nested v (obj, ⟨failing m h, log⟩) =
      (obj, ⟨h, log'⟩) := by
  cases v with
  | object p =>
    refine ⟨0, fun h log => ?_⟩
    rw [failing_zero]
    exact ⟨_, rfl⟩
  | inside j v =>
    refine zoom_failing _ _ _ fun oi _ => ?_
    cases v with
    | own p => exact ownStep_failing operation p oi
    | member k p =>
      exact zoom_failing (M2MObjectInstance.resourceAt k)
        (memberStep tlv operation false (ownerOf nested oi) p) oi
        fun r _ => memberStep_failing operation _ p r

theorem fold_failing (nested : Bool) (l : List Visit) (obj : M2MObject) :
    ∃ m, ∀ h log, ∃ log', Trace.fold (objectVisit tlv operation false nested) l
      (obj, ⟨failing m h, log⟩) = (obj, ⟨h, log'⟩) := by
  induction l with
  | nil => exact ⟨0, fun h log => ⟨log, by rw [failing_zero]; rfl⟩⟩
  | cons v l ih =>
    obtain ⟨m, hm⟩ := objectVisit_failing operation nested v obj
    obtain ⟨n, hn⟩ := ih
    refine ⟨m + n, fun h log => ?_⟩
    obtain ⟨log', heq⟩ := hm (failing n h) log
    obtain ⟨log'', heq'⟩ := hn h log'
    exact ⟨log'', by rw [Trace.fold_cons, failing_add, heq, heq']⟩

/-- Whatever a visit of a check could add to the tree, it does add for some heap. -/
theorem exists_touch {a : Addressee} (hstart : a.startsOn tlv = true) {v : Visit}
    (hv : v ∈ a.visits tlv size) (hc : visitCreatable tlv operation a.nested a.forest v)
    {x : Access} (hx : some x = touch tlv a.nested a.forest v) :
    ∃ heap, x ∈ (deserialize (some tlv) size operation a ⟨heap, []⟩).2.2.log := by
  obtain ⟨l, l', hsplit⟩ := List.append_of_mem hv
  obtain ⟨m, hm⟩ : ∃ m, ∀ h log, ∃ log', Trace.fold (objectVisit tlv operation false a.nested) l
      (a.forest, ⟨failing m h, log⟩) = (a.forest, ⟨h, log'⟩) :=
    fold_failing operation a.nested l a.forest
  obtain ⟨log', hprefix⟩ := hm (fun _ => true) [.byte 0]
  refine ⟨failing m fun _ => true, mem_deserialize_log tlv size operation a _ hstart ?_⟩
  have hplaced := visits_placed tlv size a
  have hleft : x ∈ (objectVisit tlv operation false a.nested v
      (a.forest, ⟨fun _ => true, log'⟩)).2.log :=
    (mem_objectVisit_log tlv operation false a.nested (hplaced v hv) x).mpr
      (Or.inl (Or.inr (Or.inr ⟨Or.inr ((visitCreates_iff tlv operation a.nested v _).mpr
        ⟨hc, rfl⟩), hx⟩)))
  have hfirst : Underway operation false a (fun _ => True) (a.forest, ⟨fun _ => true, log'⟩) :=
    ⟨.refl _, trivial⟩
  have hnext := underway_visit tlv size operation false a (fun _ _ => trivial) v hv _ hfirst
  have henv : Env.note (.byte 0) ⟨failing m fun _ => true, []⟩ =
      ⟨failing m fun _ => true, [.byte 0]⟩ := rfl
  rw [pass_env, hsplit, Trace.fold_append, henv, hprefix, Trace.fold_cons]
  have hmem : ∀ w ∈ l', w ∈ a.visits tlv size := fun w hw => by simp [hsplit, hw]
  have hstep : ∀ w ∈ l', ∀ s, Underway operation false a (fun _ => True) s ∧ x ∈ s.2.log →
      Underway operation false a (fun _ => True) (objectVisit tlv operation false a.nested w s) ∧
        x ∈ (objectVisit tlv operation false a.nested w s).2.log := fun w hw s hs =>
    ⟨underway_visit tlv size operation false a (fun _ _ => trivial) w (hmem w hw) s hs.1,
      (mem_objectVisit_log tlv operation false a.nested
        ((hplaced w (hmem w hw)).grows hs.1.1) x).mpr (Or.inr hs.2)⟩
  exact (Trace.fold_invariant hstep ⟨hnext, hleft⟩).2

end Failing

/-! The exact condition. -/
section Scoped
variable {operation : Operation} {a : Addressee}

/-- Every multiple resource record that a walk over a resource's instances visits carries an id
that the resource has. -/
def Addressee.NoStray (tlv : Nat → UInt8) (size : Nat) (a : Addressee) : Prop :=
  ∀ j k p, .inside j (.member k p) ∈ a.visits tlv size → recType tlv p = typeMultipleResource →
    ∀ oi r, a.forest.instances[j]? = some oi → oi.resources[k]? = some r →
      (r.resourceInstance (recId tlv p)).isSome = true

/-- A buffer that is addressed to a resource has its id, or its last record is refused. -/
def Addressee.OwnContainer (tlv : Nat → UInt8) (size : Nat) (operation : Operation)
    (a : Addressee) : Prop :=
  ∀ r, a = .resource r → a.verdict tlv size operation = .none → r.nameId = (recId tlv 0).toNat

/-- The last record of a buffer for a resource is about an instance, or it is refused. -/
theorem last_target {r : M2MResource}
    (hv : (Addressee.resource r).verdict tlv size operation = .none) :
    ∃ p, Visit.inside 0 (.member 0 p) ∈ (Addressee.resource r).visits tlv size ∧
      (visitTarget tlv (Addressee.resource r).forest (.inside 0 (.member 0 p))).isSome = true := by
  have hne : (Addressee.resource r).visits tlv size ≠ [] :=
    List.ne_nil_of_mem (List.mem_map_of_mem (Walk.mem_visited_self _ _ _ _))
  have hlast := List.getLast?_eq_some_getLast hne
  generalize ((Addressee.resource r).visits tlv size).getLast hne = v at hlast
  have hmem := List.mem_of_getLast? hlast
  obtain ⟨p, -, rfl⟩ := List.mem_map.mp hmem
  refine ⟨p, hmem, ?_⟩
  rw [Addressee.verdict, lastVerdict, hlast, Option.map_some, Option.getD_some] at hv
  have hverdict : memberVerdict tlv operation false false p r = .none := hv
  have hany : r.instances.any (memberHit tlv p) = true := by
    rw [memberVerdict] at hverdict
    split_ifs at hverdict
    by_contra hno
    rw [Bool.not_eq_true] at hno
    rw [hno] at hverdict
    cases operation <;> cases hverdict
  have htarget : (memberTarget tlv p r).isSome = true := by
    rwa [memberTarget, List.findIdx?_isSome]
  obtain ⟨k, hk⟩ := Option.isSome_iff_exists.mp htarget
  simp [visitTarget, resourceTarget, Addressee.forest, hk]

section Member
variable {j k p : Nat} {oi : M2MObjectInstance} {r : M2MResource}

/-- Of what a walk over a resource's instances visits, only a record of their type is written, and
only one of their type makes a new one where no container is taken for it. -/
theorem member_recType (hstray : operation = .post → a.NoStray tlv size)
    (hv : .inside j (.member k p) ∈ a.visits tlv size) (hj : a.forest.instances[j]? = some oi)
    (hk : oi.resources[k]? = some r)
    (htouched : (Visit.inside j (.member k p)).Assigns tlv ∨
      visitCreatable tlv operation a.nested a.forest (.inside j (.member k p))) :
    recType tlv p = typeResourceInstance := by
  rcases htouched with ht | hc
  · exact ht
  · obtain ⟨_, hj₁, r₁, hk₁, -, hs, hpost, hm⟩ := hc
    obtain rfl := Option.some.inj (hj.symm.trans hj₁)
    obtain rfl := Option.some.inj (hk.symm.trans hk₁)
    by_contra hne
    obtain ⟨hn, ho⟩ : a.nested = true ∧ operation = .post := by
      simpa [createsMembers] using hpost
    have hmulti : recType tlv p = typeMultipleResource := by
      simpa [instanceStop, hn, hne] using hs
    have hsome := hstray ho j k p hv hmulti oi r hj hk
    rw [memberCreatable, Bool.and_eq_true, Option.isNone_iff_eq_none] at hm
    simp [hm.2] at hsome

/-- The walk of a buffer for a resource goes over its own instances. -/
theorem member_alone {r₀ : M2MResource}
    (hv : .inside j (.member k p) ∈ (Addressee.resource r₀).visits tlv size)
    (hj : (Addressee.resource r₀).forest.instances[j]? = some oi)
    (hk : oi.resources[k]? = some r) : r = r₀ := by
  obtain ⟨rfl, rfl⟩ : j = 0 ∧ k = 0 := by
    obtain ⟨q, -, hq⟩ := List.mem_map.mp hv
    simp only [Visit.inside.injEq, ResourceVisit.member.injEq] at hq
    exact ⟨hq.1.symm, hq.2.1.symm⟩
  obtain rfl := Option.some.inj hj
  exact (Option.some.inj hk).symm

/-- A record in the container of a resource is in scope. -/
theorem ResourceVisit.Stands.member_scoped
    (h : ResourceVisit.Stands tlv (a.paths tlv size) oi.instanceId oi (.member k p))
    (hn : a.nested = true) (hk : oi.resources[k]? = some r)
    (htype : recType tlv p = typeResourceInstance) :
    a.Scoped tlv size (.member p (ownerOf a.nested oi) r.nameId (recId tlv p)) := by
  rw [ownerOf, if_pos hn]
  obtain hc | ⟨r₁, hk₁, n, hid, hp⟩ := h
  · exact absurd htype hc
  · obtain rfl := Option.some.inj (hk.symm.trans hk₁)
    exact ⟨n, hid, hp⟩

end Member

/-- What a visit touches inside a well-formed buffer, it touches in scope. -/
theorem touch_scoped (hwf : a.WellFormed tlv size)
    (hin : ∀ v ∈ a.visits tlv size, v.record < size)
    (hstray : operation = .post → a.NoStray tlv size) (hown : a.OwnContainer tlv size operation)
    {v : Visit} (hv : v ∈ a.visits tlv size)
    {s : M2MObject × Env} {writes creates update : Bool} (hg : a.forest.Grows writes creates s.1)
    (hupdate : update = true → a.verdict tlv size operation = .none)
    (htouched : (update = true ∧ (visitTarget tlv s.1 v).isSome = true) ∨
      visitCreates tlv operation a.nested v s)
    {x : Access} (hx : some x = touch tlv a.nested s.1 v) : a.Scoped tlv size x := by
  have hstands := visits_stand hwf hin v hv
  have hplaced := visits_placed tlv size a v hv
  have hcreatable : visitCreates tlv operation a.nested v s →
      visitCreatable tlv operation a.nested a.forest v := fun h =>
    visitCreatable_grown hg hplaced ((visitCreates_iff tlv operation a.nested _ s).mp h).1
  have htouchable := htouched.imp (fun h => assigns_of_target h.2) hcreatable
  cases v with
  | object p => simp [touch] at hx
  | inside j v =>
    obtain ⟨oi, hj, hstands⟩ := hstands
    obtain ⟨oi', hj', hoi⟩ := Grown.getElem? hg hj
    simp only [touch, hj', Option.bind_some] at hx
    cases v with
    | own p =>
      obtain rfl := Option.some.inj hx
      have hisown : isOwn tlv p = true := by
        rcases htouchable with ht | ⟨_, -, -, hc, -⟩
        · exact ht
        · exact hc
      have hstands : ResourceVisit.Stands tlv (a.paths tlv size) oi.instanceId oi (.own p) := by
        cases a with
        | object _ => exact hstands
        | objectInstance _ => exact hstands
        | resource _ => exact hstands.elim
      refine ⟨recId tlv p, rfl, ?_⟩
      rw [hoi.instanceId]
      exact hstands.resolve_right (by simp [hisown])
    | member k p =>
      obtain ⟨_, hj₀, r, hk, -⟩ := hplaced
      obtain rfl := Option.some.inj (hj.symm.trans hj₀)
      obtain ⟨r', hk', hgr⟩ := hoi.resources.getElem? hk
      simp only [resourceTouch, hk', Option.map_some] at hx
      obtain rfl := Option.some.inj hx
      have htype := member_recType hstray hv hj hk htouchable
      have howner : ownerOf a.nested oi' = ownerOf a.nested oi := by
        simp [ownerOf, hoi.instanceId]
      rw [hgr.nameId, howner]
      cases a with
      | object _ => exact hstands.member_scoped rfl hk htype
      | objectInstance _ => exact hstands.member_scoped rfl hk htype
      | resource r₀ =>
        obtain ⟨i, hp⟩ := hstands
        refine ⟨i, recId tlv 0, ?_, hp⟩
        rw [member_alone hv hj hk]
        refine hown r₀ rfl ?_
        obtain ⟨hu, -⟩ | hc := htouched
        · exact hupdate hu
        · -- nothing is created in a resource that stands alone
          obtain ⟨_, -, _, -, -, -, hpost, -⟩ := hcreatable hc
          exact absurd hpost Bool.false_ne_true

theorem recType_of_member {i n m : UInt16} {p : Nat} (hwf : a.WellFormed tlv size)
    (h : (p, .member i n m) ∈ a.paths tlv size) : recType tlv p = typeResourceInstance := by
  have hrecord : ∀ {i : UInt16} {o e : Nat}, ResourcesFormat tlv o e →
      (p, Path.member i n m) ∈ resourcePaths tlv i o e →
      recType tlv p = typeResourceInstance := by
    intro i o e hf h
    obtain ⟨c, hc, h⟩ := List.mem_flatMap.mp h
    unfold recordPaths at h
    split_ifs at h with ht
    · rcases List.mem_cons.mp h with h | h
      · simp at h
      · obtain ⟨q, hq, heq⟩ := List.mem_map.mp h
        obtain ⟨rfl, -⟩ := Prod.mk.inj heq
        rcases hf.2 c hc with ht' | ⟨-, hm⟩
        · rw [ht'] at ht
          exact absurd ht (by decide)
        · exact hm.2 q hq
    · simp at h
  obtain ⟨-, hwf⟩ := hwf
  cases a with
  | object obj =>
    obtain ⟨q, hq, h⟩ := List.mem_flatMap.mp h
    rcases List.mem_cons.mp h with h | h
    · simp at h
    · obtain rfl := owner_of_mem_resourcePaths h
      exact hrecord (hwf.2 q hq).2 h
  | objectInstance oi =>
    obtain rfl := owner_of_mem_resourcePaths h
    exact hrecord hwf h
  | resource r =>
    rcases List.mem_cons.mp h with h | h
    · simp at h
    · obtain ⟨q, hq, heq⟩ := List.mem_map.mp h
      obtain ⟨rfl, -⟩ := Prod.mk.inj heq
      rw [hwf.2.1] at hq
      exact hwf.2.2.2 q hq

/-- What is written in the instances of a resource comes from a container with its id. -/
theorem ownContainer_of_scoped (hwf : a.WellFormed tlv size)
    (h : ∀ x ∈ (deserialize (some tlv) size operation a ⟨fun _ => true, []⟩).2.2.log,
      a.Scoped tlv size x) : a.OwnContainer tlv size operation := by
  intro r ha hverdict
  obtain ⟨p, hv, ht⟩ := @last_target tlv size operation r (ha ▸ hverdict)
  rw [← ha] at hv ht
  rw [deserialize_accepted tlv size operation _ _ ⟨hwf.startsOn, hverdict⟩] at h
  have hk := pass_kind tlv size operation false a (Env.note (.byte 0) ⟨fun _ => true, []⟩)
  have hg := pass_grows tlv size operation false a (Env.note (.byte 0) ⟨fun _ => true, []⟩)
  rw [← Addressee.visits_grows tlv size hk hg] at hv
  obtain ⟨s, ⟨hgs, -⟩, hleft, -⟩ := pass_log_reach tlv size operation true _
    (pass tlv size operation false (a, Env.note (.byte 0) ⟨fun _ => true, []⟩)).2.2
    (H := fun _ => True) (fun _ _ => trivial) trivial hv
  rw [hk.nested] at hleft hgs
  have hgrown := hg.weaken.trans hgs
  have hnested : a.nested = false := by rw [ha, Addressee.nested]
  obtain ⟨oi, hoi, hgoi⟩ := Grown.getElem? hgrown (k := 0) (x := ⟨0, [r]⟩) (by rw [ha]; rfl)
  obtain ⟨r', hr', hgr⟩ := hgoi.resources.getElem? (k := 0) (x := r) rfl
  have hmem := hleft (.member p none r'.nameId (recId tlv p))
    (Or.inr (Or.inr ⟨Or.inl ⟨rfl, visitTarget_mono hgrown ht⟩, by
      simp [touch, hoi, resourceTouch, hr', ownerOf, hnested]⟩))
  obtain ⟨i, n, hn, hp⟩ := h _ hmem
  rw [hgr.nameId] at hn
  rw [ha, Addressee.paths] at hp
  obtain hp | hp := List.mem_cons.mp hp
  · simp at hp
  · obtain ⟨q, -, heq⟩ := List.mem_map.mp hp
    simp only [Prod.mk.injEq, Path.member.injEq] at heq
    rw [hn, ← heq.2.2.1]

/-- A request stays inside its buffer and touches in scope, whatever allocations fail, exactly if no
walk starts at the end of the buffer, a `Post` meets no stray record with a new id, and a buffer for
a resource has its id or is refused. -/
theorem scoped_iff (hwf : a.WellFormed tlv size) :
    (∀ heap, ∀ x ∈ (deserialize (some tlv) size operation a ⟨heap, []⟩).2.2.log,
      x.Inside size ∧ a.Scoped tlv size x) ↔
    (∀ v ∈ a.visits tlv size, v.record < size) ∧ (operation = .post → a.NoStray tlv size) ∧
      a.OwnContainer tlv size operation := by
  constructor
  · intro h
    refine ⟨hwf.fits_iff.mp (fits_of_inside tlv size operation a hwf.startsOn
      fun x hx => (h _ x hx).1), ?_, ownContainer_of_scoped hwf fun x hx => (h _ x hx).2⟩
    rintro rfl j k p hv hmulti oi r hj hk
    by_contra hlacks
    obtain ⟨oi₀, hj₀, r₀, hk₀, hr⟩ := visits_placed tlv size a _ hv
    obtain rfl := Option.some.inj (hj.symm.trans hj₀)
    obtain rfl := Option.some.inj (hk.symm.trans hk₀)
    have hnested : a.nested = true := by
      cases a with
      | object _ => rfl
      | objectInstance _ => rfl
      | resource r =>
        have := visits_stand hwf (hwf.fits_iff.mp (fits_of_inside tlv size .post _ hwf.startsOn
          fun x hx => (h _ x hx).1)) _ hv
        obtain ⟨_, -, i, hp⟩ := this
        rw [recType_of_member hwf hp] at hmulti
        exact absurd hmulti (by decide)
    obtain ⟨hm, hname⟩ := hr hnested
    have hcreatable : visitCreatable tlv .post a.nested a.forest (.inside j (.member k p)) := by
      refine ⟨oi, hj, r, hk, ?_, ?_, ?_, ?_⟩
      · refine memberTarget_of_type ?_
        rw [hmulti]
        decide
      · simp [instanceStop, hnested, hmulti]
      · simp [createsMembers, hnested]
      · simpa [memberCreatable, hm, hname] using hlacks
    obtain ⟨heap, hx⟩ := exists_touch .post hwf.startsOn hv hcreatable
      (x := .member p (some oi.instanceId) r.nameId (recId tlv p))
      (by simp [touch, hj, resourceTouch, hk, ownerOf, hnested])
    obtain ⟨n, -, hp⟩ := (h heap _ hx).2
    rw [recType_of_member hwf hp] at hmulti
    exact absurd hmulti (by decide)
  · rintro ⟨hin, hstray, hown⟩ heap x hx
    refine ⟨inside_of_fits tlv size operation a hwf.1 (fun _ => hwf.fits_iff.mpr hin) heap x hx, ?_⟩
    rcases deserialize_log_cases tlv size operation a ⟨heap, []⟩ hx with hx | rfl | ⟨-, hx⟩
    · exact absurd hx List.not_mem_nil
    · trivial
    · obtain ⟨v, hv, update, s, hu, hg, hleft⟩ := hx
      rcases hleft with ⟨i, rfl, -, -⟩ | ⟨-, -, rfl⟩ | ⟨ht, hx⟩
      · trivial
      · trivial
      · exact touch_scoped hwf hin hstray hown hv hg hu ht hx

/-- Resource 1 has one instance, 0. -/
def oneMember : M2MObjectInstance :=
  ⟨0, [⟨⟨.dynamic, getPutAllowed, .string, []⟩, [0x31], true,
    [⟨⟨.dynamic, getPutAllowed, .string, []⟩, 0⟩]⟩]⟩

/-- Instance 0 of the resources 1 and 2. -/
def twoContainers : Bytes := [0x83, 1, 0x41, 0, 0x58, 0x83, 2, 0x41, 0, 0x59]

theorem twoContainers_wellFormed :
    (Addressee.objectInstance oneMember).WellFormed (ofBytes twoContainers) 10 := by
  decide +kernel

/-- A `Put` of the same buffer writes instance 0 from its record at 2. -/
theorem put_scoped_twoContainers : (Access.member 2 (some 0) 1 0).Inside 10 ∧
    (Addressee.objectInstance oneMember).Scoped (ofBytes twoContainers) 10
      (.member 2 (some 0) 1 0) :=
  (@scoped_iff _ _ .put _ twoContainers_wellFormed).mpr
    ⟨by decide +kernel, fun h => (nomatch h), fun r h => (nomatch h)⟩
    (fun _ => true) _ (by decide +kernel)

/-- The walk over the instances of resource 1 goes on to the record of resource 2 and creates an
instance 2 of resource 1. -/
theorem sibling_created : ¬∀ x ∈ (deserialize (some (ofBytes twoContainers)) 10 .post
      (.objectInstance oneMember) ⟨fun _ => true, []⟩).2.2.log,
    (Addressee.objectInstance oneMember).Scoped (ofBytes twoContainers) 10 x := by
  intro h
  obtain ⟨n, -, hp⟩ := h (.member 5 (some 0) 1 2) (by decide +kernel)
  exact absurd (recType_of_member twoContainers_wellFormed hp) (by decide +kernel)

end Scoped
end MbedClient.Tlv
