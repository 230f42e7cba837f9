import MbedClient.Tlv.Bounds

/-! Well-formed buffers: containers are filled by the records they may hold. Object instance
records hold resources and multiple resources, multiple resource records hold resource instances. -/
namespace MbedClient.Tlv
variable (tlv : Nat → UInt8) (size : Nat)

/-- What a record is about, by the ids on the way to it. -/
inductive Path where
  | objectInstance (id : UInt16)
  | multiple (objectInstance id : UInt16)
  | resource (objectInstance id : UInt16)
  | member (objectInstance resource id : UInt16)
  deriving DecidableEq

/-- Containers have no value of their own. -/
def Path.valued : Path → Bool
  | .objectInstance _ => false
  | .multiple _ _ => false
  | .resource _ _ => true
  | .member _ _ _ => true

section Formats

def MembersFormat (o e : Nat) : Prop := Walk.Exact (frame tlv) o e ∧
  ∀ p ∈ Walk.span (frame tlv) o e, recType tlv p = typeResourceInstance

def ResourcesFormat (o e : Nat) : Prop := Walk.Exact (frame tlv) o e ∧
  ∀ p ∈ Walk.span (frame tlv) o e, recType tlv p = typeResource ∨
    (recType tlv p = typeMultipleResource ∧ MembersFormat tlv (recContent tlv p) (recNext tlv p))

def ObjectInstancesFormat (o e : Nat) : Prop := Walk.Exact (frame tlv) o e ∧
  ∀ p ∈ Walk.span (frame tlv) o e, recType tlv p = typeObjectInstance ∧
    ResourcesFormat tlv (recContent tlv p) (recNext tlv p)

/-- A non-empty buffer of what its addressee is made of; for a resource that is one multiple
resource record. -/
def Addressee.WellFormed (a : Addressee) : Prop := 0 < size ∧ match a with
  | .object _ => ObjectInstancesFormat tlv 0 size
  | .objectInstance _ => ResourcesFormat tlv 0 size
  | .resource _ => recType tlv 0 = typeMultipleResource ∧ recNext tlv 0 = size ∧
    MembersFormat tlv (recContent tlv 0) size

instance (o e : Nat) : Decidable (MembersFormat tlv o e) :=
  inferInstanceAs (Decidable (_ ∧ _))

instance (o e : Nat) : Decidable (ResourcesFormat tlv o e) :=
  inferInstanceAs (Decidable (_ ∧ _))

instance (o e : Nat) : Decidable (ObjectInstancesFormat tlv o e) :=
  inferInstanceAs (Decidable (_ ∧ _))

instance : (a : Addressee) → Decidable (a.WellFormed tlv size)
  | .object _ => inferInstanceAs (Decidable (_ ∧ ObjectInstancesFormat tlv 0 size))
  | .objectInstance _ => inferInstanceAs (Decidable (_ ∧ ResourcesFormat tlv 0 size))
  | .resource _ => inferInstanceAs (Decidable (_ ∧ _ ∧ _ ∧ MembersFormat tlv _ size))

end Formats

/-! The records of a buffer in their order, each with what it is about. -/
section Paths

def memberPaths (i id : UInt16) (o e : Nat) : List (Nat × Path) :=
  (Walk.span (frame tlv) o e).map fun p => (p, .member i id (recId tlv p))

def recordPaths (i : UInt16) (p : Nat) : List (Nat × Path) :=
  if recType tlv p == typeMultipleResource then
    (p, .multiple i (recId tlv p)) ::
      memberPaths tlv i (recId tlv p) (recContent tlv p) (recNext tlv p)
  else [(p, .resource i (recId tlv p))]

def resourcePaths (i : UInt16) (o e : Nat) : List (Nat × Path) :=
  (Walk.span (frame tlv) o e).flatMap (recordPaths tlv i)

/-- A resource stands alone, so the object instance in its paths is a placeholder. -/
def Addressee.paths : Addressee → List (Nat × Path)
  | .object _ => (Walk.span (frame tlv) 0 size).flatMap fun q =>
    (q, .objectInstance (recId tlv q)) ::
      resourcePaths tlv (recId tlv q) (recContent tlv q) (recNext tlv q)
  | .objectInstance oi => resourcePaths tlv oi.instanceId 0 size
  | .resource _ => (0, .multiple 0 (recId tlv 0)) ::
    memberPaths tlv 0 (recId tlv 0) (recContent tlv 0) (recNext tlv 0)

end Paths

/-! A walk over the resources of a well-formed region ends with it; behind it lies the end of the
buffer or the next object instance. -/
section Regions
variable {tlv size} {o e p q c m : Nat}

structure Region (tlv : Nat → UInt8) (size o e : Nat) : Prop where
  format : ResourcesFormat tlv o e
  inside : e ≤ size
  closed : e < size → recType tlv e = typeObjectInstance ∧ recNext tlv e ≤ size

theorem region_of_mem_span (h : ObjectInstancesFormat tlv 0 size)
    (hq : q ∈ Walk.span (frame tlv) 0 size) :
    Region tlv size (recContent tlv q) (recNext tlv q) :=
  ⟨(h.2 q hq).2, h.1.2 q hq, fun hlt => by
    have hn : recNext tlv q ∈ Walk.span (frame tlv) 0 size := Walk.next_mem_span hq hlt
    exact ⟨(h.2 _ hn).1, h.1.2 _ hn⟩⟩

theorem resourceStop_eq : resourceStop tlv p = true ↔ recType tlv p ≠ typeResource ∧
    recType tlv p ≠ typeResourceInstance ∧ recType tlv p ≠ typeMultipleResource := by
  simp [resourceStop, and_assoc]

theorem objectInstance_stops (h : recType tlv p = typeObjectInstance) :
    resourceStop tlv p = true ∧ ∀ nested, instanceStop tlv nested p = true := by
  refine ⟨resourceStop_eq.mpr ?_, fun nested => ?_⟩
  · rw [h]
    decide
  · rw [instanceStop, h]
    cases nested <;> decide

theorem Region.resource_goes (h : Region tlv size o e) (hp : p ∈ Walk.span (frame tlv) o e) :
    resourceStop tlv p = false := by
  rcases h.format.2 p hp with ht | ⟨ht, -⟩ <;> simp [resourceStop, ht]

/-- The records a walk over a region visits. -/
theorem Region.visited (h : Region tlv size o e)
    (hin : ∀ p ∈ Walk.visited (frame tlv) (resourceStop tlv) size o, p < size) :
    Walk.visited (frame tlv) (resourceStop tlv) size o =
      Walk.span (frame tlv) o e ++ if e < size then [e] else [] := by
  have hend : e < size → Walk.visited (frame tlv) (resourceStop tlv) size e = [e] := fun hlt =>
    Walk.visited_last _ _ _ (Or.inl (objectInstance_stops (h.closed hlt).1).1)
  rcases h.format.1.1.lt_or_eq with hlt | rfl
  · rw [Walk.visited_eq_span_append h.format.1 hlt h.inside fun p hp => h.resource_goes hp]
    split_ifs with hsz
    · rw [hend hsz]
    · rfl
  · have hsz := hin o (Walk.mem_visited_self _ _ _ o)
    rw [Walk.span_self, if_pos hsz, hend hsz]
    rfl

/-- A walk over resource instances that runs on behind their container meets none any more. -/
theorem Region.mem_behind (h : Region tlv size o e) (hc : c ∈ Walk.span (frame tlv) o e)
    (hlt : recNext tlv c < size)
    (hm : m ∈ Walk.visited (frame tlv) (instanceStop tlv true) size (recNext tlv c)) :
    recType tlv m ≠ typeResourceInstance ∧ m < size ∧ recNext tlv m ≤ size := by
  have hnext := h.format.1.next hc
  have hsub : ∀ p ∈ Walk.span (frame tlv) (recNext tlv c) e,
      p ∈ Walk.span (frame tlv) o e := fun p hp => Walk.span_subset hc hp
  rcases Walk.mem_visited hnext h.inside hlt hm with hm | ⟨hsz, hm⟩
  · refine ⟨?_, (Walk.mem_span hm).2.trans_le h.inside, (h.format.1.2 m (hsub m hm)).trans h.inside⟩
    rcases h.format.2 m (hsub m hm) with ht | ⟨ht, -⟩ <;> rw [ht] <;> decide
  · obtain ⟨ht, hn⟩ := h.closed hsz
    rw [Walk.visited_last _ _ _ (Or.inl ((objectInstance_stops ht).2 true)),
      List.mem_singleton] at hm
    subst hm
    exact ⟨by rw [ht]; decide, hsz, hn⟩

theorem members_go (nested : Bool) (h : MembersFormat tlv o e)
    (hp : p ∈ Walk.span (frame tlv) o e) : instanceStop tlv nested p = false := by
  simp [instanceStop, h.2 p hp]

/-- The records a walk over the resource instances of a container visits. -/
theorem Region.memberRecords (h : Region tlv size o e) (hc : c ∈ Walk.span (frame tlv) o e)
    (hf : MembersFormat tlv (recContent tlv c) (recNext tlv c))
    (hin : ∀ m ∈ memberRecords tlv size true (recContent tlv c), m < size) :
    ∃ behind, memberRecords tlv size true (recContent tlv c) =
      Walk.span (frame tlv) (recContent tlv c) (recNext tlv c) ++ behind ∧
      ∀ m ∈ behind, recType tlv m ≠ typeResourceInstance ∧ m < size ∧ recNext tlv m ≤ size := by
  have hle : recNext tlv c ≤ size := (h.format.1.2 c hc).trans h.inside
  have hbehind := fun m (hlt : recNext tlv c < size) hm => h.mem_behind hc hlt (m := m) hm
  rcases hf.1.1.lt_or_eq with hlt | heq
  · refine ⟨_, Walk.visited_eq_span_append hf.1 hlt hle fun p hp => members_go true hf hp, ?_⟩
    intro m hm
    split_ifs at hm with hsz
    · exact hbehind m hsz hm
    · exact absurd hm List.not_mem_nil
  · have hsz := hin _ (Walk.mem_visited_self _ _ _ _)
    rw [heq] at hsz
    refine ⟨Walk.visited (frame tlv) (instanceStop tlv true) size (recNext tlv c), ?_,
      fun m hm => hbehind m hsz hm⟩
    rw [Tlv.memberRecords, heq, Walk.span_self]
    rfl

theorem Region.visit_next (h : Region tlv size o e) {oi : M2MObjectInstance}
    (hin : ∀ v ∈ resourceVisits tlv size oi o, v.record < size) :
    ∀ v ∈ resourceVisits tlv size oi o, recNext tlv v.record ≤ size := by
  intro v hv
  obtain ⟨p, hp, hvp⟩ := (mem_resourceVisits tlv size).mp hv
  have hvisited := h.visited fun p hp => hin (.own p)
    ((mem_resourceVisits tlv size).mpr ⟨p, hp, List.mem_cons_self⟩)
  have hmem : p ∈ Walk.span (frame tlv) o e ∨ (p = e ∧ e < size) := by
    rw [hvisited, List.mem_append] at hp
    refine hp.imp_right fun hp => ?_
    split_ifs at hp with hsz
    · exact ⟨List.mem_singleton.mp hp, hsz⟩
    · exact absurd hp List.not_mem_nil
  cases v with
  | own q =>
    obtain rfl := mem_recordVisits_own tlv size hvp
    rcases hmem with hq | ⟨rfl, hsz⟩
    · exact (h.format.1.2 q hq).trans h.inside
    · exact (h.closed hsz).2
  | member k m =>
    obtain ⟨ht, hm, r, hk, hr⟩ := mem_recordVisits tlv size hvp
    rcases hmem with hp' | ⟨rfl, hsz⟩
    · have hf : MembersFormat tlv (recContent tlv p) (recNext tlv p) := by
        rcases h.format.2 p hp' with ht' | ⟨-, hf⟩
        · rw [ht] at ht'
          exact absurd ht' (by decide)
        · exact hf
      obtain ⟨behind, heq, hb⟩ := h.memberRecords hp' hf fun m' hm' => hin (.member k m')
        ((mem_resourceVisits tlv size).mpr ⟨p, hp, mem_recordVisits_member tlv size ht hk hr hm'⟩)
      rw [heq, List.mem_append] at hm
      rcases hm with hm | hm
      · exact (hf.1.2 m hm).trans ((h.format.1.2 p hp').trans h.inside)
      · exact (hb m hm).2.2
    · rw [(h.closed hsz).1] at ht
      exact absurd ht (by decide)

theorem region_all (h : ResourcesFormat tlv 0 size) : Region tlv size 0 size :=
  ⟨h, le_refl size, fun hlt => absurd hlt (lt_irrefl size)⟩

theorem objects_visited (h : ObjectInstancesFormat tlv 0 size) (hsize : 0 < size) :
    Walk.visited (frame tlv) (objectStop tlv) size 0 = Walk.span (frame tlv) 0 size :=
  Walk.visited_eq_span h.1 hsize fun q hq => by simp [objectStop, (h.2 q hq).1]

theorem Addressee.WellFormed.startsOn {a : Addressee} (h : a.WellFormed tlv size) :
    a.startsOn tlv = true := by
  obtain ⟨hsize, h⟩ := h
  have hzero : 0 ∈ Walk.span (frame tlv) 0 size := by
    rw [Walk.span_cons hsize]
    exact List.mem_cons_self
  cases a with
  | object obj => simp [Addressee.startsOn, (h.2 0 hzero).1]
  | objectInstance oi =>
    rcases h.2 0 hzero with ht | ⟨ht, -⟩ <;> simp [Addressee.startsOn, ht]
  | resource r => simp [Addressee.startsOn, h.1]

/-- A well-formed buffer is decoded in bounds if no walk starts at its end. -/
theorem Addressee.WellFormed.fits_iff {a : Addressee} {operation : Operation}
    (h : a.WellFormed tlv size) :
    a.Fits tlv size operation ↔ ∀ v ∈ a.visits tlv size, v.record < size := by
  have hheader : ∀ v : Visit, v.record < recContent tlv v.record ∧
      recContent tlv v.record ≤ recNext tlv v.record := by
    intro v
    have := recContent_bounds tlv v.record
    exact ⟨by omega, Nat.le_add_right _ _⟩
  constructor
  · intro hf v hv
    exact (hheader v).1.trans_le (hf.header v hv)
  · intro hin
    have hnext : ∀ v ∈ a.visits tlv size, recNext tlv v.record ≤ size := by
      obtain ⟨hsize, h⟩ := h
      cases a with
      | object obj =>
        intro v hv
        obtain ⟨q, hq, hvq⟩ := List.mem_flatMap.mp hv
        have hq' : q ∈ Walk.span (frame tlv) 0 size := objects_visited h hsize ▸ hq
        cases v with
        | object p =>
          obtain rfl := mem_objectRecordVisits_object tlv size hvq
          exact h.1.2 p hq'
        | inside j v =>
          obtain ⟨ht, oi, hj, hoi, hv⟩ := mem_objectRecordVisits tlv size hvq
          refine (region_of_mem_span h hq').visit_next (fun w hw => ?_) v hv
          exact hin (.inside j w) (List.mem_flatMap.mpr ⟨q, hq,
            mem_objectRecordVisits_inside tlv size ht hj hoi hw⟩)
      | objectInstance oi =>
        intro v hv
        obtain ⟨w, hw, rfl⟩ := List.mem_map.mp hv
        exact (region_all h).visit_next
          (fun w hw => hin (.inside 0 w) (List.mem_map_of_mem hw)) w hw
      | resource r =>
        intro v hv
        obtain ⟨p, hp, rfl⟩ := List.mem_map.mp hv
        have hstart := hin (.inside 0 (.member 0 (recContent tlv 0)))
          (List.mem_map_of_mem (Walk.mem_visited_self _ _ _ _))
        have heq := Walk.visited_eq_span h.2.2.1 hstart
          fun p hp => members_go false h.2.2 hp
        rw [memberRecords, heq] at hp
        exact h.2.2.1.2 p hp
    exact ⟨fun v hv => (hheader v).2.trans (hnext v hv), fun _ v hv _ => hnext v hv⟩

end Regions
end MbedClient.Tlv
