import MbedClient.Tlv.Grammar

/-! A `Put` that succeeds without reading behind its buffer has stored every record whose variable
exists; whether all of them exist is only asked of the last one. -/
namespace MbedClient.Tlv
open Search
variable {tlv : Nat → UInt8} {size : Nat}

/-! Paths lead to the first object instance, resource and resource instance with their ids. -/
section Locate

def namedInstance (i : UInt16) (oi : M2MObjectInstance) : Bool := oi.instanceId == i

def namedResource (id : UInt16) (r : M2MResource) : Bool := r.nameId == (id.toNat : Int)

def namedMultiple (id : UInt16) (r : M2MResource) : Bool :=
  r.multipleInstance && r.nameId == (id.toNat : Int)

def namedMember (m : UInt16) (i : M2MResourceInstance) : Bool := i.instanceId == m

def Path.owner : Path → UInt16
  | .objectInstance i => i
  | .multiple i _ => i
  | .resource i _ => i
  | .member i _ _ => i

def Path.locateIn (oi : M2MObjectInstance) : Path → Option (Nat × Option Nat)
  | .objectInstance _ => none
  | .multiple _ _ => none
  | .resource _ id => (first (namedResource id) oi.resources).map fun r => (r.1, none)
  | .member _ id m => (first (namedMultiple id) oi.resources).bind fun r =>
    (first (namedMember m) r.2.instances).map fun i => (r.1, some i.1)

def Path.locate (obj : M2MObject) (n : Path) : Option Target :=
  (first (namedInstance n.owner) obj.instances).bind fun oi =>
    (n.locateIn oi.2).map fun t => ⟨oi.1, t.1, t.2⟩

/-- There is a target of the kind the path is about. -/
def Path.Exists (obj : M2MObject) : Path → Prop
  | .objectInstance i => (first (namedInstance i) obj.instances).isSome = true
  | .multiple i id => ((first (namedInstance i) obj.instances).bind fun oi =>
    first (namedMultiple id) oi.2.resources).isSome = true
  | .resource i id => ((Path.resource i id).locate obj).isSome = true
  | .member i id m => ((Path.member i id m).locate obj).isSome = true

instance (obj : M2MObject) : (n : Path) → Decidable (n.Exists obj)
  | .objectInstance _ => inferInstanceAs (Decidable (_ = true))
  | .multiple _ _ => inferInstanceAs (Decidable (_ = true))
  | .resource _ _ => inferInstanceAs (Decidable (_ = true))
  | .member _ _ _ => inferInstanceAs (Decidable (_ = true))

def Path.read (obj : M2MObject) (n : Path) : Option Bytes :=
  ((n.locate obj).bind obj.base?).map (·.value)

end Locate

/-! The visits that write a variable are the records about it. -/
section Writers

theorem memberTarget_iff {r : M2MResource} {p x : Nat} {i : M2MResourceInstance} {m : UInt16}
    (htype : recType tlv p = typeResourceInstance)
    (hi : first (namedMember m) r.instances = some (x, i)) :
    memberTarget tlv p r = some x ↔ recId tlv p = m := by
  obtain ⟨hx, hget⟩ := first_eq_some.mp hi
  have hm : i.instanceId = m := by simpa [namedMember] using first_passes hi
  constructor
  · intro h
    obtain ⟨i', hget', hhit⟩ := memberTarget_some tlv p h
    obtain rfl : i = i' := Option.some.inj (hget.symm.trans hget')
    rw [← hm]
    exact (eq_of_beq (Bool.and_eq_true_iff.mp hhit).1).symm
  · rintro rfl
    have hhit : memberHit tlv p = namedMember (recId tlv p) := by
      funext i
      simp [memberHit, namedMember, htype]
    rwa [memberTarget, hhit]

theorem ownTarget_iff {oi : M2MObjectInstance} {p k : Nat} {r : M2MResource} {id : UInt16}
    (htype : recType tlv p = typeResource)
    (hr : first (namedResource id) oi.resources = some (k, r)) :
    ownTarget tlv p oi = some k ↔ recId tlv p = id := by
  obtain ⟨hk, hget⟩ := first_eq_some.mp hr
  have hid : r.nameId = id.toNat := by simpa [namedResource] using first_passes hr
  constructor
  · intro h
    obtain ⟨-, r', hget', hhit⟩ := ownTarget_some tlv p h
    obtain rfl : r = r' := Option.some.inj (hget.symm.trans hget')
    have hrec : r.nameId = (recId tlv p).toNat := eq_of_beq hhit
    exact UInt16.toNat_inj.mp (by omega)
  · rintro rfl
    have hown : isOwn tlv p = true := by simp [isOwn, htype]
    rwa [ownTarget, if_pos hown]

theorem isOwn_multiple {p : Nat} (h : recType tlv p = typeMultipleResource) :
    isOwn tlv p = false := by
  rw [isOwn, h]
  decide

theorem filter_members {o e c : Nat} {r : M2MResource} {x : Nat} {i : M2MResourceInstance}
    {m : UInt16} (h : Region tlv size o e) (hc : c ∈ Walk.span (frame tlv) o e)
    (hf : MembersFormat tlv (recContent tlv c) (recNext tlv c))
    (hin : ∀ p ∈ memberRecords tlv size true (recContent tlv c), p < size)
    (hi : first (namedMember m) r.instances = some (x, i)) :
    (memberRecords tlv size true (recContent tlv c)).filter
        (fun p => memberTarget tlv p r = some x) =
      (Walk.span (frame tlv) (recContent tlv c) (recNext tlv c)).filter
        (fun p => recId tlv p = m) := by
  obtain ⟨behind, heq, hb⟩ := h.memberRecords hc hf hin
  have hnone : behind.filter (fun p => memberTarget tlv p r = some x) = [] := by
    refine List.filter_eq_nil_iff.mpr fun p hp ht => ?_
    obtain ⟨_, -, hhit⟩ := memberTarget_some tlv p (of_decide_eq_true ht)
    exact (hb p hp).1 (eq_of_beq (Bool.and_eq_true_iff.mp hhit).2)
  rw [heq, List.filter_append, hnone, List.append_nil]
  refine List.filter_congr fun p hp => ?_
  rw [decide_eq_decide]
  exact memberTarget_iff (hf.2 p hp) hi

/-- The visits that a multiple resource record makes inside one of its resources. -/
theorem filter_entered {oi : M2MObjectInstance} {p k x : Nat} {r : M2MResource}
    (hmulti : recType tlv p = typeMultipleResource) (hk : oi.resources[k]? = some r) :
    ((recordVisits tlv size oi p).filter
        fun v => resourceTarget tlv oi v = some (k, some x)).map (·.record) =
      if multiHit tlv p r then (memberRecords tlv size true (recContent tlv p)).filter
        (fun m => memberTarget tlv m r = some x) else [] := by
  have hvisit : ∀ v : Nat × Nat, decide (resourceTarget tlv oi (.member v.1 v.2) =
      some (k, some x)) = (v.1 == 0 + k && decide (memberTarget tlv v.2 r = some x)) := by
    rintro ⟨k', m⟩
    by_cases hkk : k' = k
    · subst hkk
      simp [resourceTarget, hk]
    · simp only [resourceTarget, Nat.zero_add, beq_eq_false_iff_ne.mpr hkk, Bool.false_and,
        decide_eq_false_iff_not]
      intro hc
      obtain ⟨_, -, hc⟩ := Option.bind_eq_some_iff.mp hc
      obtain ⟨_, -, hc⟩ := Option.map_eq_some_iff.mp hc
      exact hkk (Prod.mk.inj hc).1
  have hown : resourceTarget tlv oi (.own p) ≠ some (k, some x) := by
    simp [resourceTarget, ownTarget, isOwn_multiple hmulti]
  rw [recordVisits, hmulti, if_pos (by rfl), List.filter_cons_of_neg (by simpa using hown),
    List.filter_map, List.map_map]
  simp only [Function.comp_def, hvisit]
  rw [entered_filter (fun m => decide (memberTarget tlv m r = some x)) 0 k, hk, Option.map_some,
    Option.getD_some]
  split_ifs
  · simp [ResourceVisit.record, Function.comp_def]
  · rfl

/-- The visits of a record that write a variable are the record's paths to it. -/
theorem filter_record {oi : M2MObjectInstance} {o e p : Nat} {n : Path} {t : Nat × Option Nat}
    (h : Region tlv size o e) (hp : p ∈ Walk.span (frame tlv) o e)
    (hin : ∀ v ∈ recordVisits tlv size oi p, v.record < size) (hn : n.locateIn oi = some t) :
    ((recordVisits tlv size oi p).filter fun v => resourceTarget tlv oi v = some t).map
        (·.record) =
      ((recordPaths tlv n.owner p).filter fun x => x.2 = n).map (·.1) := by
  cases n with
  | objectInstance i => simp [Path.locateIn] at hn
  | multiple i id => simp [Path.locateIn] at hn
  | resource i id =>
    obtain ⟨⟨k, r⟩, hr, rfl⟩ := Option.map_eq_some_iff.mp hn
    rcases h.format.2 p hp with ht | ⟨ht, -⟩
    · have hne : (recType tlv p == typeMultipleResource) = false := by rw [ht]; decide
      have htarget := ownTarget_iff ht hr
      by_cases hid : recId tlv p = id
      · simp [recordVisits, recordPaths, hne, resourceTarget, htarget.mpr hid, hid,
          ResourceVisit.record, Path.owner]
      · have hno : ¬ownTarget tlv p oi = some k := fun hc => hid (htarget.mp hc)
        simp [recordVisits, recordPaths, hne, resourceTarget, hno, hid]
    · have hleft : ∀ v ∈ recordVisits tlv size oi p, resourceTarget tlv oi v ≠ some (k, none) := by
        intro v hv hc
        cases v with
        | own q =>
          obtain rfl := mem_recordVisits_own tlv size hv
          simp [resourceTarget, ownTarget, isOwn_multiple ht] at hc
        | member k' q =>
          obtain ⟨_, -, hc⟩ := Option.bind_eq_some_iff.mp hc
          obtain ⟨_, -, hc⟩ := Option.map_eq_some_iff.mp hc
          exact Option.some_ne_none _ (Prod.mk.inj hc).2
      rw [List.filter_eq_nil_iff.mpr (by simpa using hleft)]
      simp [recordPaths, ht, memberPaths]
  | member i id m =>
    obtain ⟨⟨k, r⟩, hr, hn⟩ := Option.bind_eq_some_iff.mp hn
    obtain ⟨⟨x, j⟩, hj, rfl⟩ := Option.map_eq_some_iff.mp hn
    obtain ⟨-, hk⟩ := first_eq_some.mp hr
    obtain ⟨hmulti, hid⟩ : r.multipleInstance = true ∧ r.nameId = id.toNat := by
      simpa [namedMultiple] using first_passes hr
    rcases h.format.2 p hp with ht | ⟨ht, hf⟩
    · have hne : (recType tlv p == typeMultipleResource) = false := by rw [ht]; decide
      simp [recordVisits, recordPaths, hne, resourceTarget]
    · rw [filter_entered ht hk]
      by_cases hrec : recId tlv p = id
      · have hhit : multiHit tlv p r = true := by simp [multiHit, hmulti, hid, hrec]
        have hmem : ∀ q ∈ memberRecords tlv size true (recContent tlv p), q < size := by
          intro q hq
          refine hin (.member k q) (mem_recordVisits_member tlv size ht hk hhit hq)
        rw [if_pos hhit, filter_members h hp hf hmem hj]
        simp [recordPaths, ht, memberPaths, hrec, Path.owner, List.filter_map, Function.comp_def]
      · have hhit : ¬multiHit tlv p r = true := by
          intro hc
          have hc : r.nameId = (recId tlv p).toNat := eq_of_beq (Bool.and_eq_true_iff.mp hc).2
          exact hrec (UInt16.toNat_inj.mp (by omega))
        rw [if_neg hhit]
        simp [recordPaths, ht, memberPaths, hrec]

theorem flatMap_filter_congr {α β γ : Type*} {l : List α} {f : α → List β} {g : α → List γ}
    {P : β → Bool} {Q : γ → Bool} {u : β → Nat} {w : γ → Nat}
    (h : ∀ x ∈ l, ((f x).filter P).map u = ((g x).filter Q).map w) :
    ((l.flatMap f).filter P).map u = ((l.flatMap g).filter Q).map w := by
  simp only [List.filter_flatMap, List.map_flatMap]
  exact List.flatMap_congr h

theorem filter_region {oi : M2MObjectInstance} {o e : Nat} {n : Path} {t : Nat × Option Nat}
    (h : Region tlv size o e) (hin : ∀ v ∈ resourceVisits tlv size oi o, v.record < size)
    (hn : n.locateIn oi = some t) :
    ((resourceVisits tlv size oi o).filter fun v => resourceTarget tlv oi v = some t).map
        (·.record) =
      ((resourcePaths tlv n.owner o e).filter fun x => x.2 = n).map (·.1) := by
  have hin' : ∀ p ∈ Walk.visited (frame tlv) (resourceStop tlv) size o,
      ∀ v ∈ recordVisits tlv size oi p, v.record < size := fun p hp v hv =>
    hin v ((mem_resourceVisits tlv size).mpr ⟨p, hp, hv⟩)
  have hvisited := h.visited fun p hp => hin' p hp (.own p) List.mem_cons_self
  have hclosing : (((if e < size then [e] else []).flatMap (recordVisits tlv size oi)).filter
      fun v => resourceTarget tlv oi v = some t) = [] := by
    split_ifs with hsz
    · have ht := (h.closed hsz).1
      have hne : (recType tlv e == typeMultipleResource) = false := by rw [ht]; decide
      have hown : isOwn tlv e = false := by rw [isOwn, ht]; decide
      simp [recordVisits, hne, resourceTarget, ownTarget, hown]
    · rfl
  rw [resourceVisits, hvisited, List.flatMap_append, List.filter_append, hclosing, List.append_nil,
    resourcePaths]
  refine flatMap_filter_congr fun p hp => filter_record h hp (hin' p ?_) hn
  rw [hvisited]
  exact List.mem_append_left _ hp

theorem owner_of_mem_resourcePaths {i : UInt16} {o e : Nat} {x : Nat × Path}
    (h : x ∈ resourcePaths tlv i o e) : x.2.owner = i := by
  obtain ⟨p, -, h⟩ := List.mem_flatMap.mp h
  unfold recordPaths at h
  split_ifs at h
  · rcases List.mem_cons.mp h with rfl | h
    · rfl
    · obtain ⟨_, -, rfl⟩ := List.mem_map.mp h
      rfl
  · obtain rfl := List.mem_singleton.mp h
    rfl

/-- The visits that an object instance record makes inside one of the object instances. -/
theorem filter_objectRecord {obj : M2MObject} {q j : Nat} {oi : M2MObjectInstance}
    {t : Nat × Option Nat} (htype : recType tlv q = typeObjectInstance)
    (hj : obj.instances[j]? = some oi) :
    ((objectRecordVisits tlv size obj q).filter
        fun v => visitTarget tlv obj v = some ⟨j, t.1, t.2⟩).map (·.record) =
      if instanceHit tlv q oi then ((resourceVisits tlv size oi (recContent tlv q)).filter
        fun v => resourceTarget tlv oi v = some t).map (·.record) else [] := by
  have hvisit : ∀ v : Nat × ResourceVisit, decide (visitTarget tlv obj (.inside v.1 v.2) =
      some ⟨j, t.1, t.2⟩) = (v.1 == 0 + j && decide (resourceTarget tlv oi v.2 = some t)) := by
    rintro ⟨j', v⟩
    by_cases hjj : j' = j
    · subst hjj
      simp [visitTarget, hj]
    · simp only [visitTarget, Nat.zero_add, beq_eq_false_iff_ne.mpr hjj, Bool.false_and,
        decide_eq_false_iff_not]
      intro hc
      obtain ⟨_, -, hc⟩ := Option.bind_eq_some_iff.mp hc
      obtain ⟨_, -, hc⟩ := Option.map_eq_some_iff.mp hc
      exact hjj (Target.mk.inj hc).1
  rw [objectRecordVisits, htype, if_pos (by rfl), List.filter_cons_of_neg (by simp [visitTarget]),
    List.filter_map, List.map_map]
  simp only [Function.comp_def, hvisit]
  rw [entered_filter (fun v => decide (resourceTarget tlv oi v = some t)) 0 j, hj,
    Option.map_some, Option.getD_some]
  split_ifs
  · simp [Visit.record, Function.comp_def]
  · rfl

theorem filter_objects {obj : M2MObject} {n : Path} {t : Target}
    (hwf : ObjectInstancesFormat tlv 0 size) (hsize : 0 < size)
    (hin : ∀ v ∈ objectVisits tlv size obj 0, v.record < size) (hn : n.locate obj = some t) :
    ((objectVisits tlv size obj 0).filter fun v => visitTarget tlv obj v = some t).map
        (·.record) =
      (((Addressee.object obj).paths tlv size).filter fun x => x.2 = n).map (·.1) := by
  obtain ⟨⟨j, oi⟩, hoi, hn⟩ := Option.bind_eq_some_iff.mp hn
  obtain ⟨t, ht, rfl⟩ := Option.map_eq_some_iff.mp hn
  obtain ⟨-, hj⟩ := first_eq_some.mp hoi
  have howner : oi.instanceId = n.owner := by simpa [namedInstance] using first_passes hoi
  have hvisited := objects_visited hwf hsize
  rw [objectVisits, hvisited, Addressee.paths]
  refine flatMap_filter_congr fun q hq => ?_
  have htype := (hwf.2 q hq).1
  have hne : ¬((q, Path.objectInstance (recId tlv q)).2 = n) := by
    rintro rfl
    simp [Path.locateIn] at ht
  rw [filter_objectRecord htype hj, List.filter_cons_of_neg (by simpa using hne)]
  by_cases hid : recId tlv q = n.owner
  · have hhit : instanceHit tlv q oi = true := by simp [instanceHit, howner, hid]
    rw [if_pos hhit, hid]
    refine filter_region (region_of_mem_span hwf hq) (fun v hv => ?_) ht
    refine hin (.inside j v) (List.mem_flatMap.mpr ⟨q, hvisited ▸ hq, ?_⟩)
    exact mem_objectRecordVisits_inside tlv size htype hj hhit hv
  · have hhit : ¬instanceHit tlv q oi = true := by simpa [instanceHit, howner] using Ne.symm hid
    rw [if_neg hhit, List.filter_eq_nil_iff.mpr fun x hx hc => ?_]
    · rfl
    · have hx := owner_of_mem_resourcePaths hx
      rw [of_decide_eq_true hc] at hx
      exact hid hx.symm

/-- The records about a variable are, in order, those whose visits write it. -/
theorem writers_eq {a : Addressee} {n : Path} {t : Target} (hwf : a.WellFormed tlv size)
    (hin : ∀ v ∈ a.visits tlv size, v.record < size) (hn : n.locate a.forest = some t)
    (hmem : ∃ p, (p, n) ∈ a.paths tlv size) :
    (a.writers tlv size t).map (·.record) =
      ((a.paths tlv size).filter fun x => x.2 = n).map (·.1) := by
  cases a with
  | object obj => exact filter_objects hwf.2 hwf.1 hin hn
  | objectInstance oi =>
    obtain ⟨⟨j, oi'⟩, hoi, hn⟩ := Option.bind_eq_some_iff.mp hn
    obtain ⟨t, ht, rfl⟩ := Option.map_eq_some_iff.mp hn
    obtain ⟨-, hj⟩ := first_eq_some.mp hoi
    have howner : oi'.instanceId = n.owner := by simpa [namedInstance] using first_passes hoi
    obtain ⟨rfl, rfl⟩ : j = 0 ∧ oi' = oi := by
      cases j with
      | zero => exact ⟨rfl, (Option.some.inj hj).symm⟩
      | succ j => simp [Addressee.forest] at hj
    have hvisit : ∀ v, decide (visitTarget tlv (Addressee.objectInstance oi').forest
        (.inside 0 v) = some ⟨0, t.1, t.2⟩) = decide (resourceTarget tlv oi' v = some t) := by
      intro v
      simp [visitTarget, Addressee.forest]
    have hfilter := filter_region (region_all hwf.2)
      (fun v hv => hin (.inside 0 v) (List.mem_map_of_mem hv)) ht
    rw [Addressee.paths, howner, ← hfilter, Addressee.writers, Addressee.visits, List.filter_map,
      List.map_map]
    simp only [Function.comp_def, hvisit]
    rfl
  | resource r =>
    obtain ⟨-, -, hnext, hf⟩ := hwf
    obtain ⟨⟨j, oi⟩, hoi, hn⟩ := Option.bind_eq_some_iff.mp hn
    obtain ⟨t, ht, rfl⟩ := Option.map_eq_some_iff.mp hn
    obtain ⟨-, hj⟩ := first_eq_some.mp hoi
    obtain ⟨rfl, rfl⟩ : j = 0 ∧ oi = ⟨0, [r]⟩ := by
      cases j with
      | zero => exact ⟨rfl, (Option.some.inj hj).symm⟩
      | succ j => simp [Addressee.forest] at hj
    obtain ⟨m, rfl⟩ : ∃ m, n = .member 0 (recId tlv 0) m := by
      obtain ⟨p, hp⟩ := hmem
      rcases List.mem_cons.mp hp with h | h
      · obtain ⟨-, rfl⟩ := Prod.mk.inj h
        simp [Path.locateIn] at ht
      · obtain ⟨q, -, h⟩ := List.mem_map.mp h
        exact ⟨_, (Prod.mk.inj h).2.symm⟩
    obtain ⟨⟨k, r'⟩, hr, ht⟩ := Option.bind_eq_some_iff.mp ht
    obtain ⟨⟨x, i⟩, hi, rfl⟩ := Option.map_eq_some_iff.mp ht
    obtain ⟨-, hk⟩ := first_eq_some.mp hr
    obtain ⟨rfl, rfl⟩ : k = 0 ∧ r' = r := by
      cases k with
      | zero => exact ⟨rfl, (Option.some.inj hk).symm⟩
      | succ k => simp at hk
    have hsub : ∀ p ∈ memberRecords tlv size false (recContent tlv 0), p < size := fun p hp =>
      hin (.inside 0 (.member 0 p)) (List.mem_map_of_mem hp)
    have hrecords : memberRecords tlv size false (recContent tlv 0) =
        Walk.span (frame tlv) (recContent tlv 0) size :=
      Walk.visited_eq_span hf.1 (hsub _ (Walk.mem_visited_self _ _ _ _))
        fun p hp => members_go false hf hp
    have hvisit : ∀ p, decide (visitTarget tlv (Addressee.resource r').forest
        (.inside 0 (.member 0 p)) = some ⟨0, 0, some x⟩) =
        decide (memberTarget tlv p r' = some x) := by
      intro p
      simp [visitTarget, resourceTarget, Addressee.forest]
    rw [Addressee.writers, Addressee.visits, List.filter_map, List.map_map, Addressee.paths,
      List.filter_cons_of_neg (by simp), memberPaths, hnext, List.filter_map, List.map_map]
    simp only [Function.comp_def, hvisit, hrecords, Path.member.injEq, true_and, Visit.record,
      ResourceVisit.record, List.map_id']
    refine List.filter_congr fun p hp => ?_
    rw [decide_eq_decide]
    exact memberTarget_iff (hf.2 p hp) hi

end Writers

/-! Paths keep leading to the same variables. -/
section Reads
variable {writes creates : Bool}

theorem first_grown {α : Type*} {R : α → α → Prop} {Fresh : α → Prop} {f : α → Bool}
    {xs ys : List α} (hR : ∀ x y, R x y → f y = f x) (h : Grown R Fresh xs ys) {k : Nat} {x : α}
    (hx : first f xs = some (k, x)) : ∃ y, first f ys = some (k, y) ∧ R x y := by
  obtain ⟨hk, hget⟩ := first_eq_some.mp hx
  obtain ⟨y, hy, hr⟩ := h.getElem? hget
  exact ⟨y, first_eq_some.mpr ⟨Grown.findIdx?_some hR h hk, hy⟩, hr⟩

theorem Path.locateIn_grows {oi oi' : M2MObjectInstance} (h : oi.Grows writes creates oi')
    {n : Path} {t : Nat × Option Nat} (hn : n.locateIn oi = some t) :
    n.locateIn oi' = some t := by
  cases n with
  | objectInstance i => simp [Path.locateIn] at hn
  | multiple i id => simp [Path.locateIn] at hn
  | resource i id =>
    obtain ⟨⟨k, r⟩, hr, rfl⟩ := Option.map_eq_some_iff.mp hn
    obtain ⟨r', hr', -⟩ := first_grown (fun r r' k => by simp [namedResource, k.nameId])
      h.resources hr
    simp [Path.locateIn, hr']
  | member i id m =>
    obtain ⟨⟨k, r⟩, hr, hn⟩ := Option.bind_eq_some_iff.mp hn
    obtain ⟨⟨x, j⟩, hj, rfl⟩ := Option.map_eq_some_iff.mp hn
    obtain ⟨r', hr', hg⟩ := first_grown (fun r r' k => by simp [namedMultiple, k.nameId, k.multi])
      h.resources hr
    obtain ⟨j', hj', -⟩ := first_grown (fun i i' k => by simp [namedMember, k.instanceId])
      hg.instances hj
    simp [Path.locateIn, hr', hj']

theorem Path.locate_grows {obj obj' : M2MObject} (h : obj.Grows writes creates obj') {n : Path}
    {t : Target} (hn : n.locate obj = some t) : n.locate obj' = some t := by
  obtain ⟨⟨j, oi⟩, hoi, hn⟩ := Option.bind_eq_some_iff.mp hn
  obtain ⟨t, ht, rfl⟩ := Option.map_eq_some_iff.mp hn
  obtain ⟨oi', hoi', hg⟩ := first_grown (fun oi oi' k => by simp [namedInstance, k.instanceId])
    h hoi
  simp [Path.locate, hoi', locateIn_grows hg ht]

theorem base?_of_locate {obj : M2MObject} {n : Path} {t : Target} (h : n.locate obj = some t) :
    (obj.base? t).isSome = true := by
  obtain ⟨⟨j, oi⟩, hoi, hn⟩ := Option.bind_eq_some_iff.mp h
  obtain ⟨t, ht, rfl⟩ := Option.map_eq_some_iff.mp hn
  have hj := (first_eq_some.mp hoi).2
  simp only [M2MObject.base?, hj, Option.bind_some]
  cases n with
  | objectInstance i => simp [Path.locateIn] at ht
  | multiple i id => simp [Path.locateIn] at ht
  | resource i id =>
    obtain ⟨⟨k, r⟩, hr, rfl⟩ := Option.map_eq_some_iff.mp ht
    simp [M2MObjectInstance.base?, (first_eq_some.mp hr).2, M2MResource.base?]
  | member i id m =>
    obtain ⟨⟨k, r⟩, hr, ht⟩ := Option.bind_eq_some_iff.mp ht
    obtain ⟨⟨x, j⟩, hj, rfl⟩ := Option.map_eq_some_iff.mp ht
    simp [M2MObjectInstance.base?, (first_eq_some.mp hr).2, M2MResource.base?,
      (first_eq_some.mp hj).2]

end Reads

/-! What a `Put` promises, and when it keeps it. -/
section Put
variable {a : Addressee}

/-- Every record has a target, and the last record about a variable has left its value there. -/
def Addressee.Applied (tlv : Nat → UInt8) (size : Nat) (a a' : Addressee) : Prop :=
  (∀ x ∈ a.paths tlv size, x.2.Exists a.forest) ∧
  ∀ n x, n.valued = true → ((a.paths tlv size).filter fun y => y.2 = n).getLast? = some x →
    n.read a'.forest = some (recValue tlv x.1)

theorem locate_of_exists {obj : M2MObject} {n : Path} (h : n.Exists obj) (hn : n.valued = true) :
    ∃ t, n.locate obj = some t := by
  cases n with
  | objectInstance i => exact absurd hn Bool.false_ne_true
  | multiple i id => exact absurd hn Bool.false_ne_true
  | resource i id => exact Option.isSome_iff_exists.mp h
  | member i id m => exact Option.isSome_iff_exists.mp h

/-- What an accepted request leaves at the end of a path is the last record about it. -/
theorem read_of_last {operation : Operation} (hwf : a.WellFormed tlv size)
    (hin : ∀ v ∈ a.visits tlv size, v.record < size)
    (hv : a.verdict tlv size operation = .none) {H : Heap → Prop} (hH : Stable H) {env : Env}
    (hs : H env.heap) {n : Path} {t : Target} {x : Nat × Path}
    (hn : n.locate a.forest = some t)
    (hx : ((a.paths tlv size).filter fun y => y.2 = n).getLast? = some x) :
    ∃ h, H h ∧ n.read (deserialize (some tlv) size operation a env).2.1.forest =
      some (stored tlv x.1 h) := by
  obtain ⟨b, hb⟩ := Option.isSome_iff_exists.mp (base?_of_locate hn)
  have hmem := List.mem_filter.mp (List.mem_of_getLast? hx)
  have hxn : x.2 = n := of_decide_eq_true hmem.2
  have hlast := congrArg List.getLast? (writers_eq hwf hin hn ⟨x.1, hxn ▸ hmem.1⟩)
  rw [List.getLast?_map, List.getLast?_map, hx] at hlast
  obtain ⟨v, hw, hrec⟩ := Option.map_eq_some_iff.mp hlast
  have hlocate := Path.locate_grows (deserialize_grows tlv size operation a env) hn
  obtain ⟨hno, -⟩ | ⟨-, h⟩ := deserialize_base? tlv size operation a env hH hs hb
  · exact absurd ⟨hwf.startsOn, hv⟩ hno
  · rw [hw] at h
    obtain ⟨heap, hheap, h⟩ := h
    refine ⟨heap, hheap, ?_⟩
    rw [Path.read, hlocate, Option.bind_some, h]
    simp [assign, hrec]

/-- A `Put` stays inside its buffer and, if it succeeds, has applied every record exactly if no
walk starts at the end of the buffer and the last visited record is refused or every record has a
target. -/
theorem put_applied_iff (hwf : a.WellFormed tlv size) :
    let put := deserialize (some tlv) size .put a ⟨fun _ => true, []⟩
    ((∀ x ∈ put.2.2.log, x.Inside size) ∧ (put.1 = .none → a.Applied tlv size put.2.1)) ↔
      (∀ v ∈ a.visits tlv size, v.record < size) ∧
      (a.verdict tlv size .put ≠ .none ∨ ∀ x ∈ a.paths tlv size, x.2.Exists a.forest) := by
  have herror : a.verdict tlv size .put = .none →
      (deserialize (some tlv) size .put a ⟨fun _ => true, []⟩).1 = .none := by
    intro hv
    rw [deserialize_accepted tlv size .put a _ ⟨hwf.startsOn, hv⟩]
    refine (put_atomic tlv size a _).2.1 ?_
    rw [pass_verdict]
    exact hv
  constructor
  · rintro ⟨hinside, happlied⟩
    refine ⟨(hwf.fits_iff).mp (fits_of_inside tlv size .put a hwf.startsOn hinside), ?_⟩
    by_cases hv : a.verdict tlv size .put = .none
    · exact Or.inr (happlied (herror hv)).1
    · exact Or.inl hv
  · rintro ⟨hin, hexists⟩
    refine ⟨inside_of_fits tlv size .put a hwf.1 (fun _ => hwf.fits_iff.mpr hin) _, fun hput => ?_⟩
    by_cases hv : a.verdict tlv size .put = .none
    · have hexists := hexists.resolve_left (not_not_intro hv)
      refine ⟨hexists, fun n x hn hx => ?_⟩
      have hmem := List.mem_filter.mp (List.mem_of_getLast? hx)
      have hxn : x.2 = n := of_decide_eq_true hmem.2
      obtain ⟨t, ht⟩ := locate_of_exists (hxn ▸ hexists x hmem.1) hn
      obtain ⟨_, rfl, hread⟩ := read_of_last hwf hin hv (stable_const true)
        (rfl : (⟨fun _ => true, []⟩ : Env).heap = _) ht hx
      exact hread
    · rcases deserialize_refused tlv size .put a ⟨fun _ => true, []⟩ (fun h => hv h.2) with
        hr | ⟨-, hr⟩
      · rw [hr] at hput
        exact Error.noConfusion hput
      · rw [hr] at hput
        exact absurd hput hv

/-- Resource 2 may be written, there is no resource 1. -/
def onlySecond : M2MObjectInstance :=
  ⟨0, [⟨⟨.dynamic, getPutAllowed, .string, []⟩, [0x32], false, []⟩]⟩

theorem put_applied_second : let a := Addressee.objectInstance onlySecond
    let put := deserialize (some (ofBytes [0xC1, 2, 0x59])) 3 .put a ⟨fun _ => true, []⟩
    (∀ x ∈ put.2.2.log, x.Inside 3) ∧
      (put.1 = .none → a.Applied (ofBytes [0xC1, 2, 0x59]) 3 put.2.1) :=
  (put_applied_iff (by decide +kernel)).mpr ⟨by decide +kernel, Or.inr (by decide +kernel)⟩

theorem onlySecond_wellFormed : (Addressee.objectInstance onlySecond).WellFormed
    (ofBytes [0xC1, 1, 0x58, 0xC1, 2, 0x59]) 6 := by decide +kernel

/-- The record for resource 2 makes the first pass forget that resource 1 is missing. -/
theorem missing_forgotten :
    let a := Addressee.objectInstance onlySecond
    let put := deserialize (some (ofBytes [0xC1, 1, 0x58, 0xC1, 2, 0x59])) 6 .put a
      ⟨fun _ => true, []⟩
    a.WellFormed (ofBytes [0xC1, 1, 0x58, 0xC1, 2, 0x59]) 6 ∧
      ¬(put.1 = .none → a.Applied (ofBytes [0xC1, 1, 0x58, 0xC1, 2, 0x59]) 6 put.2.1) := by
  refine ⟨onlySecond_wellFormed, fun h => ?_⟩
  have hexists := (h (by decide +kernel)).1 (0, .resource 0 1) (by decide +kernel)
  exact absurd hexists (by decide +kernel)

end Put
end MbedClient.Tlv
