import MbedClient.Tlv.Complete

/-! A `Post` of resource records alone, to an object instance whose resource ids are distinct: the
first pass adds what is missing, the second one writes. -/
namespace MbedClient.Tlv
variable {tlv : Nat → UInt8} {size : Nat}

/-- Nothing but resource records, and at least one. -/
def FlatFormat (tlv : Nat → UInt8) (size : Nat) : Prop := 0 < size ∧
  Walk.Exact (frame tlv) 0 size ∧
  ∀ p ∈ Walk.span (frame tlv) 0 size, recType tlv p = typeResource

instance : Decidable (FlatFormat tlv size) := inferInstanceAs (Decidable (_ ∧ _ ∧ _))

def IdsDistinct (oi : M2MObjectInstance) : Prop := (oi.resources.map (·.nameId)).Nodup

theorem map_set_of_eq {α β : Type*} {f : α → β} {xs : List α} {k : Nat} {x y : α}
    (hk : xs[k]? = some x) (hf : f y = f x) : (xs.set k y).map f = xs.map f := by
  obtain ⟨hlt, rfl⟩ := List.getElem?_eq_some_iff.mp hk
  refine List.ext_getElem (by simp) fun j hj _ => ?_
  by_cases hjk : k = j
  · subst hjk
    simp [hf]
  · simp [hjk]

def withValue (r : M2MResource) (value : Bytes) : M2MResource := { r with value }

section Steps
variable {update : Bool} {p : Nat} {s : M2MObjectInstance × Env}

theorem IdsDistinct.index {oi : M2MObjectInstance} (h : IdsDistinct oi) {j k : Nat}
    {r r' : M2MResource} (hj : oi.resources[j]? = some r) (hk : oi.resources[k]? = some r')
    (hid : r.nameId = r'.nameId) : j = k := by
  have hlt := (List.getElem?_eq_some_iff.mp hj).1
  exact (List.getElem?_inj (by simpa using hlt) h).mp (by simp [hj, hk, hid])

/-- A resource record either writes the resource it names, or adds it, or leaves the resources
alone. -/
theorem ownStep_resources (tlv : Nat → UInt8) (update : Bool) (p : Nat)
    (s : M2MObjectInstance × Env) :
    let oi := (ownStep tlv .post update p s).1
    ((update = true → ownTarget tlv p s.1 = none) ∧ oi = s.1) ∨
    (∃ k r, ownTarget tlv p s.1 = some k ∧ s.1.resources[k]? = some r ∧ ownHit tlv p r = true ∧
      update = true ∧
      oi.resources = s.1.resources.set k (withValue r (stored tlv p s.2.heap))) ∨
    (ownTarget tlv p s.1 = none ∧ isOwn tlv p = true ∧
      oi.resources = s.1.resources ++ [newResource tlv p]) := by
  rcases ownStep_cases tlv .post update p s with ⟨hu, -, h⟩ | ⟨k, r, hu, ht, hk, hr, h⟩ |
    ⟨ht, hown, -, h⟩
  · exact Or.inl ⟨hu, by rw [h]⟩
  · refine Or.inr (Or.inl ⟨k, r, ht, hk, hr, hu, ?_⟩)
    have hbase := storeResource_base tlv s.1.instanceId p r (s.2.read (header tlv p))
    have hstore : (storeResource tlv s.1.instanceId p r (s.2.read (header tlv p))).1 =
        withValue r (stored tlv p s.2.heap) := by
      change ({ r with toM2MResourceBase := (storeResource tlv s.1.instanceId p r
        (s.2.read (header tlv p))).1.toM2MResourceBase } : M2MResource) = _
      rw [hbase]
      rfl
    rw [h, hstore]
  · rw [h, createResource_eq]
    split_ifs
    · exact Or.inr (Or.inr ⟨ht, hown, rfl⟩)
    · exact Or.inl ⟨fun _ => ht, rfl⟩
    · exact Or.inl ⟨fun _ => ht, rfl⟩

theorem newResource_nameId (p : Nat) : (newResource tlv p).nameId = (recId tlv p).toNat := by
  have hlt := (recId tlv p).toNat_lt
  exact nameId_digits (by omega)

theorem nameId_of_ownTarget_none {oi : M2MObjectInstance} (hown : isOwn tlv p = true)
    (h : ownTarget tlv p oi = none) : ∀ r ∈ oi.resources, r.nameId ≠ (recId tlv p).toNat := by
  rw [ownTarget, if_pos hown, List.findIdx?_eq_none_iff] at h
  intro r hr
  simpa [ownHit] using h r hr

theorem ownHit_nameId {r : M2MResource} (h : ownHit tlv p r = true) :
    r.nameId = (recId tlv p).toNat := eq_of_beq h

/-- What a record of the list leaves of an object instance. -/
structure Kept (tlv : Nat → UInt8) (l : List Nat) (oi oi' : M2MObjectInstance) : Prop where
  distinct : IdsDistinct oi'
  length : oi.resources.length ≤ oi'.resources.length
  others : ∀ (k : Nat) (r : M2MResource), oi.resources[k]? = some r →
    (∀ p ∈ l, r.nameId ≠ (recId tlv p).toNat) → oi'.resources[k]? = some r
  added : ∀ (k : Nat) (r : M2MResource), oi'.resources[k]? = some r → oi.resources.length ≤ k →
    ∃ p ∈ l, r.nameId = (recId tlv p).toNat

theorem kept_step {l : List Nat} {oi : M2MObjectInstance} (hp : p ∈ l) (h : Kept tlv l oi s.1) :
    Kept tlv l oi (ownStep tlv .post update p s).1 := by
  rcases ownStep_resources tlv update p s with ⟨-, hoi⟩ | ⟨k, r, -, hk, hr, -, hoi⟩ |
    ⟨ht, hown, hoi⟩
  · rwa [hoi]
  · have hid := ownHit_nameId hr
    have hlt := (List.getElem?_eq_some_iff.mp hk).1
    refine ⟨?_, by rw [hoi, List.length_set]; exact h.length, fun j r' hj hne => ?_,
      fun j r' hj hle => ?_⟩
    · rw [IdsDistinct, hoi, map_set_of_eq (f := (·.nameId)) hk (by rfl)]
      exact h.distinct
    · have hkj : k ≠ j := by
        rintro rfl
        obtain rfl := Option.some.inj (hk.symm.trans (h.others k r' hj hne))
        exact hne p hp hid
      rw [hoi, List.getElem?_set_ne hkj]
      exact h.others j r' hj hne
    · rw [hoi] at hj
      by_cases hkj : k = j
      · subst hkj
        rw [List.getElem?_set_self hlt] at hj
        obtain rfl := Option.some.inj hj
        exact ⟨p, hp, hid⟩
      · rw [List.getElem?_set_ne hkj] at hj
        exact h.added j r' hj hle
  · have hfresh := nameId_of_ownTarget_none hown ht
    refine ⟨?_, ?_, fun j r' hj hne => ?_, fun j r' hj hle => ?_⟩
    · rw [IdsDistinct, hoi, List.map_append, List.map_singleton, List.nodup_append]
      refine ⟨h.distinct, List.nodup_singleton _, fun i hi j hj => ?_⟩
      obtain ⟨r, hr, rfl⟩ := List.mem_map.mp hi
      rw [List.mem_singleton.mp hj, newResource_nameId]
      exact hfresh r hr
    · rw [hoi, List.length_append]
      exact h.length.trans (Nat.le_add_right _ _)
    · have hlt := (List.getElem?_eq_some_iff.mp hj).1.trans_le h.length
      rw [hoi, List.getElem?_append_left hlt]
      exact h.others j r' hj hne
    · rw [hoi] at hj
      rcases Nat.lt_or_ge j s.1.resources.length with hlt | hge
      · rw [List.getElem?_append_left hlt] at hj
        exact h.added j r' hj hle
      · rw [List.getElem?_append_right hge] at hj
        obtain rfl := List.mem_singleton.mp (List.mem_of_getElem? hj)
        exact ⟨p, hp, newResource_nameId p⟩

/-- If the allocations succeed, a record finds its resource afterwards. -/
theorem ownStep_found (hown : isOwn tlv p = true) (hheap : s.2.heap = fun _ => true) :
    ∃ r ∈ (ownStep tlv .post update p s).1.resources, r.nameId = (recId tlv p).toNat := by
  rcases ownStep_cases tlv .post update p s with ⟨-, hc, h⟩ | ⟨k, r, -, -, hk, hr, h⟩ |
    ⟨ht, -, -, h⟩
  · cases ht : ownTarget tlv p s.1 with
    | none => exact absurd (hc ht hown) (by decide)
    | some k =>
      obtain ⟨-, r, hk, hr⟩ := ownTarget_some tlv p ht
      exact ⟨r, by rw [h]; exact List.mem_of_getElem? hk, ownHit_nameId hr⟩
  · have hlt := (List.getElem?_eq_some_iff.mp hk).1
    rw [h]
    exact ⟨_, List.mem_set hlt _, ownHit_nameId hr⟩
  · have hheap' : (s.2.read (header tlv p)).heap.newNode.1 = true := by
      change s.2.heap.newNode.1 = true
      rw [hheap]
      rfl
    rw [h, createResource_eq, if_pos (resourceCreatable_of_target hown ht), if_pos hheap']
    exact ⟨newResource tlv p, by simp, newResource_nameId p⟩

theorem ownStep_finds {id : Int} (h : ∃ r ∈ s.1.resources, r.nameId = id) :
    ∃ r ∈ (ownStep tlv .post update p s).1.resources, r.nameId = id := by
  obtain ⟨r, hr, rfl⟩ := h
  obtain ⟨k, hk⟩ := List.getElem?_of_mem hr
  obtain ⟨r', hk', hg⟩ := (ownStep_grows tlv .post update p s).resources.getElem? hk
  exact ⟨r', List.mem_of_getElem? hk', hg.nameId⟩

end Steps

/-! Both passes. -/
section Passes
variable {update : Bool} {oi : M2MObjectInstance} {env : Env}

theorem flat_visits (hf : FlatFormat tlv size) (oi : M2MObjectInstance) :
    resourceVisits tlv size oi 0 = (Walk.span (frame tlv) 0 size).map .own := by
  have hvisited : Walk.visited (frame tlv) (resourceStop tlv) size 0 =
      Walk.span (frame tlv) 0 size := Walk.visited_eq_span hf.2.1 hf.1 fun p hp => by
    simp [resourceStop, hf.2.2 p hp]
  rw [resourceVisits, hvisited, List.map_eq_flatMap]
  refine List.flatMap_congr fun p hp => ?_
  have hne : (recType tlv p == typeMultipleResource) = false := by
    rw [hf.2.2 p hp]
    decide
  simp [recordVisits, hne]

/-- A pass over resource records. -/
def flatPass (tlv : Nat → UInt8) (size : Nat) (update : Bool) (s : M2MObjectInstance × Env) :
    M2MObjectInstance × Env :=
  Trace.fold (ownStep tlv .post update) (Walk.span (frame tlv) 0 size) s

theorem flat_run (hf : FlatFormat tlv size) (s : M2MObjectInstance × Env) :
    (deserializeResourcesAt tlv size .post update 0 s).2 = flatPass tlv size update s := by
  rw [resources_run, flat_visits hf, Trace.fold_map]
  rfl

theorem flatPass_kept (update : Bool) {s : M2MObjectInstance × Env}
    (h : Kept tlv (Walk.span (frame tlv) 0 size) oi s.1) :
    Kept tlv (Walk.span (frame tlv) 0 size) oi (flatPass tlv size update s).1 :=
  Trace.fold_invariant (I := fun s : M2MObjectInstance × Env =>
    Kept tlv (Walk.span (frame tlv) 0 size) oi s.1) (fun _ hp _ hs => kept_step hp hs) h

theorem flatPass_heap {s : M2MObjectInstance × Env} (h : s.2.heap = fun _ => true) :
    (flatPass tlv size update s).2.heap = fun _ => true :=
  Trace.fold_invariant (I := fun s : M2MObjectInstance × Env => s.2.heap = fun _ => true)
    (fun p _ s hs => ownStep_heap tlv .post update p (stable_const true) s hs) h

theorem flatPass_grows (update : Bool) (s : M2MObjectInstance × Env) :
    s.1.Grows update true (flatPass tlv size update s).1 :=
  Trace.fold_invariant (I := fun t : M2MObjectInstance × Env => s.1.Grows update true t.1)
    (fun p _ t ht => ht.trans (ownStep_grows tlv .post update p t)) (.refl s.1)

theorem flatPass_found (update : Bool) (hf : FlatFormat tlv size) {s : M2MObjectInstance × Env}
    (hs : s.2.heap = fun _ => true) {p : Nat} (hp : p ∈ Walk.span (frame tlv) 0 size) :
    ∃ r ∈ (flatPass tlv size update s).1.resources, r.nameId = (recId tlv p).toNat := by
  have hown : isOwn tlv p = true := by simp [isOwn, hf.2.2 p hp]
  obtain ⟨s', hs', -, hend⟩ := Trace.fold_reach
    (I := fun s : M2MObjectInstance × Env => s.2.heap = fun _ => true)
    (R := fun s t => ∀ id : Int, (∃ r ∈ s.1.resources, r.nameId = id) →
      ∃ r ∈ t.1.resources, r.nameId = id)
    (fun _ _ => id) (fun _ _ _ h k i hi => k i (h i hi))
    (fun p _ s hs => ⟨ownStep_heap tlv .post update p (stable_const true) s hs,
      fun _ => ownStep_finds⟩) hs hp
  exact hend _ (ownStep_found hown hs')

/-- The second pass leaves a resource with the value of the last record about it. -/
theorem flatPass_value (hf : FlatFormat tlv size) {s : M2MObjectInstance × Env}
    (hs : s.2.heap = fun _ => true) (hd : IdsDistinct s.1) {k q : Nat} {r : M2MResource}
    {id : UInt16} (hk : s.1.resources[k]? = some r) (hid : r.nameId = id.toNat)
    (hq : ((Walk.span (frame tlv) 0 size).filter fun p => recId tlv p = id).getLast? = some q) :
    ((flatPass tlv size true s).1.resources[k]?).map (·.value) = some (recValue tlv q) := by
  have hinv : ∀ p ∈ Walk.span (frame tlv) 0 size, ∀ t : M2MObjectInstance × Env,
      (t.2.heap = (fun _ => true) ∧ Kept tlv (Walk.span (frame tlv) 0 size) s.1 t.1 ∧
        ∃ r, t.1.resources[k]? = some r ∧ r.nameId = id.toNat) →
      (ownStep tlv .post true p t).2.heap = (fun _ => true) ∧
        Kept tlv (Walk.span (frame tlv) 0 size) s.1 (ownStep tlv .post true p t).1 ∧
        ∃ r, (ownStep tlv .post true p t).1.resources[k]? = some r ∧ r.nameId = id.toNat := by
    rintro p hp t ⟨hheap, hkept, r, hk, hid⟩
    obtain ⟨r', hk', hg⟩ := (ownStep_grows tlv .post true p t).resources.getElem? hk
    exact ⟨ownStep_heap tlv .post true p (stable_const true) t hheap, kept_step hp hkept,
      r', hk', hg.nameId.trans hid⟩
  have hvalue : ∀ p ∈ Walk.span (frame tlv) 0 size, ∀ t : M2MObjectInstance × Env,
      (t.2.heap = (fun _ => true) ∧ Kept tlv (Walk.span (frame tlv) 0 size) s.1 t.1 ∧
        ∃ r, t.1.resources[k]? = some r ∧ r.nameId = id.toNat) →
      ((ownStep tlv .post true p t).1.resources[k]?).map (·.value) =
        if recId tlv p = id then some (recValue tlv p)
        else (t.1.resources[k]?).map (·.value) := by
    rintro p hp t ⟨hheap, hkept, r, hk, hid⟩
    have hown : isOwn tlv p = true := by simp [isOwn, hf.2.2 p hp]
    have hlt := (List.getElem?_eq_some_iff.mp hk).1
    rcases ownStep_resources tlv true p t with ⟨ht, hoi⟩ | ⟨j, r', -, hj, hr, -, hoi⟩ |
      ⟨ht, -, hoi⟩
    · have hne : recId tlv p ≠ id := by
        rintro rfl
        exact nameId_of_ownTarget_none hown (ht rfl) r (List.mem_of_getElem? hk) hid
      rw [hoi, if_neg hne]
    · have hrid := ownHit_nameId hr
      by_cases hrec : recId tlv p = id
      · obtain rfl := hkept.distinct.index hj hk (by rw [hrid, hid, hrec])
        rw [hoi, if_pos hrec, List.getElem?_set_self hlt, Option.map_some, hheap]
        rfl
      · have hjk : j ≠ k := by
          rintro rfl
          obtain rfl := Option.some.inj (hj.symm.trans hk)
          exact hrec (UInt16.toNat_inj.mp (by omega))
        rw [hoi, if_neg hrec, List.getElem?_set_ne hjk]
    · have hne : recId tlv p ≠ id := by
        rintro rfl
        exact nameId_of_ownTarget_none hown ht r (List.mem_of_getElem? hk) hid
      rw [hoi, if_neg hne, List.getElem?_append_left hlt]
  have hlast := Trace.fold_last (fun t : M2MObjectInstance × Env =>
    (t.1.resources[k]?).map (·.value)) (fun p => decide (recId tlv p = id)) hinv
    (fun p hp t ht hn => by rw [hvalue p hp t ht, if_neg (of_decide_eq_false hn)])
    (s := s) ⟨hs, ⟨hd, le_refl _, fun _ _ h _ => h, fun _ _ h hle =>
      absurd (List.getElem?_eq_some_iff.mp h).1 (Nat.not_lt.mpr hle)⟩, r, hk, hid⟩
  rw [hq] at hlast
  obtain ⟨t, ht, hlast⟩ := hlast
  have hmem := List.mem_filter.mp (List.mem_of_getLast? hq)
  rw [flatPass, hlast, hvalue q hmem.1 t ht, if_pos (of_decide_eq_true hmem.2)]

/-- After a `Post` of resource records that succeeds, each id of the buffer belongs to exactly one
resource, which holds the value of the last record with that id, every other resource is as it
was, and no resource with another id has been added. -/
theorem post_flat (hf : FlatFormat tlv size) (hd : IdsDistinct oi)
    (hok : (deserializeResources (some tlv) size .post (oi, ⟨fun _ => true, []⟩)).1 = .none) :
    let oi' := (deserializeResources (some tlv) size .post (oi, ⟨fun _ => true, []⟩)).2.1
    (∀ id q, ((Walk.span (frame tlv) 0 size).filter fun p => recId tlv p = id).getLast? = some q →
      ∃ (k : Nat) (r : M2MResource), oi'.resources[k]? = some r ∧ r.nameId = id.toNat ∧
        r.value = recValue tlv q ∧ ∀ (j : Nat) (r' : M2MResource), oi'.resources[j]? = some r' →
          r'.nameId = id.toNat → j = k) ∧
    (∀ (k : Nat) (r : M2MResource), oi.resources[k]? = some r →
      (∀ p ∈ Walk.span (frame tlv) 0 size, r.nameId ≠ (recId tlv p).toNat) →
        oi'.resources[k]? = some r) ∧
    ∀ (k : Nat) (r : M2MResource), oi'.resources[k]? = some r → oi.resources.length ≤ k →
      ∃ p ∈ Walk.span (frame tlv) 0 size, r.nameId = (recId tlv p).toNat := by
  have hzero : 0 ∈ Walk.span (frame tlv) 0 size := by
    rw [Walk.span_cons hf.1]
    exact List.mem_cons_self
  have hstart : isType typeResource (some tlv) = true := by
    rw [recType_zero, hf.2.2 0 hzero]
    decide
  have hruns : (deserializeResources (some tlv) size .post (oi, ⟨fun _ => true, []⟩)).2 =
      flatPass tlv size true (flatPass tlv size false (oi, ⟨fun _ => true, [.byte 0]⟩)) := by
    simp only [deserializeResources, hstart, Bool.not_true, Bool.false_and, Bool.false_eq_true,
      if_false, twice] at hok ⊢
    split_ifs at hok ⊢ with hv
    · rw [flat_run hf, flat_run hf]
      rfl
    · exact absurd hok hv
  rw [hruns]
  have hkept : Kept tlv (Walk.span (frame tlv) 0 size) oi
      (flatPass tlv size false (oi, ⟨fun _ => true, [.byte 0]⟩)).1 :=
    flatPass_kept false ⟨hd, le_refl _, fun _ _ h _ => h, fun _ _ h hle =>
      absurd (List.getElem?_eq_some_iff.mp h).1 (Nat.not_lt.mpr hle)⟩
  have hkept' := flatPass_kept true hkept
  refine ⟨fun id q hq => ?_, hkept'.others, hkept'.added⟩
  have hmem := List.mem_filter.mp (List.mem_of_getLast? hq)
  have hid : recId tlv q = id := of_decide_eq_true hmem.2
  obtain ⟨r, hr, hrid⟩ := flatPass_found false hf
    (s := (oi, ⟨fun _ => true, [.byte 0]⟩)) rfl hmem.1
  obtain ⟨k, hk⟩ := List.getElem?_of_mem hr
  rw [hid] at hrid
  have hvalue := flatPass_value hf (flatPass_heap rfl) hkept.distinct hk hrid hq
  obtain ⟨r', hk', hval⟩ := Option.map_eq_some_iff.mp hvalue
  obtain ⟨r'', hk'', hg⟩ := (flatPass_grows true _).resources.getElem? hk
  obtain rfl := Option.some.inj (hk'.symm.trans hk'')
  have hrid' : r'.nameId = id.toNat := hg.nameId.trans hrid
  exact ⟨k, r', hk', hrid', hval, fun j r'' hj hjid =>
    hkept'.distinct.index hj hk' (hjid.trans hrid'.symm)⟩

/-- Resource 1 may be written. -/
def onlyFirst : M2MObjectInstance :=
  ⟨0, [⟨⟨.dynamic, getPutAllowed, .string, [0x41]⟩, [0x31], false, []⟩]⟩

/-- Resource 1 is written twice, resource 2 is added empty. -/
theorem post_onlyFirst :
    let oi' := (deserializeResources (some (ofBytes [0xC1, 1, 0x58, 0xC0, 2, 0xC1, 1, 0x59])) 8
      .post (onlyFirst, ⟨fun _ => true, []⟩)).2.1
    (∃ (k : Nat) (r : M2MResource), oi'.resources[k]? = some r ∧ r.nameId = 1 ∧
      r.value = [0x59]) ∧
    ∃ (k : Nat) (r : M2MResource), oi'.resources[k]? = some r ∧ r.nameId = 2 ∧ r.value = [] := by
  have h := (@post_flat (ofBytes [0xC1, 1, 0x58, 0xC0, 2, 0xC1, 1, 0x59]) 8 onlyFirst
    (by decide +kernel) (by unfold IdsDistinct; decide +kernel) (by decide +kernel)).1
  obtain ⟨k, r, hk, hid, hv, -⟩ := h 1 5 (by decide +kernel)
  obtain ⟨j, r', hj, hid', hv', -⟩ := h 2 3 (by decide +kernel)
  refine ⟨⟨k, r, hk, hid, ?_⟩, j, r', hj, hid', ?_⟩
  · rw [hv]
    decide +kernel
  · rw [hv']
    decide +kernel

end Passes
end MbedClient.Tlv
