import MbedClient.Tlv.Records

/-! The decoder as a run over a flat list of visits. A walk enters nested walks with the size of the
whole buffer and then goes on behind the container, so one record may be visited several times, at
several places of the tree. Which visits happen depends on the buffer and on the shape of the tree,
the error of a walk is the verdict of its last visit, and its state is a run of steps each of which
looks at one record. -/
namespace MbedClient.Tlv
open Search

/-- A record visited inside an object instance: as one of its resources, or as an instance of its
`resource`th resource. -/
inductive ResourceVisit where
  | own (record : Nat)
  | member (resource record : Nat)
  deriving DecidableEq

/-- A record visited as an object instance, or inside the `instance`th one. -/
inductive Visit where
  | object (record : Nat)
  | inside (objectInstance : Nat) (visit : ResourceVisit)
  deriving DecidableEq

def ResourceVisit.record : ResourceVisit → Nat
  | .own p => p
  | .member _ p => p

def Visit.record : Visit → Nat
  | .object p => p
  | .inside _ v => v.record

/-- The verdict of the last visit; a walk answers `None` where it visits nothing. -/
def lastVerdict {ν : Type*} (verdict : ν → Error) (l : List ν) : Error :=
  (l.getLast?.map verdict).getD .none

variable (tlv : Nat → UInt8) (size : Nat)

section Visits

def memberRecords (nested : Bool) (o : Nat) : List Nat :=
  Walk.visited (frame tlv) (instanceStop tlv nested) size o

def recordVisits (oi : M2MObjectInstance) (p : Nat) : List ResourceVisit :=
  .own p :: if recType tlv p == typeMultipleResource then
    (entered (multiHit tlv p) (fun _ => memberRecords tlv size true (recContent tlv p))
      oi.resources 0).map fun v => .member v.1 v.2
  else []

def resourceVisits (oi : M2MObjectInstance) (o : Nat) : List ResourceVisit :=
  (Walk.visited (frame tlv) (resourceStop tlv) size o).flatMap (recordVisits tlv size oi)

/-- The object instances a record enters. -/
def instanceHit (p : Nat) (oi : M2MObjectInstance) : Bool := oi.instanceId == recId tlv p

def objectRecordVisits (obj : M2MObject) (p : Nat) : List Visit :=
  .object p :: if recType tlv p == typeObjectInstance then
    (entered (instanceHit tlv p) (fun oi => resourceVisits tlv size oi (recContent tlv p))
      obj.instances 0).map fun v => .inside v.1 v.2
  else []

def objectVisits (obj : M2MObject) (o : Nat) : List Visit :=
  (Walk.visited (frame tlv) (objectStop tlv) size o).flatMap (objectRecordVisits tlv size obj)

end Visits

variable (operation : Operation) (update nested : Bool)

section Steps

/-- `nested` tells whether the walk over resource instances got the object instance. -/
def ownerOf (oi : M2MObjectInstance) : Option UInt16 := if nested then some oi.instanceId else none

def resourceVisit (v : ResourceVisit) (s : M2MObjectInstance × Env) : M2MObjectInstance × Env :=
  match v with
  | .own p => ownStep tlv operation update p s
  | .member k p => (M2MObjectInstance.resourceAt k).zoom
      (memberStep tlv operation update (ownerOf nested s.1) p) s

def objectVisit (v : Visit) (s : M2MObject × Env) : M2MObject × Env :=
  match v with
  | .object p => (s.1, s.2.read (header tlv p))
  | .inside j v => (M2MObject.instanceAt j).zoom (resourceVisit tlv operation update nested v) s

def resourceVerdict (oi : M2MObjectInstance) (v : ResourceVisit) : Error :=
  match v with
  | .own p => ownVerdict tlv operation update p oi
  | .member k p => (oi.resources[k]?.map (memberVerdict tlv operation update nested p)).getD .none

def objectVerdict (obj : M2MObject) (v : Visit) : Error :=
  match v with
  | .object _ => .none
  | .inside j v => (obj.instances[j]?.map
      fun oi => resourceVerdict tlv operation update nested oi v).getD .none

/-- A visit may add nodes to the tree. -/
def ResourceVisit.creates : ResourceVisit → Bool
  | .own _ => operation == .post
  | .member _ _ => createsMembers operation nested

def Visit.creates : Visit → Bool
  | .object _ => false
  | .inside _ v => v.creates operation nested

theorem ResourceVisit.creates_post {v : ResourceVisit} (h : v.creates operation nested = true) :
    operation = .post := by
  cases v with
  | own p => simpa [ResourceVisit.creates] using h
  | member k p => simpa using (Bool.and_eq_true_iff.mp h).2

theorem Visit.creates_post {v : Visit} (h : v.creates operation nested = true) :
    operation = .post := by
  cases v with
  | object p => exact absurd h Bool.false_ne_true
  | inside j v => exact ResourceVisit.creates_post operation nested h

end Steps

/-! Verdicts and visits do not change while the decoder runs. -/
section Stability
variable {creates writes : Bool} {o : Nat}

/-- A search that finds more than before is only more successful where a miss is no error. -/
theorem searchVerdict_congr {found found' refused : Bool} {missing : Error}
    (hf : found = true → found' = true) (hr : refused = true → found = true)
    (hm : found = false → found' = true → missing = .none) :
    searchVerdict update found' refused missing = searchVerdict update found refused missing := by
  cases found <;> cases found' <;> simp_all [searchVerdict]

theorem memberVerdict_grows {r r' : M2MResource} (h : r.Grows writes creates r')
    (hc : creates = true → createsMembers operation nested = true) :
    memberVerdict tlv operation update nested o r' =
      memberVerdict tlv operation update nested o r := by
  have hhit : ∀ i i' : M2MResourceInstance, i.Keeps writes i' →
      memberHit tlv o i' = memberHit tlv o i := fun i i' k => by simp [memberHit, k.instanceId]
  have hrefused := Grown.any_eq (f := fun i => memberHit tlv o i && !i.putAllowed)
    (fun i i' k => by simp [hhit i i' k, k.putAllowed])
    (fun i (k : i.Fresh creates) => by simp [k.2]) h.instances
  unfold memberVerdict
  rw [hrefused]
  congr 1
  refine searchVerdict_congr update (Grown.any_mono hhit h.instances) ?_ fun h1 h2 => ?_
  · intro hr
    obtain ⟨i, hi, hh⟩ := List.any_eq_true.mp hr
    exact List.any_eq_true.mpr ⟨i, hi, (Bool.and_eq_true_iff.mp hh).1⟩
  · cases hcr : creates with
    | true => simp_all [createsMembers, missingMember]
    | false =>
      rw [Grown.any_eq hhit (fun i (k : i.Fresh creates) =>
        absurd (hcr.symm.trans k.1) Bool.false_ne_true) h.instances, h1] at h2
      exact absurd h2 Bool.false_ne_true

theorem ownVerdict_grows {oi oi' : M2MObjectInstance} (h : oi.Grows writes creates oi')
    (hc : creates = true → operation = .post) :
    ownVerdict tlv operation update o oi' = ownVerdict tlv operation update o oi := by
  have hhit : ∀ r r' : M2MResource, r.Grows writes creates r' →
      ownHit tlv o r' = ownHit tlv o r := fun r r' k => by simp [ownHit, k.nameId]
  have hrefused := Grown.any_eq (f := fun r => ownHit tlv o r && !r.putAllowed)
    (fun r r' k => by simp [hhit r r' k, k.putAllowed])
    (fun r (k : r.Fresh creates) => by simp [k.2]) h.resources
  unfold ownVerdict
  rw [hrefused]
  congr 1
  refine searchVerdict_congr update (Grown.any_mono hhit h.resources) ?_ fun h1 h2 => ?_
  · intro hr
    obtain ⟨r, hr, hh⟩ := List.any_eq_true.mp hr
    exact List.any_eq_true.mpr ⟨r, hr, (Bool.and_eq_true_iff.mp hh).1⟩
  · cases hcr : creates with
    | true => rw [hc hcr]; rfl
    | false =>
      rw [Grown.any_eq hhit (fun r (k : r.Fresh creates) =>
        absurd (hcr.symm.trans k.1) Bool.false_ne_true) h.resources, h1] at h2
      exact absurd h2 Bool.false_ne_true

theorem recordVisits_grows {oi oi' : M2MObjectInstance} (h : oi.Grows writes creates oi') :
    recordVisits tlv size oi' o = recordVisits tlv size oi o := by
  unfold recordVisits
  have hhit : ∀ r r' : M2MResource, r.Grows writes creates r' →
      multiHit tlv o r' = multiHit tlv o r := fun r r' k => by simp [multiHit, k.nameId, k.multi]
  rw [entered_grown hhit (fun r k => by simp [multiHit, k.2.2]) (fun _ _ _ => rfl) h.resources]

theorem resourceVisits_grows {oi oi' : M2MObjectInstance} (h : oi.Grows writes creates oi') :
    resourceVisits tlv size oi' o = resourceVisits tlv size oi o := by
  unfold resourceVisits
  congr 1
  funext p
  exact recordVisits_grows tlv size h

theorem objectRecordVisits_grows {obj obj' : M2MObject} (h : obj.Grows writes creates obj') :
    objectRecordVisits tlv size obj' o = objectRecordVisits tlv size obj o := by
  unfold objectRecordVisits
  have hhit : ∀ oi oi' : M2MObjectInstance, oi.Grows writes creates oi' →
      instanceHit tlv o oi' = instanceHit tlv o oi := fun oi oi' k => by
    simp [instanceHit, k.instanceId]
  rw [entered_grown hhit (fun _ k => k.elim) (fun _ _ k => resourceVisits_grows tlv size k) h]

theorem resourceVisit_grows (v : ResourceVisit) (s : M2MObjectInstance × Env) :
    s.1.Grows update (v.creates operation nested)
      (resourceVisit tlv operation update nested v s).1 := by
  cases v with
  | own p => exact ownStep_grows tlv operation update p s
  | member k p =>
    have hsome : ∀ oi : M2MObjectInstance, (ownerOf nested oi).isSome = nested := by
      intro oi
      cases nested <;> rfl
    cases hk : s.1.resources[k]? with
    | none =>
      rw [resourceVisit, Slot.zoom_none _ (by exact hk)]
      exact .refl _
    | some r =>
      rw [resourceVisit, Slot.zoom_some (a := r) _ (by exact hk)]
      have h := memberStep_grows tlv operation update (ownerOf nested s.1) p (r, s.2)
      rw [hsome] at h
      exact .set hk h

theorem objectVisit_grows (v : Visit) (s : M2MObject × Env) :
    s.1.Grows update (v.creates operation nested)
      (objectVisit tlv operation update nested v s).1 := by
  cases v with
  | object p => exact .refl _
  | inside j v =>
    cases hj : s.1.instances[j]? with
    | none =>
      rw [objectVisit, Slot.zoom_none _ (by exact hj)]
      exact .refl _
    | some oi =>
      rw [objectVisit, Slot.zoom_some (a := oi) _ (by exact hj)]
      exact .set hj (resourceVisit_grows tlv operation update nested v (oi, s.2))

theorem resourceVisits_fold_grows {l : List ResourceVisit} {c : Bool}
    (hc : ∀ v ∈ l, v.creates operation nested = true → c = true) (s : M2MObjectInstance × Env) :
    s.1.Grows update c (Trace.fold (resourceVisit tlv operation update nested) l s).1 :=
  Trace.fold_invariant (I := fun t : M2MObjectInstance × Env => s.1.Grows update c t.1)
    (fun v hv t ht =>
      ht.trans ((resourceVisit_grows tlv operation update nested v t).mono (hc v hv))) (.refl _)

theorem objectVisits_fold_grows {l : List Visit} {c : Bool}
    (hc : ∀ v ∈ l, v.creates operation nested = true → c = true) (s : M2MObject × Env) :
    s.1.Grows update c (Trace.fold (objectVisit tlv operation update nested) l s).1 :=
  Trace.fold_invariant (I := fun t : M2MObject × Env => s.1.Grows update c t.1)
    (fun v hv t ht =>
      ht.trans ((objectVisit_grows tlv operation update nested v t).mono (hc v hv))) (.refl _)

end Stability

/-! Each walk is the run over its visits and answers with the verdict of the last one. -/
section Flatten

theorem lastVerdict_cons {ν : Type*} (f : ν → Error) (v : ν) (l : List ν) :
    lastVerdict f (v :: l) = (l.getLast?.map f).getD (f v) := by
  rw [lastVerdict, List.getLast?_cons]
  cases l.getLast? <;> rfl

theorem lastVerdict_final {F : Walk.Frame} {stop : Nat → Bool} (f : Nat → Error) (o : Nat) :
    lastVerdict f (Walk.visited F stop size o) = f (Walk.final F stop size o) := by
  rw [lastVerdict, List.getLast?_eq_some_getLast (Walk.visited_ne_nil F stop size o)]
  rfl

/-- The last of several runs of visits decides. -/
theorem lastVerdict_flatMap {ν μ : Type*} (f : ν → Error) (g : μ → List ν) {l : List μ} {x : μ}
    (hx : l.getLast? = some x) (hne : g x ≠ []) :
    lastVerdict f (l.flatMap g) = lastVerdict f (g x) := by
  obtain ⟨l', rfl⟩ := List.getLast?_eq_some_iff.mp hx
  obtain ⟨v, hv⟩ := Option.isSome_iff_exists.mp (List.getLast?_isSome.mpr hne)
  rw [List.flatMap_append, List.flatMap_singleton, lastVerdict, lastVerdict,
    List.getLast?_append, hv]
  rfl

/-- A walk over records each of which is a run of visits, where neither the visits nor their
verdicts depend on how far the walk has come. -/
theorem walk_run {σ ν : Type*} {body : Nat → σ → Error × σ} {step : ν → σ → σ}
    (stop : Nat → Bool) (visits : σ → Nat → List ν) (verdict : σ → ν → Error) (R : σ → σ → Prop)
    (hbody : ∀ p s, body p s = (lastVerdict (verdict s) (visits s p),
      Trace.fold step (visits s p) s))
    (hne : ∀ s p, visits s p ≠ []) (hrefl : ∀ s, R s s) (hR : ∀ a b p, R a b → R a (body p b).2)
    (hvisits : ∀ s s' p, R s s' → visits s' p = visits s p)
    (hverdict : ∀ s s' p, R s s' → ∀ v ∈ visits s p, verdict s' v = verdict s v)
    (o : Nat) (s : σ) : Walk.run (frame tlv) stop size body o s =
      (lastVerdict (verdict s) ((Walk.visited (frame tlv) stop size o).flatMap (visits s)),
      Trace.fold step ((Walk.visited (frame tlv) stop size o).flatMap (visits s)) s) := by
  refine Prod.ext ?_ ?_
  · have hlast := lastVerdict_flatMap (verdict s) (visits s)
      (List.getLast?_eq_some_getLast (Walk.visited_ne_nil (frame tlv) stop size o)) (hne s _)
    rw [hlast]
    refine Walk.run_result (v := fun p => lastVerdict (verdict s) (visits s p)) (I := R s)
      (fun p _ t ht => hR s t p ht) (fun p _ t ht => ?_) (hrefl s)
    rw [hbody, hvisits s t p ht]
    refine congrArg (fun x => Option.getD x Error.none) (Option.map_congr fun v hv => ?_)
    exact hverdict s t p ht v (List.mem_of_getLast? hv)
  · rw [Walk.run_snd]
    refine Trace.fold_flatMap (I := R s) (fun p _ t ht => hR s t p ht) (fun p _ t ht => ?_)
      (hrefl s)
    rw [hbody, hvisits s t p ht]

theorem memberWalk_eq (owner : Option UInt16) (o : Nat) (r : M2MResource) (env : Env) :
    Walk.run (frame tlv) (instanceStop tlv owner.isSome) size
        (instanceRecord tlv operation update owner) o (r, env) =
      (lastVerdict (fun p => memberVerdict tlv operation update owner.isSome p r)
        (memberRecords tlv size owner.isSome o),
      Trace.fold (memberStep tlv operation update owner)
        (memberRecords tlv size owner.isSome o) (r, env)) := by
  have hstep : ∀ (p : Nat) (s : M2MResource × Env),
      instanceRecord tlv operation update owner p s =
      (memberVerdict tlv operation update owner.isSome p s.1,
        memberStep tlv operation update owner p s) :=
    fun p s => instanceRecord_eq tlv operation update owner p s.1 s.2
  refine Prod.ext ?_ ?_
  · rw [memberRecords, lastVerdict_final]
    refine Walk.run_result (v := fun p => memberVerdict tlv operation update owner.isSome p r)
      (I := fun s : M2MResource × Env => r.Grows update (createsMembers operation owner.isSome) s.1)
      ?_ ?_ ?_
    · intro p _ s hs
      rw [hstep]
      exact hs.trans (memberStep_grows tlv operation update owner p s)
    · intro p _ s hs
      rw [hstep]
      exact memberVerdict_grows tlv operation update _ hs id
    · exact .refl r
  · rw [Walk.run_snd]
    congr 1
    funext p s
    rw [hstep]

theorem deserializeResourceInstancesIn_eq (owner : UInt16) (o : Nat) (r : M2MResource)
    (env : Env) : deserializeResourceInstancesIn tlv size operation update owner o (r, env) =
      (lastVerdict (fun p => memberVerdict tlv operation update true p r)
        (memberRecords tlv size true o),
      Trace.fold (memberStep tlv operation update (some owner)) (memberRecords tlv size true o)
        (r, env)) := memberWalk_eq tlv size operation update (some owner) o r env

theorem deserializeResourceInstancesOf_eq (o : Nat) (r : M2MResource) (env : Env) :
    deserializeResourceInstancesOf tlv size operation update o (r, env) =
      (lastVerdict (fun p => memberVerdict tlv operation update false p r)
        (memberRecords tlv size false o),
      Trace.fold (memberStep tlv operation update none) (memberRecords tlv size false o)
        (r, env)) := memberWalk_eq tlv size operation update none o r env

/-- The members a multiple resource record enters, each with the index of its resource. -/
def enteredMembers (oi : M2MObjectInstance) (p : Nat) : List (Nat × Nat) :=
  entered (multiHit tlv p) (fun _ => memberRecords tlv size true (recContent tlv p)) oi.resources 0

/-- The loop of a multiple resource record. -/
theorem membersLoop_eq (p : Nat) (oi : M2MObjectInstance) (env : Env) :
    let t := forMatches (multiHit tlv p) (fun r env => deserializeResourceInstancesIn tlv size
      operation update oi.instanceId (recContent tlv p) (r, env)) oi.resources .none env
    t.1 = lastVerdict (fun v => (oi.resources[v.1]?.map
      (memberVerdict tlv operation update true v.2)).getD .none) (enteredMembers tlv size oi p) ∧
    (({ oi with resources := t.2.1 } : M2MObjectInstance), t.2.2) = Trace.fold
      (fun v => (M2MObjectInstance.resourceAt v.1).zoom
        (memberStep tlv operation update (some oi.instanceId) v.2))
      (enteredMembers tlv size oi p) (oi, env) := by
  constructor
  · refine forMatches_fst fun k r hk _ => ⟨Walk.final (frame tlv) (instanceStop tlv true) size
      (recContent tlv p), List.getLast?_eq_some_getLast _, fun env => ?_⟩
    rw [deserializeResourceInstancesIn_eq, memberRecords, lastVerdict_final, Nat.zero_add, hk]
    rfl
  · simp only [M2MObjectInstance.resourceAt, Slot.entry_fold]
    rw [enteredMembers, ← forMatches_snd]
    intro r _ _ env
    rw [deserializeResourceInstancesIn_eq]

theorem resourceRecord_run (p : Nat) (oi : M2MObjectInstance) (env : Env) :
    resourceRecord tlv size operation update p (oi, env) =
      (lastVerdict (resourceVerdict tlv operation update true oi) (recordVisits tlv size oi p),
      Trace.fold (resourceVisit tlv operation update true) (recordVisits tlv size oi p)
        (oi, env)) := by
  cases hm : recType tlv p == typeMultipleResource with
  | false =>
    rw [resourceRecord_eq tlv size operation update p hm, recordVisits, hm]
    rfl
  | true =>
    have htype : recType tlv p = typeMultipleResource := by simpa using hm
    have hown : isOwn tlv p = false := by
      rw [isOwn, htype]
      decide
    obtain ⟨hfst, hsnd⟩ := membersLoop_eq tlv size operation update p oi (env.read (header tlv p))
    have hrun : resourceRecord tlv size operation update p (oi, env) =
        let t := forMatches (multiHit tlv p) (fun r env => deserializeResourceInstancesIn tlv size
          operation update oi.instanceId (recContent tlv p) (r, env)) oi.resources .none
          (env.read (header tlv p))
        (t.1, ({ oi with resources := t.2.1 }, t.2.2)) := by
      rw [isOwn] at hown
      simp only [resourceRecord, hown, hm, Bool.false_eq_true, if_false, if_true]
      rfl
    have hv : ownVerdict tlv operation update p oi = .none := by
      rw [ownVerdict, hown, hm]
      rfl
    rw [hrun, recordVisits, if_pos hm, ← enteredMembers, lastVerdict_cons, Trace.fold_cons,
      Trace.fold_map]
    refine Prod.ext ?_ ?_
    · rw [hfst, lastVerdict, List.getLast?_map, resourceVerdict, hv, Option.map_map]
      rfl
    · refine hsnd.trans ?_
      rw [resourceVisit, ownStep_multi tlv operation update p htype]
      refine Trace.fold_congr (I := fun s : M2MObjectInstance × Env =>
        s.1.instanceId = oi.instanceId) (fun v _ s hs => ?_) (fun v _ s hs => ?_) rfl
      · rw [M2MObjectInstance.resourceAt_instanceId, hs]
      · rw [resourceVisit, ownerOf, if_pos rfl, hs]

theorem recordVisits_ne_nil (oi : M2MObjectInstance) (p : Nat) :
    recordVisits tlv size oi p ≠ [] := List.cons_ne_nil _ _

theorem mem_recordVisits {oi : M2MObjectInstance} {p k m : Nat}
    (h : .member k m ∈ recordVisits tlv size oi p) : recType tlv p = typeMultipleResource ∧
      m ∈ memberRecords tlv size true (recContent tlv p) ∧
      ∃ r, oi.resources[k]? = some r ∧ multiHit tlv p r = true := by
  unfold recordVisits at h
  split_ifs at h with hm
  · rcases List.mem_cons.mp h with h | h
    · exact nomatch h
    · obtain ⟨⟨k', m'⟩, hv, heq⟩ := List.mem_map.mp h
      obtain ⟨rfl, rfl⟩ := ResourceVisit.member.inj heq
      obtain ⟨r, hk, hr, hmem⟩ := mem_entered.mp hv
      exact ⟨by simpa using hm, hmem, r, hk, hr⟩
  · simp at h

theorem mem_recordVisits_own {oi : M2MObjectInstance} {p q : Nat}
    (h : .own q ∈ recordVisits tlv size oi p) : q = p := by
  unfold recordVisits at h
  split_ifs at h <;> simpa using h

theorem mem_recordVisits_member {oi : M2MObjectInstance} {p k m : Nat} {r : M2MResource}
    (ht : recType tlv p = typeMultipleResource) (hk : oi.resources[k]? = some r)
    (hr : multiHit tlv p r = true) (hm : m ∈ memberRecords tlv size true (recContent tlv p)) :
    .member k m ∈ recordVisits tlv size oi p := by
  rw [recordVisits, ht, if_pos (by rfl)]
  exact List.mem_cons_of_mem _ (List.mem_map.mpr ⟨(k, m), mem_entered.mpr ⟨r, hk, hr, hm⟩, rfl⟩)

theorem resourceVerdict_grows {creates writes : Bool} {oi oi' : M2MObjectInstance} {p : Nat}
    (h : oi.Grows writes creates oi') (hc : creates = true → operation = .post) :
    ∀ v ∈ recordVisits tlv size oi p, resourceVerdict tlv operation update true oi' v =
      resourceVerdict tlv operation update true oi v := by
  intro v hv
  cases v with
  | own p => exact ownVerdict_grows tlv operation update h hc
  | member k m =>
    obtain ⟨-, -, r, hk, -⟩ := mem_recordVisits tlv size hv
    obtain ⟨r', hk', hr⟩ := h.resources.getElem? hk
    rw [resourceVerdict, resourceVerdict, hk, hk']
    refine memberVerdict_grows tlv operation update true hr fun h => ?_
    simp [createsMembers, hc h]

theorem resources_run (o : Nat) (oi : M2MObjectInstance) (env : Env) :
    deserializeResourcesAt tlv size operation update o (oi, env) =
      (lastVerdict (resourceVerdict tlv operation update true oi) (resourceVisits tlv size oi o),
      Trace.fold (resourceVisit tlv operation update true) (resourceVisits tlv size oi o)
        (oi, env)) := by
  have hbody (p : Nat) (s : M2MObjectInstance × Env) :=
    resourceRecord_run tlv size operation update p s.1 s.2
  have hgrows (a b : M2MObjectInstance × Env) (p : Nat)
      (h : a.1.Grows update (operation == .post) b.1) : a.1.Grows update (operation == .post)
        (resourceRecord tlv size operation update p b).2.1 := by
    rw [hbody p b]
    refine h.trans (resourceVisits_fold_grows tlv operation update true (fun v _ hv => ?_) b)
    simp [ResourceVisit.creates_post operation true hv]
  have hrun := walk_run tlv size (resourceStop tlv) (fun s => recordVisits tlv size s.1)
    (fun s => resourceVerdict tlv operation update true s.1)
    (fun s t => s.1.Grows update (operation == .post) t.1) hbody
    (fun s p => recordVisits_ne_nil tlv size s.1 p) (fun s => .refl s.1) hgrows
    (fun s t p h => recordVisits_grows tlv size h)
    (fun s t p h => resourceVerdict_grows tlv size operation update h (by simp)) o (oi, env)
  exact hrun

theorem mem_resourceVisits {oi : M2MObjectInstance} {o : Nat} {v : ResourceVisit} :
    v ∈ resourceVisits tlv size oi o ↔ ∃ p ∈ Walk.visited (frame tlv) (resourceStop tlv) size o,
      v ∈ recordVisits tlv size oi p := List.mem_flatMap

theorem resourceVisits_ne_nil (oi : M2MObjectInstance) (o : Nat) :
    resourceVisits tlv size oi o ≠ [] := by
  refine List.ne_nil_of_mem (a := .own o) ((mem_resourceVisits tlv size).mpr ⟨o, ?_, ?_⟩)
  · exact Walk.mem_visited_self _ _ _ _
  · exact List.mem_cons_self

theorem objectRecord_run (p : Nat) (obj : M2MObject) (env : Env) :
    objectRecord tlv size operation update p (obj, env) =
      (lastVerdict (objectVerdict tlv operation update true obj)
        (objectRecordVisits tlv size obj p),
      Trace.fold (objectVisit tlv operation update true) (objectRecordVisits tlv size obj p)
        (obj, env)) := by
  cases hm : recType tlv p == typeObjectInstance with
  | false =>
    rw [objectRecord, objectRecordVisits, hm]
    rfl
  | true =>
    have hrun := resources_run tlv size operation update (recContent tlv p)
    have hhit : (fun oi : M2MObjectInstance => oi.instanceId == recId tlv p) = instanceHit tlv p :=
      rfl
    rw [objectRecordVisits, if_pos hm, lastVerdict_cons, Trace.fold_cons, Trace.fold_map]
    simp only [objectRecord, hm, if_true, hhit]
    refine Prod.ext ?_ ?_
    · rw [List.getLast?_map, Option.map_map]
      refine forMatches_fst fun k oi hk _ => ?_
      obtain ⟨v, hv⟩ := Option.isSome_iff_exists.mp (List.getLast?_isSome.mpr
        (resourceVisits_ne_nil tlv size oi (recContent tlv p)))
      refine ⟨v, hv, fun env => ?_⟩
      rw [hrun, Nat.zero_add, lastVerdict, hv]
      simp [objectVerdict, hk]
    · have hvisit : (fun v : Nat × ResourceVisit =>
          objectVisit tlv operation update true (.inside v.1 v.2)) =
          fun v => (M2MObject.instanceAt v.1).zoom (resourceVisit tlv operation update true v.2) :=
        rfl
      rw [hvisit]
      simp only [objectVisit, M2MObject.instanceAt, Slot.entry_fold]
      rw [← forMatches_snd]
      intro oi _ _ env
      rw [hrun]

theorem mem_objectRecordVisits {obj : M2MObject} {p j : Nat} {v : ResourceVisit}
    (h : .inside j v ∈ objectRecordVisits tlv size obj p) : recType tlv p = typeObjectInstance ∧
      ∃ oi, obj.instances[j]? = some oi ∧ instanceHit tlv p oi = true ∧
        v ∈ resourceVisits tlv size oi (recContent tlv p) := by
  unfold objectRecordVisits at h
  split_ifs at h with hm
  · rcases List.mem_cons.mp h with h | h
    · exact nomatch h
    · obtain ⟨⟨j', v'⟩, hv, heq⟩ := List.mem_map.mp h
      obtain ⟨rfl, rfl⟩ := Visit.inside.inj heq
      exact ⟨by simpa using hm, mem_entered.mp hv⟩
  · simp at h

theorem mem_objectRecordVisits_object {obj : M2MObject} {p q : Nat}
    (h : .object q ∈ objectRecordVisits tlv size obj p) : q = p := by
  unfold objectRecordVisits at h
  split_ifs at h <;> simpa using h

theorem mem_objectRecordVisits_inside {obj : M2MObject} {p j : Nat} {oi : M2MObjectInstance}
    {v : ResourceVisit} (ht : recType tlv p = typeObjectInstance)
    (hj : obj.instances[j]? = some oi) (hoi : instanceHit tlv p oi = true)
    (hv : v ∈ resourceVisits tlv size oi (recContent tlv p)) :
    .inside j v ∈ objectRecordVisits tlv size obj p := by
  rw [objectRecordVisits, ht, if_pos (by rfl)]
  exact List.mem_cons_of_mem _
    (List.mem_map.mpr ⟨(j, v), mem_entered.mpr ⟨oi, hj, hoi, hv⟩, rfl⟩)

theorem objectVerdict_grows {creates writes : Bool} {obj obj' : M2MObject} {p : Nat}
    (h : obj.Grows writes creates obj') (hc : creates = true → operation = .post) :
    ∀ v ∈ objectRecordVisits tlv size obj p, objectVerdict tlv operation update true obj' v =
      objectVerdict tlv operation update true obj v := by
  intro v hv
  cases v with
  | object p => rfl
  | inside j v =>
    obtain ⟨-, oi, hj, -, hmem⟩ := mem_objectRecordVisits tlv size hv
    obtain ⟨q, -, hq⟩ := (mem_resourceVisits tlv size).mp hmem
    obtain ⟨oi', hj', hoi⟩ := Grown.getElem? h hj
    rw [objectVerdict, objectVerdict, hj, hj']
    exact resourceVerdict_grows tlv size operation update hoi hc v hq

theorem objects_run (o : Nat) (obj : M2MObject) (env : Env) :
    deserializeObjectInstancesAt tlv size operation update o (obj, env) =
      (lastVerdict (objectVerdict tlv operation update true obj) (objectVisits tlv size obj o),
      Trace.fold (objectVisit tlv operation update true) (objectVisits tlv size obj o)
        (obj, env)) := by
  have hbody (p : Nat) (s : M2MObject × Env) :=
    objectRecord_run tlv size operation update p s.1 s.2
  have hgrows (a b : M2MObject × Env) (p : Nat)
      (h : a.1.Grows update (operation == .post) b.1) : a.1.Grows update (operation == .post)
        (objectRecord tlv size operation update p b).2.1 := by
    rw [hbody p b]
    refine h.trans (objectVisits_fold_grows tlv operation update true (fun v _ hv => ?_) b)
    simp [Visit.creates_post operation true hv]
  have hrun := walk_run tlv size (objectStop tlv) (fun s => objectRecordVisits tlv size s.1)
    (fun s => objectVerdict tlv operation update true s.1)
    (fun s t => s.1.Grows update (operation == .post) t.1) hbody
    (fun s p => List.cons_ne_nil _ _) (fun s => .refl s.1) hgrows
    (fun s t p h => objectRecordVisits_grows tlv size h)
    (fun s t p h => objectVerdict_grows tlv size operation update h (by simp)) o (obj, env)
  exact hrun

end Flatten
end MbedClient.Tlv
