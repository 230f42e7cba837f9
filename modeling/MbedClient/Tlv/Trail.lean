import MbedClient.Tlv.Passes

/-! What the visits of a pass read, store and create, seen in the log they leave. -/
namespace MbedClient.Tlv
variable (tlv : Nat → UInt8) (size : Nat) (operation : Operation) (update nested : Bool)

/-! A visit is placed where its object instance and resource exist, and where a resource that
members are created in is a multi-instance one with a valid name. -/
section Placed

def ResourceVisit.Placed (oi : M2MObjectInstance) : ResourceVisit → Prop
  | .own _ => True
  | .member k _ => ∃ r, oi.resources[k]? = some r ∧ (nested = true →
    r.multipleInstance = true ∧ validateStringLength r.name 1 maxAllowedStringLength = true)

def Visit.Placed (obj : M2MObject) : Visit → Prop
  | .object _ => True
  | .inside j v => ∃ oi, obj.instances[j]? = some oi ∧ v.Placed nested oi

variable {nested}

theorem Visit.Placed.grows {writes creates : Bool} {obj obj' : M2MObject} {v : Visit}
    (hv : v.Placed nested obj) (h : obj.Grows writes creates obj') : v.Placed nested obj' := by
  cases v with
  | object p => trivial
  | inside j v =>
    obtain ⟨oi, hj, hv⟩ := hv
    obtain ⟨oi', hj', hoi⟩ := Grown.getElem? h hj
    refine ⟨oi', hj', ?_⟩
    cases v with
    | own p => trivial
    | member k p =>
      obtain ⟨r, hk, hr⟩ := hv
      obtain ⟨r', hk', hg⟩ := hoi.resources.getElem? hk
      refine ⟨r', hk', fun hn => ?_⟩
      rw [hg.multi, hg.name]
      exact hr hn

/-- Only a name of valid length has a `name_id`. -/
theorem validate_of_nameId {name : Bytes} {n : Nat} (h : nameId name = n) :
    validateStringLength name 1 maxAllowedStringLength = true := by
  by_cases hc : (isInteger name && decide (name.length ≤ maxAllowedStringLength)) = true
  · obtain ⟨hi, hl⟩ := Bool.and_eq_true_iff.mp hc
    cases name with
    | nil => simp [isInteger] at hi
    | cons b t => simpa [validateStringLength] using hl
  · rw [nameId, if_neg hc] at h
    omega

theorem placed_of_mem_recordVisits {oi : M2MObjectInstance} {p : Nat} {v : ResourceVisit}
    (hv : v ∈ recordVisits tlv size oi p) : v.Placed nested oi := by
  cases v with
  | own p => trivial
  | member k m =>
    obtain ⟨-, -, r, hk, hr⟩ := mem_recordVisits tlv size hv
    obtain ⟨hm, hid⟩ := Bool.and_eq_true_iff.mp hr
    have hid :
      nameId r.name = ((recId tlv p).toNat : Int) := by simpa [M2MResource.nameId] using hid
    exact ⟨r, hk, fun _ => ⟨hm, validate_of_nameId hid⟩⟩

theorem visits_placed (a : Addressee) : ∀ v ∈ a.visits tlv size, v.Placed a.nested a.forest := by
  intro v hv
  cases a with
  | object obj =>
    obtain ⟨p, -, hv⟩ := List.mem_flatMap.mp hv
    cases v with
    | object p => trivial
    | inside j v =>
      obtain ⟨-, oi, hj, -, hv⟩ := mem_objectRecordVisits tlv size hv
      obtain ⟨q, -, hv⟩ := (mem_resourceVisits tlv size).mp hv
      exact ⟨oi, hj, placed_of_mem_recordVisits tlv size hv⟩
  | objectInstance oi =>
    obtain ⟨v, hmem, rfl⟩ := List.mem_map.mp hv
    obtain ⟨q, -, hq⟩ := (mem_resourceVisits tlv size).mp hmem
    exact ⟨oi, rfl, placed_of_mem_recordVisits tlv size hq⟩
  | resource r =>
    obtain ⟨p, -, rfl⟩ := List.mem_map.mp hv
    exact ⟨⟨0, [r]⟩, rfl, r, rfl, fun h => absurd h Bool.false_ne_true⟩

end Placed

section Log

/-- How the log names the variable a visit writes or adds. -/
def resourceTouch (oi : M2MObjectInstance) : ResourceVisit → Option Access
  | .own p => some (.resource p oi.instanceId (recId tlv p).toNat)
  | .member k p => oi.resources[k]?.map fun r =>
    .member p (ownerOf nested oi) r.nameId (recId tlv p)

def touch (obj : M2MObject) : Visit → Option Access
  | .object _ => none
  | .inside j v => obj.instances[j]?.bind fun oi => resourceTouch tlv nested oi v

def resourceCreates (v : ResourceVisit) (s : M2MObjectInstance × Env) : Prop :=
  match v with
  | .own p => resourceCreated tlv operation p s
  | .member k p => ∃ r, s.1.resources[k]? = some r ∧
    memberCreated tlv operation (ownerOf nested s.1) p (r, s.2)

def visitCreates (v : Visit) (s : M2MObject × Env) : Prop :=
  match v with
  | .object _ => False
  | .inside j v => ∃ oi, s.1.instances[j]? = some oi ∧
    resourceCreates tlv operation nested v (oi, s.2)

theorem mem_resourceVisit_log {v : ResourceVisit} {s : M2MObjectInstance × Env}
    (hv : v.Placed nested s.1) (x : Access) :
    x ∈ (resourceVisit tlv operation update nested v s).2.log ↔
      (∃ i, x = .byte i ∧ v.record ≤ i ∧ i < recContent tlv v.record) ∨
      ((update = true ∧ (resourceTarget tlv s.1 v).isSome) ∧ 0 < recLength tlv v.record ∧
        x = .value (recContent tlv v.record) (recLength tlv v.record)) ∨
      (((update = true ∧ (resourceTarget tlv s.1 v).isSome) ∨
        resourceCreates tlv operation nested v s) ∧ some x = resourceTouch tlv nested s.1 v) ∨
      x ∈ s.2.log := by
  cases v with
  | own p =>
    have hstored : resourceStored tlv update p s.1 ↔
        update = true ∧ (resourceTarget tlv s.1 (.own p)).isSome := by
      simp [resourceStored, resourceTarget]
    rw [resourceVisit, mem_ownStep_log, hstored]
    simp only [resourceTouch, Option.some.injEq]
    rfl
  | member k p =>
    obtain ⟨r, hk, -⟩ := hv
    have hstored : memberStored tlv update p r ↔
        update = true ∧ (resourceTarget tlv s.1 (.member k p)).isSome := by
      simp [memberStored, resourceTarget, hk]
    have hcreated : memberCreated tlv operation (ownerOf nested s.1) p (r, s.2) ↔
        resourceCreates tlv operation nested (.member k p) s := by
      simp [resourceCreates, hk]
    rw [resourceVisit, Slot.zoom_some (a := r) _ (by exact hk)]
    dsimp only
    rw [mem_memberStep_log, hstored, hcreated]
    simp only [resourceTouch, hk, Option.map_some, Option.some.injEq]
    rfl

/-- What a visit appends to the log. -/
def visitLeaves (v : Visit) (s : M2MObject × Env) (x : Access) : Prop :=
  (∃ i, x = .byte i ∧ v.record ≤ i ∧ i < recContent tlv v.record) ∨
  ((update = true ∧ (visitTarget tlv s.1 v).isSome) ∧ 0 < recLength tlv v.record ∧
    x = .value (recContent tlv v.record) (recLength tlv v.record)) ∨
  (((update = true ∧ (visitTarget tlv s.1 v).isSome) ∨ visitCreates tlv operation nested v s) ∧
    some x = touch tlv nested s.1 v)

theorem mem_objectVisit_log {v : Visit} {s : M2MObject × Env} (hv : v.Placed nested s.1)
    (x : Access) : x ∈ (objectVisit tlv operation update nested v s).2.log ↔
      visitLeaves tlv operation update nested v s x ∨ x ∈ s.2.log := by
  rw [visitLeaves, or_assoc, or_assoc]
  cases v with
  | object p =>
    rw [objectVisit, mem_read_log]
    simp [visitTarget, visitCreates, Visit.record]
  | inside j v =>
    obtain ⟨oi, hj, hv⟩ := hv
    have htarget :
        (visitTarget tlv s.1 (.inside j v)).isSome = (resourceTarget tlv oi v).isSome := by
      simp [visitTarget, hj]
    have hcreates : visitCreates tlv operation nested (.inside j v) s ↔
        resourceCreates tlv operation nested v (oi, s.2) := by simp [visitCreates, hj]
    have htouch : touch tlv nested s.1 (.inside j v) = resourceTouch tlv nested oi v := by
      simp [touch, hj]
    rw [objectVisit, Slot.zoom_some (a := oi) _ (by exact hj), htarget, hcreates, htouch]
    exact mem_resourceVisit_log tlv operation update nested hv x

end Log

/-! The log of a pass, event by event. -/
section PassLog
variable (a : Addressee) (env : Env) {H : Heap → Prop}

/-- What holds wherever a pass has come. -/
def Underway (H : Heap → Prop) (s : M2MObject × Env) : Prop :=
  a.forest.Grows update (createsMembers operation a.nested) s.1 ∧ H s.2.heap

theorem underway_visit (hH : Stable H) : ∀ v ∈ a.visits tlv size, ∀ s,
    Underway operation update a H s →
      Underway operation update a H (objectVisit tlv operation update a.nested v s) :=
  fun v hv s hs => ⟨hs.1.trans ((objectVisit_grows tlv operation update a.nested v s).mono
    (visits_create tlv size operation a v hv)),
    objectVisit_heap tlv operation update a.nested hH v s hs.2⟩

/-- Whatever a pass logs, one of its visits has left. -/
theorem pass_log_cases (hH : Stable H) (hs : H env.heap) {x : Access}
    (hx : x ∈ (pass tlv size operation update (a, env)).2.2.log) : x ∈ env.log ∨
    ∃ v ∈ a.visits tlv size, ∃ s, Underway operation update a H s ∧
      visitLeaves tlv operation update a.nested v s x := by
  rw [pass_env] at hx
  refine (Trace.fold_invariant
    (I := fun s => Underway operation update a H s ∧ (x ∈ s.2.log → x ∈ env.log ∨
      ∃ v ∈ a.visits tlv size, ∃ s, Underway operation update a H s ∧
        visitLeaves tlv operation update a.nested v s x))
    (fun v hv s hs => ⟨underway_visit tlv size operation update a hH v hv s hs.1, fun hx => ?_⟩)
    ⟨⟨.refl _, hs⟩, Or.inl⟩).2 hx
  have hplaced := (visits_placed tlv size a v hv).grows hs.1.1
  rcases (mem_objectVisit_log tlv operation update a.nested hplaced x).mp hx with hx | hx
  · exact Or.inr ⟨v, hv, s, hs.1, hx⟩
  · exact hs.2 hx

/-- Each visit happens in some state of the pass, what it leaves stays in the log, and the tree
it leaves keeps growing. -/
theorem pass_log_reach (hH : Stable H) (hs : H env.heap) {v : Visit} (hv : v ∈ a.visits tlv size) :
    ∃ s, Underway operation update a H s ∧
      (∀ x, visitLeaves tlv operation update a.nested v s x →
        x ∈ (pass tlv size operation update (a, env)).2.2.log) ∧
      (objectVisit tlv operation update a.nested v s).1.Grows update
        (createsMembers operation a.nested)
        (pass tlv size operation update (a, env)).2.1.forest := by
  have hlog : ∀ v ∈ a.visits tlv size, ∀ s, Underway operation update a H s → ∀ x,
      visitLeaves tlv operation update a.nested v s x ∨ x ∈ s.2.log →
        x ∈ (objectVisit tlv operation update a.nested v s).2.log := fun v hv s hs x =>
    (mem_objectVisit_log tlv operation update a.nested
      ((visits_placed tlv size a v hv).grows hs.1) x).mpr
  obtain ⟨s, hs, -, hgrows, hend⟩ := Trace.fold_reach (s := (a.forest, env))
    (I := Underway operation update a H)
    (R := fun s t => s.1.Grows update (createsMembers operation a.nested) t.1 ∧
      ∀ x ∈ s.2.log, x ∈ t.2.log)
    (fun s => ⟨.refl _, fun _ => id⟩)
    (fun _ _ _ h k => ⟨h.1.trans k.1, fun x hx => k.2 x (h.2 x hx)⟩)
    (fun v hv s hs => ⟨underway_visit tlv size operation update a hH v hv s hs,
      (objectVisit_grows tlv operation update a.nested v s).mono
        (visits_create tlv size operation a v hv), fun x hx => hlog v hv s hs x (Or.inr hx)⟩)
    ⟨.refl _, hs⟩ hv
  refine ⟨s, hs, fun x hx => ?_, ?_⟩
  · rw [pass_env]
    exact hend x (hlog v hv s hs x (Or.inl hx))
  · rw [pass_forest]
    exact hgrows

theorem mem_pass_log {x : Access} (hx : x ∈ env.log) :
    x ∈ (pass tlv size operation update (a, env)).2.2.log := by
  rw [pass_env]
  refine (Trace.fold_invariant (I := fun s => Underway operation update a (fun _ => True) s ∧
    x ∈ s.2.log) (fun v hv s hs => ⟨underway_visit tlv size operation update a
      (fun _ _ => trivial) v hv s hs.1, ?_⟩) ⟨⟨.refl _, trivial⟩, hx⟩).2
  exact (mem_objectVisit_log tlv operation update a.nested
    ((visits_placed tlv size a v hv).grows hs.1.1) x).mpr (Or.inr hs.2)

end PassLog

/-! The log of a request. -/
section RequestLog
variable (a : Addressee) (env : Env)

/-- Some visit may leave `x`; one of the second pass only if the first pass finds no error. -/
def Addressee.MayLeave (x : Access) : Prop :=
  ∃ v ∈ a.visits tlv size, ∃ update s,
    (update = true → a.verdict tlv size operation = .none) ∧
    a.forest.Grows true (createsMembers operation a.nested) s.1 ∧
    visitLeaves tlv operation update a.nested v s x

/-- What the first pass logs stays in the log. -/
theorem mem_deserialize_log (hstart : a.startsOn tlv = true) {x : Access}
    (hx : x ∈ (pass tlv size operation false (a, env.note (.byte 0))).2.2.log) :
    x ∈ (deserialize (some tlv) size operation a env).2.2.log := by
  rw [deserialize_eq, if_pos hstart, twice]
  split_ifs
  · exact mem_pass_log tlv size operation true _ _ hx
  · exact hx

theorem check_log_cases {x : Access}
    (hx : x ∈ (pass tlv size operation false (a, env)).2.2.log) :
    x ∈ env.log ∨ a.MayLeave tlv size operation x := by
  rcases pass_log_cases tlv size operation false a env (H := fun _ => True) (fun _ _ => trivial)
    trivial hx with h | ⟨v, hv, s, hs, hleft⟩
  · exact Or.inl h
  · exact Or.inr ⟨v, hv, false, s, by simp, hs.1.weaken, hleft⟩

theorem store_log_cases (hv : a.verdict tlv size operation = .none) {x : Access}
    (hx : x ∈ (pass tlv size operation true
      (pass tlv size operation false (a, env)).2).2.2.log) :
    x ∈ env.log ∨ a.MayLeave tlv size operation x := by
  have hk := pass_kind tlv size operation false a env
  have hg := pass_grows tlv size operation false a env
  rcases pass_log_cases tlv size operation true _ _ (H := fun _ => True) (fun _ _ => trivial)
    trivial hx with h | ⟨v, hmem, s, hs, hleft⟩
  · exact check_log_cases tlv size operation a env h
  · rw [Addressee.visits_grows tlv size hk hg] at hmem
    rw [Underway, hk.nested] at hs
    rw [hk.nested] at hleft
    exact Or.inr ⟨v, hmem, true, s, fun _ => hv, hg.weaken.trans hs.1, hleft⟩

/-- Apart from the first byte, everything in the log has been left by a visit. -/
theorem deserialize_log_cases {x : Access}
    (hx : x ∈ (deserialize (some tlv) size operation a env).2.2.log) :
    x ∈ env.log ∨ x = .byte 0 ∨ (a.startsOn tlv = true ∧ a.MayLeave tlv size operation x) := by
  have hnote : x ∈ (env.note (.byte 0)).log → x = .byte 0 ∨ x ∈ env.log := fun h => by
    simpa [Env.note] using h
  rw [deserialize_eq] at hx
  split_ifs at hx with hstart
  · have hlog : x ∈ (env.note (.byte 0)).log ∨ a.MayLeave tlv size operation x := by
      rw [twice, pass_verdict] at hx
      split_ifs at hx with hv
      · exact store_log_cases tlv size operation a _ hv hx
      · exact check_log_cases tlv size operation a _ hx
    rcases hlog with h | h
    · exact (hnote h).symm.imp_right Or.inl
    · exact Or.inr (Or.inr ⟨hstart, h⟩)
  · exact (hnote hx).symm.imp_right Or.inl

end RequestLog
end MbedClient.Tlv
