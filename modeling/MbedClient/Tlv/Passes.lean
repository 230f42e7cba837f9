import MbedClient.Tlv.Targets

/-! The two passes of an entry point: what the check leaves alone, and what the store makes of the
values that were there before. -/
namespace MbedClient.Tlv
variable (tlv : Nat → UInt8) (size : Nat) (operation : Operation) (update : Bool)

section Steps
variable (nested : Bool)

theorem resourceVisit_heap {H : Heap → Prop} (hH : Stable H) (v : ResourceVisit)
    (s : M2MObjectInstance × Env) (hs : H s.2.heap) :
    H (resourceVisit tlv operation update nested v s).2.heap := by
  cases v with
  | own p => exact ownStep_heap tlv operation update p hH s hs
  | member k p =>
    cases hk : s.1.resources[k]? with
    | none => rwa [resourceVisit, Slot.zoom_none _ (by exact hk)]
    | some r =>
      rw [resourceVisit, Slot.zoom_some (a := r) _ (by exact hk)]
      exact memberStep_heap tlv operation update _ p hH (r, s.2) hs

theorem objectVisit_heap {H : Heap → Prop} (hH : Stable H) (v : Visit) (s : M2MObject × Env)
    (hs : H s.2.heap) : H (objectVisit tlv operation update nested v s).2.heap := by
  cases v with
  | object p => exact hs
  | inside j v =>
    cases hj : s.1.instances[j]? with
    | none => rwa [objectVisit, Slot.zoom_none _ (by exact hj)]
    | some oi =>
      rw [objectVisit, Slot.zoom_some (a := oi) _ (by exact hj)]
      exact resourceVisit_heap tlv operation update nested hH v (oi, s.2) hs

theorem objectVisits_fold_heap {H : Heap → Prop} (hH : Stable H) (l : List Visit)
    (s : M2MObject × Env) (hs : H s.2.heap) :
    H (Trace.fold (objectVisit tlv operation update nested) l s).2.heap :=
  Trace.fold_invariant (I := fun t : M2MObject × Env => H t.2.heap)
    (fun v _ t ht => objectVisit_heap tlv operation update nested hH v t ht) hs

end Steps

namespace Addressee

/-- The error of the first pass: the verdict of its last visit. -/
def verdict (a : Addressee) : Error :=
  lastVerdict (objectVerdict tlv operation false a.nested a.forest) (a.visits tlv size)

/-- The first pass finds no error, so there is a second one. -/
def Accepted (a : Addressee) : Prop :=
  a.startsOn tlv = true ∧ a.verdict tlv size operation = .none

def writers (a : Addressee) (t : Target) : List Visit :=
  (a.visits tlv size).filter fun v => visitTarget tlv a.forest v = some t

theorem visits_grows {writes creates : Bool} {a b : Addressee} (hk : a.SameKind b)
    (h : a.forest.Grows writes creates b.forest) : b.visits tlv size = a.visits tlv size := by
  cases a with
  | object obj =>
    cases b with
    | object obj' =>
      simp only [visits, objectVisits]
      congr 1
      funext p
      exact objectRecordVisits_grows tlv size h
    | objectInstance _ => exact hk.elim
    | resource _ => exact hk.elim
  | objectInstance oi =>
    cases b with
    | objectInstance oi' =>
      cases h with
      | cons h _ => rw [visits, visits, resourceVisits_grows tlv size h]
    | object _ => exact hk.elim
    | resource _ => exact hk.elim
  | resource r =>
    cases b with
    | resource r' => rfl
    | object _ => exact hk.elim
    | objectInstance _ => exact hk.elim

end Addressee

section Pass
variable (a : Addressee) (env : Env)

theorem pass_kind : a.SameKind (pass tlv size operation update (a, env)).2.1 :=
  (pass_run tlv size operation update a env).2.1

theorem pass_forest : (pass tlv size operation update (a, env)).2.1.forest =
    (Trace.fold (objectVisit tlv operation update a.nested) (a.visits tlv size)
      (a.forest, env)).1 := congrArg Prod.fst (pass_run tlv size operation update a env).2.2

theorem pass_env : (pass tlv size operation update (a, env)).2.2 =
    (Trace.fold (objectVisit tlv operation update a.nested) (a.visits tlv size)
      (a.forest, env)).2 := congrArg Prod.snd (pass_run tlv size operation update a env).2.2

/-- Only walks that get the object instance may add nodes. -/
theorem visits_create : ∀ v ∈ a.visits tlv size, v.creates operation a.nested = true →
    createsMembers operation a.nested = true := by
  intro v hv hc
  have hpost := Visit.creates_post operation a.nested hc
  cases a with
  | object obj => simp [createsMembers, hpost, Addressee.nested]
  | objectInstance oi => simp [createsMembers, hpost, Addressee.nested]
  | resource r =>
    obtain ⟨p, -, rfl⟩ := List.mem_map.mp hv
    exact hc

theorem pass_grows : a.forest.Grows update (createsMembers operation a.nested)
    (pass tlv size operation update (a, env)).2.1.forest := by
  rw [pass_forest]
  exact objectVisits_fold_grows tlv operation update a.nested (visits_create tlv size operation a)
    (a.forest, env)

theorem pass_heap {H : Heap → Prop} (hH : Stable H) (hs : H env.heap) :
    H (pass tlv size operation update (a, env)).2.2.heap := by
  rw [pass_env]
  exact objectVisits_fold_heap tlv operation update a.nested hH _ (a.forest, env) hs

/-- A check that cannot create changes nothing. -/
theorem pass_check_put : (pass tlv size .put false (a, env)).2.1 = a := by
  refine (pass_kind tlv size .put false a env).eq (M2MObject.Grows.eq ?_)
  exact (pass_grows tlv size .put false a env).mono fun h => by simp [createsMembers] at h

/-- The second pass leaves a variable with the bytes of the last visit that assigns to it. The
variables and the visits may be taken from the tree as it was before the first pass. -/
theorem pass_store_base? {H : Heap → Prop} (hH : Stable H) (hs : H env.heap) {a₀ : Addressee}
    (hk : a₀.SameKind a) (hg : a₀.forest.Grows false (createsMembers operation a₀.nested) a.forest)
    {t : Target} {b : M2MResourceBase} (hb : a₀.forest.base? t = some b) :
    match (a₀.writers tlv size t).getLast? with
    | none => (pass tlv size operation true (a, env)).2.1.forest.base? t = some b
    | some v => ∃ h, H h ∧
      (pass tlv size operation true (a, env)).2.1.forest.base? t =
        some (assign tlv v.record h b) := by
  obtain ⟨b₁, hb₁, hkeep⟩ := hg.base? hb
  obtain rfl : b₁ = b := hkeep.eq
  rw [← hk.nested] at hg
  have hgrow : ∀ v ∈ a.visits tlv size, ∀ s : M2MObject × Env,
      a₀.forest.Grows true (createsMembers operation a.nested) s.1 →
      a₀.forest.Grows true (createsMembers operation a.nested)
        (objectVisit tlv operation true a.nested v s).1 := fun v hv s h =>
    h.trans ((objectVisit_grows tlv operation true a.nested v s).mono
      (visits_create tlv size operation a v hv))
  have hvalue : ∀ v, ∀ s : M2MObject × Env,
      a₀.forest.Grows true (createsMembers operation a.nested) s.1 →
      (objectVisit tlv operation true a.nested v s).1.base? t =
        if visitTarget tlv a₀.forest v = some t then
          (s.1.base? t).map (assign tlv v.record s.2.heap)
        else s.1.base? t := by
    intro v s h
    obtain ⟨b', hb', -⟩ := h.base? hb
    rw [objectVisit_base? tlv operation a.nested v s (by simp [hb'])]
    exact if_congr (visitTarget_grows tlv h (by simp [hb]) v) rfl rfl
  have hlast := Trace.fold_last
    (I := fun s : M2MObject × Env =>
      a₀.forest.Grows true (createsMembers operation a.nested) s.1 ∧ H s.2.heap)
    (fun s => s.1.base? t) (fun v => visitTarget tlv a₀.forest v = some t)
    (fun v hv s h => ⟨hgrow v hv s h.1, objectVisit_heap tlv operation true a.nested hH v s h.2⟩)
    (fun v _ s h hv => by rw [hvalue v s h.1, if_neg (by simpa using hv)])
    (l := a.visits tlv size) (s := (a.forest, env)) ⟨hg.weaken, hs⟩
  rw [pass_forest, Addressee.writers, ← Addressee.visits_grows tlv size hk hg]
  revert hlast
  cases hl : ((a.visits tlv size).filter fun v =>
      decide (visitTarget tlv a₀.forest v = some t)).getLast? with
  | none => exact fun h => h.trans hb₁
  | some v =>
    rintro ⟨s, ⟨hs, hheap⟩, h⟩
    have hv : visitTarget tlv a₀.forest v = some t := by
      simpa using (List.mem_filter.mp (List.mem_of_getLast? hl)).2
    obtain ⟨b', hb', hkb⟩ := hs.base? hb
    refine ⟨s.2.heap, hheap, h.trans ?_⟩
    rw [hvalue v s hs, if_pos hv, hb', hkb]
    rfl

end Pass

/-! Both passes. -/
section Deserialize
variable (a : Addressee) (env : Env)

theorem pass_verdict : (pass tlv size operation false (a, env)).1 = a.verdict tlv size operation :=
  (pass_run tlv size operation false a env).1

/-- A refused buffer has been checked at most. -/
theorem deserialize_refused (h : ¬a.Accepted tlv size operation) :
    deserialize (some tlv) size operation a env = (.notValid, (a, env.note (.byte 0))) ∨
    (a.verdict tlv size operation ≠ .none ∧ deserialize (some tlv) size operation a env =
      (a.verdict tlv size operation,
        (pass tlv size operation false (a, env.note (.byte 0))).2)) := by
  rw [deserialize_eq]
  cases hs : a.startsOn tlv with
  | false => exact Or.inl rfl
  | true =>
    have hv : a.verdict tlv size operation ≠ .none := fun hv => h ⟨hs, hv⟩
    refine Or.inr ⟨hv, ?_⟩
    rw [if_pos rfl, twice, pass_verdict, if_neg hv,
      ← pass_verdict tlv size operation a (env.note _)]

theorem deserialize_accepted (h : a.Accepted tlv size operation) :
    deserialize (some tlv) size operation a env = pass tlv size operation true
      (pass tlv size operation false (a, env.note (.byte 0))).2 := by
  rw [deserialize_eq, if_pos h.1, twice, pass_verdict, if_pos h.2]

theorem deserialize_grows : a.forest.Grows true (createsMembers operation a.nested)
    (deserialize (some tlv) size operation a env).2.1.forest := by
  have hg := pass_grows tlv size operation false a (env.note (.byte 0))
  by_cases h : a.Accepted tlv size operation
  · rw [deserialize_accepted tlv size operation a env h]
    have hstore := pass_grows tlv size operation true
      (pass tlv size operation false (a, env.note (.byte 0))).2.1
      (pass tlv size operation false (a, env.note (.byte 0))).2.2
    rw [(pass_kind tlv size operation false a (env.note (.byte 0))).nested] at hstore
    exact hg.weaken.trans hstore
  · rcases deserialize_refused tlv size operation a env h with hr | ⟨-, hr⟩
    · rw [hr]
      exact .refl _
    · rw [hr]
      exact hg.weaken

theorem deserialize_heap {H : Heap → Prop} (hH : Stable H) (hs : H env.heap) :
    H (deserialize (some tlv) size operation a env).2.2.heap := by
  have hcheck := pass_heap tlv size operation false a (env.note (.byte 0)) hH hs
  by_cases h : a.Accepted tlv size operation
  · rw [deserialize_accepted tlv size operation a env h]
    exact pass_heap tlv size operation true _ _ hH hcheck
  · obtain hr | ⟨-, hr⟩ := deserialize_refused tlv size operation a env h
    · rw [hr]
      exact hs
    · rw [hr]
      exact hcheck

/-- What becomes of a variable of the tree. -/
theorem deserialize_base? {H : Heap → Prop} (hH : Stable H) (hs : H env.heap) {t : Target}
    {b : M2MResourceBase} (hb : a.forest.base? t = some b) :
    let b' := (deserialize (some tlv) size operation a env).2.1.forest.base? t
    (¬a.Accepted tlv size operation ∧ b' = some b) ∨
    (a.Accepted tlv size operation ∧ match (a.writers tlv size t).getLast? with
      | none => b' = some b
      | some v => ∃ h, H h ∧ b' = some (assign tlv v.record h b)) := by
  have hcheck : (pass tlv size operation false (a, env.note (.byte 0))).2.1.forest.base? t =
      some b := by
    obtain ⟨b', hb', hk⟩ := (pass_grows tlv size operation false a (env.note (.byte 0))).base? hb
    rw [hb', hk.eq]
  by_cases h : a.Accepted tlv size operation
  · refine Or.inr ⟨h, ?_⟩
    rw [deserialize_accepted tlv size operation a env h]
    exact pass_store_base? tlv size operation _ _ hH
      (pass_heap tlv size operation false a (env.note (.byte 0)) hH hs)
      (pass_kind tlv size operation false a (env.note (.byte 0)))
      (pass_grows tlv size operation false a (env.note (.byte 0))) hb
  · refine Or.inl ⟨h, ?_⟩
    rcases deserialize_refused tlv size operation a env h with hr | ⟨-, hr⟩
    · rw [hr]
      exact hb
    · rw [hr]
      exact hcheck

end Deserialize

/-! All or nothing: what passes the check of a `Put` passes its store. -/
section Atomic

theorem searchVerdict_update {found refused : Bool} {missing : Error}
    (h : searchVerdict false found refused missing = .none) :
    searchVerdict true found refused missing = .none := by
  cases found <;> cases refused <;> simp_all [searchVerdict]

theorem objectVerdict_update {nested : Bool} {obj : M2MObject} {v : Visit}
    (h : objectVerdict tlv operation false nested obj v = .none) :
    objectVerdict tlv operation true nested obj v = .none := by
  cases v with
  | object p => rfl
  | inside j v =>
    cases hj : obj.instances[j]? with
    | none => simp [objectVerdict, hj]
    | some oi =>
      simp only [objectVerdict, hj, Option.map_some, Option.getD_some] at h ⊢
      cases v with
      | own p =>
        simp only [resourceVerdict, ownVerdict] at h ⊢
        split_ifs at h ⊢
        · exact searchVerdict_update h
        · rfl
      | member k p =>
        cases hk : oi.resources[k]? with
        | none => simp [resourceVerdict, hk]
        | some r =>
          simp only [resourceVerdict, memberVerdict, hk, Option.map_some, Option.getD_some] at h ⊢
          split_ifs at h ⊢
          exact searchVerdict_update h

/-- The check of a `Put` changes nothing, a store that follows a successful check succeeds, and
a `Put` that answers with an error has changed nothing. -/
theorem put_atomic (a : Addressee) (env : Env) :
    let check := pass tlv size .put false (a, env)
    let put := deserialize (some tlv) size .put a env
    check.2.1 = a ∧ (check.1 = .none → (pass tlv size .put true check.2).1 = .none) ∧
      (put.1 ≠ .none → put.2.1 = a) := by
  have hstore : ∀ env, a.verdict tlv size .put = .none →
      (pass tlv size .put true (a, env)).1 = .none := by
    intro env h
    rw [(pass_run tlv size .put true a env).1]
    unfold Addressee.verdict lastVerdict at h
    unfold lastVerdict
    cases hl : (a.visits tlv size).getLast? with
    | none => rfl
    | some v =>
      rw [hl] at h
      exact objectVerdict_update tlv .put h
  have hcheck : ∀ env, (pass tlv size .put false (a, env)).2 =
      (a, (pass tlv size .put false (a, env)).2.2) :=
    fun env => Prod.ext (pass_check_put tlv size a env) rfl
  refine ⟨pass_check_put tlv size a env, fun h => ?_, fun h => ?_⟩
  · rw [pass_verdict] at h
    rw [hcheck env]
    exact hstore _ h
  · by_cases ha : a.Accepted tlv size .put
    · refine absurd ?_ h
      rw [deserialize_accepted tlv size .put a env ha, hcheck]
      exact hstore _ ha.2
    · rcases deserialize_refused tlv size .put a env ha with hr | ⟨-, hr⟩
      · rw [hr]
      · rw [hr]
        exact pass_check_put tlv size a (env.note (.byte 0))

end Atomic
end MbedClient.Tlv
