import MbedClient.Tlv.Creation
import MbedClient.Tlv.Outcome

/-! A request that is decoded a second time, as when its message has been retransmitted. The last
record about a variable decides its value both times, and the first decoding has added every node
that the second one could miss. -/
namespace MbedClient

/-! Growth that adds nothing and leaves every variable as it is. -/
section Same

theorem M2MResource.Grows.same {r r' : M2MResource} (h : r.Grows true false r')
    (hb : ∀ m b, r.base? m = some b → r'.base? m = some b) : r' = r := by
  refine M2MResource.Grows.eq ⟨?_, h.name, h.multi, h.instances.strengthen ?_⟩
  · exact Option.some.inj (hb none _ rfl)
  · intro m i i' hi hi' hk
    refine ⟨?_, hk.instanceId⟩
    have hbase := hb (some m) i.toM2MResourceBase (by rw [M2MResource.base?, hi]; rfl)
    rw [M2MResource.base?, hi'] at hbase
    exact Option.some.inj hbase

theorem M2MObjectInstance.Grows.same {oi oi' : M2MObjectInstance} (h : oi.Grows true false oi')
    (hb : ∀ k m b, oi.base? k m = some b → oi'.base? k m = some b) : oi' = oi := by
  refine M2MObjectInstance.Grows.eq ⟨h.instanceId, h.resources.strengthen ?_⟩
  intro k r r' hr hr' hk
  rw [hk.same fun m b hrb => ?_]
  · exact .refl r
  · have hbase := hb k m b (by rw [M2MObjectInstance.base?, hr]; exact hrb)
    rwa [M2MObjectInstance.base?, hr'] at hbase

theorem M2MObject.Grows.same {obj obj' : M2MObject} (h : obj.Grows true false obj')
    (hb : ∀ t b, obj.base? t = some b → obj'.base? t = some b) : obj' = obj := by
  refine M2MObject.Grows.eq (Grown.strengthen h ?_)
  intro j oi oi' hoi hoi' hk
  rw [hk.same fun k m b hob => ?_]
  · exact .refl oi
  · have hbase := hb ⟨j, k, m⟩ b (by rw [M2MObject.base?, hoi]; exact hob)
    rwa [M2MObject.base?, hoi'] at hbase

variable {writes : Bool}

theorem M2MResource.Grows.base?_back {r r' : M2MResource} (h : r.Grows writes false r')
    {m : Option Nat} {b' : M2MResourceBase} (hb : r'.base? m = some b') :
    ∃ b, r.base? m = some b := by
  cases m with
  | none => exact ⟨_, rfl⟩
  | some m =>
    obtain ⟨i', hi', -⟩ := Option.map_eq_some_iff.mp hb
    obtain ⟨i, hi, -⟩ := h.instances.getElem?_back (fun _ k => Bool.false_ne_true k.1) hi'
    exact ⟨_, by rw [M2MResource.base?, hi]; rfl⟩

/-- Where nothing is added, every variable was there before. -/
theorem M2MObject.Grows.base?_back {obj obj' : M2MObject} (h : obj.Grows writes false obj')
    {t : Target} {b' : M2MResourceBase} (hb : obj'.base? t = some b') :
    ∃ b, obj.base? t = some b := by
  obtain ⟨oi', hoi', hb⟩ := Option.bind_eq_some_iff.mp hb
  obtain ⟨r', hr', hb⟩ := Option.bind_eq_some_iff.mp hb
  obtain ⟨oi, hoi, hgrows⟩ := Grown.getElem?_back h (fun _ => id) hoi'
  obtain ⟨r, hr, hg⟩ := hgrows.resources.getElem?_back (fun _ k => Bool.false_ne_true k.1) hr'
  obtain ⟨b, hrb⟩ := hg.base?_back hb
  exact ⟨b, by rw [M2MObject.base?, hoi, Option.bind_some, M2MObjectInstance.base?, hr]; exact hrb⟩

end Same
end MbedClient

namespace MbedClient.Tlv
variable (tlv : Nat → UInt8) (size : Nat) (operation : Operation) (update nested : Bool)

/-! A visit that misses nothing adds nothing, and one that misses a node finds it afterwards. -/
section Complete

theorem memberStep_grows_only {owner : Option UInt16} {p : Nat} (s : M2MResource × Env)
    (h : ¬(memberTarget tlv p s.1 = none ∧ instanceStop tlv owner.isSome p = false ∧
      createsMembers operation owner.isSome = true ∧ memberCreatable tlv p s.1 = true)) :
    s.1.Grows update false (memberStep tlv operation update owner p s).1 := by
  rcases memberStep_cases tlv operation update owner p s with
    ⟨-, -, hs⟩ | ⟨k, i, rfl, -, hk, -, hs⟩ | ⟨ht, hstop, hc, hs⟩
  · rw [hs]
    exact .refl _
  · rw [hs]
    exact ⟨.refl _, rfl, rfl, .set M2MResourceInstance.Keeps.refl hk
      (storeMember_keeps tlv owner p _ i _)⟩
  · rw [hs, createMember_eq, if_neg fun hm => h ⟨ht, hstop, hc, hm⟩]
    exact .refl _

theorem ownStep_grows_only {p : Nat} (s : M2MObjectInstance × Env)
    (h : ¬resourceCreatableBy tlv operation nested s.1 (.own p)) :
    s.1.Grows update false (ownStep tlv operation update p s).1 := by
  rcases ownStep_cases tlv operation update p s with
    ⟨-, -, hs⟩ | ⟨k, r, rfl, -, hk, -, hs⟩ | ⟨ht, hown, hpost, hs⟩
  · rw [hs]
    exact .refl _
  · rw [hs]
    exact .set hk (storeResource_grows tlv p s.1.instanceId false r _)
  · rw [hs, createResource_eq, if_neg fun hm => h ⟨ht, hown, hpost, hm⟩]
    exact .refl _

theorem objectVisit_grows_only {v : Visit} {s : M2MObject × Env}
    (h : ¬visitCreatable tlv operation nested s.1 v) :
    s.1.Grows update false (objectVisit tlv operation update nested v s).1 := by
  cases v with
  | object p => exact .refl _
  | inside j v =>
    cases hj : s.1.instances[j]? with
    | none =>
      rw [objectVisit, Slot.zoom_none _ (by exact hj)]
      exact .refl _
    | some oi =>
      have h : ¬resourceCreatableBy tlv operation nested oi v := fun hc => h ⟨oi, hj, hc⟩
      rw [objectVisit, Slot.zoom_some (a := oi) _ (by exact hj)]
      refine .set hj ?_
      cases v with
      | own p => exact ownStep_grows_only tlv operation update nested (oi, s.2) h
      | member k p =>
        cases hk : oi.resources[k]? with
        | none =>
          rw [resourceVisit, Slot.zoom_none _ (by exact hk)]
          exact .refl _
        | some r =>
          rw [resourceVisit, Slot.zoom_some (a := r) _ (by exact hk)]
          refine .set hk (memberStep_grows_only tlv operation update (r, s.2) fun hc => ?_)
          rw [ownerOf_isSome] at hc
          exact h ⟨r, hk, hc⟩

/-- A visit that can have its node does not miss it a second time. -/
theorem not_creatable_after {v : Visit} {s : M2MObject × Env} (hp : v.Placed nested s.1)
    (hn : s.2.heap.newNode.1 = true) :
    ¬visitCreatable tlv operation nested (objectVisit tlv operation update nested v s).1 v := by
  intro hafter
  have hgrows := objectVisit_grows tlv operation update nested v s
  have hbefore := visitCreatable_grown hgrows hp hafter
  have hcreates := (visitCreates_iff tlv operation nested v s).mpr ⟨hbefore, hn⟩
  cases v with
  | object p => exact hbefore
  | inside j v =>
    cases v with
    | own p =>
      obtain ⟨oi, hj, ht, hown, -⟩ := hafter
      have htarget := visitTarget_created update hcreates (by exact hown)
      simp [visitTarget, hj, resourceTarget, ht] at htarget
    | member k p =>
      -- it is the id of the new instance that keeps a second one from being added
      obtain ⟨oi', hj', r', hk', -, -, -, hm⟩ := hafter
      obtain ⟨oi, hj, r, hk, ht, hstop, hc, hmade, hnode⟩ := hcreates
      have hjlt := (List.getElem?_eq_some_iff.mp hj).1
      have hklt := (List.getElem?_eq_some_iff.mp hk).1
      have hstep : (memberStep tlv operation update (ownerOf nested oi) p (r, s.2)).1.instances =
          r.instances ++ [newMember tlv p] := by
        have hcreate := createMember_eq tlv (ownerOf nested oi) p r (s.2.read (header tlv p))
        rw [if_pos hmade, if_pos (by exact hnode)] at hcreate
        simp [memberStep, ht, hstop, hc, hcreate]
      rw [objectVisit, Slot.zoom_some (a := oi) _ (by exact hj)] at hj'
      simp only [M2MObject.instanceAt, Slot.entry, List.getElem?_set_self hjlt,
        Option.some.injEq] at hj'
      rw [← hj', resourceVisit, Slot.zoom_some (a := r) _ (by exact hk)] at hk'
      simp only [M2MObjectInstance.resourceAt, Slot.entry, List.getElem?_set_self hklt,
        Option.some.injEq] at hk'
      rw [memberCreatable, ← hk', M2MResource.resourceInstance, hstep] at hm
      simp [newMember] at hm

end Complete

/-! A tree that no visit of a buffer adds to. -/
section Populated
variable (a : Addressee)

def Addressee.Populated : Prop :=
  ∀ v ∈ a.visits tlv size, ¬visitCreatable tlv operation a.nested a.forest v

variable {a} {b : Addressee}

theorem Addressee.Populated.grows {writes creates : Bool} (h : a.Populated tlv size operation)
    (hk : a.SameKind b) (hg : a.forest.Grows writes creates b.forest) :
    b.Populated tlv size operation := by
  intro v hv hc
  rw [Addressee.visits_grows tlv size hk hg] at hv
  rw [hk.nested] at hc
  exact h v hv (visitCreatable_grown hg (visits_placed tlv size a v hv) hc)

/-- A pass over it only writes. -/
theorem Addressee.Populated.pass_grows (h : a.Populated tlv size operation) (env : Env) :
    a.forest.Grows update false (pass tlv size operation update (a, env)).2.1.forest := by
  rw [pass_forest]
  refine Trace.fold_invariant (I := fun s : M2MObject × Env => a.forest.Grows update false s.1)
    (fun v hv s hs => ?_) (.refl _)
  refine hs.trans (objectVisit_grows_only tlv operation update a.nested fun hc => h v hv ?_)
  exact visitCreatable_grown hs (visits_placed tlv size a v hv) hc

theorem Addressee.Populated.check (h : a.Populated tlv size operation) (env : Env) :
    (pass tlv size operation false (a, env)).2.1 = a :=
  (pass_kind tlv size operation false a env).eq (h.pass_grows tlv size operation false env).eq

/-- The first pass adds all that the buffer asks for. -/
theorem populated_of_check (a : Addressee) {env : Env} (hheap : env.heap = fun _ => true) :
    (pass tlv size operation false (a, env)).2.1.Populated tlv size operation := by
  intro v hv hc
  have hkind := pass_kind tlv size operation false a env
  rw [Addressee.visits_grows tlv size hkind (pass_grows tlv size operation false a env)] at hv
  rw [hkind.nested] at hc
  obtain ⟨s, ⟨hg, hs⟩, -, hend⟩ := pass_log_reach tlv size operation false a env
    (stable_const true) hheap hv
  have hplaced := (visits_placed tlv size a v hv).grows hg
  refine not_creatable_after tlv operation false a.nested hplaced (by rw [hs]; rfl) ?_
  exact visitCreatable_grown hend
    (hplaced.grows (objectVisit_grows tlv operation false a.nested v s)) hc

end Populated

section Again
variable {tlv size operation} {a b : Addressee}

theorem writers_grows {writes creates : Bool} (hk : a.SameKind b)
    (hg : a.forest.Grows writes creates b.forest) {t : Target}
    (ht : (a.forest.base? t).isSome) : b.writers tlv size t = a.writers tlv size t := by
  rw [Addressee.writers, Addressee.writers, Addressee.visits_grows tlv size hk hg]
  refine List.filter_congr fun v _ => ?_
  rw [decide_eq_decide]
  exact visitTarget_grows tlv hg ht v

/-- Storing what has just been stored changes nothing. -/
theorem store_again (hpopulated : a.Populated tlv size operation) {env env' : Env}
    (hheap : env.heap = fun _ => true) (hheap' : env'.heap = fun _ => true) :
    let stored := (pass tlv size operation true (a, env)).2.1
    (pass tlv size operation true (stored, env')).2.1 = stored := by
  intro stored
  have hkind : a.SameKind stored := pass_kind tlv size operation true a env
  have hgrows : a.forest.Grows true false stored.forest :=
    hpopulated.pass_grows tlv size operation true env
  have hagain := (hpopulated.grows tlv size operation hkind hgrows).pass_grows tlv size operation
    true env'
  refine (pass_kind tlv size operation true stored env').eq (hagain.same fun t b hb => ?_)
  obtain ⟨b₀, hb₀⟩ := hgrows.base?_back hb
  have hfirst := pass_store_base? tlv size operation a env (stable_const true) hheap
    (Addressee.SameKind.refl a) (.refl _) hb₀
  have hsecond := pass_store_base? tlv size operation stored env' (stable_const true) hheap'
    (Addressee.SameKind.refl stored) (.refl _) hb
  rw [writers_grows hkind hgrows (by rw [hb₀]; rfl)] at hsecond
  cases hl : (a.writers tlv size t).getLast? with
  | none => rwa [hl] at hsecond
  | some v =>
    rw [hl] at hfirst hsecond
    obtain ⟨h, rfl, hstored⟩ := hfirst
    obtain ⟨h', rfl, hkept⟩ := hsecond
    obtain rfl := Option.some.inj (hb.symm.trans hstored)
    exact hkept

/-- What either pass answers does not depend on what has been added or written before. -/
theorem lastVerdict_again {writes : Bool} (hk : a.SameKind b)
    (hg : a.forest.Grows writes (createsMembers operation a.nested) b.forest) (update : Bool) :
    lastVerdict (objectVerdict tlv operation update b.nested b.forest) (b.visits tlv size) =
      lastVerdict (objectVerdict tlv operation update a.nested a.forest) (a.visits tlv size) := by
  rw [Addressee.visits_grows tlv size hk hg, hk.nested]
  refine congrArg (fun e => Option.getD e Error.none) (Option.map_congr fun v hv => ?_)
  have hv := List.mem_of_getLast? hv
  cases hn : a.nested with
  | true =>
    rw [hn] at hg
    exact visits_verdict_grows update hn hk hg (fun hc => by simpa [createsMembers] using hc) v hv
  | false =>
    rw [hn] at hg
    cases a with
    | object obj => cases hn
    | objectInstance oi => cases hn
    | resource r =>
      cases b with
      | object obj => exact hk.elim
      | objectInstance oi => exact hk.elim
      | resource r' =>
        obtain ⟨p, -, rfl⟩ := List.mem_map.mp hv
        obtain ⟨oi, hoi, hgrows⟩ := Grown.getElem? hg (k := 0) rfl
        obtain rfl := Option.some.inj hoi
        obtain ⟨r₁, hr₁, hr⟩ := hgrows.resources.getElem? (k := 0) rfl
        obtain rfl := Option.some.inj hr₁
        exact memberVerdict_grows tlv operation update false hr id

theorem accepted_again {writes : Bool} (hk : a.SameKind b)
    (hg : a.forest.Grows writes (createsMembers operation a.nested) b.forest) :
    b.Accepted tlv size operation ↔ a.Accepted tlv size operation := by
  have hstarts : b.startsOn tlv = a.startsOn tlv := by
    cases a <;> cases b <;> first | rfl | exact hk.elim
  rw [Addressee.Accepted, Addressee.Accepted, hstarts, Addressee.verdict, lastVerdict_again hk hg,
    Addressee.verdict]

/-- An accepted request. -/
theorem accepted_twice (ha : a.Accepted tlv size operation) {env env' : Env}
    (hheap : env.heap = fun _ => true) (hheap' : env'.heap = fun _ => true) :
    let first := deserialize (some tlv) size operation a env
    let again := deserialize (some tlv) size operation first.2.1 env'
    again.1 = first.1 ∧ again.2.1 = first.2.1 := by
  have hnote : (env.note (.byte 0)).heap = fun _ => true := hheap
  have hkind := pass_kind tlv size operation false a (env.note (.byte 0))
  have hgrows := pass_grows tlv size operation false a (env.note (.byte 0))
  have hpopulated := populated_of_check tlv size operation a hnote
  have hchecked :=
    pass_heap tlv size operation false a (env.note (.byte 0)) (stable_const true) hnote
  rw [deserialize_accepted tlv size operation a env ha]
  generalize (pass tlv size operation false (a, env.note (.byte 0))).2 = checked at *
  obtain ⟨c, checkedEnv⟩ := checked
  intro first again
  have hstored : c.SameKind first.2.1 := pass_kind tlv size operation true c checkedEnv
  have hwrites : c.forest.Grows true false first.2.1.forest :=
    hpopulated.pass_grows tlv size operation true checkedEnv
  have hleft := hpopulated.grows tlv size operation hstored hwrites
  have haccepted : first.2.1.Accepted tlv size operation :=
    (accepted_again (hkind.trans hstored) (hgrows.weaken.trans (hwrites.mono (by simp)))).mpr ha
  have hcheck := hleft.check tlv size operation (env'.note (.byte 0))
  have hheap'' := pass_heap tlv size operation false first.2.1 (env'.note (.byte 0))
    (stable_const true) hheap'
  have heq : again = pass tlv size operation true
      (pass tlv size operation false (first.2.1, env'.note (.byte 0))).2 :=
    deserialize_accepted tlv size operation first.2.1 env' haccepted
  rw [heq]
  generalize (pass tlv size operation false (first.2.1, env'.note (.byte 0))).2 = rechecked at *
  obtain ⟨d, recheckedEnv⟩ := rechecked
  obtain rfl : d = first.2.1 := hcheck
  refine ⟨?_, store_again hpopulated hchecked hheap''⟩
  rw [(pass_run tlv size operation true first.2.1 recheckedEnv).1,
    (pass_run tlv size operation true c checkedEnv).1]
  exact lastVerdict_again hstored (hwrites.mono (by simp)) true

/-- A refused request may have added nodes, but only once. -/
theorem refused_twice (ha : ¬a.Accepted tlv size operation) {env env' : Env}
    (hheap : env.heap = fun _ => true) :
    let first := deserialize (some tlv) size operation a env
    let again := deserialize (some tlv) size operation first.2.1 env'
    again.1 = first.1 ∧ again.2.1 = first.2.1 := by
  have hkind := pass_kind tlv size operation false a (env.note (.byte 0))
  have hgrows := pass_grows tlv size operation false a (env.note (.byte 0))
  have hpopulated := @populated_of_check tlv size operation a (env.note (.byte 0)) hheap
  rw [deserialize_eq tlv size operation a env]
  cases hs : a.startsOn tlv with
  | false =>
    rw [if_neg Bool.false_ne_true]
    dsimp only
    rw [deserialize_eq, hs, if_neg Bool.false_ne_true]
    exact ⟨rfl, rfl⟩
  | true =>
    have hv : a.verdict tlv size operation ≠ .none := fun hv => ha ⟨hs, hv⟩
    rw [if_pos rfl, twice, pass_verdict, if_neg hv]
    dsimp only
    generalize (pass tlv size operation false (a, env.note (.byte 0))).2.1 = c at *
    have hc := mt (accepted_again hkind hgrows).mp ha
    have hsc : c.startsOn tlv = true := by
      cases a <;> cases c <;> first | exact hs | exact hkind.elim
    have hvc : c.verdict tlv size operation ≠ .none := fun hv => hc ⟨hsc, hv⟩
    rw [deserialize_eq, hsc, if_pos rfl, twice, pass_verdict, if_neg hvc]
    refine ⟨?_, hpopulated.check tlv size operation _⟩
    rw [pass_verdict, pass_verdict]
    exact lastVerdict_again hkind hgrows false

/-- A request that is decoded again, where no allocation fails, is answered as the first time and
finds nothing to change: whatever the buffer holds, for both operations and for every entry point,
and whether it was refused or not. Both times `tlv` is the same function, so the bytes at `size` and
behind are too; of the code this holds for a `size` below `2 ^ 32 - 2 ^ 24 - 6`, as offsets are
natural numbers here. -/
theorem deserialize_again (tlv : Option (Nat → UInt8)) (size : Nat) (operation : Operation)
    (a : Addressee) {env env' : Env} (hheap : env.heap = fun _ => true)
    (hheap' : env'.heap = fun _ => true) :
    let first := deserialize tlv size operation a env
    let again := deserialize tlv size operation first.2.1 env'
    again.1 = first.1 ∧ again.2.1 = first.2.1 := by
  cases tlv with
  | none => cases a <;> exact ⟨rfl, rfl⟩
  | some tlv =>
    by_cases ha : a.Accepted tlv size operation
    · exact accepted_twice ha hheap hheap'
    · exact refused_twice ha hheap

/-- One resource is added, and written twice. -/
theorem deserialize_again_added :
    let post := fun a : Addressee =>
      (deserialize (some (ofBytes [0xC1, 1, 0x58])) 3 .post a ⟨fun _ => true, []⟩).2.1
    let added := post (.objectInstance ⟨0, []⟩)
    added.forest.base? ⟨0, 0, none⟩ = some ⟨.dynamic, getPutPostDeleteAllowed, .integer, [0x58]⟩ ∧
      post added = added :=
  ⟨by decide +kernel, (deserialize_again (some (ofBytes [0xC1, 1, 0x58])) 3 .post
    (.objectInstance ⟨0, []⟩) rfl rfl).2⟩

end Again
end MbedClient.Tlv
