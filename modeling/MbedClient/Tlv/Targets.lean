import MbedClient.Tlv.Request

/-! The resources and resource instances of a tree as variables, and a pass of the decoder as a
list of assignments to them. The variable a visit assigns to is found in the tree as it was before
the pass; what the pass creates on its way lies behind the entries that were there. -/
namespace MbedClient

structure Target where
  objectInstance : Nat
  resource : Nat
  member : Option Nat
  deriving DecidableEq

section Lookup

def M2MResource.base? (r : M2MResource) : Option Nat → Option M2MResourceBase
  | none => some r.toM2MResourceBase
  | some m => r.instances[m]?.map (·.toM2MResourceBase)

def M2MObjectInstance.base? (oi : M2MObjectInstance) (k : Nat) (m : Option Nat) :
    Option M2MResourceBase := oi.resources[k]?.bind (·.base? m)

def M2MObject.base? (obj : M2MObject) (t : Target) : Option M2MResourceBase :=
  obj.instances[t.objectInstance]?.bind (·.base? t.resource t.member)

variable {writes creates : Bool}

theorem M2MResource.Grows.base? {r r' : M2MResource} (h : r.Grows writes creates r')
    {m : Option Nat} {b : M2MResourceBase} (hb : r.base? m = some b) :
    ∃ b', r'.base? m = some b' ∧ b.Keeps writes b' := by
  cases m with
  | none =>
    obtain rfl := Option.some.inj hb
    exact ⟨_, rfl, h.base⟩
  | some m =>
    obtain ⟨i, hi, rfl⟩ := Option.map_eq_some_iff.mp hb
    obtain ⟨i', hi', hk⟩ := h.instances.getElem? hi
    exact ⟨_, by rw [M2MResource.base?, hi']; rfl, hk.base⟩

theorem M2MObjectInstance.Grows.base? {oi oi' : M2MObjectInstance}
    (h : oi.Grows writes creates oi') {k : Nat} {m : Option Nat} {b : M2MResourceBase}
    (hb : oi.base? k m = some b) : ∃ b', oi'.base? k m = some b' ∧ b.Keeps writes b' := by
  obtain ⟨r, hr, hb⟩ := Option.bind_eq_some_iff.mp hb
  obtain ⟨r', hr', hk⟩ := h.resources.getElem? hr
  obtain ⟨b', hb', hkb⟩ := hk.base? hb
  exact ⟨b', by rw [M2MObjectInstance.base?, hr']; exact hb', hkb⟩

/-- What a tree held stays where it was. -/
theorem M2MObject.Grows.base? {obj obj' : M2MObject} (h : obj.Grows writes creates obj')
    {t : Target} {b : M2MResourceBase} (hb : obj.base? t = some b) :
    ∃ b', obj'.base? t = some b' ∧ b.Keeps writes b' := by
  obtain ⟨oi, hoi, hb⟩ := Option.bind_eq_some_iff.mp hb
  obtain ⟨oi', hoi', hk⟩ := Grown.getElem? h hoi
  obtain ⟨b', hb', hkb⟩ := hk.base? hb
  exact ⟨b', by rw [M2MObject.base?, hoi']; exact hb', hkb⟩

end Lookup
end MbedClient

namespace MbedClient.Tlv
variable (tlv : Nat → UInt8)

def resourceTarget (oi : M2MObjectInstance) : ResourceVisit → Option (Nat × Option Nat)
  | .own p => (ownTarget tlv p oi).map fun k => (k, none)
  | .member k p => oi.resources[k]?.bind fun r => (memberTarget tlv p r).map fun m => (k, some m)

def visitTarget (obj : M2MObject) : Visit → Option Target
  | .object _ => none
  | .inside j v => obj.instances[j]?.bind fun oi =>
    (resourceTarget tlv oi v).map fun t => ⟨j, t.1, t.2⟩

section Stability
variable {writes creates : Bool}

/-- The first match of the tree as it was is the first match of the grown one. -/
theorem findIdx?_grown {α : Type*} {R : α → α → Prop} {Fresh : α → Prop} {f : α → Bool}
    {xs ys : List α} (hR : ∀ x y, R x y → f y = f x) (h : Grown R Fresh xs ys) {k : Nat}
    (hk : k < xs.length) : ys.findIdx? f = some k ↔ xs.findIdx? f = some k := by
  refine ⟨fun hy => ?_, Grown.findIdx?_some hR h⟩
  cases hx : xs.findIdx? f with
  | none => exact absurd (Grown.findIdx?_none hR h hx hy) (by omega)
  | some j => rwa [Grown.findIdx?_some hR h hx] at hy

theorem memberHit_keeps {p : Nat} {i i' : M2MResourceInstance} (h : i.Keeps writes i') :
    memberHit tlv p i' = memberHit tlv p i := by simp [memberHit, h.instanceId]

theorem ownHit_grows {p : Nat} {r r' : M2MResource} (h : r.Grows writes creates r') :
    ownHit tlv p r' = ownHit tlv p r := by simp [ownHit, h.nameId]

theorem resourceTarget_grows {oi oi' : M2MObjectInstance} (h : oi.Grows writes creates oi')
    {k : Nat} {m : Option Nat} (hb : (oi.base? k m).isSome) (v : ResourceVisit) :
    resourceTarget tlv oi' v = some (k, m) ↔ resourceTarget tlv oi v = some (k, m) := by
  obtain ⟨b, hoib⟩ := Option.isSome_iff_exists.mp hb
  obtain ⟨r, hr, hrb⟩ := Option.bind_eq_some_iff.mp hoib
  have hk : k < oi.resources.length := (List.getElem?_eq_some_iff.mp hr).1
  cases v with
  | own p =>
    simp only [resourceTarget, ownTarget]
    split_ifs
    · have hfind := findIdx?_grown (f := ownHit tlv p)
        (fun _ _ k => ownHit_grows tlv k) h.resources hk
      simp only [Option.map_eq_some_iff, Prod.mk.injEq]
      constructor
      · rintro ⟨_, hf, rfl, hm⟩
        exact ⟨_, hfind.mp hf, rfl, hm⟩
      · rintro ⟨_, hf, rfl, hm⟩
        exact ⟨_, hfind.mpr hf, rfl, hm⟩
    · simp
  | member k' p =>
    by_cases hkk : k' = k
    · subst hkk
      obtain ⟨r', hr', hg⟩ := h.resources.getElem? hr
      simp only [resourceTarget, hr, hr', Option.bind_some, Option.map_eq_some_iff, Prod.mk.injEq,
        true_and]
      cases m with
      | none => simp
      | some m =>
        obtain ⟨i, hi, -⟩ := Option.map_eq_some_iff.mp hrb
        have hfind := findIdx?_grown (f := memberHit tlv p)
          (fun _ _ k => memberHit_keeps tlv k) hg.instances (List.getElem?_eq_some_iff.mp hi).1
        simp only [Option.some.injEq, exists_eq_right, memberTarget]
        exact hfind
    · have hne : ∀ oi : M2MObjectInstance,
          resourceTarget tlv oi (.member k' p) ≠ some (k, m) := by
        intro oi hc
        obtain ⟨_, -, hc⟩ := Option.bind_eq_some_iff.mp hc
        obtain ⟨_, -, hc⟩ := Option.map_eq_some_iff.mp hc
        exact hkk (Prod.mk.inj hc).1
      simp [hne]

/-- Whether a visit assigns to a variable of the tree does not depend on how far a pass is. -/
theorem visitTarget_grows {obj obj' : M2MObject} (h : obj.Grows writes creates obj')
    {t : Target} (hb : (obj.base? t).isSome) (v : Visit) :
    visitTarget tlv obj' v = some t ↔ visitTarget tlv obj v = some t := by
  obtain ⟨i, k, m⟩ := t
  obtain ⟨b, hob⟩ := Option.isSome_iff_exists.mp hb
  obtain ⟨oi, hoi, hoib⟩ := Option.bind_eq_some_iff.mp hob
  obtain ⟨oi', hoi', hg⟩ := Grown.getElem? h hoi
  cases v with
  | object p => simp [visitTarget]
  | inside j v =>
    by_cases hj : j = i
    · subst hj
      have hr := resourceTarget_grows tlv hg (Option.isSome_iff_exists.mpr ⟨b, hoib⟩) v
      simp only [visitTarget, hoi, hoi', Option.bind_some, Option.map_eq_some_iff,
        Target.mk.injEq, true_and]
      constructor
      · rintro ⟨x, hx, rfl, rfl⟩
        exact ⟨x, hr.mp hx, rfl, rfl⟩
      · rintro ⟨x, hx, rfl, rfl⟩
        exact ⟨x, hr.mpr hx, rfl, rfl⟩
    · have hne : ∀ obj : M2MObject, visitTarget tlv obj (.inside j v) ≠ some ⟨i, k, m⟩ := by
        intro obj hc
        obtain ⟨_, -, hc⟩ := Option.bind_eq_some_iff.mp hc
        obtain ⟨_, -, hc⟩ := Option.map_eq_some_iff.mp hc
        exact hj (Target.mk.inj hc).1
      simp [hne]

end Stability

/-! A storing visit assigns to its variable and leaves every other one alone. -/
section Assign
variable (operation : Operation) (nested : Bool)

/-- `clear_value` or `set_value` with the bytes of a record. -/
def assign (p : Nat) (h : Heap) (b : M2MResourceBase) : M2MResourceBase :=
  { b with value := stored tlv p h }

theorem storeMember_base (owner : Option UInt16) (resource : Int) (p : Nat)
    (i : M2MResourceInstance) (env : Env) :
    (storeMember tlv owner resource p i env).1.toM2MResourceBase =
      assign tlv p env.heap i.toM2MResourceBase := storeRecord_fst tlv p _ _

theorem storeResource_base (owner : UInt16) (p : Nat) (r : M2MResource) (env : Env) :
    (storeResource tlv owner p r env).1.toM2MResourceBase =
      assign tlv p env.heap r.toM2MResourceBase := storeRecord_fst tlv p _ _

theorem memberStep_base? (owner : Option UInt16) (p : Nat) (s : M2MResource × Env)
    {m : Option Nat} (hb : (s.1.base? m).isSome) :
    (memberStep tlv operation true owner p s).1.base? m =
      if m.isSome ∧ memberTarget tlv p s.1 = m then (s.1.base? m).map (assign tlv p s.2.heap)
      else s.1.base? m := by
  rcases memberStep_cases tlv operation true owner p s with
    ⟨hu, -, h⟩ | ⟨k, i, -, ht, hk, -, h⟩ | ⟨ht, -, -, h⟩
  · rw [h, hu rfl, if_neg (by cases m <;> simp)]
  · rw [h, ht]
    cases m with
    | none => rw [if_neg (by simp)]; rfl
    | some m =>
      by_cases hkm : k = m
      · subst hkm
        rw [if_pos ⟨rfl, rfl⟩]
        have hlt := (List.getElem?_eq_some_iff.mp hk).1
        simp only [M2MResource.base?, hk, List.getElem?_set_self hlt, Option.map_some,
          storeMember_base]
        rfl
      · rw [if_neg (by simpa using hkm)]
        simp [M2MResource.base?, hkm]
  · rw [h, ht, if_neg (by cases m <;> simp), createMember_eq]
    split_ifs
    · cases m with
      | none => rfl
      | some m =>
        have hm : m < s.1.instances.length := by simpa [M2MResource.base?] using hb
        simp [M2MResource.base?, List.getElem?_append_left hm]
    · rfl
    · rfl

theorem ownStep_base? (p : Nat) (s : M2MObjectInstance × Env) {k : Nat} {m : Option Nat}
    (hb : (s.1.base? k m).isSome) : (ownStep tlv operation true p s).1.base? k m =
      if ownTarget tlv p s.1 = some k ∧ m = none then
        (s.1.base? k m).map (assign tlv p s.2.heap)
      else s.1.base? k m := by
  rcases ownStep_cases tlv operation true p s with
    ⟨hu, -, h⟩ | ⟨i, r, -, ht, hi, -, h⟩ | ⟨ht, -, -, h⟩
  · rw [h, hu rfl, if_neg (by simp)]
  · have hlt := (List.getElem?_eq_some_iff.mp hi).1
    rw [h, ht]
    by_cases hik : i = k
    · subst hik
      cases m with
      | none =>
        simp only [M2MObjectInstance.base?, hi, List.getElem?_set_self hlt, Option.bind_some,
          M2MResource.base?, storeResource_base, and_self, if_true]
        rfl
      | some m =>
        simp only [M2MObjectInstance.base?, hi, List.getElem?_set_self hlt, Option.bind_some,
          reduceCtorEq, and_false, if_false]
        rfl
    · simp only [M2MObjectInstance.base?, List.getElem?_set_ne hik, Option.some.injEq, hik,
        false_and, if_false]
  · rw [h, ht, if_neg (by simp), createResource_eq]
    have hk : k < s.1.resources.length := by
      obtain ⟨b, hb⟩ := Option.isSome_iff_exists.mp hb
      obtain ⟨r, hr, -⟩ := Option.bind_eq_some_iff.mp hb
      exact (List.getElem?_eq_some_iff.mp hr).1
    split_ifs
    · simp [M2MObjectInstance.base?, List.getElem?_append_left hk]
    · rfl
    · rfl

theorem resourceVisit_base? (v : ResourceVisit) (s : M2MObjectInstance × Env) {k : Nat}
    {m : Option Nat} (hb : (s.1.base? k m).isSome) :
    (resourceVisit tlv operation true nested v s).1.base? k m =
      if resourceTarget tlv s.1 v = some (k, m) then
        (s.1.base? k m).map (assign tlv v.record s.2.heap)
      else s.1.base? k m := by
  cases v with
  | own p =>
    rw [resourceVisit, ownStep_base? tlv operation p s hb]
    refine if_congr ?_ rfl rfl
    cases ht : ownTarget tlv p s.1 <;> simp [resourceTarget, ht, eq_comm]
  | member k' p =>
    obtain ⟨b, hob⟩ := Option.isSome_iff_exists.mp hb
    obtain ⟨r, hr, hrb⟩ := Option.bind_eq_some_iff.mp hob
    cases hk' : s.1.resources[k']? with
    | none =>
      rw [resourceVisit, Slot.zoom_none _ (by exact hk'), if_neg (by simp [resourceTarget, hk'])]
    | some r' =>
      have hlt := (List.getElem?_eq_some_iff.mp hk').1
      rw [resourceVisit, Slot.zoom_some (a := r') _ (by exact hk')]
      by_cases hkk : k' = k
      · subst hkk
        obtain rfl : r' = r := Option.some.inj (hk'.symm.trans hr)
        have hstep := memberStep_base? tlv operation (ownerOf nested s.1) p (r', s.2)
          (Option.isSome_iff_exists.mpr ⟨b, hrb⟩)
        simp only [M2MObjectInstance.resourceAt, Slot.entry, M2MObjectInstance.base?, hk',
          List.getElem?_set_self hlt, Option.bind_some, hstep, resourceTarget,
          ResourceVisit.record]
        refine if_congr ?_ rfl rfl
        cases m <;> cases memberTarget tlv p r' <;> simp
      · have hne : resourceTarget tlv s.1 (.member k' p) ≠ some (k, m) := by
          intro hc
          obtain ⟨_, -, hc⟩ := Option.bind_eq_some_iff.mp hc
          obtain ⟨_, -, hc⟩ := Option.map_eq_some_iff.mp hc
          exact hkk (Prod.mk.inj hc).1
        rw [if_neg hne]
        simp [M2MObjectInstance.resourceAt, Slot.entry, M2MObjectInstance.base?, hkk]

theorem objectVisit_base? (v : Visit) (s : M2MObject × Env) {t : Target}
    (hb : (s.1.base? t).isSome) :
    (objectVisit tlv operation true nested v s).1.base? t =
      if visitTarget tlv s.1 v = some t then (s.1.base? t).map (assign tlv v.record s.2.heap)
      else s.1.base? t := by
  cases v with
  | object p => rw [objectVisit, if_neg (by simp [visitTarget])]
  | inside j v =>
    obtain ⟨i, k, m⟩ := t
    obtain ⟨b, hob⟩ := Option.isSome_iff_exists.mp hb
    obtain ⟨oi, hoi, hoib⟩ := Option.bind_eq_some_iff.mp hob
    cases hj : s.1.instances[j]? with
    | none => rw [objectVisit, Slot.zoom_none _ (by exact hj), if_neg (by simp [visitTarget, hj])]
    | some oi' =>
      have hlt := (List.getElem?_eq_some_iff.mp hj).1
      rw [objectVisit, Slot.zoom_some (a := oi') _ (by exact hj)]
      by_cases hij : j = i
      · subst hij
        obtain rfl : oi' = oi := Option.some.inj (hj.symm.trans hoi)
        have hstep := resourceVisit_base? tlv operation nested v (oi', s.2)
          (Option.isSome_iff_exists.mpr ⟨b, hoib⟩)
        simp only [M2MObject.instanceAt, Slot.entry, M2MObject.base?, hj,
          List.getElem?_set_self hlt, Option.bind_some, hstep, visitTarget, Visit.record]
        refine if_congr ?_ rfl rfl
        cases resourceTarget tlv oi' v with
        | none => simp
        | some x => simp [Prod.ext_iff]
      · have hne : visitTarget tlv s.1 (.inside j v) ≠ some ⟨i, k, m⟩ := by
          intro hc
          obtain ⟨_, -, hc⟩ := Option.bind_eq_some_iff.mp hc
          obtain ⟨_, -, hc⟩ := Option.map_eq_some_iff.mp hc
          exact hij (Target.mk.inj hc).1
        rw [if_neg hne]
        simp [M2MObject.instanceAt, Slot.entry, M2MObject.base?, hij]

end Assign
end MbedClient.Tlv
