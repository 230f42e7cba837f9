import MbedClient.Keyed
import MbedClient.ObjectTree

/-! What may be added to an object and removed from it, where the allocations succeed. -/
namespace MbedClient
open Search

namespace M2MResource
variable (r : M2MResource)

def removeResourceInstance (instId : UInt16) : Bool × M2MResource :=
  ((r.resourceInstance instId).isSome,
    { r with instances := r.instances.eraseP (·.instanceId == instId) })

def resourceInstanceCount : UInt16 := UInt16.ofNat r.instances.length

end M2MResource

namespace M2MObjectInstance
variable (oi : M2MObjectInstance)

/-- What is done to the resource behind the pointer that `resource` returns. -/
def onResource (name : Bytes) (f : M2MResource → Bool × M2MResource) : Bool × M2MObjectInstance :=
  let (success, resources) := Keyed.onEntry (·.name) name f oi.resources
  (success, { oi with resources })

/-- The four functions that create a resource: whether they return one. -/
def createResource (name : Bytes) (make : Bytes → M2MResource) : Bool × M2MObjectInstance :=
  if validateStringLength name 1 maxAllowedStringLength then
    if (oi.resource (cStr name)).isNone then
      (true, { oi with resources := oi.resources ++ [make (cStr name)] })
    else (false, oi)
  else (false, oi)

/-- The resource that a resource instance goes to, which is made if it is missing. -/
def demandResource (name : Bytes) (make : Bytes → M2MResource) : M2MObjectInstance :=
  if (oi.resource name).isNone then { oi with resources := oi.resources ++ [make name] } else oi

/-- The two functions that create a resource instance. -/
def createResourceInstance (name : Bytes) (base : M2MResourceBase) (instanceId : UInt16) :
    Bool × M2MObjectInstance :=
  if validateStringLength name 1 maxAllowedStringLength then
    (oi.demandResource (cStr name) fun name => ⟨base, name, true, []⟩).onResource (cStr name)
      fun r =>
      if r.multipleInstance && (r.resourceInstance instanceId).isNone then
        (true, { r with instances := r.instances ++ [⟨base, instanceId⟩] })
      else (false, r)
  else (false, oi)

def removeResource (name : Bytes) : Bool × M2MObjectInstance :=
  ((oi.resource name).isSome, { oi with resources := oi.resources.eraseP (·.name == name) })

/-- `remove_resource_instance`: a resource without instances is removed. -/
def removeResourceInstance (name : Bytes) (instId : UInt16) : Bool × M2MObjectInstance :=
  match first (·.name == cStr name) oi.resources with
  | none => (false, oi)
  | some (k, r) =>
    if (r.resourceInstance instId).isSome then
      let (success, r) := r.removeResourceInstance instId
      let oi := { oi with resources := oi.resources.set k r }
      (success, if r.resourceInstanceCount == 0 then (oi.removeResource (cStr name)).2 else oi)
    else (false, oi)

end M2MObjectInstance

namespace M2MObject
variable (obj : M2MObject)

def objectInstance (instId : UInt16) : Option M2MObjectInstance :=
  obj.instances.find? (·.instanceId == instId)

/-- What is done to the instance behind the pointer that `object_instance` returns. -/
def onInstance (instId : UInt16) (f : M2MObjectInstance → Bool × M2MObjectInstance) :
    Bool × M2MObject :=
  let (success, instances) := Keyed.onEntry (·.instanceId) instId f obj.instances
  (success, { instances })

/-- Both forms of `create_object_instance`. -/
def createObjectInstance (instanceId : UInt16) : Bool × M2MObject :=
  if (obj.objectInstance instanceId).isNone then
    (true, { instances := obj.instances ++ [⟨instanceId, []⟩] })
  else (false, obj)

def removeObjectInstance (instId : UInt16) : Bool × M2MObject :=
  ((obj.objectInstance instId).isSome,
    { instances := obj.instances.eraseP (·.instanceId == instId) })

end M2MObject

/-! No two instances of an object have the same id, no two resources of an instance the same name,
and no two instances of a resource the same id. -/
section Unique
open Keyed

def M2MResource.Unique (r : M2MResource) : Prop := Keyed.Unique (·.instanceId) r.instances

structure M2MObjectInstance.Unique (oi : M2MObjectInstance) : Prop where
  names : Keyed.Unique (·.name) oi.resources
  members : ∀ r ∈ oi.resources, r.Unique

structure M2MObject.Unique (obj : M2MObject) : Prop where
  ids : Keyed.Unique (·.instanceId) obj.instances
  instances : ∀ oi ∈ obj.instances, oi.Unique

namespace M2MResource
variable {r : M2MResource} {id : UInt16}

theorem resourceInstance_isNone : (r.resourceInstance id).isNone = true ↔
    ∀ i ∈ r.instances, i.instanceId ≠ id := by
  simp [resourceInstance]

theorem Unique.append (h : r.Unique) {i : M2MResourceInstance}
    (hid : (r.resourceInstance i.instanceId).isNone = true) :
    ({ r with instances := r.instances ++ [i] } : M2MResource).Unique :=
  Keyed.Unique.append h (resourceInstance_isNone.mp hid)

def without (r : M2MResource) (id : UInt16) : M2MResource :=
  { r with instances := alter (·.instanceId) id (fun _ => none) r.instances }

theorem Unique.without (h : r.Unique) (id : UInt16) : (r.without id).Unique :=
  Keyed.Unique.alter h fun _ _ hnone => (nomatch hnone)

theorem removeResourceInstance_eq (h : r.Unique) (id : UInt16) :
    r.removeResourceInstance id = ((r.resourceInstance id).isSome, r.without id) := by
  rw [removeResourceInstance, without]
  rw [eraseP_eq_alter (g := fun _ => none) h (fun i => beq_iff_eq) fun _ _ _ => rfl]

theorem without_self (hid : (r.resourceInstance id).isNone = true) : r.without id = r := by
  rw [without, alter_eq_self fun i hi he => absurd he (resourceInstance_isNone.mp hid i hi)]

/-- The ids are 16-bit numbers. -/
theorem Unique.length_le (h : r.Unique) : r.instances.length ≤ 65536 := by
  have hfin : ((r.instances.map (·.instanceId)).map UInt16.toFin).Nodup :=
    List.Nodup.map (fun _ _ heq => UInt16.toFin_inj.mp heq) h
  have hcard := hfin.length_le_card
  rwa [List.length_map, List.length_map, Fintype.card_fin] at hcard

/-- A resource without one of its instances does not have so many that their number is taken for
0. -/
theorem without_count (h : r.Unique) (hid : (r.resourceInstance id).isSome = true) :
    (r.without id).resourceInstanceCount = 0 ↔ (r.without id).instances = [] := by
  obtain ⟨i, hi⟩ := Option.isSome_iff_exists.mp hid
  obtain ⟨hmem, hi⟩ := of_find hi
  have hlength : (r.without id).instances.length = r.instances.length - 1 := by
    have herase := congrArg (fun t => t.2.instances.length) (removeResourceInstance_eq h id)
    exact herase.symm.trans (List.length_eraseP_of_mem hmem (beq_iff_eq.mpr hi))
  have hle := h.length_le
  have hpos : 0 < r.instances.length := List.length_pos_of_mem hmem
  rw [← List.length_eq_zero_iff, resourceInstanceCount, ← UInt16.toNat_inj, UInt16.toNat_ofNat']
  change (r.without id).instances.length % 65536 = 0 ↔ _
  omega

end M2MResource

namespace M2MObjectInstance
variable {oi : M2MObjectInstance} {name : Bytes}

theorem resource_isNone : (oi.resource name).isNone = true ↔ ∀ r ∈ oi.resources, r.name ≠ name := by
  simp [resource]

/-- Something else in the place of the resource with a name, or nothing. -/
def alterResource (oi : M2MObjectInstance) (name : Bytes) (g : M2MResource → Option M2MResource) :
    M2MObjectInstance :=
  { oi with resources := alter (·.name) name g oi.resources }

section Alter
variable {g g' : M2MResource → Option M2MResource}

theorem alterResource_self (h : ∀ r ∈ oi.resources, r.name = name → g r = some r) :
    oi.alterResource name g = oi := by
  rw [alterResource, alter_eq_self h]

theorem alterResource_congr (h : ∀ r ∈ oi.resources, r.name = name → g r = g' r) :
    oi.alterResource name g = oi.alterResource name g' := by
  rw [alterResource, alterResource, alter_congr h]

theorem alterResource_alterResource (hg : ∀ r r', g r = some r' → r'.name = r.name) :
    (oi.alterResource name g).alterResource name g' =
      oi.alterResource name fun r => (g r).bind g' := by
  rw [alterResource, alterResource, alter_alter hg]
  rfl

theorem set_eq_alterResource (h : oi.Unique) {k : Nat} {r r' : M2MResource}
    (hk : oi.resources[k]? = some r) (hr : g r = some r') :
    ({ oi with resources := oi.resources.set k r' } : M2MObjectInstance) =
      oi.alterResource r.name g := by
  rw [alterResource, set_eq_alter h.names hk hr]

end Alter

theorem Unique.alterResource (h : oi.Unique) {g : M2MResource → Option M2MResource}
    (hg : ∀ r r', g r = some r' → r'.name = r.name ∧ (r.Unique → r'.Unique)) :
    (oi.alterResource name g).Unique := by
  refine ⟨h.names.alter fun r r' hr => (hg r r' hr).1, fun r hr => ?_⟩
  obtain ⟨r', hr', -, heq⟩ := mem_alter (fun r r' hr => (hg r r' hr).1) hr
  obtain hsome | rfl := heq
  · exact (hg r' r hsome).2 (h.members r' hr')
  · exact h.members r hr'

theorem Unique.set (h : oi.Unique) {k : Nat} {r r' : M2MResource} (hk : oi.resources[k]? = some r)
    (hname : r'.name = r.name) (hr : r'.Unique) :
    ({ oi with resources := oi.resources.set k r' } : M2MObjectInstance).Unique := by
  refine ⟨h.names.set hk hname, fun x hx => ?_⟩
  obtain hmem | rfl := List.mem_or_eq_of_mem_set hx
  · exact h.members x hmem
  · exact hr

theorem onResource_eq (h : oi.Unique) (f : M2MResource → Bool × M2MResource) :
    oi.onResource name f =
      ((oi.resource name).any fun r => (f r).1, oi.alterResource name fun r => some (f r).2) := by
  rw [onResource, onEntry_eq h.names]
  rfl

theorem Unique.onResource (h : oi.Unique) {f : M2MResource → Bool × M2MResource}
    (hf : ∀ r, (f r).2.name = r.name) (hu : ∀ r, r.Unique → (f r).2.Unique) :
    (oi.onResource name f).2.Unique := by
  rw [onResource_eq h]
  refine h.alterResource fun r r' hr => ?_
  obtain rfl := Option.some.inj hr
  exact ⟨hf r, hu r⟩

theorem Unique.push (h : oi.Unique) {r : M2MResource} (hname : (oi.resource r.name).isNone = true)
    (hr : r.instances = []) :
    ({ oi with resources := oi.resources ++ [r] } : M2MObjectInstance).Unique := by
  refine ⟨h.names.append (resource_isNone.mp hname), fun r' hr' => ?_⟩
  obtain hmem | hmem := List.mem_append.mp hr'
  · exact h.members r' hmem
  · rw [List.mem_singleton.mp hmem, M2MResource.Unique, hr]
    exact unique_nil _

theorem Unique.createResource (h : oi.Unique) (name : Bytes) {make : Bytes → M2MResource}
    (hmake : ∀ name, (make name).name = name ∧ (make name).instances = []) :
    (oi.createResource name make).2.Unique := by
  rw [M2MObjectInstance.createResource]
  split_ifs with _ hnone
  · exact h.push ((hmake (cStr name)).1.symm ▸ hnone) (hmake (cStr name)).2
  · exact h
  · exact h

theorem Unique.createResourceInstance (h : oi.Unique) (name : Bytes) (base : M2MResourceBase)
    (id : UInt16) : (oi.createResourceInstance name base id).2.Unique := by
  rw [M2MObjectInstance.createResourceInstance]
  split_ifs
  · have hdemand : (oi.demandResource (cStr name) fun name => ⟨base, name, true, []⟩).Unique := by
      rw [demandResource]
      split_ifs with hnone
      · exact h.push hnone rfl
      · exact h
    refine hdemand.onResource (fun r => ?_) fun r hr => ?_
    · split_ifs <;> rfl
    · split_ifs with hc
      · exact hr.append (i := ⟨base, id⟩) (Bool.and_eq_true_iff.mp hc).2
      · exact hr
  · exact h

theorem removeResource_eq (h : oi.Unique) (name : Bytes) :
    oi.removeResource name = ((oi.resource name).isSome, oi.alterResource name fun _ => none) := by
  rw [removeResource, alterResource]
  rw [eraseP_eq_alter (g := fun _ => none) h.names (fun r => beq_iff_eq) fun _ _ _ => rfl]

/-- What is left of a resource that loses an instance: nothing if that was the only one. -/
def withoutMember (id : UInt16) (r : M2MResource) : Option M2MResource :=
  if (r.resourceInstance id).isSome && (r.without id).instances.isEmpty then none
  else some (r.without id)

theorem withoutMember_name {id : UInt16} (r r' : M2MResource) (h : withoutMember id r = some r') :
    r'.name = r.name ∧ (r.Unique → r'.Unique) := by
  rw [withoutMember] at h
  split_ifs at h
  obtain rfl := Option.some.inj h
  exact ⟨rfl, fun hr => hr.without id⟩

theorem removeResourceInstance_eq (h : oi.Unique) (name : Bytes) (id : UInt16) :
    oi.removeResourceInstance name id =
      ((oi.resource (cStr name)).any fun r => (r.resourceInstance id).isSome,
        oi.alterResource (cStr name) (withoutMember id)) := by
  rw [removeResourceInstance]
  cases hfirst : first (·.name == cStr name) oi.resources with
  | none =>
    have hnone := first_entry_none hfirst
    rw [Option.isNone_iff_eq_none.mp (resource_isNone.mpr hnone),
      alterResource_self fun r hr he => absurd he (hnone r hr)]
    rfl
  | some found =>
    obtain ⟨k, r⟩ := found
    obtain ⟨hk, hname⟩ := first_entry hfirst
    have hmem := List.mem_of_getElem? hk
    have hr := h.members r hmem
    have hself : ∀ r' ∈ oi.resources, r'.name = cStr name → r' = r :=
      fun r' hr' he => h.names.eq_of_key hr' hmem (he.trans hname.symm)
    have hresource : oi.resource (cStr name) = some r := h.names.find_eq hmem hname
    rw [hresource, Option.any_some]
    dsimp only
    by_cases hid : (r.resourceInstance id).isSome = true
    · rw [if_pos hid, M2MResource.removeResourceInstance_eq hr, hid]
      dsimp only
      have hset := set_eq_alterResource (g := fun r => some (r.without id)) h hk rfl
      rw [hset, hname]
      by_cases hempty : (r.without id).instances = []
      · have hunique : (oi.alterResource (cStr name) fun r => some (r.without id)).Unique :=
          h.alterResource fun r r' hr' => by
            obtain rfl := Option.some.inj hr'
            exact ⟨rfl, fun hu => hu.without id⟩
        have hcount : ((r.without id).resourceInstanceCount == 0) = true :=
          beq_iff_eq.mpr ((M2MResource.without_count hr hid).mpr hempty)
        have hgone : (oi.alterResource (cStr name) fun r => some (r.without id)).alterResource
            (cStr name) (fun _ => none) = oi.alterResource (cStr name) (withoutMember id) := by
          rw [alterResource_alterResource fun r r' hr' => by
            rw [← Option.some.inj hr']
            rfl]
          refine alterResource_congr fun r' hr' he => ?_
          obtain rfl := hself r' hr' he
          simp [withoutMember, hid, hempty]
        rw [hcount, if_pos rfl, removeResource_eq hunique, hgone]
      · have hcount : ((r.without id).resourceInstanceCount == 0) = false :=
          beq_eq_false_iff_ne.mpr (mt (M2MResource.without_count hr hid).mp hempty)
        have hleft : (oi.alterResource (cStr name) fun r => some (r.without id)) =
            oi.alterResource (cStr name) (withoutMember id) := by
          refine alterResource_congr fun r' hr' he => ?_
          obtain rfl := hself r' hr' he
          simp [withoutMember, hempty]
        rw [hcount, if_neg Bool.false_ne_true, hleft]
    · have hnone : (r.resourceInstance id).isNone = true := by simpa using hid
      rw [if_neg hid, alterResource_self fun r' hr' he => ?_]
      · rw [Bool.eq_false_iff.mpr hid]
      · obtain rfl := hself r' hr' he
        rw [withoutMember, M2MResource.without_self hnone, Bool.eq_false_iff.mpr hid]
        rfl

end M2MObjectInstance

namespace M2MObject
variable {obj : M2MObject} {id : UInt16}

theorem objectInstance_isNone : (obj.objectInstance id).isNone = true ↔
    ∀ oi ∈ obj.instances, oi.instanceId ≠ id := by
  simp [objectInstance]

def alterInstance (obj : M2MObject) (id : UInt16)
    (g : M2MObjectInstance → Option M2MObjectInstance) : M2MObject :=
  { instances := alter (·.instanceId) id g obj.instances }

theorem unique_new : ({ instances := [] } : M2MObject).Unique :=
  ⟨unique_nil _, fun _ hoi => (nomatch hoi)⟩

theorem Unique.alterInstance (h : obj.Unique) {g : M2MObjectInstance → Option M2MObjectInstance}
    (hg : ∀ oi oi', g oi = some oi' →
      oi'.instanceId = oi.instanceId ∧ (oi.Unique → oi'.Unique)) :
    (obj.alterInstance id g).Unique := by
  refine ⟨h.ids.alter fun oi oi' hoi => (hg oi oi' hoi).1, fun oi hoi => ?_⟩
  obtain ⟨oi', hoi', -, heq⟩ := mem_alter (fun oi oi' hoi => (hg oi oi' hoi).1) hoi
  obtain hsome | rfl := heq
  · exact (hg oi' oi hsome).2 (h.instances oi' hoi')
  · exact h.instances oi hoi'

theorem Unique.set (h : obj.Unique) {j : Nat} {oi oi' : M2MObjectInstance}
    (hj : obj.instances[j]? = some oi) (hid : oi'.instanceId = oi.instanceId) (hoi : oi'.Unique) :
    ({ instances := obj.instances.set j oi' } : M2MObject).Unique := by
  refine ⟨h.ids.set hj hid, fun x hx => ?_⟩
  obtain hmem | rfl := List.mem_or_eq_of_mem_set hx
  · exact h.instances x hmem
  · exact hoi

theorem onInstance_eq (h : obj.Unique) (f : M2MObjectInstance → Bool × M2MObjectInstance) :
    obj.onInstance id f =
      ((obj.objectInstance id).any fun oi => (f oi).1,
        obj.alterInstance id fun oi => some (f oi).2) := by
  rw [onInstance, onEntry_eq h.ids]
  rfl

theorem Unique.onInstance (h : obj.Unique) {f : M2MObjectInstance → Bool × M2MObjectInstance}
    (hf : ∀ oi, (f oi).2.instanceId = oi.instanceId) (hu : ∀ oi, oi.Unique → (f oi).2.Unique) :
    (obj.onInstance id f).2.Unique := by
  rw [onInstance_eq h]
  refine h.alterInstance fun oi oi' hoi => ?_
  obtain rfl := Option.some.inj hoi
  exact ⟨hf oi, hu oi⟩

theorem Unique.createObjectInstance (h : obj.Unique) (id : UInt16) :
    (obj.createObjectInstance id).2.Unique := by
  rw [M2MObject.createObjectInstance]
  split_ifs with hnone
  · refine ⟨h.ids.append (objectInstance_isNone.mp hnone), fun oi hoi => ?_⟩
    obtain hmem | hmem := List.mem_append.mp hoi
    · exact h.instances oi hmem
    · rw [List.mem_singleton.mp hmem]
      exact ⟨unique_nil _, fun _ hr => (nomatch hr)⟩
  · exact h

theorem removeObjectInstance_eq (h : obj.Unique) (id : UInt16) :
    obj.removeObjectInstance id =
      ((obj.objectInstance id).isSome, obj.alterInstance id fun _ => none) := by
  rw [removeObjectInstance, alterInstance]
  rw [eraseP_eq_alter (g := fun _ => none) h.ids (fun oi => beq_iff_eq) fun _ _ _ => rfl]

/-- What leaves the instance as it is leaves the object as it is. -/
theorem onInstance_unchanged (h : obj.Unique) {f : M2MObjectInstance → Bool × M2MObjectInstance}
    (hf : ∀ oi, obj.objectInstance id = some oi → f oi = (false, oi)) :
    obj.onInstance id f = (false, obj) := by
  rw [onInstance_eq h, alterInstance, alter_eq_self fun oi hoi hid => ?_]
  · cases hfind : obj.objectInstance id with
    | none => rfl
    | some oi => rw [Option.any_some, hf oi hfind]
  · rw [hf oi (h.ids.find_eq hoi hid)]

end M2MObject
end Unique

end MbedClient
