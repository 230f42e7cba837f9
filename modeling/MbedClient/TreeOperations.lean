import MbedClient.Membership
import MbedClient.Tlv.Uniqueness

/-! Runs of the operations on one object. -/
namespace MbedClient

/-- What is called of an object, or of what is in it. Resources that are made from a parameter
structure have what that says. A decoder gets a buffer, which may be NULL. -/
inductive TreeOperation where
  | createObjectInstance (instanceId : UInt16)
  | createObjectInstanceOf (instanceId : UInt16)
  | removeObjectInstance (instanceId : UInt16)
  | createStaticResource (parent : UInt16) (name : Bytes) (type : ResourceType) (value : Bytes)
      (multipleInstance : Bool)
  | createStaticResourceOf (parent : UInt16) (name : Bytes) (params : M2MResourceBase)
      (multipleInstance : Bool)
  | createDynamicResource (parent : UInt16) (name : Bytes) (type : ResourceType)
      (multipleInstance : Bool)
  | createDynamicResourceOf (parent : UInt16) (name : Bytes) (params : M2MResourceBase)
      (multipleInstance : Bool)
  | createStaticResourceInstance (parent : UInt16) (name : Bytes) (type : ResourceType)
      (value : Bytes) (instanceId : UInt16)
  | createDynamicResourceInstance (parent : UInt16) (name : Bytes) (type : ResourceType)
      (instanceId : UInt16)
  | removeResource (parent : UInt16) (name : Bytes)
  | removeResourceInstance (parent : UInt16) (name : Bytes) (instanceId : UInt16)
  | removeResourceInstanceOf (parent : UInt16) (name : Bytes) (instanceId : UInt16)
  | deserialiseObjectInstances (tlv : Option (Nat → UInt8)) (size : Nat) (operation : Tlv.Operation)
  | deserializeResources (parent : UInt16) (tlv : Option (Nat → UInt8)) (size : Nat)
      (operation : Tlv.Operation)
  | deserializeResourceInstances (parent : UInt16) (name : Bytes) (tlv : Option (Nat → UInt8))
      (size : Nat) (operation : Tlv.Operation)

namespace TreeOperation

def env : Tlv.Env := ⟨fun _ => true, []⟩

/-- Whether something has been created, removed or decoded, and what the object is then. -/
def apply (obj : M2MObject) : TreeOperation → Bool × M2MObject
  | createObjectInstance id | createObjectInstanceOf id => obj.createObjectInstance id
  | removeObjectInstance id => obj.removeObjectInstance id
  | createStaticResource i name type value multiple => obj.onInstance i (·.createResource name
      fun name => ⟨⟨.static, getAllowed, type, value⟩, name, multiple, []⟩)
  | createDynamicResource i name type multiple => obj.onInstance i (·.createResource name
      fun name => ⟨⟨.dynamic, getPutAllowed, type, []⟩, name, multiple, []⟩)
  | createStaticResourceOf i name params multiple
  | createDynamicResourceOf i name params multiple =>
    obj.onInstance i (·.createResource (cStr name) fun name => ⟨params, name, multiple, []⟩)
  | createStaticResourceInstance i name type value id => obj.onInstance i
      (·.createResourceInstance name ⟨.static, getAllowed, type, value⟩ id)
  | createDynamicResourceInstance i name type id => obj.onInstance i
      (·.createResourceInstance name ⟨.dynamic, getAllowed, type, []⟩ id)
  | removeResource i name => obj.onInstance i (·.removeResource (cStr name))
  | removeResourceInstance i name id => obj.onInstance i (·.removeResourceInstance name id)
  | removeResourceInstanceOf i name id =>
    obj.onInstance i (·.onResource (cStr name) (·.removeResourceInstance id))
  | deserialiseObjectInstances tlv size operation =>
    let (error, obj, _) := Tlv.deserialiseObjectInstances tlv size operation (obj, env)
    (error = .none, obj)
  | deserializeResources i tlv size operation => obj.onInstance i fun oi =>
    let (error, oi, _) := Tlv.deserializeResources tlv size operation (oi, env)
    (error = .none, oi)
  | deserializeResourceInstances i name tlv size operation => obj.onInstance i
      (·.onResource (cStr name) fun r =>
        let (error, r, _) := Tlv.deserializeResourceInstances tlv size operation (r, env)
        (error = .none, r))

def run (l : List TreeOperation) : M2MObject :=
  Trace.fold (fun op obj => (op.apply obj).2) l { instances := [] }


/-- It creates what is there: an instance with its id, or a resource with its name. -/
def repeats (obj : M2MObject) : TreeOperation → Bool
  | createObjectInstance id | createObjectInstanceOf id => (obj.objectInstance id).isSome
  | createStaticResource i name _ _ _ | createStaticResourceOf i name _ _
  | createDynamicResource i name _ _ | createDynamicResourceOf i name _ _ =>
    (obj.objectInstance i).any fun oi => (oi.resource (cStr name)).isSome
  | createStaticResourceInstance i name _ _ id | createDynamicResourceInstance i name _ id =>
    (obj.objectInstance i).any fun oi => (oi.resource (cStr name)).any fun r =>
      (r.resourceInstance id).isSome
  | _ => false

/-- What a removal is to do: whether there is what it names, and the object without it. -/
def removal (obj : M2MObject) : TreeOperation → Option (Bool × M2MObject)
  | removeObjectInstance id =>
    some ((obj.objectInstance id).isSome, obj.alterInstance id fun _ => none)
  | removeResource i name =>
    some ((obj.objectInstance i).any fun oi => (oi.resource (cStr name)).isSome,
      obj.alterInstance i fun oi => some (oi.alterResource (cStr name) fun _ => none))
  | removeResourceInstance i name id =>
    some ((obj.objectInstance i).any fun oi => (oi.resource (cStr name)).any fun r =>
        (r.resourceInstance id).isSome,
      obj.alterInstance i fun oi =>
        some (oi.alterResource (cStr name) (M2MObjectInstance.withoutMember id)))
  | removeResourceInstanceOf i name id =>
    some ((obj.objectInstance i).any fun oi => (oi.resource (cStr name)).any fun r =>
        (r.resourceInstance id).isSome,
      obj.alterInstance i fun oi =>
        some (oi.alterResource (cStr name) fun r => some (r.without id)))
  | _ => none

section Steps
variable {obj : M2MObject}

theorem createResource_instanceId (oi : M2MObjectInstance) (name : Bytes)
    (make : Bytes → M2MResource) : (oi.createResource name make).2.instanceId = oi.instanceId := by
  rw [M2MObjectInstance.createResource]
  split_ifs <;> rfl

theorem createResourceInstance_instanceId (oi : M2MObjectInstance) (name : Bytes)
    (base : M2MResourceBase) (id : UInt16) :
    (oi.createResourceInstance name base id).2.instanceId = oi.instanceId := by
  rw [M2MObjectInstance.createResourceInstance, M2MObjectInstance.demandResource]
  split_ifs <;> rfl

theorem removeResourceInstance_instanceId (oi : M2MObjectInstance) (name : Bytes) (id : UInt16) :
    (oi.removeResourceInstance name id).2.instanceId = oi.instanceId := by
  rw [M2MObjectInstance.removeResourceInstance]
  cases Search.first (·.name == cStr name) oi.resources with
  | none => rfl
  | some found =>
    dsimp only
    by_cases hid : (found.2.resourceInstance id).isSome = true
    · rw [if_pos hid]
      change (ite _ _ _ : M2MObjectInstance).instanceId = _
      split_ifs <;> rfl
    · rw [if_neg hid]

theorem onInstance_createResource_unique (h : obj.Unique) (i : UInt16) (name : Bytes)
    {make : Bytes → M2MResource}
    (hmake : ∀ name, (make name).name = name ∧ (make name).instances = []) :
    (obj.onInstance i (·.createResource name make)).2.Unique :=
  h.onInstance (fun oi => createResource_instanceId oi name make)
    fun _ hoi => hoi.createResource name hmake

theorem onInstance_createResourceInstance_unique (h : obj.Unique) (i : UInt16) (name : Bytes)
    (base : M2MResourceBase) (id : UInt16) :
    (obj.onInstance i (·.createResourceInstance name base id)).2.Unique :=
  h.onInstance (fun oi => createResourceInstance_instanceId oi name base id)
    fun _ hoi => hoi.createResourceInstance name base id

theorem deserialiseObjectInstances_unique (h : obj.Unique) (tlv : Option (Nat → UInt8)) (size : Nat)
    (operation : Tlv.Operation) :
    (Tlv.deserialiseObjectInstances tlv size operation (obj, env)).2.1.Unique :=
  Tlv.deserialize_unique size operation tlv (.object obj) env h

/-- An object with one instance. -/
theorem unique_single {oi : M2MObjectInstance} :
    ({ instances := [oi] } : M2MObject).Unique ↔ oi.Unique :=
  ⟨fun h => h.instances oi List.mem_cons_self,
    fun h => ⟨List.nodup_singleton _, fun _ hoi => List.mem_singleton.mp hoi ▸ h⟩⟩

theorem unique_single_resource {r : M2MResource} {i : UInt16} :
    ({ instances := [⟨i, [r]⟩] } : M2MObject).Unique ↔ r.Unique :=
  unique_single.trans ⟨fun h => h.members r List.mem_cons_self,
    fun h => ⟨List.nodup_singleton _, fun _ hr => List.mem_singleton.mp hr ▸ h⟩⟩

theorem deserializeResources_unique {oi : M2MObjectInstance} (h : oi.Unique)
    (tlv : Option (Nat → UInt8)) (size : Nat) (operation : Tlv.Operation) :
    (Tlv.deserializeResources tlv size operation (oi, env)).2.1.Unique :=
  unique_single.mp
    (Tlv.deserialize_unique size operation tlv (.objectInstance oi) env (unique_single.mpr h))

theorem deserializeResourceInstances_unique {r : M2MResource} (h : r.Unique)
    (tlv : Option (Nat → UInt8)) (size : Nat) (operation : Tlv.Operation) :
    (Tlv.deserializeResourceInstances tlv size operation (r, env)).2.1.Unique :=
  unique_single_resource.mp
    (Tlv.deserialize_unique size operation tlv (.resource r) env (unique_single_resource.mpr h))

theorem deserializeResources_instanceId (oi : M2MObjectInstance) (tlv : Option (Nat → UInt8))
    (size : Nat) (operation : Tlv.Operation) :
    (Tlv.deserializeResources tlv size operation (oi, env)).2.1.instanceId = oi.instanceId := by
  cases tlv with
  | none => rfl
  | some tlv =>
    have hgrows := Tlv.deserialize_grows tlv size operation (.objectInstance oi) env
    cases hgrows with
    | cons hoi _ => exact hoi.instanceId

theorem deserializeResourceInstances_name (r : M2MResource) (tlv : Option (Nat → UInt8))
    (size : Nat) (operation : Tlv.Operation) :
    (Tlv.deserializeResourceInstances tlv size operation (r, env)).2.1.name = r.name := by
  cases tlv with
  | none => rfl
  | some tlv =>
    have hgrows := Tlv.deserialize_grows tlv size operation (.resource r) env
    cases hgrows with
    | cons hoi _ =>
      cases hoi.resources with
      | cons hr _ => exact hr.name

/-- What one operation keeps. -/
theorem apply_unique (h : obj.Unique) (op : TreeOperation) : (op.apply obj).2.Unique := by
  cases op with
  | createObjectInstance id => exact h.createObjectInstance id
  | createObjectInstanceOf id => exact h.createObjectInstance id
  | removeObjectInstance id =>
    rw [apply, M2MObject.removeObjectInstance_eq h]
    exact h.alterInstance fun _ _ hnone => (nomatch hnone)
  | createStaticResource i name type value multiple =>
    exact onInstance_createResource_unique h i name fun _ => ⟨rfl, rfl⟩
  | createStaticResourceOf i name params multiple =>
    exact onInstance_createResource_unique h i (cStr name) fun _ => ⟨rfl, rfl⟩
  | createDynamicResource i name type multiple =>
    exact onInstance_createResource_unique h i name fun _ => ⟨rfl, rfl⟩
  | createDynamicResourceOf i name params multiple =>
    exact onInstance_createResource_unique h i (cStr name) fun _ => ⟨rfl, rfl⟩
  | createStaticResourceInstance i name type value id =>
    exact onInstance_createResourceInstance_unique h i name _ id
  | createDynamicResourceInstance i name type id =>
    exact onInstance_createResourceInstance_unique h i name _ id
  | removeResource i name =>
    refine h.onInstance (fun _ => rfl) fun oi hoi => ?_
    rw [M2MObjectInstance.removeResource_eq hoi]
    exact hoi.alterResource fun _ _ hnone => (nomatch hnone)
  | removeResourceInstance i name id =>
    refine h.onInstance (fun oi => removeResourceInstance_instanceId oi name id) fun oi hoi => ?_
    rw [M2MObjectInstance.removeResourceInstance_eq hoi]
    exact hoi.alterResource M2MObjectInstance.withoutMember_name
  | removeResourceInstanceOf i name id =>
    refine h.onInstance (fun _ => rfl) fun oi hoi => hoi.onResource (fun _ => rfl) fun r hr => ?_
    rw [M2MResource.removeResourceInstance_eq hr]
    exact hr.without id
  | deserialiseObjectInstances tlv size operation =>
    exact deserialiseObjectInstances_unique h tlv size operation
  | deserializeResources i tlv size operation =>
    exact h.onInstance (fun oi => deserializeResources_instanceId oi tlv size operation)
      fun _ hoi => deserializeResources_unique hoi tlv size operation
  | deserializeResourceInstances i name tlv size operation =>
    refine h.onInstance (fun _ => rfl) fun oi hoi => hoi.onResource
      (fun r => deserializeResourceInstances_name r tlv size operation)
      fun _ hr => deserializeResourceInstances_unique hr tlv size operation

section Repeats

theorem onInstance_createResource_again (h : obj.Unique) {i : UInt16} {name : Bytes}
    (make : Bytes → M2MResource)
    (hname : (obj.objectInstance i).any (fun oi => (oi.resource (cStr name)).isSome) = true) :
    obj.onInstance i (·.createResource name make) = (false, obj) := by
  refine M2MObject.onInstance_unchanged h fun oi hoi => ?_
  rw [hoi, Option.any_some] at hname
  rw [M2MObjectInstance.createResource, Option.isNone_eq_false_iff.mpr hname,
    if_neg Bool.false_ne_true, ite_self]

theorem onResource_unchanged {oi : M2MObjectInstance} (h : oi.Unique) {name : Bytes}
    {f : M2MResource → Bool × M2MResource}
    (hf : ∀ r, oi.resource name = some r → f r = (false, r)) :
    oi.onResource name f = (false, oi) := by
  rw [M2MObjectInstance.onResource_eq h, M2MObjectInstance.alterResource_self fun r hr hname => ?_]
  · cases hfind : oi.resource name with
    | none => rfl
    | some r => rw [Option.any_some, hf r hfind]
  · rw [hf r (h.names.find_eq hr hname)]

theorem onInstance_createResourceInstance_again (h : obj.Unique) {i : UInt16} {name : Bytes}
    {id : UInt16} (base : M2MResourceBase)
    (hid : (obj.objectInstance i).any (fun oi => (oi.resource (cStr name)).any fun r =>
      (r.resourceInstance id).isSome) = true) :
    obj.onInstance i (·.createResourceInstance name base id) = (false, obj) := by
  refine M2MObject.onInstance_unchanged h fun oi hoi => ?_
  have hunique : oi.Unique := h.instances oi (Keyed.of_find hoi).1
  rw [hoi, Option.any_some, Option.any_eq_true] at hid
  obtain ⟨r, hr, hmember⟩ := hid
  have hdemand (make : Bytes → M2MResource) : oi.demandResource (cStr name) make = oi := by
    rw [M2MObjectInstance.demandResource, hr]
    rfl
  rw [M2MObjectInstance.createResourceInstance, hdemand]
  split_ifs
  · refine onResource_unchanged hunique fun r' hr' => ?_
    obtain rfl := Option.some.inj (hr'.symm.trans hr)
    rw [Option.isNone_eq_false_iff.mpr hmember, Bool.and_false, if_neg Bool.false_ne_true]
  · rfl

/-- What is there is not created again. -/
theorem apply_repeats (h : obj.Unique) {op : TreeOperation} (hop : op.repeats obj = true) :
    op.apply obj = (false, obj) := by
  cases op with
  | createObjectInstance id | createObjectInstanceOf id =>
    rw [apply, M2MObject.createObjectInstance, Option.isNone_eq_false_iff.mpr hop,
      if_neg Bool.false_ne_true]
  | createStaticResource i name type value multiple =>
    exact onInstance_createResource_again h _ hop
  | createStaticResourceOf i name params multiple =>
    exact onInstance_createResource_again h _ ((cStr_cStr name).symm ▸ hop)
  | createDynamicResource i name type multiple =>
    exact onInstance_createResource_again h _ hop
  | createDynamicResourceOf i name params multiple =>
    exact onInstance_createResource_again h _ ((cStr_cStr name).symm ▸ hop)
  | createStaticResourceInstance i name type value id =>
    exact onInstance_createResourceInstance_again h _ hop
  | createDynamicResourceInstance i name type id =>
    exact onInstance_createResourceInstance_again h _ hop
  | _ => exact absurd hop Bool.false_ne_true

end Repeats

section Removal

/-- In an object without repetitions, what is done to the instance with an id. -/
theorem onInstance_congr (h : obj.Unique) {i : UInt16}
    {f : M2MObjectInstance → Bool × M2MObjectInstance} {b : M2MObjectInstance → Bool}
    {g : M2MObjectInstance → M2MObjectInstance} (hf : ∀ oi, oi.Unique → f oi = (b oi, g oi)) :
    obj.onInstance i f =
      ((obj.objectInstance i).any b, obj.alterInstance i fun oi => some (g oi)) := by
  rw [M2MObject.onInstance_eq h, M2MObject.alterInstance, M2MObject.alterInstance,
    Keyed.alter_congr fun oi hoi _ => congrArg (fun t => some t.2) (hf oi (h.instances oi hoi))]
  cases hfind : obj.objectInstance i with
  | none => rfl
  | some oi =>
    rw [Option.any_some, Option.any_some, hf oi (h.instances oi (Keyed.of_find hfind).1)]

/-- A removal takes away what it names. -/
theorem apply_removal (h : obj.Unique) {op : TreeOperation} {t : Bool × M2MObject}
    (hop : op.removal obj = some t) : op.apply obj = t := by
  cases op with
  | removeObjectInstance id =>
    rw [← Option.some.inj hop]
    exact M2MObject.removeObjectInstance_eq h id
  | removeResource i name =>
    rw [← Option.some.inj hop]
    exact onInstance_congr h fun oi hoi => M2MObjectInstance.removeResource_eq hoi (cStr name)
  | removeResourceInstance i name id =>
    rw [← Option.some.inj hop]
    exact onInstance_congr h fun oi hoi => M2MObjectInstance.removeResourceInstance_eq hoi name id
  | removeResourceInstanceOf i name id =>
    rw [← Option.some.inj hop]
    refine onInstance_congr h fun oi hoi => ?_
    rw [M2MObjectInstance.onResource_eq hoi, M2MObjectInstance.alterResource_congr
      fun r hr _ => congrArg (fun t => some t.2)
        (M2MResource.removeResourceInstance_eq (hoi.members r hr) id)]
    rfl
  | _ => exact absurd hop (by simp [removal])

end Removal

theorem run_unique (l : List TreeOperation) : (run l).Unique :=
  Trace.fold_invariant (fun op _ _ hobj => apply_unique hobj op) M2MObject.unique_new

end Steps

/-- After any run, names and ids are distinct, and the next operation does not create what is there
and removes nothing but what it names. -/
theorem run_spec (l : List TreeOperation) (op : TreeOperation) :
    let obj := run l
    obj.Unique ∧ (op.repeats obj = true → op.apply obj = (false, obj)) ∧
      ∀ t, op.removal obj = some t → op.apply obj = t :=
  ⟨run_unique l, apply_repeats (run_unique l), fun _ hop => apply_removal (run_unique l) hop⟩

end TreeOperation
end MbedClient
