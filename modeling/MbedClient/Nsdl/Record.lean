import MbedClient.Lookup
import MbedClient.Nsdl.ObjectCreate
import MbedClient.Tlv.Names

/-! A resource by the names on its path: what the object list holds for it, what leaves that alone,
and what its path finds. -/
namespace MbedClient.Nsdl
open Observe (Entity)
open Identity (ValidName)

/-- The name of an object, the id of an instance, the name of a resource. -/
structure Place where
  object : Bytes
  id : UInt16
  resource : Bytes

def Place.identity (n : Place) : Identity := .resource n.object n.id n.resource

/-- A resource without the instances it may have. -/
structure Record where
  base : M2MResourceBase
  multipleInstance : Bool

section Record

def M2MObjectInstance.record? (oi : M2MObjectInstance) (name : Bytes) : Option Record :=
  (oi.resources.find? (·.name == name)).bind fun r =>
    some ⟨r.toM2MResourceBase, r.multipleInstance⟩

def M2MObject.record? (obj : M2MObject) (id : UInt16) (name : Bytes) : Option Record :=
  (obj.instances.find? (·.instanceId == id)).bind (M2MObjectInstance.record? · name)

def ObjectNode.held? (o : ObjectNode) (n : Place) : Option (Record × Params) :=
  (M2MObject.record? o.toM2MObject n.id n.resource).map (·, o.params n.identity)

/-- The resource that the lists hold under these names, with its parameters. -/
def held? (objects : List ObjectNode) (n : Place) : Option (Record × Params) :=
  (objects.find? (·.name == n.object)).bind (·.held? n)

/-- All names are ones that the constructors take. -/
structure ObjectNode.Named (o : ObjectNode) : Prop where
  name : ValidName o.name
  resources : o.toM2MObject.Named

def Named (objects : List ObjectNode) : Prop := ∀ o ∈ objects, o.Named

variable {objects : List ObjectNode} {n : Place} {o o' : ObjectNode} {oi : M2MObjectInstance}
  {r : M2MResource} {x : Record × Params} {y : Record}

theorem mem_identities_of_record (hname : o.name = n.object)
    (h : M2MObject.record? o.toM2MObject n.id n.resource = some y) :
    n.identity ∈ identities [o.toNamedObject] := by
  obtain ⟨oi, hoi, hr⟩ := Option.bind_eq_some_iff.mp h
  obtain ⟨r, hr, -⟩ := Option.bind_eq_some_iff.mp hr
  have hid : oi.instanceId = n.id := by simpa using List.find?_some hoi
  have hresource : r.name = n.resource := by simpa using List.find?_some hr
  have hoi := List.mem_of_find?_eq_some hoi
  have hr := List.mem_of_find?_eq_some hr
  simp only [identities, List.flatMap_cons, List.flatMap_nil, List.append_nil, List.mem_cons,
    List.mem_flatMap]
  exact .inr ⟨oi, hoi, .inr ⟨r, hr, .inl (by rw [Place.identity, hname, hid, hresource])⟩⟩

/-- The object may have changed, but not for this resource. -/
structure Spares (n : Place) (o o' : ObjectNode) : Prop where
  name : o'.name = o.name
  held : o.name = n.object → ∀ x, o.held? n = some x → o'.held? n = some x
  named : o.Named → o'.Named

theorem Spares.refl (n : Place) (o : ObjectNode) : Spares n o o := ⟨rfl, fun _ _ h => h, id⟩

theorem Spares.trans {o'' : ObjectNode} (h : Spares n o o') (k : Spares n o' o'') :
    Spares n o o'' :=
  ⟨k.name.trans h.name, fun hname x hx => k.held (h.name.trans hname) x (h.held hname x hx),
    fun hn => k.named (h.named hn)⟩

theorem spares_setParams {m : Identity} (hm : m ≠ n.identity) (p : Params) :
    Spares n o (o.setParams m p) where
  name := rfl
  held _ x hx := by
    have hparams : (o.setParams m p).params n.identity = o.params n.identity := by
      simp [ObjectNode.setParams, hm.symm]
    rw [ObjectNode.held?, hparams]
    exact hx
  named h := ⟨h.name, h.resources⟩

theorem spares_grow {obj : M2MObject}
    (hobj : o.name = n.object → ∀ y, M2MObject.record? o.toM2MObject n.id n.resource = some y →
      M2MObject.record? obj n.id n.resource = some y)
    (hnamed : o.toM2MObject.Named → obj.Named) : Spares n o (o.grow obj) where
  name := rfl
  held hname x hx := by
    obtain ⟨y, hy, rfl⟩ := Option.map_eq_some_iff.mp hx
    refine Option.map_eq_some_iff.mpr ⟨y, hobj hname y hy, ?_⟩
    rw [grow_params (mem_identities_of_record hname hy)]
  named h := ⟨h.name, hnamed h.resources⟩

/-- What is done to the instances in front of a pointer. -/
theorem spares_instances {instances : List M2MObjectInstance}
    (hheld : o.name = n.object → ∀ y, M2MObject.record? o.toM2MObject n.id n.resource = some y →
      M2MObject.record? ⟨instances⟩ n.id n.resource = some y)
    (hnamed : o.toM2MObject.Named → M2MObject.Named ⟨instances⟩) :
    Spares n o { o with instances } where
  name := rfl
  held hname x hx := by
    obtain ⟨y, hy, rfl⟩ := Option.map_eq_some_iff.mp hx
    exact Option.map_eq_some_iff.mpr ⟨y, hheld hname y hy, rfl⟩
  named h := ⟨h.name, hnamed h.resources⟩

theorem held_of_spares {i : Nat} (ho : objects[i]? = some o) (h : Spares n o o')
    (hx : held? objects n = some x) : held? (objects.set i o') n = some x := by
  refine Search.held_set ho (by rw [h.name]) (fun hname hheld => ?_) hx
  exact h.held (beq_iff_eq.mp hname) x hheld

theorem named_of_spares {i : Nat} (ho : objects[i]? = some o) (h : Spares n o o')
    (hn : Named objects) : Named (objects.set i o') := by
  intro o'' ho''
  rcases List.mem_or_eq_of_mem_set ho'' with hmem | rfl
  · exact hn o'' hmem
  · exact h.named (hn o (List.mem_of_getElem? ho))

/-- An instance that is changed: another one, or this one but for its other resources. -/
theorem record_set {j : Nat} {oi' : M2MObjectInstance} (hoi : o.instances[j]? = some oi)
    (hid : oi'.instanceId = oi.instanceId)
    (hrecord : oi.instanceId = n.id → ∀ y, M2MObjectInstance.record? oi n.resource = some y →
      M2MObjectInstance.record? oi' n.resource = some y)
    (hy : M2MObject.record? o.toM2MObject n.id n.resource = some y) :
    M2MObject.record? ⟨o.instances.set j oi'⟩ n.id n.resource = some y := by
  refine Search.held_set hoi (by rw [hid]) (fun hkey hheld => ?_) hy
  exact hrecord (beq_iff_eq.mp hkey) y hheld

theorem record_setResource {k : Nat} {r' : M2MResource} {name : Bytes}
    (hr : oi.resources[k]? = some r) (hname : r'.name = r.name)
    (hrecord : r.name = name → r'.toM2MResourceBase = r.toM2MResourceBase ∧
      r'.multipleInstance = r.multipleInstance)
    (hy : M2MObjectInstance.record? oi name = some y) :
    M2MObjectInstance.record? { oi with resources := oi.resources.set k r' } name = some y := by
  refine Search.held_set hr (by rw [hname]) (fun hkey hheld => ?_) hy
  obtain ⟨hbase, hmultiple⟩ := hrecord (beq_iff_eq.mp hkey)
  rw [hbase, hmultiple]
  exact hheld

end Record

/-! What the path of a resource finds. -/
section Path
variable {objects : List ObjectNode} {n : Place} {path : Bytes}

theorem uriPath_eq {m : Identity} (hm : m.ValidNames) : uriPath m = joinPath m.storedParts := by
  rw [uriPath, createPath_eq hm, stringdup_granted rfl, Option.getD_some]

/-- Only a resource has the path of a resource. -/
theorem uriPath_identity {m : Identity} (hm : m.ValidNames) (hn : n.identity.ValidNames)
    (h : uriPath m = uriPath n.identity) : m = n.identity := by
  rw [uriPath_eq hm, uriPath_eq hn] at h
  have hparts := joinPath_inj (slash_notMem_storedParts hm) (slash_notMem_storedParts hn)
    (storedParts_ne_nil m) (storedParts_ne_nil _) h
  rcases storedParts_inj hparts with heq | ⟨o, i, j, -, heq, -⟩ | ⟨o, i, r, a, b, -, heq, -⟩
  · exact heq
  · cases heq
  · cases heq

/-- The entity that a pointer means, with the path that it was found by. -/
def Entity.Names (objects : List ObjectNode) (path : Bytes) : Entity → Prop
  | .object i => ∃ o, objects[i]? = some o ∧ uriPath (.object o.name) = path
  | .objectInstance i j => ∃ o oi, objects[i]? = some o ∧ o.instances[j]? = some oi ∧
    uriPath (.objectInstance o.name oi.instanceId) = path
  | .resource i j k => ∃ o oi r, objects[i]? = some o ∧ o.instances[j]? = some oi ∧
    oi.resources[k]? = some r ∧ uriPath (.resource o.name oi.instanceId r.name) = path
  | .resourceInstance i j k m => ∃ o oi r b, objects[i]? = some o ∧ o.instances[j]? = some oi ∧
    oi.resources[k]? = some r ∧ r.instances[m]? = some b ∧ r.multipleInstance = true ∧
    uriPath (.resourceInstance o.name oi.instanceId r.name b.instanceId) = path

theorem findInResource_names {i j k : Nat} {o : ObjectNode} {oi : M2MObjectInstance}
    {r : M2MResource} {e : Entity} (ho : objects[i]? = some o) (hoi : o.instances[j]? = some oi)
    (hr : oi.resources[k]? = some r) (h : findInResource path i j k o oi r = some e) :
    Entity.Names objects path e := by
  unfold findInResource at h
  split_ifs at h with hmultiple
  obtain ⟨⟨b, m⟩, hmem, h⟩ := List.exists_of_findSome?_eq_some h
  simp only at h
  split_ifs at h with hpath
  obtain rfl := Option.some.inj h
  exact ⟨o, oi, r, b, ho, hoi, hr, List.mem_zipIdx_iff_getElem?.mp hmem, hmultiple, hpath⟩

theorem findInObjectInstance_names {i j : Nat} {o : ObjectNode} {oi : M2MObjectInstance}
    {e : Entity} (ho : objects[i]? = some o) (hoi : o.instances[j]? = some oi)
    (h : findInObjectInstance path i j o oi = some e) : Entity.Names objects path e := by
  obtain ⟨⟨r, k⟩, hmem, h⟩ := List.exists_of_findSome?_eq_some h
  have hr := List.mem_zipIdx_iff_getElem?.mp hmem
  simp only at h
  split_ifs at h with hpath
  · obtain rfl := Option.some.inj h
    exact ⟨o, oi, r, ho, hoi, hr, hpath⟩
  · exact findInResource_names ho hoi hr h

theorem findInObject_names {i : Nat} {o : ObjectNode} {e : Entity} (ho : objects[i]? = some o)
    (h : findInObject path i o = some e) : Entity.Names objects path e := by
  obtain ⟨⟨oi, j⟩, hmem, h⟩ := List.exists_of_findSome?_eq_some h
  have hoi := List.mem_zipIdx_iff_getElem?.mp hmem
  simp only at h
  split_ifs at h with hpath
  · obtain rfl := Option.some.inj h
    exact ⟨o, oi, ho, hoi, hpath⟩
  · exact findInObjectInstance_names ho hoi h

theorem findResource_names {e : Entity} (h : findResource path objects = some e) :
    Entity.Names objects path e := by
  obtain ⟨⟨o, i⟩, hmem, h⟩ := List.exists_of_findSome?_eq_some h
  have ho := List.mem_zipIdx_iff_getElem?.mp hmem
  simp only at h
  split_ifs at h with hpath
  · obtain rfl := Option.some.inj h
    exact ⟨o, ho, hpath⟩
  · exact findInObject_names ho h

variable {x : Record × Params}

structure Stands (objects : List ObjectNode) (n : Place) (i j k : Nat) (o : ObjectNode)
    (oi : M2MObjectInstance) (r : M2MResource) : Prop where
  object : Search.first (·.name == n.object) objects = some (i, o)
  objectInstance : Search.first (·.instanceId == n.id) o.instances = some (j, oi)
  resource : Search.first (·.name == n.resource) oi.resources = some (k, r)

theorem exists_stands (hx : held? objects n = some x) : ∃ i j k o oi r,
    Stands objects n i j k o oi r ∧
      x = (⟨r.toM2MResourceBase, r.multipleInstance⟩, o.params n.identity) := by
  obtain ⟨o, ho, hx⟩ := Option.bind_eq_some_iff.mp hx
  obtain ⟨y, hy, rfl⟩ := Option.map_eq_some_iff.mp hx
  obtain ⟨oi, hoi, hy⟩ := Option.bind_eq_some_iff.mp hy
  obtain ⟨r, hr, hy⟩ := Option.bind_eq_some_iff.mp hy
  obtain rfl := Option.some.inj hy
  obtain ⟨i, hi⟩ := Search.exists_first ho
  obtain ⟨j, hj⟩ := Search.exists_first hoi
  obtain ⟨k, hk⟩ := Search.exists_first hr
  exact ⟨i, j, k, o, oi, r, ⟨hi, hj, hk⟩, rfl⟩

namespace Stands
variable {i j k : Nat} {o : ObjectNode} {oi : M2MObjectInstance} {r : M2MResource}

theorem names (h : Stands objects n i j k o oi r) :
    o.name = n.object ∧ oi.instanceId = n.id ∧ r.name = n.resource := by
  have ho := Search.first_passes h.object
  have hoi := Search.first_passes h.objectInstance
  have hr := Search.first_passes h.resource
  exact ⟨beq_iff_eq.mp ho, beq_iff_eq.mp hoi, beq_iff_eq.mp hr⟩

theorem entries (h : Stands objects n i j k o oi r) :
    objects[i]? = some o ∧ o.instances[j]? = some oi ∧ oi.resources[k]? = some r :=
  ⟨(Search.first_eq_some.mp h.object).2, (Search.first_eq_some.mp h.objectInstance).2,
    (Search.first_eq_some.mp h.resource).2⟩

theorem identity (h : Stands objects n i j k o oi r) :
    Identity.resource o.name oi.instanceId r.name = n.identity := by
  obtain ⟨hname, hid, hresource⟩ := h.names
  rw [hname, hid, hresource, Place.identity]

theorem validNames (h : Stands objects n i j k o oi r) (hn : Named objects) :
    n.identity.ValidNames := by
  obtain ⟨ho, hoi, hr⟩ := h.entries
  have hnamed := hn o (List.mem_of_getElem? ho)
  rw [← h.identity]
  exact ⟨hnamed.name, hnamed.resources oi (List.mem_of_getElem? hoi) r (List.mem_of_getElem? hr)⟩

end Stands

/-! Where the path is not found. -/
section Missing
variable (hn : n.identity.ValidNames) {o : ObjectNode} (ho : o.Named) (i j k : Nat)
  {oi : M2MObjectInstance} {r : M2MResource}
include hn

theorem uriPath_ne {m : Identity} (hm : m.ValidNames) (hne : m ≠ n.identity) :
    uriPath m ≠ uriPath n.identity := fun hpath => hne (uriPath_identity hm hn hpath)

include ho

theorem findInResource_none (hr : ValidName r.name) :
    findInResource (uriPath n.identity) i j k o oi r = none := by
  unfold findInResource
  split_ifs
  · refine List.findSome?_eq_none_iff.mpr fun b _ => ?_
    have hvalid :
        (Identity.resourceInstance o.name oi.instanceId r.name b.1.instanceId).ValidNames :=
      ⟨ho.name, hr⟩
    exact if_neg (uriPath_ne hn hvalid (by simp [Place.identity]))
  · rfl

theorem findInObjectInstance_none (hoi : oi.Named)
    (hne : o.name = n.object → oi.instanceId ≠ n.id) :
    findInObjectInstance (uriPath n.identity) i j o oi = none := by
  refine List.findSome?_eq_none_iff.mpr fun r hr => ?_
  have hname := hoi r.1 (List.mem_of_getElem? (List.mem_zipIdx_iff_getElem?.mp hr))
  have hvalid : (Identity.resource o.name oi.instanceId r.1.name).ValidNames := ⟨ho.name, hname⟩
  have hpath := uriPath_ne hn hvalid fun heq => by
    simp only [Place.identity, Identity.resource.injEq] at heq
    exact hne heq.1 heq.2.1
  simp only [if_neg hpath, findInResource_none hn ho i j _ hname]

theorem findInObject_none (hne : o.name ≠ n.object) :
    findInObject (uriPath n.identity) i o = none := by
  refine List.findSome?_eq_none_iff.mpr fun oi hoi => ?_
  have hnamed := ho.resources oi.1 (List.mem_of_getElem? (List.mem_zipIdx_iff_getElem?.mp hoi))
  have hvalid : (Identity.objectInstance o.name oi.1.instanceId).ValidNames := ho.name
  have hpath := uriPath_ne hn hvalid (by simp [Place.identity])
  simp only [if_neg hpath, findInObjectInstance_none hn ho i _ hnamed fun h => absurd h hne]

end Missing

/-- Everything in front of the resource has another path. -/
theorem Stands.found {i j k : Nat} {o : ObjectNode} {oi : M2MObjectInstance} {r : M2MResource}
    (h : Stands objects n i j k o oi r) (hn : Named objects) :
    findResource (uriPath n.identity) objects = some (.resource i j k) := by
  have hvalid := h.validNames hn
  obtain ⟨ho, hoi, hr⟩ := h.entries
  have hnamed := hn o (List.mem_of_getElem? ho)
  have hresources := hnamed.resources oi (List.mem_of_getElem? hoi)
  have hinside : findInObjectInstance (uriPath n.identity) i j o oi = some (.resource i j k) := by
    refine Search.findSome?_first h.resource (fun r' hr' hfails k' => ?_)
      (if_pos (by rw [h.identity]))
    have hname : (Identity.resource o.name oi.instanceId r'.name).ValidNames :=
      ⟨hnamed.name, hresources r' hr'⟩
    have hpath := uriPath_ne hvalid hname fun heq => by
      simp only [Place.identity, Identity.resource.injEq] at heq
      exact beq_eq_false_iff_ne.mp hfails heq.2.2
    simp only [if_neg hpath, findInResource_none hvalid hnamed i j k' (hresources r' hr')]
  have hobject : findInObject (uriPath n.identity) i o = some (.resource i j k) := by
    have hown := uriPath_ne hvalid (m := .objectInstance o.name oi.instanceId) hnamed.name
      (by simp [Place.identity])
    refine Search.findSome?_first h.objectInstance (fun oi' hoi' hfails j' => ?_) ?_
    · have hpath := uriPath_ne hvalid (m := .objectInstance o.name oi'.instanceId) hnamed.name
        (by simp [Place.identity])
      simp only [if_neg hpath,
        findInObjectInstance_none hvalid hnamed i j' (hnamed.resources oi' hoi')
        fun _ => beq_eq_false_iff_ne.mp hfails]
    · simp only [if_neg hown, hinside]
  have hown := uriPath_ne hvalid (m := .object o.name) hnamed.name (by simp [Place.identity])
  refine Search.findSome?_first h.object (fun o' ho' hfails i' => ?_) ?_
  · have hpath :=
      uriPath_ne hvalid (m := .object o'.name) (hn o' ho').name (by simp [Place.identity])
    simp only [if_neg hpath,
      findInObject_none hvalid (hn o' ho') i' (beq_eq_false_iff_ne.mp hfails)]
  · simp only [if_neg hown, hobject]

/-- What is put in the place of the resource is what is held for it. -/
theorem Stands.held_write {i j k : Nat} {o : ObjectNode} {oi : M2MObjectInstance}
    {r r' : M2MResource} (h : Stands objects n i j k o oi r) (hname : r'.name = r.name)
    (p : Params) :
    let oi' := { oi with resources := oi.resources.set k r' }
    held? (objects.set i ((o.grow ⟨o.instances.set j oi'⟩).setParams n.identity p)) n =
      some (⟨r'.toM2MResourceBase, r'.multipleInstance⟩, p) := by
  intro oi'
  obtain ⟨ho, hoi, hr⟩ := h.names
  have hresource : oi'.resources.find? (·.name == n.resource) = some r' :=
    Search.find?_set_first h.resource (beq_iff_eq.mpr (hname.trans hr))
  have hinstance : (o.instances.set j oi').find? (·.instanceId == n.id) = some oi' :=
    Search.find?_set_first h.objectInstance (beq_iff_eq.mpr hoi)
  have hobject :=
    Search.find?_set_first (y := (o.grow ⟨o.instances.set j oi'⟩).setParams n.identity p)
    h.object (beq_iff_eq.mpr ho)
  have hrecord : M2MObject.record? ⟨o.instances.set j oi'⟩ n.id n.resource =
      some ⟨r'.toM2MResourceBase, r'.multipleInstance⟩ := by
    rw [M2MObject.record?, hinstance, Option.bind_some, M2MObjectInstance.record?, hresource,
      Option.bind_some]
  have hparams : ((o.grow ⟨o.instances.set j oi'⟩).setParams n.identity p).params n.identity = p :=
    Function.update_self ..
  rw [held?, hobject, Option.bind_some, ObjectNode.held?, hparams]
  exact congrArg (Option.map (·, p)) hrecord

end Path
end MbedClient.Nsdl
