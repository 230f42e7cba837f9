import MbedClient.ObjectTree
import MbedClient.Grown

/-! What a decoder may do to a tree: it keeps every node with its identity and access rights,
writes values only if `writes` is set, and adds PUT-allowed nodes only if `creates` is. -/
namespace MbedClient
variable {writes creates : Bool}

def M2MResourceBase.Keeps (writes : Bool) (b b' : M2MResourceBase) : Prop :=
  b' = { b with value := if writes then b'.value else b.value }

structure M2MResourceInstance.Keeps (writes : Bool) (i i' : M2MResourceInstance) : Prop where
  base : i.toM2MResourceBase.Keeps writes i'.toM2MResourceBase
  instanceId : i'.instanceId = i.instanceId

def M2MResourceInstance.Fresh (creates : Bool) (i : M2MResourceInstance) : Prop :=
  creates = true ∧ i.putAllowed = true

structure M2MResource.Grows (writes creates : Bool) (r r' : M2MResource) : Prop where
  base : r.toM2MResourceBase.Keeps writes r'.toM2MResourceBase
  name : r'.name = r.name
  multi : r'.multipleInstance = r.multipleInstance
  instances : Grown (M2MResourceInstance.Keeps writes) (M2MResourceInstance.Fresh creates)
    r.instances r'.instances

def M2MResource.Fresh (creates : Bool) (r : M2MResource) : Prop :=
  creates = true ∧ r.putAllowed = true ∧ r.multipleInstance = false

structure M2MObjectInstance.Grows (writes creates : Bool) (oi oi' : M2MObjectInstance) :
    Prop where
  instanceId : oi'.instanceId = oi.instanceId
  resources : Grown (M2MResource.Grows writes creates) (M2MResource.Fresh creates)
    oi.resources oi'.resources

def M2MObject.Grows (writes creates : Bool) (obj obj' : M2MObject) : Prop :=
  Grown (M2MObjectInstance.Grows writes creates) (fun _ => False) obj.instances obj'.instances

namespace M2MResourceBase
variable {b b' b'' : M2MResourceBase}

theorem Keeps.refl (b : M2MResourceBase) : b.Keeps writes b := by
  cases writes <;> rfl

theorem Keeps.trans (h : b.Keeps writes b') (k : b'.Keeps writes b'') : b.Keeps writes b'' := by
  unfold Keeps at *
  rw [k, h]
  cases writes <;> rfl

theorem keeps_value (v : Bytes) : b.Keeps true { b with value := v } := rfl

theorem Keeps.eq (h : b.Keeps false b') : b' = b := h

theorem Keeps.putAllowed (h : b.Keeps writes b') : b'.putAllowed = b.putAllowed := by
  rw [h]
  rfl

end M2MResourceBase

namespace M2MResourceInstance
variable {i i' i'' : M2MResourceInstance}

theorem Keeps.refl (i : M2MResourceInstance) : i.Keeps writes i := ⟨.refl _, rfl⟩

theorem Keeps.trans (h : i.Keeps writes i') (k : i'.Keeps writes i'') : i.Keeps writes i'' :=
  ⟨h.base.trans k.base, k.instanceId.trans h.instanceId⟩

theorem Keeps.putAllowed (h : i.Keeps writes i') : i'.putAllowed = i.putAllowed :=
  h.base.putAllowed

theorem Fresh.keeps (h : i.Fresh creates) (k : i.Keeps writes i') : i'.Fresh creates :=
  ⟨h.1, k.putAllowed.trans h.2⟩

theorem Keeps.eq (h : i.Keeps false i') : i' = i := by
  have hb := h.base.eq
  have hi := h.instanceId
  cases i
  cases i'
  simp_all

end M2MResourceInstance

namespace M2MResource
variable {r r' r'' : M2MResource}

theorem Grows.refl (r : M2MResource) : r.Grows writes creates r :=
  ⟨.refl _, rfl, rfl, .refl M2MResourceInstance.Keeps.refl _⟩

theorem Grows.trans (h : r.Grows writes creates r') (k : r'.Grows writes creates r'') :
    r.Grows writes creates r'' :=
  ⟨h.base.trans k.base, k.name.trans h.name, k.multi.trans h.multi,
    h.instances.trans (fun _ _ _ => .trans) (fun _ _ => .keeps) k.instances⟩

theorem Grows.nameId (h : r.Grows writes creates r') : r'.nameId = r.nameId := by
  rw [M2MResource.nameId, h.name, M2MResource.nameId]

theorem Grows.putAllowed (h : r.Grows writes creates r') : r'.putAllowed = r.putAllowed :=
  h.base.putAllowed

theorem Fresh.grows (h : r.Fresh creates) (k : r.Grows writes creates r') : r'.Fresh creates :=
  ⟨h.1, k.putAllowed.trans h.2.1, k.multi.trans h.2.2⟩

theorem Grows.eq (h : r.Grows false false r') : r' = r := by
  have hi : r'.instances = r.instances := Grown.eq_of_eq
    (h.instances.mono (fun _ _ k => k.eq.symm) fun _ k => absurd k.1 Bool.false_ne_true)
  have hb := h.base.eq
  have hn := h.name
  have hm := h.multi
  cases r
  cases r'
  simp_all

end M2MResource

namespace M2MObjectInstance
variable {oi oi' oi'' : M2MObjectInstance}

theorem Grows.refl (oi : M2MObjectInstance) : oi.Grows writes creates oi :=
  ⟨rfl, .refl M2MResource.Grows.refl _⟩

theorem Grows.trans (h : oi.Grows writes creates oi') (k : oi'.Grows writes creates oi'') :
    oi.Grows writes creates oi'' :=
  ⟨k.instanceId.trans h.instanceId,
    h.resources.trans (fun _ _ _ => .trans) (fun _ _ => .grows) k.resources⟩

theorem Grows.eq (h : oi.Grows false false oi') : oi' = oi := by
  have hr : oi'.resources = oi.resources := Grown.eq_of_eq
    (h.resources.mono (fun _ _ k => k.eq.symm) fun _ k => absurd k.1 Bool.false_ne_true)
  have hi := h.instanceId
  cases oi
  cases oi'
  simp_all

/-- Growth of one resource. -/
theorem Grows.set {k : Nat} {r r' : M2MResource} (hk : oi.resources[k]? = some r)
    (h : r.Grows writes creates r') :
    oi.Grows writes creates { oi with resources := oi.resources.set k r' } :=
  ⟨rfl, .set M2MResource.Grows.refl hk h⟩

end M2MObjectInstance

namespace M2MObject
variable {obj obj' obj'' : M2MObject}

theorem Grows.refl (obj : M2MObject) : obj.Grows writes creates obj :=
  Grown.refl M2MObjectInstance.Grows.refl _

theorem Grows.trans (h : obj.Grows writes creates obj') (k : obj'.Grows writes creates obj'') :
    obj.Grows writes creates obj'' :=
  Grown.trans (fun _ _ _ => .trans) (fun _ _ h _ => h) h k

theorem Grows.eq (h : obj.Grows false false obj') : obj' = obj := by
  have hi : obj'.instances = obj.instances := Grown.eq_of_eq
    (Grown.mono (fun _ _ k => k.eq.symm) (fun _ => id) h)
  cases obj
  cases obj'
  simp_all

/-- Growth of one object instance. -/
theorem Grows.set {j : Nat} {oi oi' : M2MObjectInstance} (hj : obj.instances[j]? = some oi)
    (h : oi.Grows writes creates oi') :
    obj.Grows writes creates { instances := obj.instances.set j oi' } :=
  Grown.set M2MObjectInstance.Grows.refl hj h

end M2MObject

/-! Growth that writes nothing only adds nodes, so it cannot come back to where it started. -/
section Antisymm

theorem M2MResource.Grows.antisymm {r r' : M2MResource} (h : r.Grows false creates r')
    (k : r'.Grows false creates r) : r' = r := by
  have hi : r'.instances = r.instances := h.instances.antisymm (fun _ _ hi _ => hi.eq) k.instances
  have hb := h.base.eq
  have hn := h.name
  have hm := h.multi
  cases r
  cases r'
  simp_all

theorem M2MObjectInstance.Grows.antisymm {oi oi' : M2MObjectInstance}
    (h : oi.Grows false creates oi') (k : oi'.Grows false creates oi) : oi' = oi := by
  have hr : oi'.resources = oi.resources := h.resources.antisymm
    (fun _ _ => M2MResource.Grows.antisymm) k.resources
  have hi := h.instanceId
  cases oi
  cases oi'
  simp_all

theorem M2MObject.Grows.antisymm {obj obj' : M2MObject} (h : obj.Grows false creates obj')
    (k : obj'.Grows false creates obj) : obj' = obj := by
  have hi : obj'.instances = obj.instances := Grown.antisymm
    (fun _ _ => M2MObjectInstance.Grows.antisymm) h k
  cases obj
  cases obj'
  simp_all

end Antisymm

section Mono
variable {c : Bool}

theorem M2MResource.Grows.mono {r r' : M2MResource} (h : r.Grows writes creates r')
    (hc : creates = true → c = true) : r.Grows writes c r' :=
  ⟨h.base, h.name, h.multi, h.instances.mono (fun _ _ => id) fun _ k => ⟨hc k.1, k.2⟩⟩

theorem M2MObjectInstance.Grows.mono {oi oi' : M2MObjectInstance}
    (h : oi.Grows writes creates oi') (hc : creates = true → c = true) : oi.Grows writes c oi' :=
  ⟨h.instanceId, h.resources.mono (fun _ _ k => k.mono hc) fun _ k => ⟨hc k.1, k.2⟩⟩

theorem M2MObject.Grows.mono {obj obj' : M2MObject} (h : obj.Grows writes creates obj')
    (hc : creates = true → c = true) : obj.Grows writes c obj' :=
  Grown.mono (fun _ _ k => M2MObjectInstance.Grows.mono k hc) (fun _ => id) h

end Mono

/-! Reading alone is a special case of writing. -/
section Weaken

theorem M2MResourceBase.Keeps.weaken {b b' : M2MResourceBase} (h : b.Keeps writes b') :
    b.Keeps true b' := by
  cases writes with
  | true => exact h
  | false =>
    rw [h.eq]
    exact .refl b

theorem M2MResourceInstance.Keeps.weaken {i i' : M2MResourceInstance} (h : i.Keeps writes i') :
    i.Keeps true i' := ⟨h.base.weaken, h.instanceId⟩

theorem M2MResource.Grows.weaken {r r' : M2MResource} (h : r.Grows writes creates r') :
    r.Grows true creates r' :=
  ⟨h.base.weaken, h.name, h.multi, h.instances.mono (fun _ _ => .weaken) fun _ => id⟩

theorem M2MObjectInstance.Grows.weaken {oi oi' : M2MObjectInstance}
    (h : oi.Grows writes creates oi') : oi.Grows true creates oi' :=
  ⟨h.instanceId, h.resources.mono (fun _ _ => .weaken) fun _ => id⟩

theorem M2MObject.Grows.weaken {obj obj' : M2MObject} (h : obj.Grows writes creates obj') :
    obj.Grows true creates obj' :=
  Grown.mono (fun _ _ => .weaken) (fun _ => id) h

end Weaken
end MbedClient
