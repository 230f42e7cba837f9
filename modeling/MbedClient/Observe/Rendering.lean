import MbedClient.Nsdl.Notification
import MbedClient.Observe.Requests

/-! An observed object as the messages show it, and what a server makes of them. The content of an
object instance is looked up by its id. -/
namespace MbedClient.Observe
open Nsdl (Labels ServerCopy)
open Tlv (wireValue written instanceVariables)

/-- What messages call a resource and a resource instance. -/
structure Names where
  resource : Entity → Bytes
  resourceInstance : Entity → UInt16

/-- The entity holds a value of an object instance. -/
def Entity.Within (i j : Nat) : Entity → Prop
  | .resource i' j' _ | .resourceInstance i' j' _ _ => i' = i ∧ j' = j
  | _ => False

section Render
variable (names : Names) (value : Entity → Bytes)

def ResourceParams.base (p : ResourceParams) (value : Bytes) : M2MResourceBase :=
  ⟨p.mode, p.operation, p.resourceType, value⟩

def Resource.render (i j k : Nat) (r : Resource) : M2MResource :=
  { toM2MResourceBase := r.base (value (.resource i j k))
    name := names.resource (.resource i j k)
    multipleInstance := r.supportsMultipleInstances
    instances := r.instances.mapIdx fun n p =>
      ⟨p.base (value (.resourceInstance i j k n)),
        names.resourceInstance (.resourceInstance i j k n)⟩ }

def ObjectInstance.render (i j : Nat) (x : ObjectInstance) : M2MObjectInstance :=
  ⟨x.instanceId, x.resources.mapIdx (Resource.render names value i j)⟩

def Object.render (i : Nat) (o : Object) : M2MObject :=
  ⟨o.instances.mapIdx (ObjectInstance.render names value i)⟩

theorem ObjectInstance.render_congr {value value' : Entity → Bytes} {i j : Nat}
    (h : ∀ e : Entity, e.Within i j → value e = value' e) (x : ObjectInstance) :
    x.render names value i j = x.render names value' i j := by
  have hresource (k : Nat) : value (.resource i j k) = value' (.resource i j k) := h _ ⟨rfl, rfl⟩
  have hinstance (k n : Nat) :
      value (.resourceInstance i j k n) = value' (.resourceInstance i j k n) := h _ ⟨rfl, rfl⟩
  have hrender : Resource.render names value i j = Resource.render names value' i j := by
    funext k r
    simp only [Resource.render, hresource, hinstance]
  rw [render, hrender, render]

end Render

/-- The first entry that is found is the same if the entries that are found are. -/
theorem find?_mapIdx_congr {α β : Type*} {p : β → Bool} {f g : Nat → α → β} {xs : List α}
    (h : ∀ j x, xs[j]? = some x → p (f j x) = p (g j x) ∧ (p (f j x) = true → f j x = g j x)) :
    (xs.mapIdx f).find? p = (xs.mapIdx g).find? p := by
  induction xs generalizing f g with
  | nil => rfl
  | cons x xs ih =>
    obtain ⟨hp, heq⟩ := h 0 x rfl
    have hrest := ih (f := fun j => f (j + 1)) (g := fun j => g (j + 1)) fun j y hy =>
      h (j + 1) y hy
    rw [List.mapIdx_cons, List.mapIdx_cons, List.find?_cons, List.find?_cons, ← hp, hrest]
    cases hfound : p (f 0 x) with
    | true => rw [heq hfound]
    | false => rfl

namespace ObjectList
variable (t : ObjectList) (names : Names) (i : Nat)

def shown (value : Entity → Bytes) : M2MObject :=
  match t[i]? with
  | none => ⟨[]⟩
  | some o => o.render names value i

def instanceIds : List UInt16 :=
  match t[i]? with
  | none => []
  | some o => o.instances.map (·.instanceId)

theorem mem_instanceIds {j : Nat} {x : ObjectInstance} (hx : t.objectInstance? i j = some x) :
    x.instanceId ∈ t.instanceIds i := by
  obtain ⟨o, ho, hx⟩ := Option.bind_eq_some_iff.mp hx
  rw [instanceIds, ho]
  exact List.mem_map_of_mem (List.mem_of_getElem? hx)

theorem shown_ids (value : Entity → Bytes) :
    (t.shown names i value).instances.map (·.instanceId) = t.instanceIds i := by
  unfold shown instanceIds
  cases t[i]? with
  | none => rfl
  | some o =>
    refine List.ext_getElem? fun j => ?_
    dsimp only [Object.render]
    rw [List.getElem?_map, List.getElem?_mapIdx, List.getElem?_map, Option.map_map]
    rfl

variable {t i}

theorem objectInstance_isSome {value : Entity → Bytes} {id : UInt16} :
    ((t.shown names i value).objectInstance id).isSome = true ↔ id ∈ t.instanceIds i := by
  rw [← t.shown_ids names i value, M2MObject.objectInstance, List.find?_isSome, List.mem_map]
  exact exists_congr fun oi => and_congr_right fun _ => beq_iff_eq

/-- What is shown under an id depends on the values of its instance alone. -/
theorem objectInstance_congr {value value' : Entity → Bytes} {id : UInt16}
    (h : ∀ j x, t.objectInstance? i j = some x → x.instanceId = id →
      ∀ e : Entity, e.Within i j → value e = value' e) :
    (t.shown names i value).objectInstance id = (t.shown names i value').objectInstance id := by
  unfold shown
  cases ho : t[i]? with
  | none => rfl
  | some o =>
    refine find?_mapIdx_congr fun j x hx => ⟨rfl, fun hid => ?_⟩
    have hobject :
      t.objectInstance? i j = some x := by rw [objectInstance?, ho, Option.bind_some, hx]
    exact ObjectInstance.render_congr names (h j x hobject (beq_iff_eq.mp hid)) x

/-- Values of other objects are not shown. -/
theorem shown_congr {value value' : Entity → Bytes}
    (h : ∀ j (e : Entity), e.Within i j → value e = value' e) :
    t.shown names i value = t.shown names i value' := by
  have hrender : ObjectInstance.render names value i = ObjectInstance.render names value' i := by
    funext j x
    exact ObjectInstance.render_congr names (h j) x
  unfold shown
  cases t[i]? with
  | none => rfl
  | some o =>
    dsimp only
    rw [Object.render, hrender, Object.render]

end ObjectList

/-! A server, by the object and by a message about it. -/
section Server
variable (commonWrite64Bit : UInt64 → Vector UInt8 8) (labels : Labels) (i : Nat) (obj : M2MObject)

/-- The content of every object instance. -/
def known : ServerCopy := fun id =>
  (obj.objectInstance id).map fun oi => written (wireValue commonWrite64Bit) (instanceVariables oi)

def answered : ServerCopy := fun id =>
  match Tlv.serialize commonWrite64Bit (.objectInstances obj.instances) (fun _ => true) with
  | none => none
  | some s => (Nsdl.readInstances (ofBytes (s.1.data.getD [])) (s.1.data.getD []).length).lookup id

def deliver (copy : ServerCopy) (out : Output) : ServerCopy :=
  match out with
  | .observationToBeSent (.object k) ids number whole =>
    if k = i then
      match Nsdl.observationToBeSent commonWrite64Bit labels number (fun _ => true) (.object obj)
        ids.1 whole with
      | some (some n, _) => n.update copy
      | _ => copy
    else copy
  | _ => copy

def receive (log : List Output) (copy : ServerCopy) : ServerCopy :=
  log.foldl (deliver commonWrite64Bit labels i obj) copy

/-- The whole object can be sent in one message. -/
structure Encodable : Prop where
  fits : ∀ oi ∈ obj.instances, Tlv.ObjectInstanceFits (wireValue commonWrite64Bit) oi
  short : (obj.instances.flatMap (Tlv.objectInstanceBytes (wireValue commonWrite64Bit))).length <
    2 ^ 16

end Server

section Encodable
variable {commonWrite64Bit : UInt64 → Vector UInt8 8} {labels : Labels} {i : Nat} {obj : M2MObject}

theorem Encodable.named (h : Encodable commonWrite64Bit obj) :
    (Nsdl.Observed.object obj).Named := by
  intro oi hoi
  rw [Tlv.allNamed_iff]
  intro r hr hname
  have hnonneg := ((h.fits oi hoi).2 r hr).1
  omega

/-- A list of changed instances takes no more than all of them. -/
theorem notified_length_le {ids : List UInt16} (hnodup : ids.Nodup) (whole : Bool)
    (f : M2MObjectInstance → Bytes) :
    ((Nsdl.notifiedInstances obj ids whole).flatMap f).length ≤
    (obj.instances.flatMap f).length := by
  cases whole with
  | true => exact le_rfl
  | false =>
    have hsub : (ids.filterMap obj.objectInstance).Subperm obj.instances := by
      refine List.Nodup.subperm ?_ fun oi hoi => ?_
      · refine List.Nodup.filterMap (fun a b oi ha hb => ?_) hnodup
        have hida := List.find?_some ha
        have hidb := List.find?_some hb
        exact (beq_iff_eq.mp hida).symm.trans (beq_iff_eq.mp hidb)
      · obtain ⟨id, -, hid⟩ := List.mem_filterMap.mp hoi
        exact List.mem_of_find?_eq_some hid
    obtain ⟨ois, hperm, hsublist⟩ := hsub
    calc ((ids.filterMap obj.objectInstance).flatMap f).length
      _ = (ois.flatMap f).length := (hperm.flatMap_right f).length_eq.symm
      _ ≤ (obj.instances.flatMap f).length := (hsublist.flatMap f).length_le

/-- What an observer reads of the object is what there is. -/
theorem answered_eq (h : Encodable commonWrite64Bit obj) :
    answered commonWrite64Bit obj = known commonWrite64Bit obj := by
  have hshort : (obj.instances.flatMap
      (Tlv.objectInstanceBytes (wireValue commonWrite64Bit))).length < 2 ^ 32 :=
    h.short.trans (by decide)
  funext id
  rw [answered, Tlv.serializeObjectInstances_granted h.named, if_pos hshort]
  dsimp only
  rw [Tlv.Output.getD_of, Nsdl.readInstances_eq h.fits, Nsdl.lookup_instances]
  rfl

/-- A notification puts the changed instances in place, as they are when it is sent. -/
theorem deliver_eq (h : Encodable commonWrite64Bit obj) (copy : ServerCopy)
    (ids : Report.ChangedIds) (number : UInt16) (whole : Bool) (id : UInt16) :
    deliver commonWrite64Bit labels i obj copy (.observationToBeSent (.object i) ids number whole)
        id =
      if (whole = true ∨ id ∈ ids.1) ∧ (obj.objectInstance id).isSome = true then
        known commonWrite64Bit obj id
      else copy id := by
  have hshort := (notified_length_le ids.2 whole
    (Tlv.objectInstanceBytes (wireValue commonWrite64Bit))).trans_lt h.short
  have hfits : ¬((Nsdl.Observed.object obj).inTlv = true ∧ 2 ^ 32 ≤
      ((Nsdl.Observed.object obj).content (wireValue commonWrite64Bit) ids.1 whole).length) :=
    fun hlarge => absurd (hshort.trans (by decide)) (not_lt.mpr hlarge.2)
  rw [deliver, if_pos rfl, Nsdl.observationToBeSent_granted h.named, if_neg hfits]
  dsimp only
  rw [Nsdl.update_about copy h.fits hshort, known]
  cases obj.objectInstance id with
  | none => simp
  | some oi => simp

theorem deliver_other {e : Entity} (he : e ≠ .object i) (copy : ServerCopy)
    (ids : Report.ChangedIds) (number : UInt16) (whole : Bool) :
    deliver commonWrite64Bit labels i obj copy (.observationToBeSent e ids number whole) =
      copy := by
  cases e with
  | object k => exact if_neg fun hk => he (congrArg Entity.object hk)
  | objectInstance | resource | resourceInstance => rfl

theorem receive_append (log log' : List Output) (copy : ServerCopy) :
    receive commonWrite64Bit labels i obj (log ++ log') copy =
      receive commonWrite64Bit labels i obj log' (receive commonWrite64Bit labels i obj log copy) :=
  List.foldl_append

/-- A copy that is complete stays so. -/
theorem receive_known (h : Encodable commonWrite64Bit obj) (log : List Output) :
    receive commonWrite64Bit labels i obj log (known commonWrite64Bit obj) =
      known commonWrite64Bit obj := by
  induction log with
  | nil => rfl
  | cons out log ih =>
    have hsame : deliver commonWrite64Bit labels i obj (known commonWrite64Bit obj) out =
        known commonWrite64Bit obj := by
      cases out with
      | observationToBeSent e ids number whole =>
        by_cases he : e = .object i
        · subst he
          funext id
          rw [deliver_eq h, ite_self]
        · exact deliver_other he _ _ _ _
      | report | valueUpdated | resourceToBeDeleted => rfl
    change receive commonWrite64Bit labels i obj log (deliver _ _ _ _ _ out) = _
    rw [hsame, ih]

end Encodable
end MbedClient.Observe
