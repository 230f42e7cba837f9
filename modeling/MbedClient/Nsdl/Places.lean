import MbedClient.Nsdl.Node
import MbedClient.Observe.Client

/-! The object list that observations see and the one that requests change are one list. Where the
two have the same paths in the same places, a search for a path ends at the same place. -/
namespace MbedClient.Nsdl
open Observe (Entity)
open Observe.ObjectList

section Lists
variable {α β γ : Type*} {R : α → β → Prop} {xs : List α} {ys : List β}

/-- A search that counts places and one that carries them along. -/
theorem findSome?_places (h : List.Forall₂ R xs ys) (k : Nat) {f : Nat → Option γ}
    {g : β × Nat → Option γ}
    (hfg : ∀ i x y, xs[i]? = some x → R x y → f (k + i) = g (y, k + i)) :
    (List.range' k xs.length).findSome? f = (ys.zipIdx k).findSome? g := by
  induction h generalizing k with
  | nil => rfl
  | @cons x y xs ys hxy _ ih =>
    have hhead : f k = g (y, k) := hfg 0 x y rfl hxy
    have htail := ih (k + 1) fun i x y hx hxy => by
      have hnext := hfg (i + 1) x y hx hxy
      rwa [show k + (i + 1) = k + 1 + i by omega] at hnext
    rw [List.length_cons, List.range'_succ, List.zipIdx_cons, List.findSome?_cons,
      List.findSome?_cons, hhead, htail]

theorem findSome?_map_places (h : List.Forall₂ R xs ys) {δ : Type*} (e : Nat → δ)
    {f : δ → Option γ} {g : β × Nat → Option γ}
    (hfg : ∀ i x y, xs[i]? = some x → R x y → f (e i) = g (y, i)) :
    ((List.range xs.length).map e).findSome? f = ys.zipIdx.findSome? g := by
  rw [List.findSome?_map, List.range_eq_range']
  exact findSome?_places h 0 fun i x y hx hxy => by simpa using hfg i x y hx hxy

theorem exists_forall₂ (h : ∀ y ∈ ys, ∃ x, R x y) : ∃ xs, List.Forall₂ R xs ys := by
  induction ys with
  | nil => exact ⟨[], .nil⟩
  | cons y ys ih =>
    obtain ⟨x, hx⟩ := h y List.mem_cons_self
    obtain ⟨xs, hxs⟩ := ih fun z hz => h z (List.mem_cons_of_mem y hz)
    exact ⟨x :: xs, .cons hx hxs⟩

end Lists

/-- A resource as observations see it is this resource, and so on for what contains it. -/
structure SeenResource (o : ObjectNode) (oi : M2MObjectInstance) (x : Observe.Resource)
    (r : M2MResource) : Prop where
  path : x.uriPath = uriPath (.resource o.name oi.instanceId r.name)
  multiple : x.supportsMultipleInstances = r.multipleInstance
  instances : List.Forall₂ (fun y m =>
    y.uriPath = uriPath (.resourceInstance o.name oi.instanceId r.name m.instanceId))
      x.instances r.instances

structure SeenInstance (o : ObjectNode) (x : Observe.ObjectInstance) (oi : M2MObjectInstance) :
    Prop where
  path : x.uriPath = uriPath (.objectInstance o.name oi.instanceId)
  resources : List.Forall₂ (SeenResource o oi) x.resources oi.resources

structure SeenObject (x : Observe.Object) (o : ObjectNode) : Prop where
  path : x.uriPath = uriPath (.object o.name)
  instances : List.Forall₂ (SeenInstance o) x.instances o.instances

/-- The whole list as observations see it. -/
def Seen (t : Observe.ObjectList) (objects : List ObjectNode) : Prop :=
  List.Forall₂ SeenObject t objects

section Exists
variable {o : ObjectNode} {oi : M2MObjectInstance} {objects : List ObjectNode}

/-- A C string that is not empty. -/
def CPath (path : Bytes) : Prop := path ≠ [] ∧ 0 ∉ path

/-- What an object list needs for observations to see it. -/
def CPaths (objects : List ObjectNode) : Prop :=
  ∀ n ∈ identities (objects.map (·.toNamedObject)), CPath (uriPath n)

def seenParams {path : Bytes} (h : CPath path) : Observe.Params := ⟨path, h.1, h.2, 0, false⟩

def seenResourceParams {path : Bytes} (h : CPath path) : Observe.ResourceParams :=
  ⟨seenParams h, .dynamic, .string⟩

theorem seenParams_uriPath {path : Bytes} (h : CPath path) : (seenParams h).uriPath = path := rfl

theorem seenResourceParams_uriPath {path : Bytes} (h : CPath path) :
    (seenResourceParams h).uriPath = path := rfl

theorem exists_seenResource {r : M2MResource}
    (h : ∀ n ∈ Identity.resource o.name oi.instanceId r.name :: r.instances.map fun m =>
      .resourceInstance o.name oi.instanceId r.name m.instanceId, CPath (uriPath n)) :
    ∃ x, SeenResource o oi x r := by
  have hmember : ∀ m ∈ r.instances, ∃ y : Observe.ResourceParams,
      y.uriPath = uriPath (.resourceInstance o.name oi.instanceId r.name m.instanceId) := by
    intro m hm
    have hpath : CPath (uriPath (.resourceInstance o.name oi.instanceId r.name m.instanceId)) :=
      h _ (List.mem_cons_of_mem _ (List.mem_map.mpr ⟨m, hm, rfl⟩))
    exact ⟨seenResourceParams hpath, seenResourceParams_uriPath hpath⟩
  obtain ⟨instances, hinstances⟩ := exists_forall₂ hmember
  have hpath := h _ List.mem_cons_self
  exact ⟨⟨seenResourceParams hpath, r.multipleInstance, instances⟩,
    seenResourceParams_uriPath hpath, rfl, hinstances⟩

theorem exists_seenInstance
    (h : ∀ n ∈ Identity.objectInstance o.name oi.instanceId :: oi.resources.flatMap fun r =>
      .resource o.name oi.instanceId r.name :: r.instances.map fun m =>
        .resourceInstance o.name oi.instanceId r.name m.instanceId, CPath (uriPath n)) :
    ∃ x, SeenInstance o x oi := by
  obtain ⟨resources, hresources⟩ := exists_forall₂ fun r hr => exists_seenResource fun n hn =>
    h n (List.mem_cons_of_mem _ (List.mem_flatMap.mpr ⟨r, hr, hn⟩))
  have hpath := h _ List.mem_cons_self
  exact ⟨⟨seenParams hpath, oi.instanceId, resources⟩, seenParams_uriPath hpath, hresources⟩

theorem exists_seen (h : CPaths objects) : ∃ t, Seen t objects := by
  refine exists_forall₂ fun o ho => ?_
  have hobject := fun n hn =>
    h n (List.mem_flatMap.mpr ⟨o.toNamedObject, List.mem_map_of_mem ho, hn⟩)
  obtain ⟨instances, hinstances⟩ := exists_forall₂ fun oi hoi => exists_seenInstance fun n hn =>
    hobject n (List.mem_cons_of_mem _ (List.mem_flatMap.mpr ⟨oi, hoi, hn⟩))
  have hpath := hobject _ List.mem_cons_self
  exact ⟨⟨seenParams hpath, instances⟩, seenParams_uriPath hpath, hinstances⟩

end Exists

section Search
variable {F : Type*} [Report.CFloat F] (m : Observe.Client F) {t : Observe.ObjectList}
variable {o : ObjectNode} {oi : M2MObjectInstance} {i j k : Nat} (s : Bytes)

theorem findInResource_seen {x : Observe.Resource} {r : M2MResource}
    (hx : resource? t i j k = some x) (h : SeenResource o oi x r) :
    (if supportsMultipleInstances t (.resource i j k) then
      Observe.Client.findInResource t s (.resource i j k) else none) =
      findInResource (cStr s) i j k o oi r := by
  have hmultiple : supportsMultipleInstances t (.resource i j k) = r.multipleInstance := by
    rw [← h.multiple, supportsMultipleInstances, hx]
  rw [hmultiple, findInResource, Observe.Client.findInResource, children, hx,
    List.find?_eq_findSome?_guard]
  refine if_congr Iff.rfl ?_ rfl
  refine findSome?_map_places h.instances _ fun n y q hy hq => ?_
  have hpath : hasPath t s (.resourceInstance i j k n) = (y.uriPath == cStr s) := by
    simp [hasPath, params?, resourceInstance?, hx, hy]
  simp [Option.guard, hpath, ← hq]

theorem findInObjectInstance_seen {x : Observe.ObjectInstance}
    (hx : objectInstance? t i j = some x) (h : SeenInstance o x oi) :
    m.findInObjectInstance t s none (.objectInstance i j) =
      findInObjectInstance (cStr s) i j o oi := by
  rw [Observe.Client.findInObjectInstance, children, hx]
  refine findSome?_map_places h.resources _ fun k y r hy hr => ?_
  have hresource : resource? t i j k = some y := by rw [resource?, hx, Option.bind_some, hy]
  have hpath : hasPath t s (.resource i j k) = (y.uriPath == cStr s) := by
    simp [hasPath, params?, hresource]
  simp only [hpath, beq_iff_eq, hr.path, findInResource_seen s hresource hr]

theorem findInObject_seen {x : Observe.Object} (hx : t[i]? = some x) (h : SeenObject x o) :
    m.findInObject t s none (.object i) = findInObject (cStr s) i o := by
  rw [Observe.Client.findInObject, children, hx]
  refine findSome?_map_places h.instances _ fun j y oi hy hoi => ?_
  have hinstance : objectInstance? t i j = some y := by
    rw [objectInstance?, hx, Option.bind_some, hy]
  have hpath : hasPath t s (.objectInstance i j) = (y.uriPath == cStr s) := by
    simp [hasPath, params?, hinstance]
  simp only [hpath, beq_iff_eq, hoi.path, findInObjectInstance_seen m s hinstance hoi]

/-- What a search of the client finds for a string is what a search of the lists finds for the part
of it in front of its first NUL. -/
theorem findResource_seen {objects : List ObjectNode} (h : Seen t objects) :
    m.findResource t s none = findResource (cStr s) objects := by
  rw [Observe.Client.findResource, Observe.ObjectList.objects]
  refine findSome?_map_places h _ fun i x o hx ho => ?_
  have hpath : hasPath t s (.object i) = (x.uriPath == cStr s) := by
    simp [hasPath, params?, hx]
  simp only [hpath, beq_iff_eq, ho.path, findInObject_seen m s hx ho]

end Search
end MbedClient.Nsdl
