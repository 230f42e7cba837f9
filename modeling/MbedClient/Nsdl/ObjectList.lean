import MbedClient.Interface.Impl
import MbedClient.Nsdl.Server

/-! `_object_list` of `M2MNsdlInterface`, which holds pointers: who adds to it, who looks behind its
elements, and what the destructor of an `M2MObject` tells of its end. -/
namespace MbedClient.Nsdl
open Callback
open Interface (M2MInterfaceImpl Entry Output)

/-- `sn_nsdl_put_resource` and `sn_nsdl_pop_resource` of the CoAP library. The structure of a
resource goes by the object that it belongs to and by what it is there. -/
structure ResourceList (η : Type) where
  put : Nat → Identity → η → Int8 × η
  pop : Nat → Identity → η → η

/-- An object, and whether `_observation_handler` is set. -/
structure AllocatedObject where
  node : ObjectNode
  observationHandler : Bool := false

/-- The objects at their addresses, the list, and the handle of the CoAP library. `strayed` says
whether there was none behind a pointer of the list that has been followed. -/
structure Memory (η : Type) where
  allocated : Nat → Option AllocatedObject
  objectList : List Nat
  nsdlHandle : η
  interface : NsdlInterface
  strayed : Bool

namespace Memory
variable {η : Type}

def start (interface : NsdlInterface) (nsdlHandle : η) : Memory η :=
  { allocated := fun _ => none, objectList := [], nsdlHandle, interface, strayed := false }

section Calls
variable (resources : ResourceList η) (m : Memory η)

def assign (address : Nat) (object : Option AllocatedObject) : Memory η :=
  { m with allocated := Function.update m.allocated address object }

/-- `create_nsdl_resource`. Every entity of an object has the handler of the object. -/
def createNsdlResource (address : Nat) (n : Identity) : Bool × Memory η :=
  let (result, handle) := resources.put address n m.nsdlHandle
  let m :=
    m.assign address ((m.allocated address).map fun o => { o with observationHandler := true })
  (result == 0 || result == -2, { m with nsdlHandle := handle })

def createNsdlResourceInstances (address : Nat) (name : Bytes) (id : UInt16) (r : M2MResource)
    (m : Memory η) : List M2MResourceInstance → Bool × Memory η
  | [] => (true, m)
  | i :: l =>
    let (success, m) := m.createNsdlResource resources address
      (.resourceInstance name id r.name i.instanceId)
    if success then createNsdlResourceInstances address name id r m l else (false, m)

def createNsdlResourceStructure (address : Nat) (name : Bytes) (id : UInt16) (r : M2MResource) :
    Bool × Memory η :=
  if r.multipleInstance then
    if r.instances.isEmpty then (false, m)
    else
      let (success, m) := createNsdlResourceInstances resources address name id r m r.instances
      if success then m.createNsdlResource resources address (.resource name id r.name)
      else (false, m)
  else m.createNsdlResource resources address (.resource name id r.name)

/-- `create_nsdl_object_instance_structure`: the last resource says whether it was a success, unless
the instance is published itself. -/
def createNsdlObjectInstanceStructure (address : Nat) (o : ObjectNode) (oi : M2MObjectInstance) :
    Bool × Memory η :=
  let t := oi.resources.foldl
    (fun t r => t.2.createNsdlResourceStructure resources address o.name oi.instanceId r) (false, m)
  if (o.params (.objectInstance o.name oi.instanceId)).operation ≠ 0 then
    t.2.createNsdlResource resources address (.objectInstance o.name oi.instanceId)
  else t

def createNsdlObjectStructure (address : Nat) : Bool × Memory η :=
  if address = 0 then (false, m)
  else
    match m.allocated address with
    | none => (false, { m with strayed := true })
    | some object =>
      let t := object.node.instances.foldl
        (fun t oi => t.2.createNsdlObjectInstanceStructure resources address object.node oi)
          (false, m)
      if object.node.own.operation ≠ 0 then
        t.2.createNsdlResource resources address (.object object.node.name)
      else t

def addObjectToList (address : Nat) : Memory η :=
  if address ≠ 0 ∧ address ∉ m.objectList then
    { m with objectList := m.objectList ++ [address] }
  else m

/-- One more element of a list: its success counts, and no longer that of those before it. -/
def publish (t : Bool × Memory η) (address : Nat) : Bool × Memory η :=
  let (success, m) := t.2.createNsdlObjectStructure resources address
  (success, m.addObjectToList address)

def createNsdlListStructure (objectList : List Nat) : Bool × Memory η :=
  objectList.foldl (publish resources) (false, m)

/-- `resource_to_be_deleted`, which `free_resources` of every entity calls. -/
def resourceToBeDeleted (address : Nat) (n : Identity) : Memory η :=
  { m with nsdlHandle := resources.pop address n m.nsdlHandle }

def freeResources (address : Nat) (object : AllocatedObject) (deleted : List Identity) : Memory η :=
  if object.observationHandler then
    deleted.foldl (fun m n => m.resourceToBeDeleted resources address n) m
  else m

/-- The entities of an object in the order in which its destructor gets rid of them. -/
def destroyed (o : ObjectNode) : List Identity :=
  (o.instances.flatMap fun oi =>
    (oi.resources.flatMap fun r =>
      r.instances.map (fun i => .resourceInstance o.name oi.instanceId r.name i.instanceId) ++
        [.resource o.name oi.instanceId r.name]) ++ [.objectInstance o.name oi.instanceId]) ++
    [.object o.name]

/-- `~M2MObject` -/
def destroy (address : Nat) : Memory η :=
  match m.allocated address with
  | none => m
  | some object =>
    (m.freeResources resources address object (destroyed object.node)).assign address none

/-- The object contains something else from now on; what it has lost is deleted. -/
def store (address : Nat) (o : ObjectNode) : Memory η :=
  match m.allocated address with
  | none => m
  | some object =>
    let lost := (destroyed object.node).filter (· ∉ destroyed o)
    (m.freeResources resources address object lost).assign address (some { object with node := o })

/-- The elements that `find_resource` visits, if it ends with the first in which it has found what
it looks for. -/
def visited (found : ObjectNode → Bool) : List Nat → List Nat
  | [] => []
  | address :: l =>
    if (m.allocated address).any fun o => found o.node then [address]
    else address :: visited found l

/-- `find_resource` -/
def search (found : ObjectNode → Bool) : Memory η :=
  { m with strayed := m.strayed ||
      (m.visited found m.objectList).any fun address => (m.allocated address).isNone }

def objects : List ObjectNode :=
  ((m.objectList.map m.allocated).takeWhile (·.isSome)).reduceOption.map (·.node)

def storeAll (os : List ObjectNode) : Memory η :=
  (m.objectList.zip os).foldl (fun m x => m.store resources x.1 x.2) m

/-- `send_update_registration`, as far as the objects are concerned. -/
def sendUpdateRegistration : Memory η := (m.createNsdlListStructure resources m.objectList).2

end Calls

section Requests
variable (resources : ResourceList η) (w : Surroundings) (m : Memory η)

/-- The object of this path, or something in it. -/
def holds (path : Bytes) (o : ObjectNode) : Bool := (findResource path [o]).isSome

def resourceCallback (request : CoapHeader) : Memory η :=
  let m := m.search (holds (coapToString request.uriPath))
  match Nsdl.resourceCallback w m.objects request m.interface.heap with
  | none => m
  | some handled =>
    let m := m.storeAll resources handled.entity
    { m with interface := { m.interface with heap := handled.heap } }

/-- The name that a POST looks for in the list, if it gets that far. -/
def searchedName (handle : NsdlHandle) (header : CoapHeader) (address : Option Address) :
    Option Bytes :=
  if header.msgId ∉ handle.storedIds ∧ header.msgCode = .requestPost ∧
      handle.isBootstrapMsg address = false then
    (header.uriPath.bind fun uriPath => splitPath (coapToString uriPath)).bind fun (name, _) =>
      if slash ∈ name then none else some name
  else none

def receivedFromServer (handle : NsdlHandle) (header : CoapHeader) (address : Option Address) :
    Memory η :=
  let m := match searchedName handle header address with
    | none => m
    | some name => m.search (holds name)
  match Nsdl.receivedFromServer w handle header address
      { m.interface with objects := m.objects, calls := [] } with
  | none => m
  | some s =>
    let m :=
      { m.storeAll resources s.objects with interface := { s with objects := [], calls := [] } }
    if s.calls.contains .createNsdlListStructure then m.sendUpdateRegistration resources else m

end Requests

end Memory

/-- What happens besides the calls of the interface: the application makes an object, makes it
contain something else or destroys it, a message arrives, or the timer of the registration
expires. -/
inductive Incident where
  | create (address : Nat) (o : ObjectNode)
  | change (address : Nat) (o : ObjectNode)
  | destroy (address : Nat)
  | request (request : CoapHeader)
  | message (handle : NsdlHandle) (header : CoapHeader) (address : Option Address)
  | registrationTimer

/-- A call of the interface, or something besides. -/
inductive Access where
  | createNsdlListStructure (objectList : List Nat)
  | sendUpdateRegistration
  | incident (i : Incident)

namespace Memory
variable {η : Type} (resources : ResourceList η) (w : Surroundings)

/-- An object is made where there is none, and what is not there is neither changed nor
destroyed. -/
def happen : Incident → Memory η → Memory η
  | .create address o, m =>
    if address = 0 ∨ (m.allocated address).isSome then m else m.assign address (some { node := o })
  | .change address o, m => m.store resources address o
  | .destroy address, m => m.destroy resources address
  | .request request, m => m.resourceCallback resources w request
  | .message handle header address, m => m.receivedFromServer resources w handle header address
  | .registrationTimer, m => m.sendUpdateRegistration resources

def step : Access → Memory η → Memory η
  | .createNsdlListStructure objectList, m => (m.createNsdlListStructure resources objectList).2
  | .sendUpdateRegistration, m => m.sendUpdateRegistration resources
  | .incident i, m => m.happen resources w i

end Memory

/-- What the interface asks of the list. The data of an update of the registration have no list
where `state_register` looks for one. -/
def accessesOf : Output → List Access
  | .createNsdlListStructure objectList => [.createNsdlListStructure (objectList.getD [])]
  | .sendUpdateRegistration _ => [.sendUpdateRegistration]
  | _ => []

/-- All accesses in their order; whenever the interface gives a signal, the next of the incidents to
come have their turn. -/
def accesses : Monitor M2MInterfaceImpl Output Entry (List Access × List (List Incident))
  | .called o, _, (log, incidents) =>
    (log ++ accessesOf o ++ (incidents.headD []).map .incident, incidents.tail)
  | _, _, (log, incidents) => (log ++ (incidents.headD []).map .incident, incidents.tail)

namespace Memory
variable {η : Type} {resources : ResourceList η} {w : Surroundings} {m m' m'' : Memory η}

/-- Nothing has been made or destroyed, and the list is as it was. -/
structure Kept (m m' : Memory η) : Prop where
  allocated : ∀ address, (m'.allocated address).isSome = (m.allocated address).isSome
  objectList : m'.objectList = m.objectList
  strayed : m'.strayed = m.strayed

namespace Kept

theorem refl (m : Memory η) : Kept m m := ⟨fun _ => rfl, rfl, rfl⟩

theorem trans (h : Kept m m') (h' : Kept m' m'') : Kept m m'' :=
  ⟨fun address => (h'.allocated address).trans (h.allocated address),
    h'.objectList.trans h.objectList, h'.strayed.trans h.strayed⟩

theorem foldl {α : Type} {f : Memory η → α → Memory η} (h : ∀ m x, Kept m (f m x)) (l : List α)
    (m : Memory η) : Kept m (l.foldl f m) := by
  induction l generalizing m with
  | nil => exact .refl m
  | cons x l ih => exact (h m x).trans (ih (f m x))

theorem foldl_snd {α : Type} {f : Bool × Memory η → α → Bool × Memory η}
    (h : ∀ t x, Kept t.2 (f t x).2) (l : List α) (t : Bool × Memory η) :
    Kept t.2 (l.foldl f t).2 := by
  induction l generalizing t with
  | nil => exact .refl t.2
  | cons x l ih => exact (h t x).trans (ih (f t x))

end Kept

section Kept

theorem assign_kept {address : Nat} {object : Option AllocatedObject}
    (h : object.isSome = (m.allocated address).isSome) : Kept m (m.assign address object) := by
  refine ⟨fun address' => ?_, rfl, rfl⟩
  change (Function.update m.allocated address object address').isSome = _
  rw [Function.update_apply]
  split_ifs with heq
  · rw [heq, h]
  · rfl

theorem createNsdlResource_kept (address : Nat) (n : Identity) :
    Kept m (m.createNsdlResource resources address n).2 := by
  have h : Kept m (m.assign address
      ((m.allocated address).map fun o => { o with observationHandler := true })) :=
    assign_kept Option.isSome_map
  exact ⟨h.allocated, h.objectList, h.strayed⟩

theorem createNsdlResourceInstances_kept (address : Nat) (name : Bytes) (id : UInt16)
    (r : M2MResource) (l : List M2MResourceInstance) :
    Kept m (createNsdlResourceInstances resources address name id r m l).2 := by
  induction l generalizing m with
  | nil => exact .refl m
  | cons i l ih =>
    have h : Kept m (m.createNsdlResource resources address
        (.resourceInstance name id r.name i.instanceId)).2 := createNsdlResource_kept address _
    rw [createNsdlResourceInstances]
    dsimp only
    split_ifs
    · exact h.trans ih
    · exact h

theorem createNsdlResourceStructure_kept (address : Nat) (name : Bytes) (id : UInt16)
    (r : M2MResource) : Kept m (m.createNsdlResourceStructure resources address name id r).2 := by
  have h : Kept m (createNsdlResourceInstances resources address name id r m r.instances).2 :=
    createNsdlResourceInstances_kept address name id r r.instances
  rw [createNsdlResourceStructure]
  split_ifs
  · exact .refl m
  · dsimp only
    split_ifs
    · exact h.trans (createNsdlResource_kept address _)
    · exact h
  · exact createNsdlResource_kept address _

theorem createNsdlObjectInstanceStructure_kept (address : Nat) (o : ObjectNode)
    (oi : M2MObjectInstance) :
    Kept m (m.createNsdlObjectInstanceStructure resources address o oi).2 := by
  have h : Kept m _ := Kept.foldl_snd (f := fun t r =>
      t.2.createNsdlResourceStructure resources address o.name oi.instanceId r)
    (fun t r => createNsdlResourceStructure_kept address o.name oi.instanceId r) oi.resources
    (false, m)
  rw [createNsdlObjectInstanceStructure]
  split_ifs
  · exact h.trans (createNsdlResource_kept address _)
  · exact h

/-- Only an object that is there is looked at without harm. -/
theorem createNsdlObjectStructure_kept {address : Nat}
    (h : address ≠ 0 → (m.allocated address).isSome = true) :
    Kept m (m.createNsdlObjectStructure resources address).2 := by
  rw [createNsdlObjectStructure]
  split_ifs with hnull
  · exact .refl m
  · obtain ⟨object, hobject⟩ := Option.isSome_iff_exists.mp (h hnull)
    have hinstances : Kept m _ := Kept.foldl_snd (f := fun t oi =>
        t.2.createNsdlObjectInstanceStructure resources address object.node oi)
      (fun t oi => createNsdlObjectInstanceStructure_kept address object.node oi)
      object.node.instances (false, m)
    rw [hobject]
    dsimp only
    split_ifs
    · exact hinstances.trans (createNsdlResource_kept address _)
    · exact hinstances

theorem createNsdlObjectStructure_strays {address : Nat} (hnull : address ≠ 0)
    (h : m.allocated address = none) :
    (m.createNsdlObjectStructure resources address).2 = { m with strayed := true } := by
  rw [createNsdlObjectStructure, if_neg hnull, h]

theorem freeResources_kept (address : Nat) (object : AllocatedObject) (deleted : List Identity) :
    Kept m (m.freeResources resources address object deleted) := by
  rw [freeResources]
  split_ifs
  · exact Kept.foldl (f := fun m n => m.resourceToBeDeleted resources address n)
      (fun _ _ => ⟨fun _ => rfl, rfl, rfl⟩) deleted m
  · exact .refl m

theorem store_kept (address : Nat) (o : ObjectNode) : Kept m (m.store resources address o) := by
  rw [store]
  cases h : m.allocated address with
  | none => exact .refl m
  | some object =>
    have hfree : Kept m (m.freeResources resources address object
        ((destroyed object.node).filter (· ∉ destroyed o))) := freeResources_kept address object _
    refine hfree.trans (assign_kept ?_)
    rw [hfree.allocated, h]
    rfl

theorem storeAll_kept (os : List ObjectNode) : Kept m (m.storeAll resources os) :=
  Kept.foldl (f := fun m (x : Nat × ObjectNode) => m.store resources x.1 x.2)
    (fun _ x => store_kept x.1 x.2) _ m

end Kept

/-- No element of the list has been destroyed, and no pointer to a destroyed object has been
followed. -/
structure Sound (m : Memory η) : Prop where
  listed : ∀ address ∈ m.objectList, (m.allocated address).isSome = true
  strayed : m.strayed = false

theorem Sound.kept (h : Sound m) (hk : Kept m m') : Sound m' where
  listed address hmem := (hk.allocated address).trans (h.listed address (hk.objectList ▸ hmem))
  strayed := hk.strayed.trans h.strayed

section Steps

theorem mem_visited {found : ObjectNode → Bool} {l : List Nat} {address : Nat}
    (h : address ∈ m.visited found l) : address ∈ l := by
  induction l with
  | nil => exact h
  | cons a l ih =>
    rw [visited] at h
    split_ifs at h
    · rw [List.mem_singleton.mp h]
      exact List.mem_cons_self
    · obtain rfl | hmem := List.mem_cons.mp h
      · exact List.mem_cons_self
      · exact List.mem_cons_of_mem a (ih hmem)

/-- A search in a sound list stays in it. -/
theorem search_eq (h : Sound m) (found : ObjectNode → Bool) : m.search found = m := by
  have hnone : (m.visited found m.objectList).any
      (fun address => (m.allocated address).isNone) = false := by
    rw [List.any_eq_false]
    intro address hmem hnone
    have hsome := h.listed address (mem_visited hmem)
    rw [Option.isNone_iff_eq_none.mp hnone] at hsome
    exact Bool.false_ne_true hsome
  rw [search, hnone, Bool.or_false]

theorem addObjectToList_sound (h : Sound m) {address : Nat}
    (ha : address ≠ 0 → (m.allocated address).isSome = true) :
    Sound (m.addObjectToList address) := by
  rw [addObjectToList]
  split_ifs with hc
  · refine ⟨fun a hmem => ?_, h.strayed⟩
    obtain hmem | hmem := List.mem_append.mp hmem
    · exact h.listed a hmem
    · rw [List.mem_singleton.mp hmem]
      exact ha hc.1
  · exact h

theorem addObjectToList_allocated (address : Nat) :
    (m.addObjectToList address).allocated = m.allocated := by
  rw [addObjectToList]
  split_ifs <;> rfl

theorem addObjectToList_strayed (address : Nat) :
    (m.addObjectToList address).strayed = m.strayed := by
  rw [addObjectToList]
  split_ifs <;> rfl

/-- What a pointer leads to: an object, whose entities are published, or nothing. -/
theorem createNsdlObjectStructure_cases (resources : ResourceList η) (m : Memory η)
    (address : Nat) :
    (address ≠ 0 → (m.allocated address).isSome = true) ∧
      Kept m (m.createNsdlObjectStructure resources address).2 ∨
    (address ≠ 0 ∧ m.allocated address = none) ∧
      (m.createNsdlObjectStructure resources address).2 = { m with strayed := true } := by
  by_cases h : address ≠ 0 → (m.allocated address).isSome = true
  · exact Or.inl ⟨h, createNsdlObjectStructure_kept h⟩
  · rw [Classical.not_imp, Option.not_isSome_iff_eq_none] at h
    exact Or.inr ⟨h, createNsdlObjectStructure_strays h.1 h.2⟩

theorem publish_strayed {l : List Nat} {t : Bool × Memory η}
    (h : t.2.strayed = true) :
    (l.foldl (publish resources) t).2.strayed = true := by
  induction l generalizing t with
  | nil => exact h
  | cons a l ih =>
    refine ih ((addObjectToList_strayed a).trans ?_)
    obtain ⟨-, hk⟩ | ⟨-, hs⟩ := createNsdlObjectStructure_cases resources t.2 a
    · exact hk.strayed.trans h
    · exact congrArg Memory.strayed hs

/-- A list may be published exactly if its objects are there, or NULL. -/
theorem createNsdlListStructure_sound_iff (h : Sound m) (l : List Nat) :
    Sound (m.createNsdlListStructure resources l).2 ↔
      ∀ address ∈ l, address ≠ 0 → (m.allocated address).isSome = true := by
  suffices hall : ∀ t : Bool × Memory η, Sound t.2 → (Sound (l.foldl (publish resources) t).2 ↔
      ∀ address ∈ l, address ≠ 0 → (t.2.allocated address).isSome = true) from hall (false, m) h
  clear h
  induction l with
  | nil => exact fun t ht => iff_of_true ht (by simp)
  | cons a l ih =>
    intro t ht
    rw [List.foldl_cons, List.forall_mem_cons]
    obtain ⟨ha, hk⟩ | ⟨⟨hnull, hnone⟩, hs⟩ :=
      createNsdlObjectStructure_cases resources t.2 a
    · have hnext : Sound (publish resources t a).2 :=
        addObjectToList_sound (ht.kept hk) fun hnull => (hk.allocated a).trans (ha hnull)
      rw [ih _ hnext, and_iff_right ha]
      refine forall₂_congr fun address _ => imp_congr_right fun _ => ?_
      rw [publish]
      dsimp only
      rw [addObjectToList_allocated, hk.allocated]
    · refine iff_of_false (fun hsound => ?_) fun hall => ?_
      · have hstrayed : (publish resources t a).2.strayed = true :=
          (addObjectToList_strayed a).trans (congrArg Memory.strayed hs)
        exact Bool.false_ne_true (hsound.strayed.symm.trans (publish_strayed hstrayed))
      · have hsome := hall.1 hnull
        rw [hnone] at hsome
        exact Bool.false_ne_true hsome

theorem sendUpdateRegistration_sound (h : Sound m) : Sound (m.sendUpdateRegistration resources) :=
  (createNsdlListStructure_sound_iff h m.objectList).mpr fun address hmem _ => h.listed address hmem

theorem resourceCallback_sound (h : Sound m) (request : CoapHeader) :
    Sound (m.resourceCallback resources w request) := by
  rw [resourceCallback, search_eq h]
  dsimp only
  cases Nsdl.resourceCallback w m.objects request m.interface.heap with
  | none => exact h
  | some handled =>
    have hstored : Sound (m.storeAll resources handled.entity) := h.kept (storeAll_kept _)
    exact ⟨hstored.listed, hstored.strayed⟩

theorem receivedFromServer_sound (h : Sound m) (handle : NsdlHandle) (header : CoapHeader)
    (address : Option Address) :
    Sound (m.receivedFromServer resources w handle header address) := by
  have hsearch : (match searchedName handle header address with
      | none => m
      | some name => m.search (holds name)) = m := by
    cases searchedName handle header address with
    | none => rfl
    | some name => exact search_eq h _
  rw [receivedFromServer, hsearch]
  dsimp only
  cases Nsdl.receivedFromServer w handle header address
      { m.interface with objects := m.objects, calls := [] } with
  | none => exact h
  | some s =>
    have hkept : Sound (m.storeAll resources s.objects) := h.kept (storeAll_kept _)
    have hstored : Sound { m.storeAll resources s.objects with
        interface := { s with objects := [], calls := [] } } := ⟨hkept.listed, hkept.strayed⟩
    dsimp only
    split_ifs
    · exact sendUpdateRegistration_sound hstored
    · exact hstored

theorem destroy_sound_iff (h : Sound m) (address : Nat) :
    Sound (m.destroy resources address) ↔ address ∉ m.objectList := by
  rw [destroy]
  cases ha : m.allocated address with
  | none =>
    refine iff_of_true h fun hmem => ?_
    have hsome := h.listed address hmem
    rw [ha] at hsome
    exact Bool.false_ne_true hsome
  | some object =>
    have hfree : Kept m (m.freeResources resources address object (destroyed object.node)) :=
      freeResources_kept address object _
    dsimp only
    generalize m.freeResources resources address object (destroyed object.node) = m' at hfree
    have hgone (a : Nat) : ((m'.assign address none).allocated a).isSome =
        if a = address then false else (m'.allocated a).isSome := by
      change (Function.update m'.allocated address none a).isSome = _
      rw [Function.update_apply]
      split_ifs <;> rfl
    constructor
    · intro hsound hmem
      have hsome := hsound.listed address (hfree.objectList.symm ▸ hmem)
      rw [hgone, if_pos rfl] at hsome
      exact Bool.false_ne_true hsome
    · intro hmem
      refine ⟨fun a ha' => ?_, hfree.strayed.trans h.strayed⟩
      have ha'' : a ∈ m.objectList := hfree.objectList ▸ ha'
      rw [hgone, if_neg fun he : a = address => hmem (he ▸ ha''), hfree.allocated]
      exact h.listed a ha''

end Steps

end Memory

/-- The application publishes objects that are there, and destroys none that it has published. -/
def Access.Careful {η : Type} : Access → Memory η → Prop
  | .createNsdlListStructure objectList, m =>
    ∀ address ∈ objectList, address ≠ 0 → (m.allocated address).isSome = true
  | .incident (.destroy address), m => address ∉ m.objectList
  | _, _ => True

namespace Memory
variable {η : Type} {resources : ResourceList η} {w : Surroundings} {m : Memory η}

theorem step_sound_iff (h : Sound m) (a : Access) : Sound (step resources w a m) ↔ a.Careful m := by
  cases a with
  | createNsdlListStructure objectList => exact createNsdlListStructure_sound_iff h objectList
  | sendUpdateRegistration => exact iff_of_true (sendUpdateRegistration_sound h) trivial
  | incident i =>
    cases i with
    | create address o =>
      refine iff_of_true ?_ trivial
      change Sound (if _ then m else m.assign address (some { node := o }))
      split_ifs
      · exact h
      · refine ⟨fun a hmem => ?_, h.strayed⟩
        change (Function.update m.allocated address _ a).isSome = true
        rw [Function.update_apply]
        split_ifs
        · rfl
        · exact h.listed a hmem
    | change address o => exact iff_of_true (h.kept (store_kept address o)) trivial
    | destroy address => exact destroy_sound_iff h address
    | request request => exact iff_of_true (resourceCallback_sound h request) trivial
    | message handle header address =>
      exact iff_of_true (receivedFromServer_sound h handle header address) trivial
    | registrationTimer => exact iff_of_true (sendUpdateRegistration_sound h) trivial

end Memory

/-- In every run of the interface, with whatever happens besides, no element of the list is ever a
destroyed object and none is visited, if and only if the application publishes only objects that are
there and destroys none that it has published. -/
theorem listed_alive_iff {η : Type} (resources : ResourceList η) (w : Surroundings) (noisy : Bool)
    (config : Interface.Config) (endpointName domain : Bytes)
    (bindingMode : Interface.BindingMode) (listenPort : UInt16) (l : List (Script Entry))
    (incidents : List (List Incident)) (interface : NsdlInterface) (nsdlHandle : η) :
    let log := (run (Interface.machine noisy) accesses l
      (M2MInterfaceImpl.create config endpointName domain bindingMode listenPort,
        ([], incidents))).2.1
    Trace.Always (Memory.step resources w) Memory.Sound log (.start interface nsdlHandle) ↔
      Trace.Along (Memory.step resources w) Access.Careful log (.start interface nsdlHandle) := by
  intro log
  exact Trace.always_iff_along (I := Memory.Sound)
    (fun a _ h hc => (Memory.step_sound_iff h a).mpr hc) (fun _ h => h)
    (fun a _ h hs => (Memory.step_sound_iff h a).mp hs) ⟨fun _ hmem => (nomatch hmem), rfl⟩

/-- An object that is registered, and destroyed afterwards. -/
def destroyedIncidents : List (List Incident) :=
  [[.create 1 { instances := [], name := [0x33], params := fun _ => {} }], [], [], [], [],
    [], [], [],
    [], [.destroy 1]]

theorem registered_then_destroyed :
    let server : Interface.M2MSecurity :=
      ⟨2, .lwm2mServer, Interface.coapScheme ++ [0x61, 0x3A, 0x31], Interface.noSecurity⟩
    let yes : Reply Entry := .mk true []
    let log := (run (Interface.machine true) accesses
      [.mk (.registerObject (some server) [1]) [yes, yes, yes, yes]]
      (M2MInterfaceImpl.create {} [] [] .udp 0, ([], destroyedIncidents))).2.1
    ¬Trace.Always (Memory.step ⟨fun _ _ n => (0, n), fun _ _ n => n⟩
        ⟨1024, fun _ _ => none, Tlv.bigEndian, fun _ => none, Int, inferInstance, fun _ => {}⟩)
      Memory.Sound log
      (Memory.start ⟨[], none, 0, ⟨none⟩, false, 0, false, none, fun _ => true, []⟩ ()) := by
  intro server yes log h
  have hlast := h.last.listed 1 (by decide +kernel)
  exact absurd hlast (by decide +kernel)

end MbedClient.Nsdl
