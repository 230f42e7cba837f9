import MbedClient.Nsdl.ObjectList

/-! What a publication of objects returns, and what it has put. -/
namespace MbedClient.Nsdl

section Log
variable {α : Type*}

def accepted (result : Int8) : Bool := result == 0 || result == -2

/-- Of what has been put, in its order, what was accepted. -/
def done (log : List (α × Int8)) : List α := (log.filter (accepted ·.2)).map Prod.fst

/-- The last attempt was accepted. -/
def endsAccepted (log : List (α × Int8)) : Bool := log.getLast?.any (accepted ·.2)

/-- A publication of `expected`, what it has put and what it returns. It `closes` if the last thing
that it looks at is put, and is `full` if it looks at nothing that it leaves out. -/
structure Segment (closes full : Bool) (expected : List α) (log : List (α × Int8))
    (success : Bool) : Prop where
  sublist : (log.map Prod.fst).Sublist expected
  success : success = (closes && endsAccepted log)
  complete : done log = expected ↔ full = true ∧ ∀ p ∈ log, accepted p.2 = true
  nonempty : closes = true → log ≠ []

theorem done_sublist (log : List (α × Int8)) : (done log).Sublist (log.map Prod.fst) :=
  List.filter_sublist.map _

theorem append_eq_append_iff_of_sublist {a b c d : List α} (h : a.Sublist c) (h' : b.Sublist d) :
    a ++ b = c ++ d ↔ a = c ∧ b = d := by
  constructor
  · intro heq
    have hlength := congrArg List.length heq
    rw [List.length_append, List.length_append] at hlength
    have hle := h.length_le
    have hle' := h'.length_le
    exact List.append_inj heq (by omega)
  · intro ⟨heq, heq'⟩
    rw [heq, heq']

theorem endsAccepted_append {log log' : List (α × Int8)} (h : log' ≠ []) :
    endsAccepted (log ++ log') = endsAccepted log' := by
  rw [endsAccepted, List.getLast?_append_of_ne_nil _ h, endsAccepted]

namespace Segment
variable {closes full closes' full' success success' : Bool} {expected expected' : List α}
variable {log log' : List (α × Int8)}

theorem nil : Segment false true ([] : List α) [] false :=
  ⟨List.Sublist.refl _, rfl, by simp [done], by simp⟩

theorem single (x : α) (result : Int8) :
    Segment true true [x] [(x, result)] (accepted result) := by
  refine ⟨List.Sublist.refl _, by simp [endsAccepted], ?_, by simp⟩
  cases h : accepted result <;> simp [done, h]

theorem omitted (x : α) : Segment false false [x] [] false :=
  ⟨List.nil_sublist _, rfl, by simp [done], by simp⟩

/-- What one publication returns is forgotten when the next one follows. -/
theorem append (h : Segment closes full expected log success)
    (h' : Segment closes' full' expected' log' success') :
    Segment closes' (full && full') (expected ++ expected') (log ++ log') success' := by
  refine ⟨?_, ?_, ?_, ?_⟩
  · rw [List.map_append]
    exact h.sublist.append h'.sublist
  · rw [h'.success]
    cases hc : closes' with
    | false => rfl
    | true => rw [endsAccepted_append (h'.nonempty hc)]
  · have hdone : done (log ++ log') = done log ++ done log' := by
      rw [done, List.filter_append, List.map_append]
      rfl
    rw [hdone, append_eq_append_iff_of_sublist ((done_sublist log).trans h.sublist)
      ((done_sublist log').trans h'.sublist), h.complete, h'.complete]
    simp only [Bool.and_eq_true, List.forall_mem_append]
    tauto
  · intro hc
    simp [h'.nonempty hc]

/-- A publication that fails may end with that. -/
theorem stop (h : Segment true true expected log false) (expected' : List α) :
    Segment true true (expected ++ expected') log false := by
  have hlast : endsAccepted log = false := by
    simpa using h.success.symm
  have hnot : ¬∀ p ∈ log, accepted p.2 = true := by
    intro hall
    have hne := h.nonempty rfl
    have hin := hall _ (List.getLast_mem hne)
    rw [endsAccepted, List.getLast?_eq_some_getLast hne] at hlast
    exact Bool.false_ne_true (hlast.symm.trans hin)
  refine ⟨h.sublist.trans (List.sublist_append_left _ _), h.success, ?_, h.nonempty⟩
  refine iff_of_false ?_ (fun hall => hnot hall.2)
  intro heq
  have hsub := (done_sublist log).trans h.sublist
  have hlength := congrArg List.length heq
  rw [List.length_append] at hlength
  have hdone := hsub.eq_of_length_le (by omega)
  exact hnot (h.complete.mp hdone).2

end Segment
end Log

/-- What has been put, with the object that it belongs to, and the results. -/
abbrev PutLog := List ((Nat × Identity) × Int8)

/-- The CoAP library with a record of what is put. -/
def ResourceList.logged {η : Type} (resources : ResourceList η) : ResourceList (η × PutLog) where
  put address n handle :=
    let p := resources.put address n handle.1
    (p.1, p.2, handle.2 ++ [((address, n), p.1)])
  pop address n handle := (resources.pop address n handle.1, handle.2)

/-! What the library answers, whoever asks. -/
section Ask
variable {η : Type} (resources : ResourceList η)

/-- One thing after the other, up to one that is refused. -/
def ResourceList.ask : List (Nat × Identity) → η → PutLog × η
  | [], handle => ([], handle)
  | x :: l, handle =>
    let (result, handle) := resources.put x.1 x.2 handle
    if accepted result then
      let (log, handle) := ResourceList.ask l handle
      ((x, result) :: log, handle)
    else ([(x, result)], handle)

/-- One group after the other, whatever becomes of them. -/
def ResourceList.askAll : List (List (Nat × Identity)) → η → PutLog × η
  | [], handle => ([], handle)
  | l :: groups, handle =>
    let (log, handle) := resources.ask l handle
    let (log', handle) := ResourceList.askAll groups handle
    (log ++ log', handle)

theorem ask_append (l l' : List (Nat × Identity)) (handle : η) :
    resources.ask (l ++ l') handle =
      if (resources.ask l handle).1.all (accepted ·.2) then
        ((resources.ask l handle).1 ++ (resources.ask l' (resources.ask l handle).2).1,
          (resources.ask l' (resources.ask l handle).2).2)
      else resources.ask l handle := by
  induction l generalizing handle with
  | nil => rfl
  | cons x l ih =>
    simp only [List.cons_append, ResourceList.ask]
    cases hx : accepted (resources.put x.1 x.2 handle).1 with
    | false => simp [hx]
    | true =>
      simp only [if_true, ih, List.all_cons, hx, Bool.true_and]
      split_ifs <;> rfl

theorem askAll_append (groups groups' : List (List (Nat × Identity))) (handle : η) :
    resources.askAll (groups ++ groups') handle =
      ((resources.askAll groups handle).1 ++
        (resources.askAll groups' (resources.askAll groups handle).2).1,
        (resources.askAll groups' (resources.askAll groups handle).2).2) := by
  induction groups generalizing handle with
  | nil => rfl
  | cons l groups ih => simp only [List.cons_append, ResourceList.askAll, ih, List.append_assoc]

theorem askAll_single (l : List (Nat × Identity)) (handle : η) :
    resources.askAll [l] handle = resources.ask l handle := by
  simp [ResourceList.askAll]

/-- A group is a success if everything in it is accepted. -/
theorem ask_segment {l : List (Nat × Identity)} (hne : l ≠ []) (handle : η) :
    Segment true true l (resources.ask l handle).1
      ((resources.ask l handle).1.all (accepted ·.2)) := by
  induction l generalizing handle with
  | nil => exact absurd rfl hne
  | cons x l ih =>
    have hput := Segment.single x (resources.put x.1 x.2 handle).1
    rw [ResourceList.ask]
    cases hx : accepted (resources.put x.1 x.2 handle).1 with
    | false =>
      rw [hx] at hput
      simpa [hx] using hput.stop l
    | true =>
      cases l with
      | nil => simpa [ResourceList.ask, hx] using hput
      | cons y l =>
        have hrest := ih (List.cons_ne_nil y l) (resources.put x.1 x.2 handle).2
        simpa [hx] using hput.append hrest

end Ask

section Expected

/-- The resource is put, as nothing of it is unless it has an instance or needs none. -/
def closesResource (r : M2MResource) : Bool := !(r.multipleInstance && r.instances.isEmpty)

/-- The resource instances and then the resource. -/
def expectedOfResource (address : Nat) (name : Bytes) (id : UInt16) (r : M2MResource) :
    List (Nat × Identity) :=
  (if r.multipleInstance then
    r.instances.map fun i => (address, .resourceInstance name id r.name i.instanceId) else []) ++
    [(address, .resource name id r.name)]

variable (address : Nat) (o : ObjectNode) (oi : M2MObjectInstance)

/-- `operation() != M2MBase::NOT_ALLOWED` -/
def publishesInstance : Bool := (o.params (.objectInstance o.name oi.instanceId)).operation != 0

def publishesObject : Bool := o.own.operation != 0

def closesInstance : Bool := publishesInstance o oi || oi.resources.getLast?.any closesResource

def expectedOfInstance : List (Nat × Identity) :=
  oi.resources.flatMap (expectedOfResource address o.name oi.instanceId) ++
    if publishesInstance o oi then [(address, .objectInstance o.name oi.instanceId)] else []

def closesObject : Bool := publishesObject o || o.instances.getLast?.any (closesInstance o)

/-- Where the code asks for the rest only after a success. -/
def groupsOfResource (address : Nat) (name : Bytes) (id : UInt16) (r : M2MResource) :
    List (List (Nat × Identity)) :=
  if closesResource r then [expectedOfResource address name id r] else []

def groupsOfInstance : List (List (Nat × Identity)) :=
  oi.resources.flatMap (groupsOfResource address o.name oi.instanceId) ++
    if publishesInstance o oi then [[(address, .objectInstance o.name oi.instanceId)]] else []

def groupsOfObject : List (List (Nat × Identity)) :=
  o.instances.flatMap (groupsOfInstance address o) ++
    if publishesObject o then [[(address, .object o.name)]] else []

/-- No resource with several instances has none. -/
def fullObject : Bool := o.instances.all fun oi => oi.resources.all closesResource

def expectedOfObject : List (Nat × Identity) :=
  o.instances.flatMap (expectedOfInstance address o) ++
    if publishesObject o then [(address, .object o.name)] else []

end Expected

namespace Memory
variable {η : Type} (m : Memory η)

def node (address : Nat) : Option ObjectNode :=
  if address = 0 then none else (m.allocated address).map (·.node)

def closes (objectList : List Nat) : Bool :=
  objectList.getLast?.any fun address => (m.node address).any closesObject

def full (objectList : List Nat) : Bool :=
  objectList.all fun address => (m.node address).all fullObject

/-- Everything that should be published: each object and object instance that allows an operation,
each resource and each instance of a resource that has several. -/
def expected (objectList : List Nat) : List (Nat × Identity) :=
  objectList.flatMap fun address =>
    match m.node address with
    | none => []
    | some o => expectedOfObject address o

/-- What the library is asked for: the instances of a resource and the resource, up to one that is
refused, and then what holds the resource. -/
def groups (objectList : List Nat) : List (List (Nat × Identity)) :=
  objectList.flatMap fun address =>
    match m.node address with
    | none => []
    | some o => groupsOfObject address o

def answers (resources : ResourceList η) (objectList : List Nat) : PutLog :=
  (resources.askAll (m.groups objectList) m.nsdlHandle).1

def withLog : Memory (η × PutLog) :=
  { allocated := m.allocated, objectList := m.objectList, nsdlHandle := (m.nsdlHandle, [])
    interface := m.interface, strayed := m.strayed }

def withoutLog (m : Memory (η × PutLog)) : Memory η :=
  { allocated := m.allocated, objectList := m.objectList, nsdlHandle := m.nsdlHandle.1
    interface := m.interface, strayed := m.strayed }

/-- What `create_nsdl_list_structure` puts. -/
def puts (resources : ResourceList η) (objectList : List Nat) : PutLog :=
  (m.withLog.createNsdlListStructure resources.logged objectList).2.nsdlHandle.2

section Unlogged
variable (resources : ResourceList η) (m : Memory (η × PutLog))

def Unlogged (f : Memory (η × PutLog) → Bool × Memory (η × PutLog))
    (g : Memory η → Bool × Memory η) : Prop :=
  ∀ m, ((f m).1, (f m).2.withoutLog) = g m.withoutLog

theorem createNsdlResource_unlogged (address : Nat) (n : Identity) :
    Unlogged (·.createNsdlResource resources.logged address n)
      (·.createNsdlResource resources address n) := fun _ => rfl

theorem createNsdlResourceInstances_unlogged (address : Nat) (name : Bytes) (id : UInt16)
    (r : M2MResource) (l : List M2MResourceInstance) :
    Unlogged (createNsdlResourceInstances resources.logged address name id r · l)
      (createNsdlResourceInstances resources address name id r · l) := by
  induction l with
  | nil => exact fun _ => rfl
  | cons i l ih =>
    intro m
    simp only [createNsdlResourceInstances,
      ← createNsdlResource_unlogged resources address _ m]
    split_ifs
    · exact ih _
    · rfl

/-- A loop whose steps do not mind the record. -/
theorem foldl_unlogged {α : Type} {f : α → Memory (η × PutLog) → Bool × Memory (η × PutLog)}
    {g : α → Memory η → Bool × Memory η} (h : ∀ x, Unlogged (f x) (g x)) (l : List α) :
    Unlogged (fun m => l.foldl (fun t x => f x t.2) (false, m))
      (fun m => l.foldl (fun t x => g x t.2) (false, m)) := by
  induction l using List.reverseRecOn with
  | nil => exact fun _ => rfl
  | append_singleton l x ih =>
    intro m
    have hm := congrArg Prod.snd (ih m)
    simp only [List.foldl_append, List.foldl_cons, List.foldl_nil] at hm ⊢
    rw [← hm]
    exact h x _

theorem createNsdlResourceStructure_unlogged (address : Nat) (name : Bytes) (id : UInt16)
    (r : M2MResource) :
    Unlogged (·.createNsdlResourceStructure resources.logged address name id r)
      (·.createNsdlResourceStructure resources address name id r) := by
  intro m
  simp only [createNsdlResourceStructure,
    ← createNsdlResourceInstances_unlogged resources address name id r r.instances m]
  split_ifs <;> rfl

theorem createNsdlObjectInstanceStructure_unlogged (address : Nat) (o : ObjectNode)
    (oi : M2MObjectInstance) :
    Unlogged (·.createNsdlObjectInstanceStructure resources.logged address o oi)
      (·.createNsdlObjectInstanceStructure resources address o oi) := by
  intro m
  have hm := foldl_unlogged (fun r =>
    createNsdlResourceStructure_unlogged resources address o.name oi.instanceId r) oi.resources m
  simp only [createNsdlObjectInstanceStructure, ← hm]
  split_ifs <;> rfl

theorem createNsdlObjectStructure_unlogged (address : Nat) :
    Unlogged (·.createNsdlObjectStructure resources.logged address)
      (·.createNsdlObjectStructure resources address) := by
  intro m
  have hallocated : m.withoutLog.allocated = m.allocated := rfl
  simp only [createNsdlObjectStructure, hallocated]
  cases m.allocated address with
  | none => split_ifs <;> rfl
  | some object =>
    have hm := foldl_unlogged (fun oi =>
      createNsdlObjectInstanceStructure_unlogged resources address object.node oi)
      object.node.instances m
    simp only [← hm]
    split_ifs <;> rfl

theorem publish_unlogged (address : Nat) :
    Unlogged (fun m => publish resources.logged (false, m) address)
      (fun m => publish resources (false, m) address) := by
  intro m
  simp only [publish, ← createNsdlObjectStructure_unlogged resources address m, addObjectToList]
  split_ifs with h h' h'
  · rfl
  · exact absurd h h'
  · exact absurd h' h
  · rfl

theorem createNsdlListStructure_unlogged (objectList : List Nat) :
    Unlogged (·.createNsdlListStructure resources.logged objectList)
      (·.createNsdlListStructure resources objectList) :=
  foldl_unlogged (publish_unlogged resources) objectList

end Unlogged

section Run
variable (resources : ResourceList η)

/-- A run that keeps the objects, asks for a group, and returns whether all of it was accepted. -/
structure Tries (l : List (Nat × Identity)) (m : Memory (η × PutLog))
    (t : Bool × Memory (η × PutLog)) : Prop where
  node : t.2.node = m.node
  handle : t.2.nsdlHandle = ((resources.ask l m.nsdlHandle.1).2,
    m.nsdlHandle.2 ++ (resources.ask l m.nsdlHandle.1).1)
  success : t.1 = (resources.ask l m.nsdlHandle.1).1.all (accepted ·.2)

/-- A run that keeps the objects, asks for groups, and adds to the record a publication that returns
as it does. -/
structure Publishes (closes full : Bool) (expected : List (Nat × Identity))
    (groups : List (List (Nat × Identity))) (m : Memory (η × PutLog))
    (t : Bool × Memory (η × PutLog)) : Prop where
  node : t.2.node = m.node
  handle : t.2.nsdlHandle = ((resources.askAll groups m.nsdlHandle.1).2,
    m.nsdlHandle.2 ++ (resources.askAll groups m.nsdlHandle.1).1)
  segment : Segment closes full expected (resources.askAll groups m.nsdlHandle.1).1 t.1

variable {l l' expected expected' : List (Nat × Identity)} {closes full closes' full' : Bool}
variable {groups groups' : List (List (Nat × Identity))}
variable {m : Memory (η × PutLog)} {t t' : Bool × Memory (η × PutLog)} {resources}

theorem node_assign {address : Nat} {f : AllocatedObject → AllocatedObject}
    (hf : ∀ o, (f o).node = o.node) :
    (m.assign address ((m.allocated address).map f)).node = m.node := by
  funext a
  simp only [node, assign, Function.update_apply]
  split_ifs with hnull heq
  · rfl
  · subst heq
    cases m.allocated a <;> simp [hf]
  · rfl

theorem Tries.nothing : Tries resources [] m (true, m) := ⟨rfl, by simp [ResourceList.ask], rfl⟩

variable (resources) in
theorem createNsdlResource_tries (address : Nat) (n : Identity) :
    Tries resources [(address, n)] m (m.createNsdlResource resources.logged address n) := by
  refine ⟨node_assign fun _ => rfl, ?_, ?_⟩
  all_goals
    simp only [createNsdlResource, ResourceList.logged, ResourceList.ask]
    split_ifs <;> simp_all [accepted]

/-- One thing after the other, up to one that fails. -/
theorem Tries.orStop (h : Tries resources l m t)
    (h' : t.1 = true → Tries resources l' t.2 t') :
    Tries resources (l ++ l') m (if t.1 then t' else (false, t.2)) := by
  have hall := h.success
  have happend := ask_append resources l l' m.nsdlHandle.1
  rw [← hall] at happend
  cases hsuccess : t.1 with
  | true =>
    obtain ⟨hnode, hhandle, hsuccess'⟩ := h' hsuccess
    rw [hsuccess, if_pos rfl] at happend
    rw [h.handle] at hhandle hsuccess'
    refine ⟨hnode.trans h.node, ?_, ?_⟩
    · simp [happend, hhandle]
    · rw [hsuccess] at hall
      simp [happend, hsuccess', ← hall]
  | false =>
    rw [hsuccess, if_neg Bool.false_ne_true] at happend
    rw [hsuccess] at hall
    refine ⟨h.node, ?_, ?_⟩
    · simp [happend, h.handle]
    · simp [happend, ← hall]

variable (resources) in
theorem createNsdlResourceInstances_tries (address : Nat) (name : Bytes) (id : UInt16)
    (r : M2MResource) (l : List M2MResourceInstance) :
    Tries resources (l.map fun i => (address, .resourceInstance name id r.name i.instanceId)) m
      (createNsdlResourceInstances resources.logged address name id r m l) := by
  induction l generalizing m with
  | nil => exact Tries.nothing
  | cons i l ih =>
    have hput : Tries resources _ m _ := createNsdlResource_tries resources address
      (.resourceInstance name id r.name i.instanceId)
    exact hput.orStop fun _ => ih

variable (resources) in
theorem createNsdlResourceStructure_tries (address : Nat) (name : Bytes) (id : UInt16)
    {r : M2MResource} (h : closesResource r = true) :
    Tries resources (expectedOfResource address name id r) m
      (m.createNsdlResourceStructure resources.logged address name id r) := by
  rw [createNsdlResourceStructure, expectedOfResource]
  cases hmulti : r.multipleInstance with
  | false => exact createNsdlResource_tries resources address _
  | true =>
    have hl : r.instances.isEmpty = false := by simpa [closesResource, hmulti] using h
    have hinstances : Tries resources _ m _ :=
      createNsdlResourceInstances_tries resources address name id r r.instances
    simp only [hl, if_true, Bool.false_eq_true, if_false]
    exact hinstances.orStop fun _ => createNsdlResource_tries resources address _

theorem Tries.publishes (h : Tries resources l m t) (hne : l ≠ []) :
    Publishes resources true true l [l] m t := by
  refine ⟨h.node, ?_, ?_⟩
  · rw [askAll_single]
    exact h.handle
  · rw [askAll_single, h.success]
    exact ask_segment resources hne _

theorem Publishes.nothing : Publishes resources false true [] [] m (false, m) :=
  ⟨rfl, by simp [ResourceList.askAll], Segment.nil⟩

theorem Publishes.append (h : Publishes resources closes full expected groups m t)
    (h' : Publishes resources closes' full' expected' groups' t.2 t') :
    Publishes resources closes' (full && full') (expected ++ expected') (groups ++ groups') m
      t' := by
  have happend := askAll_append resources groups groups' m.nsdlHandle.1
  obtain ⟨hnode, hhandle, hs⟩ := h'
  rw [h.handle] at hhandle hs
  refine ⟨hnode.trans h.node, ?_, ?_⟩
  · simp [happend, hhandle]
  · rw [happend]
    exact h.segment.append hs

variable (resources) in
theorem createNsdlResourceStructure_publishes (address : Nat) (name : Bytes) (id : UInt16)
    (r : M2MResource) :
    Publishes resources (closesResource r) (closesResource r) (expectedOfResource address name id r)
      (groupsOfResource address name id r) m
      (m.createNsdlResourceStructure resources.logged address name id r) := by
  rw [groupsOfResource]
  cases hcloses : closesResource r with
  | true =>
    have hne : expectedOfResource address name id r ≠ [] := by simp [expectedOfResource]
    exact (createNsdlResourceStructure_tries resources address name id hcloses).publishes hne
  | false =>
    obtain ⟨hmulti, hl⟩ : r.multipleInstance = true ∧ r.instances = [] := by
      simpa [closesResource] using hcloses
    rw [createNsdlResourceStructure, expectedOfResource, hmulti, hl]
    exact ⟨rfl, by simp [ResourceList.askAll], Segment.omitted _⟩

theorem foldl_publishes {α : Type} {f : α → Memory (η × PutLog) → Bool × Memory (η × PutLog)}
    {closes full : α → Bool} {expected : α → List (Nat × Identity)}
    {groups : α → List (List (Nat × Identity))}
    (h : ∀ x m', m'.node = m.node →
      Publishes resources (closes x) (full x) (expected x) (groups x) m' (f x m')) (l : List α) :
    Publishes resources (l.getLast?.any closes) (l.all full) (l.flatMap expected)
      (l.flatMap groups) m
      (l.foldl (fun t x => f x t.2) (false, m)) := by
  induction l using List.reverseRecOn with
  | nil => exact Publishes.nothing
  | append_singleton l x ih =>
    have hx := ih.append (h x _ ih.node)
    simpa using hx

/-- What is published itself is so after everything in it. -/
theorem Publishes.own (h : Publishes resources closes full expected groups m t) (address : Nat)
    (n : Identity) (publishes : Bool) :
    Publishes resources (publishes || closes) full
      (expected ++ if publishes then [(address, n)] else [])
      (groups ++ if publishes then [[(address, n)]] else []) m
      (if publishes then t.2.createNsdlResource resources.logged address n else t) := by
  cases publishes with
  | false => simpa using h
  | true =>
    have hput : Publishes resources true true _ _ t.2 _ :=
      (createNsdlResource_tries resources address n).publishes (List.cons_ne_nil _ _)
    simpa using h.append hput

variable (resources) in
theorem createNsdlObjectInstanceStructure_publishes (address : Nat) (o : ObjectNode)
    (oi : M2MObjectInstance) :
    Publishes resources (closesInstance o oi) (oi.resources.all closesResource)
      (expectedOfInstance address o oi) (groupsOfInstance address o oi) m
      (m.createNsdlObjectInstanceStructure resources.logged address o oi) := by
  have h : Publishes resources _ _ _ _ m _ := foldl_publishes (fun r _ _ =>
    createNsdlResourceStructure_publishes resources address o.name oi.instanceId r) oi.resources
  have hown := h.own address (.objectInstance o.name oi.instanceId) (publishesInstance o oi)
  rw [createNsdlObjectInstanceStructure]
  simp only [← bne_iff_ne]
  exact hown

variable (resources) in
theorem createNsdlObjectStructure_publishes (address : Nat) :
    Publishes resources ((m.node address).any closesObject) ((m.node address).all fullObject)
      (match m.node address with
        | none => []
        | some o => expectedOfObject address o)
      (match m.node address with
        | none => []
        | some o => groupsOfObject address o) m
      (m.createNsdlObjectStructure resources.logged address) := by
  rw [createNsdlObjectStructure]
  by_cases hnull : address = 0
  · rw [if_pos hnull, node, if_pos hnull]
    exact Publishes.nothing
  cases ho : m.allocated address with
  | none =>
    rw [if_neg hnull, node, if_neg hnull, ho]
    exact ⟨rfl, by simp [ResourceList.askAll], Segment.nil⟩
  | some object =>
    have h : Publishes resources _ _ _ _ m _ := foldl_publishes (fun oi _ _ =>
      createNsdlObjectInstanceStructure_publishes resources address object.node oi)
      object.node.instances
    have hown := h.own address (.object object.node.name) (publishesObject object.node)
    rw [if_neg hnull, node, if_neg hnull, ho]
    simp only [← bne_iff_ne]
    exact hown

variable (resources) in
theorem createNsdlListStructure_publishes (objectList : List Nat) :
    Publishes resources (m.closes objectList) (m.full objectList) (m.expected objectList)
      (m.groups objectList) m (m.createNsdlListStructure resources.logged objectList) := by
  have hstep (address : Nat) (m' : Memory (η × PutLog)) (hnode : m'.node = m.node) :
      Publishes resources ((m.node address).any closesObject) ((m.node address).all fullObject)
        (match m.node address with
          | none => []
          | some o => expectedOfObject address o)
        (match m.node address with
          | none => []
          | some o => groupsOfObject address o) m'
        (publish resources.logged (false, m') address) := by
    have h : Publishes resources _ _ _ _ m' _ :=
      createNsdlObjectStructure_publishes resources address
    rw [hnode] at h
    refine ⟨Eq.trans ?_ h.node, Eq.trans ?_ h.handle, h.segment⟩
    all_goals
      simp only [publish, addObjectToList]
      split_ifs <;> rfl
  exact foldl_publishes hstep objectList

/-- The code asks for the groups, one after the other. -/
theorem puts_eq_answers (m : Memory η) (objectList : List Nat) :
    m.puts resources objectList = m.answers resources objectList := by
  have hrun := createNsdlListStructure_publishes resources (m := m.withLog) objectList
  have hlog := congrArg Prod.snd hrun.handle
  exact hlog.trans (List.nil_append _)

end Run

/-- A success means that all that should be published was put and accepted, unless an answer hides
what became of the things before it: the last answer counts, or none if the end of the list is not
put at all. -/
theorem success_published_iff (resources : ResourceList η) (m : Memory η) (objectList : List Nat) :
    ((m.createNsdlListStructure resources objectList).1 = true →
      done (m.puts resources objectList) = m.expected objectList) ↔
    m.closes objectList = false ∨ endsAccepted (m.answers resources objectList) = false ∨
      m.full objectList = true ∧ ∀ p ∈ m.answers resources objectList, accepted p.2 = true := by
  have hrun := createNsdlListStructure_publishes resources (m := m.withLog) objectList
  have hsame := createNsdlListStructure_unlogged resources objectList m.withLog
  have hs : Segment (m.closes objectList) (m.full objectList) (m.expected objectList)
      (m.answers resources objectList) _ := hrun.segment
  have hsuccess : (m.createNsdlListStructure resources objectList).1 =
      (m.closes objectList && endsAccepted (m.answers resources objectList)) :=
    (congrArg Prod.fst hsame).symm.trans hs.success
  rw [hsuccess, puts_eq_answers, hs.complete]
  cases m.closes objectList with
  | false => simp
  | true => cases endsAccepted (m.answers resources objectList) <;> simp

/-- Of an object with a resource, the put of the resource fails and that of the object does not. -/
theorem lost_resource_unreported :
    let resources : ResourceList Unit :=
      ⟨fun _ n s => (if n = .resource [0x33] 0 [0x30] then -1 else 0, s), fun _ _ s => s⟩
    let r : M2MResource := ⟨⟨.dynamic, getAllowed, .string, []⟩, [0x30], false, []⟩
    let o : ObjectNode :=
      { instances := [⟨0, [r]⟩], name := [0x33], params := fun _ => { operation := getAllowed } }
    let m : Memory Unit :=
      (Memory.start ⟨[], none, 0, ⟨none⟩, false, 0, false, none, fun _ => true, []⟩
      ()).assign 1 (some { node := o })
    (m.createNsdlListStructure resources [1]).1 = true ∧
      (1, .resource [0x33] 0 [0x30]) ∈ m.expected [1] ∧
      (1, .resource [0x33] 0 [0x30]) ∉ done (m.puts resources [1]) ∧
      ¬((m.createNsdlListStructure resources [1]).1 = true →
        done (m.puts resources [1]) = m.expected [1]) := by
  refine ⟨by decide +kernel, by decide +kernel, by decide +kernel, ?_⟩
  intro h
  exact absurd (h (by decide +kernel)) (by decide +kernel)

end Memory
end MbedClient.Nsdl
