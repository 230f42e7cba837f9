import MbedClient.Itoa
import MbedClient.Membership
import MbedClient.Security
import MbedClient.Trace

/-! `M2MFirmware`: the firmware object, of which there is one at most. The parameters of its
mandatory resources are static: the next instance finds them as the last one has left them. -/
namespace MbedClient

/-- `create_dynamic_resource(const lwm2m_parameters_s*, ..)` with the allocation that may fail: the
resource has the parameters that it is given. -/
def M2MObjectInstance.createDynamicResourceOf (oi : M2MObjectInstance) (name : Bytes)
    (params : M2MResourceBase) (h : Heap) : Bool × M2MObjectInstance × Heap :=
  let (success, oi') := oi.createResource name fun name => ⟨params, name, false, []⟩
  if success then
    let (created, h) := h.malloc
    (created, if created then oi' else oi, h)
  else (false, oi, h)

section Frame
variable {α : Type*} {p q : α → Bool} {xs : List α}

theorem find?_set {k : Nat} {x y : α} (hk : xs[k]? = some x) (hx : p x = false)
    (hy : p y = false) : (xs.set k y).find? p = xs.find? p := by
  induction xs generalizing k with
  | nil => rfl
  | cons a xs ih =>
    cases k with
    | zero =>
      obtain rfl := Option.some.inj hk
      rw [List.set_cons_zero, List.find?_cons_of_neg (by simp [hy]),
        List.find?_cons_of_neg (by simp [hx])]
    | succ k =>
      rw [List.set_cons_succ, List.find?_cons, List.find?_cons, ih hk]

theorem find?_eraseP (h : ∀ x, q x = true → p x = false) :
    (xs.eraseP p).find? q = xs.find? q := by
  induction xs with
  | nil => rfl
  | cons a xs ih =>
    by_cases ha : p a = true
    · have hq : ¬q a = true := fun hq => Bool.false_ne_true ((h a hq).symm.trans ha)
      rw [List.eraseP_cons_of_pos ha, List.find?_cons_of_neg hq]
    · rw [List.eraseP_cons_of_neg ha, List.find?_cons, List.find?_cons, ih]

variable {oi : M2MObjectInstance} {name name' : Bytes} {h : Heap}

/-- A resource is not touched through the name of another. -/
theorem useResource_other (hne : name' ≠ name)
    (use : M2MResourceBase → Heap → Bool × M2MResourceBase × Heap) :
    (oi.useResource name use h).2.1.resource name' = oi.resource name' := by
  rw [M2MObjectInstance.useResource]
  cases hfirst : Search.first (·.name == name) oi.resources with
  | none => rfl
  | some kr =>
    obtain ⟨k, r⟩ := kr
    have hpasses := Search.first_passes hfirst
    have hname : (r.name == name') = false := by
      rw [eq_of_beq hpasses]
      exact beq_eq_false_iff_ne.mpr hne.symm
    exact find?_set (Search.first_eq_some.mp hfirst).2 hname hname

theorem removeResource_other (hne : name' ≠ name) :
    (oi.removeResource name).2.resource name' = oi.resource name' := by
  refine find?_eraseP fun r hr => ?_
  rw [eq_of_beq hr]
  exact beq_eq_false_iff_ne.mpr hne

theorem resource_append (r : M2MResource) :
    ({ oi with resources := oi.resources ++ [r] } : M2MObjectInstance).resource name' =
      (oi.resource name').or (if r.name = name' then some r else none) := by
  rw [M2MObjectInstance.resource, M2MObjectInstance.resource, List.find?_append,
    List.find?_singleton]
  simp only [beq_iff_eq]

theorem createDynamicResource_other (hne : name' ≠ name) (type : ResourceType) (multi : Bool)
    (use : M2MResourceBase → M2MResourceBase) :
    (oi.createDynamicResource name type multi use h).2.1.resource name' = oi.resource name' := by
  rw [M2MObjectInstance.createDynamicResource]
  split_ifs
  · obtain ⟨created, h'⟩ := h.newNode
    cases created with
    | false => rfl
    | true => exact (resource_append _).trans (by rw [if_neg hne.symm, Option.or_none])
  · rfl

theorem createResource_other {make : Bytes → M2MResource} (hname : cStr name = name)
    (hmake : ∀ n, (make n).name = n) (hne : name' ≠ name) :
    (oi.createResource name make).2.resource name' = oi.resource name' := by
  rw [M2MObjectInstance.createResource, hname]
  split_ifs
  · rw [resource_append, hmake, if_neg hne.symm, Option.or_none]
  · rfl
  · rfl

theorem createResource_self {make : Bytes → M2MResource} (hname : cStr name = name)
    (hvalid : validateStringLength name 1 maxAllowedStringLength = true)
    (hnone : oi.resource name = none) : oi.createResource name make =
      (true, { oi with resources := oi.resources ++ [make name] }) := by
  rw [M2MObjectInstance.createResource, if_pos hvalid, hname, hnone]
  rfl

theorem createDynamicResourceOf_other (hname : cStr name = name) (hne : name' ≠ name)
    (params : M2MResourceBase) :
    (oi.createDynamicResourceOf name params h).2.1.resource name' = oi.resource name' := by
  have hother : (oi.createResource name fun name => ⟨params, name, false, []⟩).2.resource name' =
      oi.resource name' := createResource_other hname (fun _ => rfl) hne
  rw [M2MObjectInstance.createDynamicResourceOf]
  dsimp only
  split_ifs
  · exact hother
  · rfl
  · rfl

/-- A resource with new parameters takes one allocation. -/
theorem createDynamicResourceOf_self (hname : cStr name = name)
    (hvalid : validateStringLength name 1 maxAllowedStringLength = true)
    (hnone : oi.resource name = none) (params : M2MResourceBase) :
    (oi.createDynamicResourceOf name params h).1 = h 0 ∧
    (oi.createDynamicResourceOf name params h).2.1.resource name =
      (if h 0 then some ⟨params, name, false, []⟩ else none) ∧
    (oi.createDynamicResourceOf name params h).2.2 = fun n => h (n + 1) := by
  rw [M2MObjectInstance.createDynamicResourceOf, createResource_self hname hvalid hnone]
  dsimp only
  rw [if_pos rfl, Heap.malloc]
  cases h0 : h 0 with
  | false => exact ⟨rfl, hnone, rfl⟩
  | true => exact ⟨rfl, (resource_append _).trans (by rw [if_pos rfl, hnone]; rfl), rfl⟩

end Frame

namespace Firmware

inductive FirmwareResource where
  | package | packageUri | update | state | updateSupportedObjects | updateResult | packageName
  | packageVersion
  deriving DecidableEq

namespace FirmwareResource

def name : FirmwareResource → Bytes
  | package => [0x30]
  | packageUri => [0x31]
  | update => [0x32]
  | state => [0x33]
  | updateSupportedObjects => [0x34]
  | updateResult => [0x35]
  | packageName => [0x36]
  | packageVersion => [0x37]

theorem name_injective : Function.Injective name := by
  intro r r' h
  cases r <;> cases r' <;> first | rfl | exact absurd h (by decide)

def isMandatory : FirmwareResource → Bool
  | package | packageUri | update | state | updateResult => true
  | _ => false

end FirmwareResource

def operationNotAllowed : UInt8 := 0x00
def operationPutAllowed : UInt8 := 0x02
def operationPostAllowed : UInt8 := 0x04

/-- The values of `UpdateState`. -/
def idle : Int := 0
def downloaded : Int := 2

/-- `firmware_package_params_dynamic` and the others; only mandatory resources have any. -/
abbrev Statics := FirmwareResource → M2MResourceBase

def initialStatics : Statics
  | .package => ⟨.dynamic, operationPutAllowed, .opaqueData, []⟩
  | .packageUri => ⟨.dynamic, operationPutAllowed, .string, []⟩
  | .update => ⟨.dynamic, operationNotAllowed, .opaqueData, []⟩
  | .state => ⟨.dynamic, getAllowed, .integer, []⟩
  | .updateResult => ⟨.dynamic, getAllowed, .integer, []⟩
  | _ => ⟨.dynamic, operationNotAllowed, .string, []⟩

/-- `firmwareInstance` is missing if it could not be allocated. -/
structure M2MFirmware where
  firmwareInstance : Option M2MObjectInstance

namespace M2MFirmware

/-- One of the mandatory resources, with its first value if it has one. -/
def createMandatory (statics : Statics) (r : FirmwareResource) (value : Option Int64)
    (t : M2MObjectInstance × Heap) : M2MObjectInstance × Heap :=
  let (created, oi, h) := t.1.createDynamicResourceOf r.name (statics r) t.2
  match value with
  | none => (oi, h)
  | some value =>
    if created then (oi.useResource r.name (fun b => b.setValueInt value) h).2 else (oi, h)

def createMandatoryResources (statics : Statics) (oi : M2MObjectInstance) (h : Heap) :
    M2MObjectInstance × Heap :=
  createMandatory statics .updateResult (some 0) <|
    createMandatory statics .state (some 0) <|
      createMandatory statics .update none <|
        createMandatory statics .packageUri none <|
          createMandatory statics .package none (oi, h)

def new (statics : Statics) (h : Heap) : M2MFirmware :=
  let (created, h) := h.newNode
  if created then ⟨some (createMandatoryResources statics ⟨0, []⟩ h).1⟩ else ⟨none⟩

variable (f : M2MFirmware)

def getResource (r : FirmwareResource) : Option M2MResource :=
  f.firmwareInstance.bind (·.resource r.name)

def isResourcePresent (r : FirmwareResource) : Bool := (f.getResource r).isSome

def withInstance (use : M2MObjectInstance → Bool × M2MObjectInstance) : Bool × M2MFirmware :=
  match f.firmwareInstance with
  | none => (false, f)
  | some oi => ((use oi).1, ⟨some (use oi).2⟩)

/-- `set_operation` through the pointer that `get_resource` returns. -/
def setOperation (r : FirmwareResource) (operation : UInt8) : M2MFirmware :=
  (f.withInstance fun oi =>
    let t := oi.useResource r.name (fun b h => (true, b.setOperation operation, h)) fun _ => true
    (t.1, t.2.1)).2

/-- The range of a value, and what the state of the update means for the resource `Update`. -/
def checkValueRange (r : FirmwareResource) (value : Int64) : Bool × M2MFirmware :=
  match r with
  | .updateSupportedObjects => (value == 0 || value == 1, f)
  | .state =>
    if 0 ≤ value ∧ value ≤ 3 then
      (true, f.setOperation .update
        (if value.toInt = downloaded then operationPostAllowed else operationNotAllowed))
    else (false, f)
  | .updateResult => (decide (0 ≤ value) && decide (value ≤ 7), f)
  | _ => (false, f)

def addResource (r : FirmwareResource) (type : ResourceType) (operation : UInt8)
    (store : M2MResourceBase → Heap → Bool × M2MResourceBase × Heap) (h : Heap)
    (oi : M2MObjectInstance) : Bool × M2MObjectInstance :=
  let (created, oi, h) := oi.createDynamicResource r.name type false (·.setOperation operation) h
  if created then (true, (oi.useResource r.name store h).2.1) else (false, oi)

/-- An empty text clears the value. -/
def storeText (value : Bytes) (b : M2MResourceBase) (h : Heap) : Bool × M2MResourceBase × Heap :=
  if value.isEmpty then (true, b.clearValue, h) else b.setValue value h

/-- `create_resource` with a text. -/
def createResourceString (r : FirmwareResource) (value : Bytes) (h : Heap) : Bool × M2MFirmware :=
  if !f.isResourcePresent r && (r == .packageName || r == .packageVersion) &&
      decide (value.length < 256) then
    f.withInstance (addResource r .string getAllowed (storeText value) h)
  else (false, f)

/-- `create_resource` with a number. -/
def createResourceInt (r : FirmwareResource) (value : Int64) (h : Heap) : Bool × M2MFirmware :=
  if !f.isResourcePresent r && r == .updateSupportedObjects then
    let (inRange, f) := f.checkValueRange r value
    if inRange then
      f.withInstance (addResource r .integer getPutAllowed (fun b => b.setValueInt value) h)
    else (false, f)
  else (false, f)

def useValue (r : FirmwareResource) (use : M2MResourceBase → Heap → Bool × M2MResourceBase × Heap)
    (h : Heap) : Bool × M2MFirmware :=
  f.withInstance fun oi =>
    let t := oi.useResource r.name use h
    (t.1, t.2.1)

def setResourceValueString (r : FirmwareResource) (value : Bytes) (h : Heap) : Bool × M2MFirmware :=
  if f.isResourcePresent r && (r == .packageUri || r == .packageName || r == .packageVersion) &&
      decide (value.length < 256) then
    f.useValue r (storeText value) h
  else (false, f)

def setResourceValueInt (r : FirmwareResource) (value : Int64) (h : Heap) : Bool × M2MFirmware :=
  if f.isResourcePresent r &&
    (r == .state || r == .updateSupportedObjects || r == .updateResult) then
    let (inRange, f) := f.checkValueRange r value
    if inRange then f.useValue r (fun b => b.setValueInt value) h else (false, f)
  else (false, f)

def setResourceValueBuffer (r : FirmwareResource) (value : Bytes) (h : Heap) : Bool × M2MFirmware :=
  if f.isResourcePresent r && r == .package then f.useValue r (fun b => b.setValue value) h
  else (false, f)

def deleteResource (r : FirmwareResource) : Bool × M2MFirmware :=
  if r == .updateSupportedObjects || r == .packageName || r == .packageVersion then
    f.withInstance (·.removeResource r.name)
  else (false, f)

end M2MFirmware

/-- The calls of the application; those of the instance need one. Each comes with the outcomes of
its allocations. -/
inductive Call where
  | getInstance (h : Heap)
  | deleteInstance
  | createResourceString (r : FirmwareResource) (value : Bytes) (h : Heap)
  | createResourceInt (r : FirmwareResource) (value : Int64) (h : Heap)
  | deleteResource (r : FirmwareResource)
  | setResourceValueString (r : FirmwareResource) (value : Bytes) (h : Heap)
  | setResourceValueInt (r : FirmwareResource) (value : Int64) (h : Heap)
  | setResourceValueBuffer (r : FirmwareResource) (value : Bytes) (h : Heap)

/-- The static parameters, and `_instance`. While there is an instance its mandatory resources have
the parameters in their keeping. -/
structure World where
  statics : Statics := initialStatics
  singleton : Option M2MFirmware := none

namespace World
variable (w : World)

def leftBehind (f : M2MFirmware) : Statics := fun r =>
  if r.isMandatory then
    match f.getResource r with
    | some res => res.toM2MResourceBase
    | none => w.statics r
  else w.statics r

def onInstance (use : M2MFirmware → Bool × M2MFirmware) : World :=
  { w with singleton := w.singleton.map fun f => (use f).2 }

def step : Call → World → World
  | .getInstance h, w =>
    match w.singleton with
    | some _ => w
    | none => { w with singleton := some (.new w.statics h) }
  | .deleteInstance, w =>
    match w.singleton with
    | some f => ⟨w.leftBehind f, none⟩
    | none => w
  | .createResourceString r value h, w => w.onInstance (·.createResourceString r value h)
  | .createResourceInt r value h, w => w.onInstance (·.createResourceInt r value h)
  | .deleteResource r, w => w.onInstance (·.deleteResource r)
  | .setResourceValueString r value h, w => w.onInstance (·.setResourceValueString r value h)
  | .setResourceValueInt r value h, w => w.onInstance (·.setResourceValueInt r value h)
  | .setResourceValueBuffer r value h, w => w.onInstance (·.setResourceValueBuffer r value h)

end World

namespace M2MFirmware
variable {statics : Statics} {r r' : FirmwareResource} {t : M2MObjectInstance × Heap}

theorem name_valid (r : FirmwareResource) :
    validateStringLength r.name 1 maxAllowedStringLength = true := by
  cases r <;> rfl

theorem cStr_name (r : FirmwareResource) : cStr r.name = r.name := by
  cases r <;> rfl

theorem name_ne (h : r' ≠ r) : r'.name ≠ r.name := fun he => h (FirmwareResource.name_injective he)

theorem createMandatory_other (h : r' ≠ r) (value : Option Int64) :
    (createMandatory statics r value t).1.resource r'.name = t.1.resource r'.name := by
  have hother : (t.1.createDynamicResourceOf r.name (statics r) t.2).2.1.resource r'.name =
      t.1.resource r'.name := createDynamicResourceOf_other (cStr_name r) (name_ne h) (statics r)
  rw [createMandatory]
  cases value with
  | none => exact hother
  | some value =>
    dsimp only
    split_ifs
    · exact (useResource_other (name_ne h) _).trans hother
    · exact hother

theorem createMandatory_none (statics : Statics) (hnone : t.1.resource r.name = none) :
    (createMandatory statics r none t).1.resource r.name =
      (if t.2 0 then some ⟨statics r, r.name, false, []⟩ else none) ∧
    (createMandatory statics r none t).2 = fun n => t.2 (n + 1) := by
  obtain ⟨-, hself, hheap⟩ :=
    createDynamicResourceOf_self (h := t.2) (cStr_name r) (name_valid r) hnone (statics r)
  exact ⟨hself, hheap⟩

theorem createMandatory_some (statics : Statics) (hnone : t.1.resource r.name = none)
    (value : Int64) :
    (createMandatory statics r (some value) t).1.resource r.name =
      if t.2 0 then
        some ⟨((statics r).setValueInt value fun n => t.2 (n + 1)).2.1, r.name, false, []⟩
      else none := by
  obtain ⟨hcreated, hself, hheap⟩ :=
    createDynamicResourceOf_self (h := t.2) (cStr_name r) (name_valid r) hnone (statics r)
  rw [createMandatory]
  dsimp only
  rw [hcreated]
  cases h0 : t.2 0 with
  | false => rw [h0] at hself; exact hself
  | true =>
    rw [h0, if_pos rfl] at hself
    obtain ⟨oi', huse, hresource⟩ :=
      useResource_eq hself (fun b => b.setValueInt value) (fun n => t.2 (n + 1))
    rw [if_pos rfl, if_pos rfl, hheap, huse]
    exact hresource

/-- The mandatory resources in the order of their allocations. -/
theorem createMandatoryResources_resource (statics : Statics) (h : Heap) :
    (createMandatoryResources statics ⟨0, []⟩ h).1.resource FirmwareResource.update.name =
      (if h 2 then some ⟨statics .update, FirmwareResource.update.name, false, []⟩ else none) ∧
    (createMandatoryResources statics ⟨0, []⟩ h).1.resource FirmwareResource.state.name =
      if h 3 then
        some ⟨((statics .state).setValueInt 0 fun n => h (n + 4)).2.1,
          FirmwareResource.state.name, false, []⟩ else none := by
  have hempty (r : FirmwareResource) : (⟨0, []⟩ : M2MObjectInstance).resource r.name = none := rfl
  have hother (r r' : FirmwareResource) (hne : r' ≠ r) (t : M2MObjectInstance × Heap)
      (value : Option Int64) :
      (createMandatory statics r value t).1.resource r'.name = t.1.resource r'.name :=
    createMandatory_other hne value
  rw [createMandatoryResources, hother .updateResult .update (by decide),
    hother .state .update (by decide), hother .updateResult .state (by decide)]
  have hpackage := createMandatory_none (t := (⟨0, []⟩, h)) statics (hempty .package)
  generalize h1 : createMandatory statics .package none (⟨0, []⟩, h) = t1 at hpackage ⊢
  have hempty1 (r : FirmwareResource) (hr : r ≠ .package) : t1.1.resource r.name = none := by
    rw [← h1, hother _ _ hr]
    rfl
  have huri := createMandatory_none statics (hempty1 .packageUri (by decide))
  generalize h2 : createMandatory statics .packageUri none t1 = t2 at huri ⊢
  have hempty2 (r : FirmwareResource) (hr : r ≠ .package) (hr' : r ≠ .packageUri) :
      t2.1.resource r.name = none := by
    rw [← h2, hother _ _ hr', hempty1 r hr]
  have hupdate := createMandatory_none statics
    (hempty2 .update (by decide) (by decide))
  generalize h3 : createMandatory statics .update none t2 = t3 at hupdate ⊢
  have hempty3 : t3.1.resource FirmwareResource.state.name = none := by
    rw [← h3, hother _ _ (by decide), hempty2 _ (by decide) (by decide)]
  have hstate := createMandatory_some statics hempty3 0
  rw [hupdate.1, hstate, hupdate.2, huri.2, hpackage.2]
  exact ⟨rfl, rfl⟩

/-- The resources of a new instance that the update is about, if they can be allocated. -/
theorem new_resources (statics : Statics) (h : Heap) :
    (new statics h).getResource .update =
      (if h 0 && h 1 && h 4 then
        some ⟨statics .update, FirmwareResource.update.name, false, []⟩ else none) ∧
    (new statics h).getResource .state =
      if h 0 && h 1 && h 5 then
        some ⟨((statics .state).setValueInt 0 fun n => h (n + 6)).2.1,
          FirmwareResource.state.name, false, []⟩ else none := by
  cases h0 : h 0 with
  | false => simp [new, Heap.newNode, Heap.malloc, h0, getResource]
  | true =>
    cases h1 : h 1 with
    | false => simp [new, Heap.newNode, Heap.malloc, h0, h1, getResource]
    | true =>
      have hnew : new statics h =
          ⟨some (createMandatoryResources statics ⟨0, []⟩ fun n => h (n + 2)).1⟩ := by
        simp [new, Heap.newNode, Heap.malloc, h0, h1]
      obtain ⟨hupdate, hstate⟩ := createMandatoryResources_resource statics fun n => h (n + 2)
      simp only [Bool.true_and]
      rw [hnew, getResource, getResource, Option.bind_some, Option.bind_some, hupdate, hstate]
      exact ⟨rfl, rfl⟩

section Operations
variable {f : M2MFirmware}

theorem withInstance_resource {use : M2MObjectInstance → Bool × M2MObjectInstance}
    {r' : FirmwareResource}
    (huse : ∀ oi : M2MObjectInstance, (use oi).2.resource r'.name = oi.resource r'.name) :
    (f.withInstance use).2.getResource r' = f.getResource r' := by
  obtain ⟨instance'⟩ := f
  cases instance' with
  | none => rfl
  | some oi => exact huse oi

theorem useValue_other (h : r' ≠ r)
    (use : M2MResourceBase → Heap → Bool × M2MResourceBase × Heap) (heap : Heap) :
    (f.useValue r use heap).2.getResource r' = f.getResource r' :=
  withInstance_resource fun _ => useResource_other (name_ne h) _

theorem useValue_self (use : M2MResourceBase → Heap → Bool × M2MResourceBase × Heap)
    (heap : Heap) :
    (f.useValue r use heap).2.getResource r =
      (f.getResource r).map fun res =>
        { res with toM2MResourceBase := (use res.toM2MResourceBase heap).2.1 } := by
  obtain ⟨instance'⟩ := f
  cases instance' with
  | none => rfl
  | some oi =>
    change (oi.useResource r.name use heap).2.1.resource r.name = (oi.resource r.name).map _
    cases hr : oi.resource r.name with
    | none =>
      have hfirst : Search.first (·.name == r.name) oi.resources = none := by
        rw [← Option.isNone_iff_eq_none, ← Option.not_isSome, Search.first_isSome]
        simpa [M2MObjectInstance.resource] using hr
      rw [M2MObjectInstance.useResource, hfirst]
      exact hr
    | some res =>
      obtain ⟨oi', huse, hresource⟩ := useResource_eq hr use heap
      rw [huse]
      exact hresource

theorem setOperation_eq (r : FirmwareResource) (operation : UInt8) :
    f.setOperation r operation =
      (f.useValue r (fun b h => (true, b.setOperation operation, h)) fun _ => true).2 := rfl

/-- The update may be started and the resource says so, or neither. -/
def Follows (f : M2MFirmware) : Prop :=
  ∀ u s, f.getResource .update = some u → f.getResource .state = some s →
    u.operation = if s.getValueInt = downloaded then operationPostAllowed else operationNotAllowed

theorem follows_iff {u s : M2MResource} (hu : f.getResource .update = some u)
    (hs : f.getResource .state = some s) : f.Follows ↔
      u.operation = if s.getValueInt = downloaded then operationPostAllowed
        else operationNotAllowed := by
  refine ⟨fun h => h u s hu hs, fun h u' s' hu' hs' => ?_⟩
  obtain rfl := Option.some.inj (hu.symm.trans hu')
  obtain rfl := Option.some.inj (hs.symm.trans hs')
  exact h

/-- The resources after a new state: the operation of `Update` has changed before the value has. -/
theorem setState_resources {value : Int64} (heap : Heap) (hrange : 0 ≤ value ∧ value ≤ 3)
    (hstate : (f.getResource .state).isSome = true) :
    (f.setResourceValueInt .state value heap).2.getResource .update =
      (f.getResource .update).map (fun u => { u with
        toM2MResourceBase := u.toM2MResourceBase.setOperation
          (if value.toInt = downloaded then operationPostAllowed else operationNotAllowed) }) ∧
    (f.setResourceValueInt .state value heap).2.getResource .state =
      (f.getResource .state).map fun s => { s with
        toM2MResourceBase := (s.toM2MResourceBase.setValueInt value heap).2.1 } := by
  have hset : (f.setResourceValueInt .state value heap).2 =
      ((f.setOperation .update
        (if value.toInt = downloaded then operationPostAllowed else operationNotAllowed)).useValue
        .state (fun b => b.setValueInt value) heap).2 := by
    simp [setResourceValueInt, isResourcePresent, hstate, checkValueRange, hrange]
  rw [hset, useValue_other (by decide), useValue_self, setOperation_eq, useValue_self,
    useValue_other (by decide)]
  exact ⟨rfl, rfl⟩

theorem setState_mode {value : Int64} {heap : Heap}
    (hmode : ∀ u, f.getResource .update = some u → u.mode = .dynamic) {u : M2MResource}
    (hu : (f.setResourceValueInt .state value heap).2.getResource .update = some u) :
    u.mode = .dynamic := by
  by_cases hset : (f.getResource .state).isSome = true ∧ 0 ≤ value ∧ value ≤ 3
  · rw [(setState_resources heap hset.2 hset.1).1] at hu
    obtain ⟨u', hu', rfl⟩ := Option.map_eq_some_iff.mp hu
    exact hmode u' hu'
  · have hsame : (f.setResourceValueInt .state value heap).2 = f := by
      by_cases hstate : (f.getResource .state).isSome = true
      · have hrange : ¬(0 ≤ value ∧ value ≤ 3) := fun hr => hset ⟨hstate, hr⟩
        simp [setResourceValueInt, isResourcePresent, hstate, checkValueRange, hrange]
      · simp [setResourceValueInt, isResourcePresent, hstate]
    rw [hsame] at hu
    exact hmode u hu

theorem setState_follows_iff {value : Int64} {heap : Heap} (hf : Follows f)
    (hmode : ∀ u, f.getResource .update = some u → u.mode = .dynamic) :
    Follows (f.setResourceValueInt .state value heap).2 ↔
      ((f.getResource .update).isSome = true → (f.getResource .state).isSome = true →
        value.toInt = downloaded → heap 0 = true) := by
  by_cases hstate : (f.getResource .state).isSome = true
  · by_cases hrange : 0 ≤ value ∧ value ≤ 3
    · obtain ⟨hu, hs⟩ := setState_resources heap hrange hstate
      have hmin : value ≠ Int64.minValue := by
        rintro rfl
        exact absurd hrange.1 (by decide)
      obtain ⟨s, hs'⟩ := Option.isSome_iff_exists.mp hstate
      rw [hs', Option.map_some] at hs
      cases hu' : f.getResource .update with
      | none =>
        refine iff_of_true (fun u s hu'' _ => ?_) (fun h => absurd h Bool.false_ne_true)
        rw [hu, hu'] at hu''
        exact absurd hu'' (Option.some_ne_none u).symm
      | some u =>
        rw [hu', Option.map_some] at hu
        have hop (operation : UInt8) :
            (u.toM2MResourceBase.setOperation operation).operation = operation := by
          rw [M2MResourceBase.setOperation, hmode u hu', if_neg (by decide)]
        have hread := getValueInt_setValueInt s.toM2MResourceBase hmin heap
        have hfollows := follows_iff hu hs
        dsimp only at hfollows
        rw [hfollows, hop, hread, hs', Option.isSome_some, Option.isSome_some]
        simp only [forall_const]
        cases heap 0 with
        | true => simp
        | false =>
          rw [if_neg Bool.false_ne_true, if_neg (by decide : (0 : Int) ≠ downloaded)]
          by_cases hv : value.toInt = downloaded
          · rw [if_pos hv]
            exact iff_of_false (by decide) fun h => Bool.false_ne_true (h hv)
          · rw [if_neg hv]
            exact iff_of_true (by decide) fun h => absurd h hv
    · have hsame : (f.setResourceValueInt .state value heap).2 = f := by
        simp [setResourceValueInt, isResourcePresent, hstate, checkValueRange, hrange]
      rw [hsame]
      refine iff_of_true hf fun _ _ hv => absurd ?_ hrange
      rw [Int64.le_iff_toInt_le, Int64.le_iff_toInt_le, hv]
      decide
  · have hsame : (f.setResourceValueInt .state value heap).2 = f := by
      simp [setResourceValueInt, isResourcePresent, hstate]
    rw [hsame]
    exact iff_of_true hf fun _ h => absurd h hstate

/-- An operation that neither the state nor the update is a target of. -/
def Spares (f g : M2MFirmware) : Prop :=
  g.getResource .update = f.getResource .update ∧ g.getResource .state = f.getResource .state

theorem spares_refl : Spares f f := ⟨rfl, rfl⟩

theorem withInstance_spares {use : M2MObjectInstance → Bool × M2MObjectInstance}
    (huse : ∀ (oi : M2MObjectInstance) (r' : FirmwareResource), r' ≠ r →
      (use oi).2.resource r'.name = oi.resource r'.name)
    (hupdate : r ≠ .update) (hstate : r ≠ .state) : Spares f (f.withInstance use).2 :=
  ⟨withInstance_resource fun oi => huse oi .update hupdate.symm,
    withInstance_resource fun oi => huse oi .state hstate.symm⟩

theorem useValue_spares (hupdate : r ≠ .update) (hstate : r ≠ .state)
    (use : M2MResourceBase → Heap → Bool × M2MResourceBase × Heap) (heap : Heap) :
    Spares f (f.useValue r use heap).2 :=
  ⟨useValue_other hupdate.symm use heap, useValue_other hstate.symm use heap⟩

theorem addResource_other {oi : M2MObjectInstance} {heap : Heap} (h : r' ≠ r)
    (type : ResourceType) (operation : UInt8)
    (store : M2MResourceBase → Heap → Bool × M2MResourceBase × Heap) :
    (addResource r type operation store heap oi).2.resource r'.name = oi.resource r'.name := by
  have hother : (oi.createDynamicResource r.name type false (·.setOperation operation)
      heap).2.1.resource r'.name = oi.resource r'.name :=
    createDynamicResource_other (name_ne h) type false _
  rw [addResource]
  dsimp only
  split_ifs
  · exact (useResource_other (name_ne h) _).trans hother
  · exact hother

theorem createResourceString_spares (r : FirmwareResource) (value : Bytes) (heap : Heap) :
    Spares f (f.createResourceString r value heap).2 := by
  rw [createResourceString]
  split_ifs with hc
  · simp only [Bool.and_eq_true, Bool.or_eq_true, beq_iff_eq] at hc
    have hr : r ≠ .update ∧ r ≠ .state := by
      rcases hc.1.2 with rfl | rfl <;> decide
    exact withInstance_spares (fun oi r' hne => addResource_other hne _ _ _) hr.1 hr.2
  · exact spares_refl

theorem createResourceInt_spares (r : FirmwareResource) (value : Int64) (heap : Heap) :
    Spares f (f.createResourceInt r value heap).2 := by
  rw [createResourceInt]
  split_ifs with hc
  · simp only [Bool.and_eq_true, beq_iff_eq] at hc
    obtain ⟨-, rfl⟩ := hc
    rw [checkValueRange]
    dsimp only
    split_ifs
    · exact withInstance_spares (fun oi r' hne => addResource_other hne _ _ _) (by decide)
        (by decide)
    · exact spares_refl
  · exact spares_refl

theorem deleteResource_spares (r : FirmwareResource) : Spares f (f.deleteResource r).2 := by
  rw [deleteResource]
  split_ifs with hc
  · simp only [Bool.or_eq_true, beq_iff_eq] at hc
    have hr : r ≠ .update ∧ r ≠ .state := by
      rcases hc with (rfl | rfl) | rfl <;> decide
    exact withInstance_spares (fun oi r' hne => removeResource_other (name_ne hne)) hr.1 hr.2
  · exact spares_refl

theorem setResourceValueString_spares (r : FirmwareResource) (value : Bytes) (heap : Heap) :
    Spares f (f.setResourceValueString r value heap).2 := by
  rw [setResourceValueString]
  split_ifs with hc
  · simp only [Bool.and_eq_true, Bool.or_eq_true, beq_iff_eq] at hc
    have hr : r ≠ .update ∧ r ≠ .state := by
      rcases hc.1.2 with (rfl | rfl) | rfl <;> decide
    exact useValue_spares hr.1 hr.2 _ _
  · exact spares_refl

theorem setResourceValueBuffer_spares (r : FirmwareResource) (value : Bytes) (heap : Heap) :
    Spares f (f.setResourceValueBuffer r value heap).2 := by
  rw [setResourceValueBuffer]
  split_ifs with hc
  · simp only [Bool.and_eq_true, beq_iff_eq] at hc
    obtain ⟨-, rfl⟩ := hc
    exact useValue_spares (by decide) (by decide) _ _
  · exact spares_refl

theorem setResourceValueInt_spares {r : FirmwareResource} (hr : r ≠ .state) (value : Int64)
    (heap : Heap) : Spares f (f.setResourceValueInt r value heap).2 := by
  rw [setResourceValueInt]
  split_ifs with hc
  · simp only [Bool.and_eq_true, Bool.or_eq_true, beq_iff_eq, hr, false_or] at hc
    have hother : r ≠ .update ∧ (f.checkValueRange r value).2 = f := by
      rcases hc.2 with rfl | rfl <;> exact ⟨by decide, rfl⟩
    dsimp only
    rw [hother.2]
    split_ifs
    · exact useValue_spares hother.1 hr _ _
    · exact spares_refl
  · exact spares_refl

end Operations

end M2MFirmware

namespace World
variable {w : World}

/-- Whenever the singleton exists, its update may be started exactly if the firmware has been
downloaded. -/
def Executable (w : World) : Prop := ∀ f, w.singleton = some f → f.Follows

/-- What the calls leave alone: the parameters of `Update` are not static in the sense of `Mode`. -/
structure Sound (w : World) : Prop where
  executable : w.Executable
  statics : (w.statics .update).mode = .dynamic
  resource : ∀ f, w.singleton = some f → ∀ u, f.getResource .update = some u → u.mode = .dynamic

theorem Sound.onInstance (h : w.Sound) {use : M2MFirmware → Bool × M2MFirmware}
    (hfollows : ∀ f, w.singleton = some f → f.Follows → (use f).2.Follows)
    (hmode : ∀ f, w.singleton = some f → ∀ u, (use f).2.getResource .update = some u →
      u.mode = .dynamic) : (w.onInstance use).Sound := by
  refine ⟨fun g hg => ?_, h.statics, fun g hg => ?_⟩
  · obtain ⟨f, hf, rfl⟩ := Option.map_eq_some_iff.mp hg
    exact hfollows f hf (h.executable f hf)
  · obtain ⟨f, hf, rfl⟩ := Option.map_eq_some_iff.mp hg
    exact hmode f hf

theorem Sound.spares (h : w.Sound) {use : M2MFirmware → Bool × M2MFirmware}
    (hspares : ∀ f : M2MFirmware, f.Spares (use f).2) : (w.onInstance use).Sound := by
  refine h.onInstance (fun f _ hfollows u s hu hs => ?_) fun f hf u hu => ?_
  · rw [(hspares f).1] at hu
    rw [(hspares f).2] at hs
    exact hfollows u s hu hs
  · rw [(hspares f).1] at hu
    exact h.resource f hf u hu

/-- A new instance has the state `Idle`, and the operation of `Update` that the last one has
left. -/
theorem new_follows_iff (statics : Statics) (h : Heap) :
    (M2MFirmware.new statics h).Follows ↔
      ((h 0 && h 1 && h 4 && h 5) = true →
        (statics .update).operation = operationNotAllowed) := by
  obtain ⟨hu, hs⟩ := M2MFirmware.new_resources statics h
  by_cases hu' : (h 0 && h 1 && h 4) = true
  · rw [if_pos hu'] at hu
    by_cases hs' : (h 0 && h 1 && h 5) = true
    · rw [if_pos hs'] at hs
      have hall : (h 0 && h 1 && h 4 && h 5) = true := by
        simp only [Bool.and_eq_true] at hu' hs' ⊢
        exact ⟨hu', hs'.2⟩
      have hread := getValueInt_setValueInt (statics .state) (v := 0) (by decide)
        fun n => h (n + 6)
      have hfollows := M2MFirmware.follows_iff hu hs
      dsimp only at hfollows
      rw [hfollows, hread]
      simp only [hall, forall_const]
      have hidle : ¬(if h (0 + 6) = true then (0 : Int64).toInt else 0) = downloaded := by
        split_ifs <;> decide
      rw [if_neg hidle]
    · rw [if_neg hs'] at hs
      refine iff_of_true
        (fun u s _ hs'' => absurd (hs.symm.trans hs'') (Option.some_ne_none s).symm)
        fun hall => absurd ?_ hs'
      simp only [Bool.and_eq_true] at hall ⊢
      exact ⟨hall.1.1, hall.2⟩
  · rw [if_neg hu'] at hu
    refine iff_of_true (fun u s hu'' _ => absurd (hu.symm.trans hu'') (Option.some_ne_none u).symm)
      fun hall => absurd ?_ hu'
    exact (Bool.and_eq_true_iff.mp hall).1

end World

/-- Which calls leave `Update` with the right operation. A new instance is wrong if it finds there
what the last one has left in the state `Downloaded`, and so is that state if there is no room for
it. -/
def Call.Agrees (c : Call) (w : World) : Prop :=
  match c with
  | .getInstance h =>
    w.singleton = none → (h 0 && h 1 && h 4 && h 5) = true →
      (w.statics .update).operation = operationNotAllowed
  | .setResourceValueInt .state value h =>
    ∀ f, w.singleton = some f → (f.getResource .update).isSome = true →
      (f.getResource .state).isSome = true → value.toInt = downloaded → h 0 = true
  | _ => True

namespace World
variable {w : World}

theorem step_sound (h : w.Sound) (c : Call) (hc : c.Agrees w) : (step c w).Sound := by
  cases c with
  | getInstance heap =>
    rw [step]
    cases hs : w.singleton with
    | some f => exact h
    | none =>
      refine ⟨fun f hf => ?_, h.statics, fun f hf u hu => ?_⟩
      · obtain rfl := Option.some.inj hf
        exact (new_follows_iff w.statics heap).mpr (hc hs)
      · obtain rfl := Option.some.inj hf
        rw [(M2MFirmware.new_resources w.statics heap).1] at hu
        split_ifs at hu
        obtain rfl := Option.some.inj hu
        exact h.statics
  | deleteInstance =>
    rw [step]
    cases hs : w.singleton with
    | none => exact h
    | some f =>
      refine ⟨fun g hg => absurd hg (Option.some_ne_none g).symm, ?_,
        fun g hg => absurd hg (Option.some_ne_none g).symm⟩
      change (w.leftBehind f .update).mode = .dynamic
      have hmandatory : FirmwareResource.update.isMandatory = true := rfl
      rw [leftBehind, if_pos hmandatory]
      cases hu : f.getResource .update with
      | none => exact h.statics
      | some u => exact h.resource f hs u hu
  | createResourceString r value heap =>
    exact h.spares fun f => f.createResourceString_spares r value heap
  | createResourceInt r value heap =>
    exact h.spares fun f => f.createResourceInt_spares r value heap
  | deleteResource r => exact h.spares fun f => f.deleteResource_spares r
  | setResourceValueString r value heap =>
    exact h.spares fun f => f.setResourceValueString_spares r value heap
  | setResourceValueInt r value heap =>
    by_cases hr : r = .state
    · subst hr
      exact h.onInstance
        (fun f hf hfollows =>
          (M2MFirmware.setState_follows_iff hfollows (h.resource f hf)).mpr (hc f hf))
        fun f hf u hu => M2MFirmware.setState_mode (h.resource f hf) hu
    · exact h.spares fun f => f.setResourceValueInt_spares hr value heap
  | setResourceValueBuffer r value heap =>
    exact h.spares fun f => f.setResourceValueBuffer_spares r value heap

theorem step_agrees (h : w.Sound) (c : Call) (hc : (step c w).Executable) : c.Agrees w := by
  cases c with
  | getInstance heap =>
    intro hs
    rw [step, hs] at hc
    exact (new_follows_iff w.statics heap).mp (hc _ rfl)
  | setResourceValueInt r value heap =>
    by_cases hr : r = .state
    · subst hr
      intro f hf
      refine (M2MFirmware.setState_follows_iff (h.executable f hf) (h.resource f hf)).mp (hc _ ?_)
      exact Option.map_eq_some_iff.mpr ⟨f, hf, rfl⟩
    · cases r <;> trivial
  | _ => trivial

/-- In every run, whenever there is a firmware object, its `Update` resource has the operation
`POST_ALLOWED` if the value of its state is `Downloaded` and `NOT_ALLOWED` if not, if and only if
all calls agree with that. -/
theorem executable_iff (l : List Call) :
    Trace.Always step Executable l {} ↔ Trace.Along step Call.Agrees l {} :=
  Trace.always_iff_along (I := Sound) (fun c _ h hc => step_sound h c hc)
    (fun _ h => h.executable) (fun c _ h hc => step_agrees h c hc)
    ⟨fun f hf => absurd hf (Option.some_ne_none f).symm, rfl,
      fun f hf => absurd hf (Option.some_ne_none f).symm⟩

/-- The instance that follows one with the state `Downloaded`: its state is `Idle`, and its update
may be started. -/
def replaced : List Call :=
  [.getInstance fun _ => true, .setResourceValueInt .state 2 fun _ => true, .deleteInstance,
    .getInstance fun _ => true]

theorem replaced_not_executable : ¬Trace.Always step Executable replaced {} := by
  intro h
  obtain ⟨f, hf⟩ : ∃ f, (Trace.fold step replaced {}).singleton = some f :=
    Option.isSome_iff_exists.mp (by decide +kernel)
  obtain ⟨u, hu, hoperation⟩ : ∃ u, f.getResource .update = some u ∧
      u.operation = operationPostAllowed := by
    have h : ((Trace.fold step replaced {}).singleton.bind (·.getResource .update)).map
        (·.operation) = some operationPostAllowed := by decide +kernel
    rw [hf] at h
    exact Option.map_eq_some_iff.mp h
  obtain ⟨s, hs, hvalue⟩ : ∃ s, f.getResource .state = some s ∧ s.getValueInt = idle := by
    have h : ((Trace.fold step replaced {}).singleton.bind (·.getResource .state)).map
        (·.getValueInt) = some idle := by decide +kernel
    rw [hf] at h
    exact Option.map_eq_some_iff.mp h
  have hlast := h.2.2.2.2 f hf u s hu hs
  rw [hoperation, hvalue] at hlast
  exact absurd hlast (by decide)

end World

end Firmware
end MbedClient
