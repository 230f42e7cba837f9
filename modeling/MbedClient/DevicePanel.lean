import MbedClient.Device

/-! What a device shows to the application that calls it: a panel of texts and numbers. -/
namespace MbedClient.Device
open Firmware (operationPostAllowed)

inductive Content where
  | text (value : Bytes)
  | number (value : Int64)
  deriving DecidableEq

def Content.bytes : Content → Bytes
  | text value => value
  | number value => itoaC value

/-- What a device shows: the content of each instance of a resource. A resource without instances
shows the same for every id. -/
abbrev Panel := DeviceResource → UInt16 → Option Content

namespace Panel
variable (p : Panel) (r : DeviceResource) (id : UInt16)

def assigned (q : UInt16 → Option Content) (c : Content) : UInt16 → Option Content :=
  if r.isMultiple then Function.update q id (some c) else fun _ => some c

def cleared (q : UInt16 → Option Content) : UInt16 → Option Content :=
  if r.isMultiple then Function.update q id none else q

def assign (c : Content) : Panel := Function.update p r (assigned r id (p r) c)

/-- What the calls are for. Only a new entry is created, only a present one is set, and both only
with a value that the resource can have. -/
def step : Call → Panel → Panel
  | .createResourceString r value, p =>
    if (p r 0).isNone && decide (value.length ≤ maxAllowedStringLength) && r.isText then
      p.assign r 0 (.text value)
    else p
  | .createResourceInt r value, p =>
    if (p r 0).isNone && r.isSingleNumber &&
      r.checkValueRange value then p.assign r 0 (.number value)
    else p
  | .createResourceInstance r value id, p =>
    if (p r id).isNone && r.isMultiple && r.checkValueRange value then p.assign r id (.number value)
    else p
  | .createResource r, p =>
    if (p r 0).isNone && r.isExecutable then p.assign r 0 (.text []) else p
  | .deleteResource r, p => if r.isMandatory then p else Function.update p r fun _ => none
  | .deleteResourceInstance r id, p =>
    if r.isMandatory then p else Function.update p r (cleared r id (p r))
  | .setResourceValueString r value id, p =>
    if (p r id).isSome && decide (value.length ≤ maxAllowedStringLength) && r.isText then
      p.assign r id (.text value)
    else p
  | .setResourceValueInt r value id, p =>
    if (p r id).isSome && r.isNumber && r.checkValueRange value then p.assign r id (.number value)
    else p

def first : Panel
  | .reboot, _ => some (.text [])
  | .errorCode, id => if id = 0 then some (.number 0) else none
  | .supportedBindingMode, _ => some (.text [0x55])
  | _, _ => none

def valueInt : Int :=
  match p r id with
  | some (.number value) => value.toInt
  | _ => -1

end Panel

namespace DeviceResource

theorem name_injective : Function.Injective name := by
  intro r r' h
  cases r <;> cases r' <;> first | rfl | exact absurd h (by decide)

theorem cStr_name (r : DeviceResource) : cStr r.name = r.name := by
  cases r <;> decide

theorem name_valid (r : DeviceResource) :
    validateStringLength r.name 1 maxAllowedStringLength = true := by
  cases r <;> rfl

variable {r : DeviceResource}

/-- A number stands apart from texts and from what is executed. -/
theorem not_number (h : (r.isText || r.isExecutable) = true) : r.isNumber = false := by
  cases r <;> first | rfl | cases h

theorem not_multiple (h : (r.isText || r.isExecutable || r.isSingleNumber) = true) :
    r.isMultiple = false := by
  cases r <;> first | rfl | cases h

end DeviceResource

section Resource
variable {oi : M2MObjectInstance} {name name' : Bytes}

theorem resource_alterResource (h : oi.Unique) {g : M2MResource → Option M2MResource}
    (hg : ∀ res res', g res = some res' → res'.name = res.name) :
    (oi.alterResource name g).resource name' =
      if name' = name then (oi.resource name).bind g else oi.resource name' :=
  h.names.find_alter hg name'

end Resource

def shown (o : Option M2MResource) (id : UInt16) : Option Bytes :=
  (o.bind fun res =>
    if res.multipleInstance then (res.resourceInstance id).map (·.toM2MResourceBase)
    else some res.toM2MResourceBase).map (·.value)

section Shown
variable {res : M2MResource}

theorem shown_single (h : res.multipleInstance = false) (id : UInt16) :
    shown (some res) id = some res.value := by
  rw [shown, Option.bind_some, h]
  rfl

theorem shown_multiple (h : res.multipleInstance = true) (id : UInt16) :
    shown (some res) id = (res.resourceInstance id).map (·.value) := by
  rw [shown, Option.bind_some, if_pos h, Option.map_map]
  rfl

end Shown

section Store
variable {res : M2MResource} (id : UInt16) (value : Bytes)
open M2MDevice (storeIn)

theorem storeIn_single (h : res.multipleInstance = false) :
    (storeIn id value res).2 = { res with value } := by
  rw [storeIn, h]
  rfl

theorem storeIn_multiple (h : res.multipleInstance = true) (hunique : res.Unique) :
    (storeIn id value res).2 =
      { res with
        instances :=
          Keyed.alter (·.instanceId) id (fun i => some { i with value }) res.instances } := by
  rw [storeIn, if_pos h, Keyed.onEntry_eq hunique]

theorem storeIn_name : (storeIn id value res).2.name = res.name := by
  rw [storeIn]
  split_ifs <;> rfl

theorem storeIn_unique (h : res.Unique) : (storeIn id value res).2.Unique := by
  cases hm : res.multipleInstance with
  | false =>
    rw [storeIn_single id value hm]
    exact h
  | true =>
    rw [storeIn_multiple id value hm h]
    refine h.alter fun i i' hi => ?_
    rw [← Option.some.inj hi]

end Store

structure Fits (r : DeviceResource) (o : Option M2MResource) (q : UInt16 → Option Content) :
    Prop where
  unique : ∀ res, o = some res → res.Unique
  multiple : ∀ res, o = some res → res.multipleInstance = r.isMultiple
  single : ∀ res, o = some res → r.isMultiple = false → res.instances = []
  values : ∀ id, shown o id = (q id).map Content.bytes

namespace Fits
variable {r : DeviceResource} {o : Option M2MResource} {q : UInt16 → Option Content} {id : UInt16}
  {res : M2MResource}

/-- No resource, where nothing is shown. -/
theorem absent (hq : ∀ id, (q id).map Content.bytes = none) : Fits r none q where
  unique _ hs := by cases hs
  multiple _ hs := by cases hs
  single _ hs := by cases hs
  values id := (hq id).symm

/-- A resource without instances. -/
theorem alone (hsingle : r.isMultiple = false) (hmultiple : res.multipleInstance = false)
    (hnone : res.instances = []) (hq : ∀ id, (q id).map Content.bytes = some res.value) :
    Fits r (some res) q where
  unique res' hs := by
    rw [← Option.some.inj hs, M2MResource.Unique, hnone]
    exact Keyed.unique_nil _
  multiple res' hs := by rw [← Option.some.inj hs, hmultiple, hsingle]
  single res' hs _ := by rw [← Option.some.inj hs, hnone]
  values id := (shown_single hmultiple id).trans (hq id).symm

/-- A resource with instances. -/
theorem several (hm : r.isMultiple = true) (hmultiple : res.multipleInstance = true)
    (hunique : res.Unique)
    (hq : ∀ id, (res.resourceInstance id).map (·.value) = (q id).map Content.bytes) :
    Fits r (some res) q where
  unique res' hs := by rwa [← Option.some.inj hs]
  multiple res' hs := by rw [← Option.some.inj hs, hmultiple, hm]
  single res' _ hsingle := by
    rw [hm] at hsingle
    cases hsingle
  values id := (shown_multiple hmultiple id).trans (hq id)

theorem isSome_iff (h : Fits r o q) (id : UInt16) : (q id).isSome = (shown o id).isSome := by
  rw [h.values, Option.isSome_map]

theorem instances (h : Fits r (some res) q) (hm : r.isMultiple = true) (id : UInt16) :
    (res.resourceInstance id).map (·.value) = (q id).map Content.bytes := by
  rw [← h.values, shown_multiple ((h.multiple res rfl).trans hm)]

/-- A resource without instances is there if it shows something. -/
theorem eq_none (h : Fits r o q) (hsingle : r.isMultiple = false) (hq : (q id).isNone = true) :
    o = none := by
  cases o with
  | none => rfl
  | some res =>
    have hvalues := h.values id
    rw [shown_single ((h.multiple res rfl).trans hsingle),
      Option.isNone_iff_eq_none.mp hq] at hvalues
    cases hvalues

/-- One instance is another one, or new, or gone. -/
theorem change (h : Fits r (some res) q) (hm : r.isMultiple = true)
    {instances : List M2MResourceInstance} (hunique : Keyed.Unique (·.instanceId) instances)
    {x : Option Content}
    (hself : (instances.find? (·.instanceId == id)).map (·.value) = x.map Content.bytes)
    (hother : ∀ id', id' ≠ id → instances.find? (·.instanceId == id') = res.resourceInstance id') :
    Fits r (some { res with instances }) (Function.update q id x) := by
  refine several hm ((h.multiple res rfl).trans hm) hunique fun id' => ?_
  by_cases heq : id' = id
  · rw [heq, Function.update_self]
    exact hself
  · rw [Function.update_of_ne heq, ← h.instances hm id', ← hother id' heq]
    rfl

theorem assign (h : Fits r (some res) q) (hid : (q id).isSome = true) (c : Content) :
    Fits r (some (M2MDevice.storeIn id c.bytes res).2) (Panel.assigned r id q c) := by
  have hmultiple := h.multiple res rfl
  cases hm : r.isMultiple with
  | false =>
    rw [storeIn_single id c.bytes (hmultiple.trans hm), Panel.assigned, hm]
    exact alone hm (hmultiple.trans hm) (h.single res rfl hm) fun _ => rfl
  | true =>
    have hunique := h.unique res rfl
    have hkey : ∀ i i' : M2MResourceInstance, some { i with value := c.bytes } = some i' →
        i'.instanceId = i.instanceId := by
      intro i i' hi
      rw [← Option.some.inj hi]
    have hfound := hunique.find_alter (k := id) hkey
    rw [storeIn_multiple id c.bytes (hmultiple.trans hm) hunique, Panel.assigned, if_pos hm]
    refine h.change hm (hunique.alter hkey) ?_ fun id' hne => ?_
    · obtain ⟨i, hi⟩ : ∃ i, res.resourceInstance id = some i := by
        rw [← Option.isSome_iff_exists, ← Option.isSome_map (f := (·.value)), h.instances hm,
          Option.isSome_map, hid]
      have hentry : res.instances.find? (·.instanceId == id) = some i := hi
      rw [hfound, if_pos rfl, hentry]
      rfl
    · rw [hfound, if_neg hne, M2MResource.resourceInstance]

/-- A new instance, of a resource that may be new. -/
theorem grow (h : Fits r (some res) q) (hm : r.isMultiple = true)
    (hid : (res.resourceInstance id).isNone = true) (base : M2MResourceBase)
    (hvalue : base.value = []) :
    Fits r (some { res with instances := res.instances ++ [⟨base, id⟩] })
      (Panel.assigned r id q (.text [])) := by
  rw [Panel.assigned, if_pos hm]
  refine h.change hm ((h.unique res rfl).append (i := ⟨base, id⟩) hid) ?_ fun id' hne => ?_
  · have hentry : res.instances.find? (·.instanceId == id) = none :=
      Option.isNone_iff_eq_none.mp hid
    simp [hentry, hvalue, Content.bytes]
  · rw [M2MResource.resourceInstance, List.find?_append,
      List.find?_cons_of_neg (by simpa using hne.symm)]
    simp

theorem shrink (h : Fits r o q) (id : UInt16) :
    Fits r (o.bind (M2MObjectInstance.withoutMember id)) (Panel.cleared r id q) := by
  rw [Panel.cleared]
  cases o with
  | none =>
    refine absent fun id' => ?_
    have hvalues := h.values id'
    split_ifs
    · by_cases heq : id' = id
      · rw [heq, Function.update_self]
        rfl
      · rw [Function.update_of_ne heq]
        exact hvalues.symm
    · exact hvalues.symm
  | some res =>
    rw [Option.bind_some, M2MObjectInstance.withoutMember]
    cases hm : r.isMultiple with
    | false =>
      have hnone : (res.resourceInstance id).isNone = true := by
        rw [M2MResource.resourceInstance, h.single res rfl hm]
        rfl
      rw [M2MResource.without_self hnone, Option.isNone_iff_eq_none.mp hnone]
      exact h
    | true =>
      have hunique := h.unique res rfl
      have hfound (id' : UInt16) : (res.without id).instances.find? (·.instanceId == id') =
          if id' = id then (res.instances.find? (·.instanceId == id)).bind fun _ => none
          else res.instances.find? (·.instanceId == id') :=
        hunique.find_alter (fun _ _ hi => by cases hi) id'
      have hleft : Fits r (some (res.without id)) (Function.update q id none) := by
        refine h.change hm (hunique.without id) ?_ fun id' hne => ?_
        · rw [hfound, if_pos rfl]
          cases res.instances.find? (·.instanceId == id) <;> rfl
        · rw [hfound, if_neg hne, M2MResource.resourceInstance]
      rw [if_pos rfl]
      split_ifs with hlast
      · refine absent fun id' => ?_
        have hempty := List.isEmpty_iff.mp (Bool.and_eq_true_iff.mp hlast).2
        rw [← hleft.instances hm, M2MResource.resourceInstance, hempty]
        rfl
      · exact hleft

end Fits

namespace Panel
variable {p : Panel} {r : DeviceResource} {id : UInt16}

theorem assign_assign (c c' : Content) : (p.assign r id c).assign r id c' = p.assign r id c' := by
  have hsame : assigned r id (assigned r id (p r) c) c' = assigned r id (p r) c' := by
    rw [assigned, assigned, assigned]
    split_ifs
    · exact Function.update_idem _ _ _
    · rfl
  rw [assign, assign, Function.update_self, Function.update_idem, hsame, assign]

theorem assign_isSome (c : Content) : (p.assign r id c r id).isSome = true := by
  rw [assign, Function.update_self, assigned]
  split_ifs
  · rw [Function.update_self]
    rfl
  · rfl

end Panel

/-- The device is as the panel shows it. -/
structure Shows (d : M2MDevice) (p : Panel) : Prop where
  unique : d.deviceInstance.Unique
  fits : ∀ r : DeviceResource, Fits r (d.deviceInstance.resource r.name) (p r)

namespace Shows
variable {d : M2MDevice} {p : Panel} {r : DeviceResource} {id : UInt16}

theorem isSome (h : Shows d p) (r : DeviceResource) (id : UInt16) :
    (d.getResourceInstance r id).isSome = (p r id).isSome := by
  rw [(h.fits r).isSome_iff, shown, Option.isSome_map]
  rfl

theorem isResourcePresent (h : Shows d p) (r : DeviceResource) :
    d.isResourcePresent r = (p r 0).isSome := h.isSome r 0

/-- Only one resource is another one. -/
theorem update (h : Shows d p) {oi : M2MObjectInstance} (hu : oi.Unique)
    (hother : ∀ r', r' ≠ r → oi.resource r'.name = d.deviceInstance.resource r'.name)
    {q : UInt16 → Option Content} (hself : Fits r (oi.resource r.name) q) :
    Shows ⟨oi⟩ (Function.update p r q) := by
  refine ⟨hu, fun r' => ?_⟩
  by_cases heq : r' = r
  · subst heq
    rw [Function.update_self]
    exact hself
  · rw [Function.update_of_ne heq]
    have hfits := h.fits r'
    rwa [← hother r' heq] at hfits

/-- A new resource at the end. -/
theorem push (h : Shows d p) (hnone : d.deviceInstance.resource r.name = none) {res : M2MResource}
    (hname : res.name = r.name) (hempty : res.instances = []) {q : UInt16 → Option Content}
    (hself : Fits r (some res) q) :
    Shows ⟨{ d.deviceInstance with resources := d.deviceInstance.resources ++ [res] }⟩
      (Function.update p r q) := by
  refine h.update (h.unique.push ?_ hempty) (fun r' hne => ?_) ?_
  · rw [hname, hnone]
    rfl
  · have hother : res.name ≠ r'.name := fun hn =>
      hne (DeviceResource.name_injective (hname.symm.trans hn)).symm
    rw [resource_append, if_neg hother, Option.or_none]
  · rw [resource_append, if_pos hname, hnone, Option.none_or]
    exact hself

/-- What becomes of one resource, by its name. -/
theorem alter (h : Shows d p) {g : M2MResource → Option M2MResource}
    (hg : ∀ res res', g res = some res' → res'.name = res.name ∧ (res.Unique → res'.Unique))
    {q : UInt16 → Option Content}
    (hself : Fits r ((d.deviceInstance.resource r.name).bind g) q) :
    Shows ⟨d.deviceInstance.alterResource r.name g⟩ (Function.update p r q) := by
  have hresource (name : Bytes) : (d.deviceInstance.alterResource r.name g).resource name =
      if name = r.name then (d.deviceInstance.resource r.name).bind g
      else d.deviceInstance.resource name :=
    resource_alterResource h.unique fun res res' hs => (hg res res' hs).1
  refine h.update (h.unique.alterResource hg) (fun r' hne => ?_) ?_
  · rw [hresource, if_neg fun hn => hne (DeviceResource.name_injective hn)]
  · rwa [hresource, if_pos rfl]

theorem store (h : Shows d p) (hid : (p r id).isSome = true) (c : Content) :
    Shows (d.store r id c.bytes).2 (p.assign r id c) := by
  have hfits := h.fits r
  have hshown : (shown (d.deviceInstance.resource r.name) id).isSome = true :=
    (hfits.isSome_iff id).symm.trans hid
  obtain ⟨res, hres⟩ : ∃ res, d.deviceInstance.resource r.name = some res := by
    cases hres : d.deviceInstance.resource r.name with
    | none =>
      rw [hres] at hshown
      cases hshown
    | some res => exact ⟨res, rfl⟩
  rw [hres] at hfits
  have hself := hfits.assign hid c
  rw [M2MDevice.store, M2MObjectInstance.onResource_eq h.unique]
  refine h.alter (fun res res' hs => ?_) ?_
  · obtain rfl := Option.some.inj hs
    exact ⟨storeIn_name id c.bytes, fun hu => storeIn_unique id c.bytes hu⟩
  · rw [hres]
    exact hself

/-- A resource without instances, with its value. -/
theorem addResource (h : Shows d p) (hsingle : r.isMultiple = false) (hq : (p r 0).isNone = true)
    (type : ResourceType) (operation : UInt8) (c : Content) :
    Shows (d.addResource r type operation c.bytes).2 (p.assign r 0 c) := by
  have hnone : d.deviceInstance.resource r.name = none := (h.fits r).eq_none hsingle hq
  have hcreate : d.deviceInstance.createResource r.name
      (fun name => ⟨⟨.dynamic, operation, type, []⟩, name, false, []⟩) =
      (true, { d.deviceInstance with resources :=
        d.deviceInstance.resources ++ [⟨⟨.dynamic, operation, type, []⟩, r.name, false, []⟩] }) :=
    createResource_self r.cStr_name r.name_valid hnone
  rw [M2MDevice.addResource, hcreate, ← Panel.assign_assign (.text []) c]
  refine store (h.push hnone rfl rfl ?_) (Panel.assign_isSome _) c
  rw [Panel.assigned, hsingle]
  exact Fits.alone hsingle rfl rfl fun _ => rfl

/-- The resource that an instance is to be added to. -/
theorem demand (h : Shows d p) (hm : r.isMultiple = true) :
    ∃ res, Shows ⟨d.deviceInstance.demandResource r.name fun name =>
        ⟨⟨.dynamic, getAllowed, .integer, []⟩, name, true, []⟩⟩ p ∧
      (d.deviceInstance.demandResource r.name fun name =>
        ⟨⟨.dynamic, getAllowed, .integer, []⟩, name, true, []⟩).resource r.name = some res := by
  rw [M2MObjectInstance.demandResource]
  split_ifs with hnone
  · have hres := Option.isNone_iff_eq_none.mp hnone
    have hfits := h.fits r
    rw [hres] at hfits
    have hsame : Function.update p r (p r) = p := Function.update_eq_self r p
    refine ⟨⟨⟨.dynamic, getAllowed, .integer, []⟩, r.name, true, []⟩, ?_, ?_⟩
    · rw [← hsame]
      exact h.push hres rfl rfl (Fits.several hm rfl (Keyed.unique_nil _) fun id => hfits.values id)
    · rw [resource_append, if_pos rfl, hres, Option.none_or]
  · obtain ⟨res, hres⟩ := Option.ne_none_iff_exists'.mp (mt Option.isNone_iff_eq_none.mpr hnone)
    exact ⟨res, h, hres⟩

theorem createResourceInstance (h : Shows d p) (hm : r.isMultiple = true) (id : UInt16) :
    ∃ oi, d.deviceInstance.createResourceInstance r.name ⟨.dynamic, getAllowed, .integer, []⟩ id =
        ((p r id).isNone, oi) ∧
      Shows ⟨oi⟩ (if (p r id).isNone then p.assign r id (.text []) else p) := by
  obtain ⟨res, hdemand, hres⟩ := h.demand hm
  have hfits := hdemand.fits r
  rw [hres] at hfits
  have hmultiple : res.multipleInstance = true := (hfits.multiple res rfl).trans hm
  have habsent : (res.resourceInstance id).isNone = (p r id).isNone := by
    rw [← Option.isNone_map (f := (·.value)), hfits.instances hm, Option.isNone_map]
  have hadds : (res.multipleInstance && (res.resourceInstance id).isNone) = (p r id).isNone := by
    rw [hmultiple, Bool.true_and, habsent]
  rw [M2MObjectInstance.createResourceInstance, if_pos r.name_valid, r.cStr_name,
    M2MObjectInstance.onResource_eq hdemand.unique, hres, Option.any_some, hadds]
  refine ⟨_, Prod.ext ?_ rfl, ?_⟩
  · cases (p r id).isNone <;> rfl
  · have hself : Function.update p r (p r) = p := Function.update_eq_self r p
    have hpanel : (if (p r id).isNone then p.assign r id (.text []) else p) = Function.update p r
        (if (p r id).isNone then Panel.assigned r id (p r) (.text []) else p r) := by
      split_ifs
      · rfl
      · exact hself.symm
    rw [hpanel]
    refine hdemand.alter (fun res' res'' hs => ?_) ?_
    · rw [← Option.some.inj hs]
      split_ifs with hc
      · exact ⟨rfl, fun hu => hu.append (i := ⟨_, id⟩) (Bool.and_eq_true_iff.mp hc).2⟩
      · exact ⟨rfl, fun hu => hu⟩
    · rw [hres, Option.bind_some, hadds]
      cases hnew : (p r id).isNone with
      | true => exact hfits.grow hm (habsent.trans hnew) ⟨.dynamic, getAllowed, .integer, []⟩ rfl
      | false => exact hfits

theorem addResourceInstance (h : Shows d p) (hm : r.isMultiple = true) (id : UInt16) (c : Content) :
    Shows (d.addResourceInstance r id c.bytes).2
      (if (p r id).isNone then p.assign r id c else p) := by
  obtain ⟨oi, hcreate, hshows⟩ := h.createResourceInstance hm id
  rw [M2MDevice.addResourceInstance, hcreate]
  cases hnew : (p r id).isNone with
  | true =>
    rw [hnew, if_pos rfl] at hshows
    have hstored := hshows.store (Panel.assign_isSome _) c
    rwa [Panel.assign_assign] at hstored
  | false =>
    rw [hnew] at hshows
    exact hshows

/-- One call of the application. -/
theorem step (h : Shows d p) (call : Call) : Shows (d.step call) (p.step call) := by
  cases call with
  | createResourceString r value =>
    rw [M2MDevice.step, M2MDevice.createResourceString, Panel.step, h.isResourcePresent,
      Option.not_isSome]
    split_ifs with hc
    · simp only [Bool.and_eq_true] at hc
      have hsingle : r.isMultiple = false :=
        DeviceResource.not_multiple (by rw [hc.2, Bool.true_or, Bool.true_or])
      exact h.addResource hsingle hc.1.1 _ _ (.text value)
    · exact h
  | createResourceInt r value =>
    rw [M2MDevice.step, M2MDevice.createResourceInt, Panel.step, h.isResourcePresent,
      Option.not_isSome]
    split_ifs with hc
    · simp only [Bool.and_eq_true] at hc
      have hsingle : r.isMultiple = false :=
        DeviceResource.not_multiple (by rw [hc.1.2, Bool.or_true])
      exact h.addResource hsingle hc.1.1 _ _ (.number value)
    · exact h
  | createResourceInstance r value id =>
    rw [M2MDevice.step, M2MDevice.createResourceInstance, Panel.step, Bool.and_assoc]
    cases hc : r.isMultiple && r.checkValueRange value with
    | true =>
      rw [if_pos rfl, Bool.and_true]
      exact h.addResourceInstance (Bool.and_eq_true_iff.mp hc).1 id (.number value)
    | false =>
      rw [if_neg Bool.false_ne_true, Bool.and_false, if_neg Bool.false_ne_true]
      exact h
  | createResource r =>
    rw [M2MDevice.step, M2MDevice.createResource, Panel.step, h.isResourcePresent,
      Option.not_isSome]
    split_ifs with hc
    · simp only [Bool.and_eq_true] at hc
      have hsingle : r.isMultiple = false :=
        DeviceResource.not_multiple (by rw [hc.2, Bool.or_true, Bool.true_or])
      exact h.addResource hsingle hc.1 _ _ (.text [])
    · exact h
  | deleteResource r =>
    rw [M2MDevice.step, M2MDevice.deleteResource, Panel.step]
    cases r.isMandatory with
    | true => exact h
    | false =>
      rw [M2MObjectInstance.removeResource_eq h.unique]
      refine h.alter (fun _ _ hs => by cases hs) ?_
      have hgone : ((d.deviceInstance.resource r.name).bind fun _ => none) =
          (none : Option M2MResource) := by
        cases d.deviceInstance.resource r.name <;> rfl
      rw [hgone]
      exact Fits.absent fun _ => rfl
  | deleteResourceInstance r id =>
    rw [M2MDevice.step, M2MDevice.deleteResourceInstance, Panel.step]
    cases r.isMandatory with
    | true => exact h
    | false =>
      rw [M2MObjectInstance.removeResourceInstance_eq h.unique, r.cStr_name]
      exact h.alter (fun res res' => M2MObjectInstance.withoutMember_name res res')
        ((h.fits r).shrink id)
  | setResourceValueString r value id =>
    rw [M2MDevice.step, M2MDevice.setResourceValueString, Panel.step, h.isSome]
    split_ifs with hc
    · simp only [Bool.and_eq_true] at hc
      exact h.store hc.1.1 (.text value)
    · exact h
  | setResourceValueInt r value id =>
    rw [M2MDevice.step, M2MDevice.setResourceValueInt, Panel.step, h.isSome]
    split_ifs with hc
    · simp only [Bool.and_eq_true] at hc
      exact h.store hc.1.1 (.number value)
    · exact h

theorem new : Shows M2MDevice.new Panel.first := by
  have hempty : Shows ⟨⟨0, []⟩⟩ fun _ _ => none :=
    ⟨⟨Keyed.unique_nil _, fun _ hr => by cases hr⟩, fun _ => Fits.absent fun _ => rfl⟩
  have hreboot :=
    hempty.addResource (r := .reboot) rfl rfl .opaqueData operationPostAllowed (.text [])
  have herror := hreboot.addResourceInstance (r := .errorCode) rfl 0 (.number 0)
  have hbinding := herror.addResource (r := .supportedBindingMode) rfl rfl .string getAllowed
    (.text [0x55])
  have hpanel : ((if (Panel.assign (fun _ _ => none) .reboot 0 (.text []) .errorCode 0).isNone then
      (Panel.assign (fun _ _ => none) .reboot 0 (.text [])).assign .errorCode 0 (.number 0)
      else Panel.assign (fun _ _ => none) .reboot 0 (.text [])).assign .supportedBindingMode 0
      (.text [0x55])) = Panel.first := by
    funext r id
    cases r with
    | errorCode =>
      change Function.update (fun _ => none) 0 (some (Content.number 0)) id =
        if id = 0 then some (.number 0) else none
      by_cases hid : id = 0
      · rw [hid, Function.update_self, if_pos rfl]
      · rw [Function.update_of_ne hid, if_neg hid]
    | _ => rfl
  rw [← hpanel]
  exact hbinding

end Shows

namespace Panel
variable {p : Panel} {r r' : DeviceResource} {id id' : UInt16} {c x : Content}

theorem assign_cases (h : p.assign r id c r' id' = some x) :
    r' = r ∧ x = c ∨ p r' id' = some x := by
  by_cases hr : r' = r
  · subst hr
    rw [assign, Function.update_self, assigned] at h
    split_ifs at h
    · by_cases hid : id' = id
      · rw [hid, Function.update_self] at h
        exact .inl ⟨rfl, (Option.some.inj h).symm⟩
      · rw [Function.update_of_ne hid] at h
        exact .inr h
    · exact .inl ⟨rfl, (Option.some.inj h).symm⟩
  · rw [assign, Function.update_of_ne hr] at h
    exact .inr h

theorem assign_keeps (h : (p r' id').isSome = true) : (p.assign r id c r' id').isSome = true := by
  by_cases hr : r' = r
  · subst hr
    rw [assign, Function.update_self, assigned]
    split_ifs
    · by_cases hid : id' = id
      · rw [hid, Function.update_self]
        rfl
      · rwa [Function.update_of_ne hid]
    · rfl
  · rwa [assign, Function.update_of_ne hr]

/-- Every number is in its range and stands where a number is read, and no mandatory resource is
missing. -/
structure Sane (p : Panel) : Prop where
  number : ∀ r id value, p r id = some (.number value) →
    r.isNumber = true ∧ r.checkValueRange value = true
  text : ∀ r id value, p r id = some (.text value) → r.isNumber = false
  mandatory : ∀ r : DeviceResource, r.isMandatory = true → (p r 0).isSome = true

theorem Sane.assign (h : p.Sane)
    (hnumber : ∀ value, c = .number value → r.isNumber = true ∧ r.checkValueRange value = true)
    (htext : ∀ value, c = .text value → r.isNumber = false) (id : UInt16) :
    (p.assign r id c).Sane where
  number r' id' value hv := by
    obtain ⟨rfl, hc⟩ | hold := assign_cases hv
    · exact hnumber value hc.symm
    · exact h.number r' id' value hold
  text r' id' value hv := by
    obtain ⟨rfl, hc⟩ | hold := assign_cases hv
    · exact htext value hc.symm
    · exact h.text r' id' value hold
  mandatory r' hr' := assign_keeps (h.mandatory r' hr')

/-- What goes is not mandatory. -/
theorem Sane.erase (h : p.Sane) {q : UInt16 → Option Content} (hr : r.isMandatory = false)
    (hq : ∀ id x, q id = some x → p r id = some x) : Sane (Function.update p r q) := by
  have hold (r' : DeviceResource) (id : UInt16) (x : Content)
      (hx : Function.update p r q r' id = some x) : p r' id = some x := by
    by_cases heq : r' = r
    · subst heq
      rw [Function.update_self] at hx
      exact hq id x hx
    · rwa [Function.update_of_ne heq] at hx
  refine ⟨fun r' id value hv => h.number r' id value (hold r' id _ hv),
    fun r' id value hv => h.text r' id value (hold r' id _ hv), fun r' hr' => ?_⟩
  have hne : r' ≠ r := by
    rintro rfl
    rw [hr] at hr'
    cases hr'
  rw [Function.update_of_ne hne]
  exact h.mandatory r' hr'

theorem Sane.step (h : p.Sane) (call : Call) : (p.step call).Sane := by
  cases call with
  | createResourceString r value =>
    rw [Panel.step]
    split_ifs with hc
    · simp only [Bool.and_eq_true] at hc
      refine h.assign (fun _ hv => by cases hv) (fun _ _ => ?_) 0
      exact DeviceResource.not_number (by rw [hc.2, Bool.true_or])
    · exact h
  | createResourceInt r value =>
    rw [Panel.step]
    split_ifs with hc
    · simp only [Bool.and_eq_true] at hc
      refine h.assign (fun _ hv => ?_) (fun _ hv => by cases hv) 0
      cases hv
      exact ⟨by rw [DeviceResource.isNumber, hc.1.2, Bool.true_or], hc.2⟩
    · exact h
  | createResourceInstance r value id =>
    rw [Panel.step]
    split_ifs with hc
    · simp only [Bool.and_eq_true] at hc
      refine h.assign (fun _ hv => ?_) (fun _ hv => by cases hv) id
      cases hv
      exact ⟨by rw [DeviceResource.isNumber, hc.1.2, Bool.or_true], hc.2⟩
    · exact h
  | createResource r =>
    rw [Panel.step]
    split_ifs with hc
    · simp only [Bool.and_eq_true] at hc
      refine h.assign (fun _ hv => by cases hv) (fun _ _ => ?_) 0
      exact DeviceResource.not_number (by rw [hc.2, Bool.or_true])
    · exact h
  | deleteResource r =>
    rw [Panel.step]
    split_ifs with hc
    · exact h
    · exact h.erase (Bool.not_eq_true _ ▸ hc) fun _ _ hx => by cases hx
  | deleteResourceInstance r id =>
    rw [Panel.step]
    split_ifs with hc
    · exact h
    · refine h.erase (Bool.not_eq_true _ ▸ hc) fun id' x hx => ?_
      rw [cleared] at hx
      split_ifs at hx
      · by_cases hid : id' = id
        · rw [hid, Function.update_self] at hx
          cases hx
        · rwa [Function.update_of_ne hid] at hx
      · exact hx
  | setResourceValueString r value id =>
    rw [Panel.step]
    split_ifs with hc
    · simp only [Bool.and_eq_true] at hc
      refine h.assign (fun _ hv => by cases hv) (fun _ _ => ?_) id
      exact DeviceResource.not_number (by rw [hc.2, Bool.true_or])
    · exact h
  | setResourceValueInt r value id =>
    rw [Panel.step]
    split_ifs with hc
    · simp only [Bool.and_eq_true] at hc
      refine h.assign (fun _ hv => ?_) (fun _ hv => by cases hv) id
      cases hv
      exact ⟨hc.1.2, hc.2⟩
    · exact h

theorem first_sane : first.Sane := by
  refine ⟨fun r id value hv => ?_, fun r id value hv => ?_, fun r hr => ?_⟩
  · cases r with
    | errorCode =>
      change (if id = 0 then some (Content.number 0) else none) = _ at hv
      split_ifs at hv
      cases hv
      exact ⟨rfl, by decide⟩
    | _ => cases hv
  · cases r with
    | errorCode =>
      change (if id = 0 then some (Content.number 0) else none) = _ at hv
      split_ifs at hv
      cases hv
    | reboot => rfl
    | supportedBindingMode => rfl
    | _ => cases hv
  · cases r <;> first | rfl | cases hr

end Panel

theorem Shows.resourceValueInt {d : M2MDevice} {p : Panel} (h : Shows d p) (hp : p.Sane)
    {r : DeviceResource} {id : UInt16} (hmin : p r id ≠ some (.number Int64.minValue)) :
    d.resourceValueInt r id = p.valueInt r id := by
  have hvalues : (d.getResourceInstance r id).map (·.value) = (p r id).map Content.bytes :=
    (h.fits r).values id
  rw [M2MDevice.resourceValueInt, Panel.valueInt]
  cases hentry : p r id with
  | none =>
    rw [hentry, Option.map_none, Option.map_eq_none_iff] at hvalues
    rw [hvalues]
  | some c =>
    rw [hentry, Option.map_some, Option.map_eq_some_iff] at hvalues
    obtain ⟨b, hb, hvalue⟩ := hvalues
    rw [hb]
    cases c with
    | text value =>
      dsimp only
      rw [hp.text r id value hentry, if_neg Bool.false_ne_true]
    | number value =>
      have hv : value ≠ Int64.minValue := by
        rintro rfl
        exact hmin hentry
      dsimp only
      rw [(hp.number r id value hentry).1, if_pos rfl, M2MResourceBase.getValueInt, hvalue,
        Content.bytes, (itoaC_string hv).2, atoll_itoaC value hv]

/-- Whatever the application calls, in whatever order: the device holds what the panel says, every
number is read as it was accepted and within its range, and no mandatory resource goes. -/
theorem device_shows (l : List Call) :
    let d := Trace.fold M2MDevice.step l M2MDevice.new
    let p := Trace.fold Panel.step l Panel.first
    (∀ r id, (d.getResourceInstance r id).map (·.value) = (p r id).map Content.bytes) ∧
    (∀ r id, p r id ≠ some (.number Int64.minValue) → d.resourceValueInt r id = p.valueInt r id) ∧
    (∀ r id value, p r id = some (.number value) → r.checkValueRange value = true) ∧
    ∀ r : DeviceResource, r.isMandatory = true → d.isResourcePresent r = true := by
  intro d p
  have hshows : Shows d p :=
    Trace.fold_simulates (R := Shows) (fun call _ _ hs => hs.step call) Shows.new
  have hsane : p.Sane :=
    Trace.fold_invariant (I := Panel.Sane) (fun call _ _ hs => hs.step call) Panel.first_sane
  refine ⟨fun r id => (hshows.fits r).values id,
    fun r id hmin => hshows.resourceValueInt hsane hmin,
    fun r id value hv => (hsane.number r id value hv).2, fun r hr => ?_⟩
  rw [hshows.isResourcePresent]
  exact hsane.mandatory r hr

end MbedClient.Device
