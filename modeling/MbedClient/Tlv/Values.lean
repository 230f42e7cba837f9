import MbedClient.Membership
import MbedClient.Tlv.Acceptance
import MbedClient.Tlv.Listing
import MbedClient.Tlv.Uniqueness

/-! The variables of an object and the records about them. -/
namespace MbedClient
open Search

def M2MResource.parts (r : M2MResource) : List (Option UInt16 × M2MResourceBase) :=
  if r.multipleInstance then r.instances.map fun i => (some i.instanceId, i.toM2MResourceBase)
  else [(none, r.toM2MResourceBase)]

theorem M2MResource.parts_single {r : M2MResource} (h : r.multipleInstance = false) :
    r.parts = [(none, r.toM2MResourceBase)] := by
  simp [parts, h]

theorem M2MResource.parts_multiple {r : M2MResource} (h : r.multipleInstance = true) :
    r.parts = r.instances.map fun i => (some i.instanceId, i.toM2MResourceBase) := by
  simp [parts, h]

/-- Names that are the decimal numeral of a 16-bit id. -/
def Canonical (name : Bytes) : Prop := ∃ id : UInt16, name = Decimal.digits id.toNat

/-- Everything in an object goes by a 16-bit number of its own. -/
structure M2MObject.Numbered (obj : M2MObject) : Prop where
  unique : obj.Unique
  canonical : ∀ oi ∈ obj.instances, ∀ r ∈ oi.resources, Canonical r.name

namespace Tlv

def Path.part (i id : UInt16) : Option UInt16 → Path
  | none => .resource i id
  | some m => .member i id m

theorem Path.owner_part (i id : UInt16) (m : Option UInt16) : (Path.part i id m).owner = i := by
  cases m <;> rfl

theorem Path.part_inj {i id : UInt16} {m m' : Option UInt16}
    (h : Path.part i id m = Path.part i id m') : m = m' := by
  cases m with
  | none =>
    cases m' with
    | none => rfl
    | some m' => cases h
  | some m =>
    cases m' with
    | none => cases h
    | some m' => cases h; rfl

section Variables

def resourceVariables (i : UInt16) (r : M2MResource) : List (Path × M2MResourceBase) :=
  r.parts.map fun x => (.part i (wireId r) x.1, x.2)

def instanceVariables (oi : M2MObjectInstance) : List (Path × M2MResourceBase) :=
  oi.resources.flatMap (resourceVariables oi.instanceId)

/-- The resources of an object with a value of their own and the resource instances of the others,
each with the ids that lead to it. -/
def objectVariables (obj : M2MObject) : List (Path × M2MResourceBase) :=
  obj.instances.flatMap instanceVariables

theorem mem_objectVariables {obj : M2MObject} {x : Path × M2MResourceBase} :
    x ∈ objectVariables obj ↔
    ∃ oi ∈ obj.instances, ∃ r ∈ oi.resources, ∃ y ∈ r.parts,
      x = (.part oi.instanceId (wireId r) y.1, y.2) := by
  simp [objectVariables, instanceVariables, resourceVariables, eq_comm]

end Variables

/-! The records of a buffer that lists an object are about its variables, in the same order. -/
section Records
variable {tlv : Nat → UInt8} {wire : M2MResourceBase → Bytes} {α β γ : Type*} {R : α → β → Prop}

theorem flatMap_eq {xs : List α} {ys : List β} {f : α → List γ} {g : β → List γ}
    (h : List.Forall₂ R xs ys) (hf : ∀ x y, R x y → f x = g y) : xs.flatMap f = ys.flatMap g := by
  induction h with
  | nil => rfl
  | cons hr _ ih => rw [List.flatMap_cons, List.flatMap_cons, hf _ _ hr, ih]

variable (tlv) in
def pathValues (l : List (Nat × Path)) : List (Path × Bytes) :=
  (l.filter (·.2.valued)).map fun x => (x.2, recValue tlv x.1)

theorem pathValues_flatMap (l : List α) (f : α → List (Nat × Path)) :
    pathValues tlv (l.flatMap f) = l.flatMap fun x => pathValues tlv (f x) := by
  rw [pathValues, List.filter_flatMap, List.map_flatMap]
  rfl

theorem pathValues_container {p : Nat} {n : Path} (h : n.valued = false) (l : List (Nat × Path)) :
    pathValues tlv ((p, n) :: l) = pathValues tlv l := by
  simp [pathValues, h]

theorem mem_pathValues {l : List (Nat × Path)} {p : Nat} {n : Path} (h : (p, n) ∈ l)
    (hn : n.valued = true) : (n, recValue tlv p) ∈ pathValues tlv l :=
  List.mem_map.mpr ⟨(p, n), List.mem_filter.mpr ⟨h, hn⟩, rfl⟩

def written (wire : M2MResourceBase → Bytes) (xs : List (Path × M2MResourceBase)) :
    List (Path × Bytes) := xs.map fun x => (x.1, wire x.2)

theorem pathValues_record {i : UInt16} {p : Nat} {r : M2MResource}
    (h : ResourceRecord tlv wire p r) :
    pathValues tlv (recordPaths tlv i p) = written wire (resourceVariables i r) := by
  obtain ⟨hname, h⟩ := h
  have hid : wireId r = recId tlv p := wireId_eq hname
  cases hm : r.multipleInstance with
  | false =>
    rw [hm, if_neg Bool.false_ne_true] at h
    have hne : (recType tlv p == typeMultipleResource) = false := by rw [h.1]; decide
    simp [recordPaths, hne, pathValues, Path.valued, written, resourceVariables, r.parts_single hm,
      hid, Path.part, h.2]
  | true =>
    rw [hm, if_pos rfl] at h
    obtain ⟨htype, -, hmembers⟩ := h
    have hpaths : pathValues tlv (recordPaths tlv i p) =
        (Walk.span (frame tlv) (recContent tlv p) (recNext tlv p)).flatMap fun q =>
          [(Path.member i (recId tlv p) (recId tlv q), recValue tlv q)] := by
      rw [recordPaths, htype, if_pos (by rfl), pathValues_container rfl, memberPaths,
        List.map_eq_flatMap, pathValues_flatMap]
      rfl
    have hvariables : written wire (resourceVariables i r) = r.instances.flatMap fun x =>
        [(Path.member i (recId tlv p) x.instanceId, wire x.toM2MResourceBase)] := by
      rw [written, resourceVariables, r.parts_multiple hm, hid, List.map_map, List.map_map,
        List.map_eq_flatMap]
      rfl
    rw [hpaths, hvariables]
    refine flatMap_eq hmembers fun q x hq => ?_
    rw [hq.2.1, hq.2.2]

theorem written_flatMap (xs : List α) (f : α → List (Path × M2MResourceBase)) :
    written wire (xs.flatMap f) = xs.flatMap fun x => written wire (f x) := List.map_flatMap

theorem pathValues_resources {i : UInt16} {o e : Nat} {rs : List M2MResource}
    (h : Lists tlv (ResourceRecord tlv wire) o e rs) : pathValues tlv (resourcePaths tlv i o e) =
      written wire (rs.flatMap (resourceVariables i)) := by
  rw [resourcePaths, pathValues_flatMap, written_flatMap]
  exact flatMap_eq h.2 fun p r hp => pathValues_record hp

theorem pathValues_object {size : Nat} {obj target : M2MObject}
    (h : Lists tlv (ObjectInstanceRecord tlv wire) 0 size obj.instances) :
    pathValues tlv ((Addressee.object target).paths tlv size) =
      written wire (objectVariables obj) := by
  rw [Addressee.paths, pathValues_flatMap, objectVariables, written_flatMap]
  refine flatMap_eq h.2 fun q oi hq => ?_
  rw [pathValues_container rfl, hq.2.1, pathValues_resources hq.2.2]
  rfl

/-! Such a buffer is well-formed. -/

theorem Lists.lt {R : Nat → β → Prop} {o e : Nat} {xs : List β} (h : Lists tlv R o e xs)
    (hne : xs ≠ []) : o < e := by
  cases xs with
  | nil => exact absurd rfl hne
  | cons x xs => exact (lt_recNext tlv o).trans_le (lists_cons.mp h).2.1.1

theorem Lists.exists_element {R : Nat → β → Prop} {o e p : Nat} {xs : List β}
    (h : Lists tlv R o e xs) (hp : p ∈ Walk.span (frame tlv) o e) : ∃ x ∈ xs, R p x := by
  obtain ⟨k, hk, rfl⟩ := List.getElem_of_mem hp
  have hlength := h.2.length_eq
  exact ⟨xs[k], List.getElem_mem _, h.2.get hk (hlength ▸ hk)⟩

theorem resourcesFormat_of_lists {o e : Nat} {rs : List M2MResource}
    (h : Lists tlv (ResourceRecord tlv wire) o e rs) : ResourcesFormat tlv o e := by
  refine ⟨h.1, fun p hp => ?_⟩
  obtain ⟨r, -, -, hr⟩ := h.exists_element hp
  cases hm : r.multipleInstance with
  | false =>
    rw [hm, if_neg Bool.false_ne_true] at hr
    exact .inl hr.1
  | true =>
    rw [hm, if_pos rfl] at hr
    refine .inr ⟨hr.1, hr.2.1, fun q hq => ?_⟩
    obtain ⟨i, -, hi⟩ := hr.2.exists_element hq
    exact hi.1

theorem regionFilled_of_lists {o e : Nat} {rs : List M2MResource}
    (h : Lists tlv (ResourceRecord tlv wire) o e rs) (hne : ∀ r ∈ rs, r.parts ≠ []) :
    RegionFilled tlv o e := by
  intro p hp ht
  obtain ⟨r, hr, -, hrecord⟩ := h.exists_element hp
  cases hm : r.multipleInstance with
  | false =>
    rw [hm, if_neg Bool.false_ne_true, ht] at hrecord
    exact absurd hrecord.1 (by decide)
  | true =>
    rw [hm, if_pos rfl] at hrecord
    have hlt := hrecord.2.lt fun hnil => hne r hr (by rw [r.parts_multiple hm, hnil]; rfl)
    rw [recNext] at hlt
    omega

theorem object_of_lists {size : Nat} {obj target : M2MObject}
    (h : Lists tlv (ObjectInstanceRecord tlv wire) 0 size obj.instances)
    (hne : obj.instances ≠ [])
    (hfilled : ∀ oi ∈ obj.instances, oi.resources ≠ [] ∧ ∀ r ∈ oi.resources, r.parts ≠ []) :
    (Addressee.object target).WellFormed tlv size ∧
      (Addressee.object target).Filled tlv size := by
  refine ⟨⟨h.lt hne, h.1, fun q hq => ?_⟩, fun q hq => ?_⟩
  · obtain ⟨oi, -, htype, -, hresources⟩ := h.exists_element hq
    exact ⟨htype, resourcesFormat_of_lists hresources⟩
  · obtain ⟨oi, hoi, -, -, hresources⟩ := h.exists_element hq
    obtain ⟨hnonempty, hparts⟩ := hfilled oi hoi
    have hlt := hresources.lt hnonempty
    rw [recNext] at hlt
    exact ⟨by omega, regionFilled_of_lists hresources hparts⟩

end Records

/-! Paths lead to the variables of a tree that names everything once. -/
section Locate

theorem exists_first {α : Type*} {f : α → Bool} {xs : List α} {x : α} (hx : x ∈ xs)
    (hf : f x = true) (hone : ∀ y ∈ xs, f y = true → y = x) : ∃ k, first f xs = some (k, x) := by
  have hany : (first f xs).isSome = true := by
    rw [first_isSome]
    exact List.any_eq_true.mpr ⟨x, hx, hf⟩
  obtain ⟨⟨k, y⟩, hy⟩ := Option.isSome_iff_exists.mp hany
  have hmem := List.mem_of_getElem? (first_eq_some.mp hy).2
  obtain rfl := hone y hmem (first_passes hy)
  exact ⟨k, hy⟩

/-- The only resource of an object instance with the id. -/
structure Known (oi : M2MObjectInstance) (r : M2MResource) (id : UInt16) : Prop where
  mem : r ∈ oi.resources
  nameId : r.nameId = id.toNat
  only : ∀ r' ∈ oi.resources, r'.nameId = id.toNat → r' = r
  unique : r.Unique

variable {oi : M2MObjectInstance} {r : M2MResource} {id : UInt16}
  {x : Option UInt16 × M2MResourceBase}

theorem Known.first_resource (h : Known oi r id) :
    ∃ k, first (namedResource id) oi.resources = some (k, r) :=
  exists_first h.mem (by simp [namedResource, h.nameId])
    fun r' hr' hid => h.only r' hr' (by simpa [namedResource] using hid)

theorem Known.first_multiple (h : Known oi r id) (hm : r.multipleInstance = true) :
    ∃ k, first (namedMultiple id) oi.resources = some (k, r) := by
  refine exists_first h.mem (by simp [namedMultiple, hm, h.nameId]) fun r' hr' hid => ?_
  obtain ⟨-, hid⟩ : r'.multipleInstance = true ∧ r'.nameId = id.toNat := by
    simpa [namedMultiple] using hid
  exact h.only r' hr' hid

theorem Known.first_member (h : Known oi r id) {i : M2MResourceInstance} (hi : i ∈ r.instances) :
    ∃ k, first (namedMember i.instanceId) r.instances = some (k, i) :=
  exists_first hi (by simp [namedMember]) fun i' hi' hid =>
    Keyed.Unique.eq_of_key h.unique hi' hi (by simpa [namedMember] using hid)

theorem Known.locateIn (h : Known oi r id) (hx : x ∈ r.parts) (i : UInt16) :
    ∃ t, (Path.part i id x.1).locateIn oi = some t ∧ oi.base? t.1 t.2 = some x.2 := by
  cases hm : r.multipleInstance with
  | false =>
    rw [r.parts_single hm, List.mem_singleton] at hx
    obtain ⟨k, hk⟩ := h.first_resource
    subst hx
    refine ⟨(k, none), by simp [Path.part, Path.locateIn, hk], ?_⟩
    simp [M2MObjectInstance.base?, (first_eq_some.mp hk).2, M2MResource.base?]
  | true =>
    rw [r.parts_multiple hm] at hx
    obtain ⟨y, hy, rfl⟩ := List.mem_map.mp hx
    obtain ⟨k, hk⟩ := h.first_multiple hm
    obtain ⟨j, hj⟩ := h.first_member hy
    refine ⟨(k, some j), by simp [Path.part, Path.locateIn, hk, hj], ?_⟩
    simp [M2MObjectInstance.base?, (first_eq_some.mp hk).2, M2MResource.base?,
      (first_eq_some.mp hj).2]

/-- The way from a path to its variable, in a tree with one object instance of this id. -/
theorem Known.locate (h : Known oi r id) (hx : x ∈ r.parts) {obj : M2MObject}
    (hoi : oi ∈ obj.instances)
    (hone : ∀ oi' ∈ obj.instances, oi'.instanceId = oi.instanceId → oi' = oi) :
    ∃ t, (Path.part oi.instanceId id x.1).locate obj = some t ∧ obj.base? t = some x.2 := by
  obtain ⟨t, ht, hb⟩ := h.locateIn hx oi.instanceId
  obtain ⟨j, hj⟩ : ∃ j, first (namedInstance oi.instanceId) obj.instances = some (j, oi) :=
    exists_first hoi (by simp [namedInstance]) fun oi' hoi' hid =>
      hone oi' hoi' (by simpa [namedInstance] using hid)
  refine ⟨⟨j, t.1, t.2⟩, ?_, ?_⟩
  · rw [Path.locate, Path.owner_part, hj, Option.bind_some, ht]
    rfl
  · rw [M2MObject.base?, (first_eq_some.mp hj).2]
    exact hb

theorem read_of_locate {n : Path} {obj : M2MObject} {b : M2MResourceBase}
    (h : ∃ t, n.locate obj = some t ∧ obj.base? t = some b) : n.read obj = some b.value := by
  obtain ⟨t, ht, hb⟩ := h
  rw [Path.read, ht, Option.bind_some, hb]
  rfl

/-- A record about a variable that may be written is accepted. -/
theorem Known.openIn (h : Known oi r id) (hx : x ∈ r.parts) (hput : x.2.putAllowed = true)
    (i : UInt16) : (Path.part i id x.1).OpenIn oi := by
  cases hm : r.multipleInstance with
  | false =>
    rw [r.parts_single hm, List.mem_singleton] at hx
    subst hx
    refine ⟨List.any_eq_true.mpr ⟨r, h.mem, by simp [namedResource, h.nameId]⟩, ?_⟩
    intro r' hr' hid
    obtain rfl := h.only r' hr' (by simpa [namedResource] using hid)
    exact hput
  | true =>
    rw [r.parts_multiple hm] at hx
    obtain ⟨y, hy, rfl⟩ := List.mem_map.mp hx
    intro r' hr' hid
    obtain ⟨-, hid⟩ : r'.multipleInstance = true ∧ r'.nameId = id.toNat := by
      simpa [namedMultiple] using hid
    obtain rfl := h.only r' hr' hid
    refine ⟨List.any_eq_true.mpr ⟨y, hy, by simp [namedMember]⟩, fun y' hy' hmember => ?_⟩
    have hkey : y'.instanceId = y.instanceId := by simpa [namedMember] using hmember
    rw [Keyed.Unique.eq_of_key h.unique hy' hy hkey]
    exact hput

end Locate
end Tlv

theorem Canonical.nameId {r : M2MResource} (h : Canonical r.name) :
    r.nameId = (Tlv.wireId r).toNat ∧ r.name = Decimal.digits (Tlv.wireId r).toNat := by
  obtain ⟨id, hid⟩ := h
  have hlt := id.toNat_lt
  have hname : r.nameId = id.toNat := by
    rw [M2MResource.nameId, hid]
    exact nameId_digits (by omega)
  rw [Tlv.wireId_eq hname]
  exact ⟨hname, hid⟩

namespace M2MObject.Numbered
open Tlv
variable {obj : M2MObject}

theorem known (h : obj.Numbered) {oi : M2MObjectInstance} {r : M2MResource}
    (hoi : oi ∈ obj.instances) (hr : r ∈ oi.resources) : Known oi r (wireId r) := by
  obtain ⟨hid, hname⟩ := (h.canonical oi hoi r hr).nameId
  have hunique := h.unique.instances oi hoi
  refine ⟨hr, hid, fun r' hr' hid' => ?_, hunique.members r hr⟩
  obtain ⟨hid'', hname'⟩ := (h.canonical oi hoi r' hr').nameId
  have hsame : (wireId r').toNat = (wireId r).toNat := by omega
  exact hunique.names.eq_of_key hr' hr (by rw [hname', hsame, ← hname])

theorem locate (h : obj.Numbered) {x : Path × M2MResourceBase} (hx : x ∈ objectVariables obj) :
    ∃ t, x.1.locate obj = some t ∧ obj.base? t = some x.2 := by
  obtain ⟨oi, hoi, r, hr, y, hy, rfl⟩ := mem_objectVariables.mp hx
  exact (h.known hoi hr).locate hy hoi fun oi' hoi' hid => h.unique.ids.eq_of_key hoi' hoi hid

theorem read (h : obj.Numbered) {x : Path × M2MResourceBase} (hx : x ∈ objectVariables obj) :
    x.1.read obj = some x.2.value := read_of_locate (h.locate hx)

theorem eq_of_path (h : obj.Numbered) {n : Path} {b b' : M2MResourceBase}
    (hb : (n, b) ∈ objectVariables obj) (hb' : (n, b') ∈ objectVariables obj) : b = b' := by
  obtain ⟨t, ht, hbase⟩ := h.locate hb
  obtain ⟨t', ht', hbase'⟩ := h.locate hb'
  obtain rfl : t = t' := Option.some.inj (ht.symm.trans ht')
  exact Option.some.inj (hbase.symm.trans hbase')

theorem openPath (h : obj.Numbered) {x : Path × M2MResourceBase} (hx : x ∈ objectVariables obj)
    (hput : x.2.putAllowed = true) : x.1.Open obj := by
  obtain ⟨oi, hoi, r, hr, y, hy, rfl⟩ := mem_objectVariables.mp hx
  intro oi' hoi' howner
  have hid : oi'.instanceId = oi.instanceId := by rw [howner, Path.owner_part]
  rw [h.unique.ids.eq_of_key hoi' hoi hid]
  exact (h.known hoi hr).openIn hy hput oi.instanceId

end M2MObject.Numbered

/-! A tree that keeps its nodes keeps its variables. -/
section Grows
open Tlv
variable {writes : Bool}

theorem M2MResource.Grows.parts {r r' : M2MResource} (h : r.Grows writes false r') :
    r'.parts.map Prod.fst = r.parts.map Prod.fst := by
  cases hm : r.multipleInstance with
  | false => rw [r.parts_single hm, r'.parts_single (h.multi.trans hm)]; rfl
  | true =>
    rw [r.parts_multiple hm, r'.parts_multiple (h.multi.trans hm), List.map_map, List.map_map,
      List.map_eq_flatMap, List.map_eq_flatMap]
    have hkept := h.instances.forall₂ fun i hi => Bool.false_ne_true hi.1
    refine (flatMap_eq hkept fun i i' hi => ?_).symm
    simp [hi.instanceId]

theorem M2MObject.Grows.objectVariables {obj obj' : M2MObject} (h : obj.Grows writes false obj') :
    (objectVariables obj').map Prod.fst = (objectVariables obj).map Prod.fst := by
  rw [Tlv.objectVariables, Tlv.objectVariables, List.map_flatMap, List.map_flatMap]
  refine (flatMap_eq (Grown.forall₂ h fun _ => id) fun oi oi' hoi => ?_).symm
  rw [instanceVariables, instanceVariables, List.map_flatMap, List.map_flatMap]
  refine flatMap_eq (hoi.resources.forall₂ fun r hr => Bool.false_ne_true hr.1) fun r r' hr => ?_
  have hwire : wireId r' = wireId r := by rw [wireId, wireId, hr.nameId]
  have hpath : ∀ x : M2MResource, Prod.fst ∘ (fun y : Option UInt16 × M2MResourceBase =>
      (Path.part oi.instanceId (wireId x) y.1, y.2)) =
      Path.part oi.instanceId (wireId x) ∘ Prod.fst := fun _ => rfl
  rw [resourceVariables, resourceVariables, List.map_map, List.map_map, hoi.instanceId,
    hpath, hwire,
    hpath, ← List.map_map, ← List.map_map, hr.parts]

theorem M2MObject.Grows.canonical {obj obj' : M2MObject} (h : obj.Grows writes false obj')
    (hc : ∀ oi ∈ obj.instances, ∀ r ∈ oi.resources, Canonical r.name) :
    ∀ oi ∈ obj'.instances, ∀ r ∈ oi.resources, Canonical r.name := by
  intro oi' hoi' r' hr'
  obtain ⟨oi, hoi, hgrows⟩ | hfresh := Grown.mem h hoi'
  · obtain ⟨r, hr, hg⟩ | hfresh := hgrows.resources.mem hr'
    · rw [hg.name]
      exact hc oi hoi r hr
    · exact absurd hfresh.1 Bool.false_ne_true
  · exact hfresh.elim

end Grows

namespace Tlv

/-- A `Put` of a buffer that writes every variable with one value leaves this value, or nothing
where the copy could not be allocated. -/
theorem put_delivers {tlv : Nat → UInt8} {size : Nat} {a : Addressee} (hn : a.nested = true)
    (hwf : a.WellFormed tlv size) (hfilled : a.Filled tlv size)
    (hopen : ∀ x ∈ pathValues tlv (a.paths tlv size), x.1.Open a.forest) {H : Heap → Prop}
    (hH : Stable H) {env : Env} (hs : H env.heap) :
    let put := deserialize (some tlv) size .put a env
    put.1 = .none ∧ ∀ x ∈ pathValues tlv (a.paths tlv size),
      (∀ y ∈ pathValues tlv (a.paths tlv size), y.1 = x.1 → y.2 = x.2) →
      (x.1.locate a.forest).isSome = true →
        ∃ h, H h ∧ x.1.read put.2.1.forest = some (if h 0 then x.2 else []) := by
  have hpaths : ∀ x ∈ a.paths tlv size, x.2.Open a.forest := by
    rintro ⟨p, n⟩ hx
    cases hvalued : n.valued with
    | true => exact hopen _ (mem_pathValues hx hvalued)
    | false =>
      intro oi _ _
      cases n with
      | objectInstance i => trivial
      | multiple i id => trivial
      | resource i id => exact absurd hvalued.symm Bool.false_ne_true
      | member i id m => exact absurd hvalued.symm Bool.false_ne_true
  obtain ⟨hnone, hreads⟩ := put_reads hn hwf hfilled hpaths hH hs
  refine ⟨hnone, fun x hx hone hlocate => ?_⟩
  obtain ⟨t, ht⟩ := Option.isSome_iff_exists.mp hlocate
  obtain ⟨⟨p, n⟩, hp, rfl⟩ := List.mem_map.mp hx
  obtain ⟨hp, hvalued⟩ := List.mem_filter.mp hp
  have hmem : (p, n) ∈ (a.paths tlv size).filter fun y => y.2 = n := by simp [hp]
  obtain ⟨⟨q, n'⟩, hq⟩ := Option.isSome_iff_exists.mp
    (List.getLast?_isSome.mpr (List.ne_nil_of_mem hmem))
  obtain ⟨hqmem, hqn⟩ := List.mem_filter.mp (List.mem_of_getLast? hq)
  obtain rfl : n' = n := of_decide_eq_true hqn
  obtain ⟨h, hh, hread⟩ := hreads n' t (q, n') ht hq
  have hvalue := hone (n', recValue tlv q) (mem_pathValues hqmem hvalued) rfl
  exact ⟨h,
    hh, by rw [hread, stored]; exact congrArg (fun w => some (if h 0 then w else [])) hvalue⟩

end Tlv
end MbedClient
