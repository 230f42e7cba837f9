import Mathlib.Data.List.Nodup
import MbedClient.ObjectTree

/-! The paths of the object tree: `StringBuffer`, and `M2MBase::create_path`, which puts them
together from names and ids. -/
namespace MbedClient

/-- `StringBuffer<SIZE>`: what has been appended so far; a NUL follows it in the array. -/
structure StringBuffer (size : Nat) where
  text : Bytes
  fits : text.length < size

namespace StringBuffer
variable {size : Nat}

def new (h : 0 < size) : StringBuffer size := ⟨[], h⟩

def ensureSpace (b : StringBuffer size) (requiredSize : Nat) : Bool :=
  decide (requiredSize ≤ size - b.text.length)

theorem fits_append {b : StringBuffer size} {data : Bytes}
    (h : b.ensureSpace (data.length + 1) = true) : (b.text ++ data).length < size := by
  have hspace : data.length + 1 ≤ size - b.text.length := of_decide_eq_true h
  rw [List.length_append]
  omega

/-- All forms of `append`: what does not fit with its NUL is left out, and the answer is false. -/
def append (b : StringBuffer size) (data : Bytes) : Bool × StringBuffer size :=
  if h : b.ensureSpace (data.length + 1) = true then (true, ⟨b.text ++ data, fits_append h⟩)
  else (false, b)

def appendInt (b : StringBuffer size) (data : UInt16) : Bool × StringBuffer size :=
  b.append (itoaC (Int64.ofNat data.toNat))

theorem append_text (b : StringBuffer size) (data : Bytes) : (b.append data).2.text =
    if b.text.length + data.length < size then b.text ++ data else b.text := by
  have hfits := b.fits
  have hspace : b.ensureSpace (data.length + 1) = true ↔ b.text.length + data.length < size := by
    rw [ensureSpace, decide_eq_true_eq]
    omega
  by_cases h : b.text.length + data.length < size
  · simp [append, hspace.mpr h, h]
  · simp [append, mt hspace.mp h, h]

/-- Parts that fit together are all appended. -/
theorem foldl_append_text (b : StringBuffer size) (parts : List Bytes)
    (h : b.text.length + parts.flatten.length < size) :
    (parts.foldl (fun b part => (b.append part).2) b).text = b.text ++ parts.flatten := by
  induction parts generalizing b with
  | nil => simp
  | cons part parts ih =>
    rw [List.flatten_cons, List.length_append] at h
    have hpart : (b.append part).2.text = b.text ++ part := by
      rw [append_text, if_pos (by omega)]
    have hrest := ih (b.append part).2 (by rw [hpart, List.length_append]; omega)
    rw [List.foldl_cons, hrest, hpart, List.flatten_cons, List.append_assoc]

end StringBuffer

def maxNameSize : Nat := 64

def idText (id : UInt16) : Bytes := Decimal.digits id.toNat

theorem itoaC_ofNat (id : UInt16) : itoaC (Int64.ofNat id.toNat) = idText id := by
  have hlt := id.toNat_lt
  have hid : (Int64.ofNat id.toNat).toInt = id.toNat :=
    Int64.toInt_ofNat_of_lt (by omega)
  have hmin : Int64.ofNat id.toNat ≠ Int64.minValue := by
    intro h
    have hneg : (Int64.ofNat id.toNat).toInt = -2 ^ 63 := by rw [h]; rfl
    omega
  rw [itoaC_eq _ hmin, hid, if_neg (by omega), Int.natAbs_natCast]
  rfl

theorem length_idText_le (id : UInt16) : (idText id).length ≤ 5 := by
  have hlt := id.toNat_lt
  exact Decimal.length_digits_le (k := 4) (by omega)

/-- What is left of the numeral in a buffer for five bytes, which has to hold the NUL as well. -/
def shortIdText (id : UInt16) : Bytes := if id.toNat < 10000 then idText id else []

theorem length_idText (id : UInt16) : (idText id).length < 5 ↔ id.toNat < 10000 := by
  constructor
  · intro h
    have hv := Decimal.value_lt (idText id) (Decimal.digits_isDigit _)
    rw [idText, Decimal.value_digits] at hv
    exact hv.trans_le (Nat.pow_le_pow_right (by omega) (Nat.lt_succ_iff.mp h))
  · intro h
    exact Nat.lt_succ_of_le (Decimal.length_digits_le (k := 3) (by omega))

theorem appendInt_short (id : UInt16) :
    ((StringBuffer.new (by decide) : StringBuffer 5).appendInt id).2.text = shortIdText id := by
  rw [StringBuffer.appendInt, StringBuffer.append_text, itoaC_ofNat, shortIdText]
  simp [StringBuffer.new, length_idText]

section CreatePath

/-- NULL if the copy cannot be allocated. -/
def stringdup (s : Bytes) (h : Heap) : Option Bytes × Heap :=
  let (copied, h) := h.malloc
  (if copied then some s else none, h)

def slash : UInt8 := 0x2F

/-- `create_path(const M2MObject &parent, const char *name)` -/
def createPathObject (object name : Bytes) (h : Heap) : Option Bytes × Heap :=
  let path : StringBuffer (maxNameSize * 2 + (2 + 1)) := .new (by decide)
  let path := (path.append object).2
  let path := (path.append [slash]).2
  let path := (path.append name).2
  stringdup path.text h

/-- `create_path(const M2MObject &parent, uint16_t object_instance)` -/
def createPathObjectId (object : Bytes) (objectInstance : UInt16) (h : Heap) :
    Option Bytes × Heap :=
  let objInstId : StringBuffer 5 := .new (by decide)
  let objInstId := (objInstId.appendInt objectInstance).2
  createPathObject object objInstId.text h

/-- `create_path(const M2MObjectInstance &parent, const char *name)` -/
def createPathObjectInstance (object : Bytes) (instanceId : UInt16) (name : Bytes) (h : Heap) :
    Option Bytes × Heap :=
  let path : StringBuffer (maxNameSize * 3 + (2 + 1)) := .new (by decide)
  let path := (path.append object).2
  let path := (path.append [slash]).2
  let path := (path.appendInt instanceId).2
  let path := (path.append [slash]).2
  let path := (path.append name).2
  stringdup path.text h

/-- `create_path(const M2MResource &parent, const char *name)` -/
def createPathResource (object : Bytes) (instanceId : UInt16) (resource name : Bytes) (h : Heap) :
    Option Bytes × Heap :=
  let path : StringBuffer (maxNameSize * 4 + (3 + 1)) := .new (by decide)
  let path := (path.append object).2
  let path := (path.append [slash]).2
  let path := (path.appendInt instanceId).2
  let path := (path.append [slash]).2
  let path := (path.append resource).2
  let path := (path.append [slash]).2
  let path := (path.append name).2
  stringdup path.text h

/-- `create_path(const M2MResource &parent, uint16_t resource_instance)` -/
def createPathResourceId (object : Bytes) (instanceId : UInt16) (resource : Bytes)
    (resourceInstance : UInt16) (h : Heap) : Option Bytes × Heap :=
  let resInst : StringBuffer 5 := .new (by decide)
  let resInst := (resInst.appendInt resourceInstance).2
  createPathResource object instanceId resource resInst.text h

end CreatePath

def joinPath (parts : List Bytes) : Bytes := List.intercalate [slash] parts

theorem joinPath_cons (part : Bytes) {parts : List Bytes} (h : parts ≠ []) :
    joinPath (part :: parts) = part ++ slash :: joinPath parts := by
  cases parts with
  | nil => exact absurd rfl h
  | cons next parts => simp [joinPath, List.intercalate]

section Text
variable {object resource name : Bytes} {i m : UInt16}

theorem createPathObject_eq (ho : object.length ≤ maxNameSize) (hn : name.length ≤ maxNameSize)
    (h : Heap) : createPathObject object name h = stringdup (joinPath [object, name]) h := by
  have htext :=
    StringBuffer.foldl_append_text (.new (by decide) : StringBuffer (maxNameSize * 2 + (2 + 1)))
    [object, [slash], name] (by simp [StringBuffer.new, maxNameSize] at *; omega)
  have hparts : [object, [slash], name].flatten = joinPath [object, name] := by
    simp [joinPath, List.intercalate]
  rw [hparts] at htext
  exact congrArg (stringdup · h) htext

theorem createPathObjectInstance_eq (ho : object.length ≤ maxNameSize)
    (hn : name.length ≤ maxNameSize) (h : Heap) : createPathObjectInstance object i name h =
      stringdup (joinPath [object, idText i, name]) h := by
  have hi := length_idText_le i
  have htext :=
    StringBuffer.foldl_append_text (.new (by decide) : StringBuffer (maxNameSize * 3 + (2 + 1)))
    [object, [slash], idText i, [slash], name]
    (by simp [StringBuffer.new, maxNameSize] at *; omega)
  have hparts : [object, [slash], idText i, [slash], name].flatten =
      joinPath [object, idText i, name] := by
    simp [joinPath, List.intercalate]
  rw [hparts] at htext
  simp only [List.foldl_cons, List.foldl_nil] at htext
  simp only [createPathObjectInstance, StringBuffer.appendInt, itoaC_ofNat]
  rw [htext]
  rfl

theorem createPathResource_eq (ho : object.length ≤ maxNameSize)
    (hr : resource.length ≤ maxNameSize) (hn : name.length ≤ maxNameSize) (h : Heap) :
    createPathResource object i resource name h =
      stringdup (joinPath [object, idText i, resource, name]) h := by
  have hi := length_idText_le i
  have htext :=
    StringBuffer.foldl_append_text (.new (by decide) : StringBuffer (maxNameSize * 4 + (3 + 1)))
    [object, [slash], idText i, [slash], resource, [slash], name]
    (by simp [StringBuffer.new, maxNameSize] at *; omega)
  have hparts : [object, [slash], idText i, [slash], resource, [slash],
      name].flatten = joinPath [object, idText i, resource, name] := by
    simp [joinPath, List.intercalate]
  rw [hparts] at htext
  simp only [List.foldl_cons, List.foldl_nil] at htext
  simp only [createPathResource, StringBuffer.appendInt, itoaC_ofNat]
  rw [htext]
  rfl

theorem length_shortIdText_le (i : UInt16) : (shortIdText i).length ≤ maxNameSize := by
  have hi := length_idText_le i
  unfold shortIdText maxNameSize
  split_ifs <;> simp
  omega

theorem createPathObjectId_eq (ho : object.length ≤ maxNameSize) (h : Heap) :
    createPathObjectId object i h = stringdup (joinPath [object, shortIdText i]) h := by
  rw [createPathObjectId, appendInt_short]
  exact createPathObject_eq ho (length_shortIdText_le i) h

theorem createPathResourceId_eq (ho : object.length ≤ maxNameSize)
    (hr : resource.length ≤ maxNameSize) (h : Heap) : createPathResourceId object i resource m h =
      stringdup (joinPath [object, idText i, resource, shortIdText m]) h := by
  rw [createPathResourceId, appendInt_short]
  exact createPathResource_eq ho hr (length_shortIdText_le m) h

end Text

/-! The entities of an object tree and their paths. -/
section Tree

structure NamedObject extends M2MObject where
  name : Bytes

inductive Identity where
  | object (object : Bytes)
  | objectInstance (object : Bytes) (id : UInt16)
  | resource (object : Bytes) (id : UInt16) (resource : Bytes)
  | resourceInstance (object : Bytes) (id : UInt16) (resource : Bytes) (member : UInt16)
  deriving DecidableEq

namespace Identity

def parts : Identity → List Bytes
  | object o => [o]
  | objectInstance o i => [o, idText i]
  | resource o i r => [o, idText i, r]
  | resourceInstance o i r m => [o, idText i, r, idText m]

/-- The parts of the path it gets. -/
def storedParts : Identity → List Bytes
  | object o => [o]
  | objectInstance o i => [o, shortIdText i]
  | resource o i r => [o, idText i, r]
  | resourceInstance o i r m => [o, idText i, r, shortIdText m]

def createPath : Identity → Heap → Option Bytes × Heap
  | object o => stringdup o
  | objectInstance o i => createPathObjectId o i
  | resource o i r => createPathObjectInstance o i r
  | resourceInstance o i r m => createPathResourceId o i r m

def ValidName (name : Bytes) : Prop :=
  1 ≤ name.length ∧ name.length ≤ maxNameSize ∧ slash ∉ name

def ValidNames : Identity → Prop
  | object o | objectInstance o _ => ValidName o
  | resource o _ r | resourceInstance o _ r _ => ValidName o ∧ ValidName r

/-- The id that goes through a buffer for five bytes has at most four digits. -/
def ShortId : Identity → Prop
  | object _ | resource _ _ _ => True
  | objectInstance _ i => i.toNat < 10000
  | resourceInstance _ _ _ m => m.toNat < 10000

end Identity

/-- All entities, each in front of what it contains. -/
def identities (tree : List NamedObject) : List Identity :=
  tree.flatMap fun o => .object o.name :: o.instances.flatMap fun oi =>
    .objectInstance o.name oi.instanceId :: oi.resources.flatMap fun r =>
      .resource o.name oi.instanceId r.name :: r.instances.map fun i =>
        .resourceInstance o.name oi.instanceId r.name i.instanceId

/-- Valid names, and none twice in the same place. -/
structure WellNamed (tree : List NamedObject) : Prop where
  names : ∀ n ∈ identities tree, n.ValidNames
  objects : (tree.map (·.name)).Nodup
  objectInstances : ∀ o ∈ tree, (o.instances.map (·.instanceId)).Nodup
  resources : ∀ o ∈ tree, ∀ oi ∈ o.instances, oi.NamesDistinct
  members : ∀ o ∈ tree, ∀ oi ∈ o.instances, ∀ r ∈ oi.resources,
    (r.instances.map (·.instanceId)).Nodup

/-- At most one id that does not fit into five bytes with its NUL. -/
def OneLongId (ids : List UInt16) : Prop :=
  ∀ i ∈ ids, ∀ j ∈ ids, 10000 ≤ i.toNat → 10000 ≤ j.toNat → i = j

end Tree

section Distinct

theorem nodup_flatMap_of_key {α β κ : Type*} {l : List α} {f : α → List β} (key : α → κ)
    (keyOf : β → κ) (hl : (l.map key).Nodup) (hf : ∀ x ∈ l, (f x).Nodup)
    (hkey : ∀ x ∈ l, ∀ b ∈ f x, keyOf b = key x) : (l.flatMap f).Nodup := by
  rw [List.nodup_flatMap]
  refine ⟨hf, ?_⟩
  have hpair : l.Pairwise fun x y => key x ≠ key y := List.pairwise_map.mp hl
  refine hpair.imp_of_mem fun hx hy hne b hbx hby => hne ?_
  rw [← hkey _ hx b hbx, hkey _ hy b hby]

theorem mem_identities_objectInstance {tree : List NamedObject} {name : Bytes} {i : UInt16} :
    .objectInstance name i ∈ identities tree ↔
      ∃ o ∈ tree, o.name = name ∧ i ∈ o.instances.map (·.instanceId) := by
  simp only [identities, List.mem_flatMap, List.mem_cons, List.mem_map, reduceCtorEq, false_or,
    or_false, and_false, exists_false, Identity.objectInstance.injEq]
  constructor
  · rintro ⟨o, ho, oi, hoi, rfl, rfl⟩
    exact ⟨o, ho, rfl, oi, hoi, rfl⟩
  · rintro ⟨o, ho, rfl, oi, hoi, rfl⟩
    exact ⟨o, ho, oi, hoi, rfl, rfl⟩

theorem mem_identities_resourceInstance {tree : List NamedObject} {name resource : Bytes}
    {i m : UInt16} : .resourceInstance name i resource m ∈ identities tree ↔
      ∃ o ∈ tree, o.name = name ∧ ∃ oi ∈ o.instances, oi.instanceId = i ∧
        ∃ r ∈ oi.resources, r.name = resource ∧ m ∈ r.instances.map (·.instanceId) := by
  simp only [identities, List.mem_flatMap, List.mem_cons, List.mem_map, reduceCtorEq, false_or,
    Identity.resourceInstance.injEq]
  constructor
  · rintro ⟨o, ho, oi, hoi, r, hr, mi, hmi, rfl, rfl, rfl, rfl⟩
    exact ⟨o, ho, rfl, oi, hoi, rfl, r, hr, rfl, mi, hmi, rfl⟩
  · rintro ⟨o, ho, rfl, oi, hoi, rfl, r, hr, rfl, mi, hmi, rfl⟩
    exact ⟨o, ho, oi, hoi, r, hr, mi, hmi, rfl, rfl, rfl, rfl⟩

def Identity.objectName : Identity → Bytes
  | .object o | .objectInstance o _ | .resource o _ _ | .resourceInstance o _ _ _ => o

def Identity.objectInstanceId : Identity → Option UInt16
  | .object _ => none
  | .objectInstance _ i | .resource _ i _ | .resourceInstance _ i _ _ => some i

def Identity.resourceName : Identity → Option Bytes
  | .object _ | .objectInstance _ _ => none
  | .resource _ _ r | .resourceInstance _ _ r _ => some r

theorem resource_identities_nodup {o : Bytes} {i : UInt16} {r : M2MResource}
    (hm : (r.instances.map (·.instanceId)).Nodup) :
    (Identity.resource o i r.name :: r.instances.map fun m =>
      Identity.resourceInstance o i r.name m.instanceId).Nodup := by
  rw [List.nodup_cons]
  refine ⟨by simp, ?_⟩
  have hmap := hm.map (f := Identity.resourceInstance o i r.name) fun _ _ h => by injection h
  rwa [List.map_map] at hmap

theorem objectInstance_identities_nodup {o : Bytes} {oi : M2MObjectInstance}
    (hr : oi.NamesDistinct)
    (hm : ∀ r ∈ oi.resources, (r.instances.map (·.instanceId)).Nodup) :
    (Identity.objectInstance o oi.instanceId :: oi.resources.flatMap fun r =>
      Identity.resource o oi.instanceId r.name :: r.instances.map fun m =>
        Identity.resourceInstance o oi.instanceId r.name m.instanceId).Nodup := by
  rw [List.nodup_cons]
  refine ⟨by simp, ?_⟩
  refine nodup_flatMap_of_key (fun r => some r.name) Identity.resourceName
    ?_ (fun r hrm => resource_identities_nodup (hm r hrm)) ?_
  · have hmap := List.Nodup.map (f := some) (fun _ _ h => Option.some.inj h) hr
    rwa [List.map_map] at hmap
  · intro r _ n hn
    rcases List.mem_cons.mp hn with rfl | hn
    · rfl
    · obtain ⟨m, _, rfl⟩ := List.mem_map.mp hn
      rfl

theorem identities_nodup {tree : List NamedObject} (h : WellNamed tree) :
    (identities tree).Nodup := by
  refine nodup_flatMap_of_key (·.name) Identity.objectName h.objects ?_ ?_
  · intro o ho
    rw [List.nodup_cons]
    refine ⟨by simp, ?_⟩
    refine nodup_flatMap_of_key (fun oi => some oi.instanceId) Identity.objectInstanceId ?_
      (fun oi hoi => objectInstance_identities_nodup
        (h.resources o ho oi hoi) (h.members o ho oi hoi)) ?_
    · have hmap := (h.objectInstances o ho).map (f := some) fun _ _ h => Option.some.inj h
      rwa [List.map_map] at hmap
    · intro oi _ n hn
      simp only [List.mem_cons, List.mem_flatMap, List.mem_map] at hn
      rcases hn with rfl | ⟨r, _, rfl | ⟨m, _, rfl⟩⟩ <;> rfl
  · intro o _ n hn
    simp only [List.mem_cons, List.mem_flatMap, List.mem_map] at hn
    rcases hn with rfl | ⟨oi, _, rfl | ⟨r, _, rfl | ⟨m, _, rfl⟩⟩⟩ <;> rfl

end Distinct

section Stored
variable {n : Identity}

theorem isDigit_slash : Decimal.isDigit slash = false := by decide

theorem slash_notMem_idText (i : UInt16) : slash ∉ idText i := fun h => by
  have hdigit := Decimal.digits_isDigit _ _ h
  rw [isDigit_slash] at hdigit
  exact Bool.false_ne_true hdigit

theorem slash_notMem_shortIdText (i : UInt16) : slash ∉ shortIdText i := by
  unfold shortIdText
  split_ifs
  · exact slash_notMem_idText i
  · simp

theorem slash_notMem_parts (hn : n.ValidNames) : ∀ part ∈ n.parts, slash ∉ part := by
  cases n <;> simp_all [Identity.parts, Identity.ValidNames, Identity.ValidName,
    slash_notMem_idText]

theorem slash_notMem_storedParts (hn : n.ValidNames) : ∀ part ∈ n.storedParts, slash ∉ part := by
  cases n <;> simp_all [Identity.storedParts, Identity.ValidNames, Identity.ValidName,
    slash_notMem_idText, slash_notMem_shortIdText]

/-- Parts without a slash can be read off the path. -/
theorem joinPath_inj {p q : List Bytes} (hp : ∀ part ∈ p, slash ∉ part)
    (hq : ∀ part ∈ q, slash ∉ part) (hp0 : p ≠ []) (hq0 : q ≠ [])
    (h : joinPath p = joinPath q) : p = q := by
  rw [← List.splitOn_intercalate slash hp hp0, ← List.splitOn_intercalate slash hq hq0]
  exact congrArg (List.splitOn slash) h

theorem parts_ne_nil (n : Identity) : n.parts ≠ [] := by cases n <;> simp [Identity.parts]

theorem storedParts_ne_nil (n : Identity) : n.storedParts ≠ [] := by
  cases n <;> simp [Identity.storedParts]

theorem idText_inj {i j : UInt16} (h : idText i = idText j) : i = j := by
  have hv := congrArg Decimal.value h
  rw [idText, idText, Decimal.value_digits, Decimal.value_digits] at hv
  exact UInt16.toNat_inj.mp hv

theorem idText_ne_nil (i : UInt16) : idText i ≠ [] := Decimal.digits_ne_nil _

theorem shortIdText_eq (i : UInt16) : shortIdText i = idText i ↔ i.toNat < 10000 := by
  unfold shortIdText
  split_ifs with h
  · exact iff_of_true rfl h
  · exact iff_of_false (idText_ne_nil i).symm h

theorem shortIdText_inj {i j : UInt16} : shortIdText i = shortIdText j ↔
    i = j ∨ 10000 ≤ i.toNat ∧ 10000 ≤ j.toNat := by
  unfold shortIdText
  split_ifs with hi hj hj
  · rw [or_iff_left (by omega)]
    exact ⟨idText_inj, fun h => by rw [h]⟩
  · refine iff_of_false (idText_ne_nil i) ?_
    rintro (rfl | ⟨h, -⟩) <;> omega
  · refine iff_of_false (idText_ne_nil j).symm ?_
    rintro (rfl | ⟨-, h⟩) <;> omega
  · exact iff_of_true rfl (.inr ⟨by omega, by omega⟩)

theorem createPath_eq (hn : n.ValidNames) (h : Heap) :
    n.createPath h = stringdup (joinPath n.storedParts) h := by
  cases n with
  | object o => simp [Identity.createPath, Identity.storedParts, joinPath]
  | objectInstance o i => exact createPathObjectId_eq hn.2.1 h
  | resource o i r => exact createPathObjectInstance_eq hn.1.2.1 hn.2.2.1 h
  | resourceInstance o i r m => exact createPathResourceId_eq hn.1.2.1 hn.2.2.1 h

theorem stringdup_granted {s : Bytes} {h : Heap} (hm : h.malloc.1 = true) :
    (stringdup s h).1 = some s := by
  simp [stringdup, hm]

theorem storedParts_eq_parts : n.storedParts = n.parts ↔ n.ShortId := by
  cases n <;> simp [Identity.storedParts, Identity.parts, Identity.ShortId, shortIdText_eq]

/-- Two entities have one path only if they are the same, or siblings with long ids. -/
theorem storedParts_inj {m : Identity} (h : m.storedParts = n.storedParts) : m = n ∨
    (∃ o i j, m = .objectInstance o i ∧ n = .objectInstance o j ∧
      10000 ≤ i.toNat ∧ 10000 ≤ j.toNat) ∨
    ∃ o i r a b, m = .resourceInstance o i r a ∧ n = .resourceInstance o i r b ∧
      10000 ≤ a.toNat ∧ 10000 ≤ b.toNat := by
  cases m <;> cases n <;> simp only [Identity.storedParts, List.cons.injEq, and_true,
    reduceCtorEq, and_false, shortIdText_inj] at h
  case object.object => exact .inl (by rw [h])
  case objectInstance.objectInstance =>
    obtain ⟨rfl, rfl | hlong⟩ := h
    · exact .inl rfl
    · exact .inr (.inl ⟨_, _, _, rfl, rfl, hlong⟩)
  case resource.resource =>
    obtain ⟨rfl, hi, rfl⟩ := h
    exact .inl (by rw [idText_inj hi])
  case resourceInstance.resourceInstance =>
    obtain ⟨rfl, hi, rfl, rfl | hlong⟩ := h
    · exact .inl (by rw [idText_inj hi])
    · exact .inr (.inr ⟨_, _, _, _, _, rfl, by rw [idText_inj hi], hlong⟩)

end Stored

section Results
variable {h : Heap}

theorem createPath_eq_parts {n : Identity} (hn : n.ValidNames) (hm : h.malloc.1 = true) :
    (n.createPath h).1 = some (joinPath n.parts) ↔ n.ShortId := by
  rw [createPath_eq hn, stringdup_granted hm, Option.some.injEq, ← storedParts_eq_parts]
  exact ⟨joinPath_inj (slash_notMem_storedParts hn) (slash_notMem_parts hn)
    (storedParts_ne_nil n) (parts_ne_nil n), fun h => by rw [h]⟩

theorem createPath_inj {m n : Identity} (hm : m.ValidNames) (hn : n.ValidNames)
    (hh : h.malloc.1 = true) :
    (m.createPath h).1 = (n.createPath h).1 ↔ m.storedParts = n.storedParts := by
  rw [createPath_eq hm, createPath_eq hn, stringdup_granted hh, stringdup_granted hh,
    Option.some.injEq]
  exact ⟨joinPath_inj (slash_notMem_storedParts hm) (slash_notMem_storedParts hn)
    (storedParts_ne_nil m) (storedParts_ne_nil n), fun h => by rw [h]⟩

/-- The paths of a tree tell its entities apart if no two siblings have ids of five digits. -/
theorem paths_nodup {tree : List NamedObject} (hw : WellNamed tree) (hh : h.malloc.1 = true) :
    ((identities tree).map fun n => (n.createPath h).1).Nodup ↔
      ∀ o ∈ tree, OneLongId (o.instances.map (·.instanceId)) ∧
        ∀ oi ∈ o.instances, ∀ r ∈ oi.resources, OneLongId (r.instances.map (·.instanceId)) := by
  rw [List.nodup_map_iff_inj_on (identities_nodup hw)]
  constructor
  · intro hinj o ho
    constructor
    · intro i hi j hj hlongi hlongj
      have hmi := mem_identities_objectInstance.mpr ⟨o, ho, rfl, hi⟩
      have hmj := mem_identities_objectInstance.mpr ⟨o, ho, rfl, hj⟩
      have hparts : (Identity.objectInstance o.name i).storedParts =
          (Identity.objectInstance o.name j).storedParts := by
        rw [Identity.storedParts, shortIdText_inj.mpr (.inr ⟨hlongi, hlongj⟩)]
        rfl
      have heq := hinj _ hmi _ hmj
        ((createPath_inj (hw.names _ hmi) (hw.names _ hmj) hh).mpr hparts)
      injection heq
    · intro oi hoi r hr i hi j hj hlongi hlongj
      have hmi := mem_identities_resourceInstance.mpr ⟨o, ho, rfl, oi, hoi, rfl, r, hr, rfl, hi⟩
      have hmj := mem_identities_resourceInstance.mpr ⟨o, ho, rfl, oi, hoi, rfl, r, hr, rfl, hj⟩
      have hparts : (Identity.resourceInstance o.name oi.instanceId r.name i).storedParts =
          (Identity.resourceInstance o.name oi.instanceId r.name j).storedParts := by
        rw [Identity.storedParts, shortIdText_inj.mpr (.inr ⟨hlongi, hlongj⟩)]
        rfl
      have heq := hinj _ hmi _ hmj
        ((createPath_inj (hw.names _ hmi) (hw.names _ hmj) hh).mpr hparts)
      injection heq
  · intro hone m hm n hn heq
    have hparts := (createPath_inj (hw.names m hm) (hw.names n hn) hh).mp heq
    rcases storedParts_inj hparts with rfl | ⟨name, i, j, rfl, rfl, hi, hj⟩ |
      ⟨name, i, resource, a, b, rfl, rfl, ha, hb⟩
    · rfl
    · obtain ⟨o, ho, rfl, hmi⟩ := mem_identities_objectInstance.mp hm
      obtain ⟨o', ho', hname, hmj⟩ := mem_identities_objectInstance.mp hn
      obtain rfl : o' = o := List.inj_on_of_nodup_map hw.objects ho' ho hname
      rw [(hone o' ho).1 i hmi j hmj hi hj]
    · obtain ⟨o, ho, rfl, oi, hoi, rfl, r, hr, rfl, hma⟩ :=
        mem_identities_resourceInstance.mp hm
      obtain ⟨o', ho', hname, oi', hoi', hid, r', hr', hres, hmb⟩ :=
        mem_identities_resourceInstance.mp hn
      obtain rfl : o' = o := List.inj_on_of_nodup_map hw.objects ho' ho hname
      obtain rfl : oi' = oi :=
        List.inj_on_of_nodup_map (hw.objectInstances _ ho) hoi' hoi hid
      obtain rfl : r' = r :=
        List.inj_on_of_nodup_map (hw.resources _ ho _ hoi) hr' hr hres
      rw [(hone _ ho).2 _ hoi _ hr a hma b hmb ha hb]

/-- A path is put together from names and decimal ids, and tells the entities of a tree apart, but
for ids of five digits. -/
theorem createPath_identifies (h : Heap) (hh : h.malloc.1 = true) :
    (∀ n : Identity, n.ValidNames →
      ((n.createPath h).1 = some (joinPath n.parts) ↔ n.ShortId)) ∧
    ∀ tree, WellNamed tree →
      (((identities tree).map fun n => (n.createPath h).1).Nodup ↔
        ∀ o ∈ tree, OneLongId (o.instances.map (·.instanceId)) ∧
          ∀ oi ∈ o.instances, ∀ r ∈ oi.resources, OneLongId (r.instances.map (·.instanceId))) :=
  ⟨fun _ hn => createPath_eq_parts hn hh, fun _ hw => paths_nodup hw hh⟩

/-- Object "3" with instances 10000 and 10001. -/
def longIds : NamedObject := ⟨⟨[⟨10000, []⟩, ⟨10001, []⟩]⟩, [0x33]⟩

theorem longIds_wellNamed : WellNamed [longIds] where
  names := by
    intro n hn
    simp only [identities, longIds, List.flatMap_cons, List.flatMap_nil, List.mem_cons,
      List.append_nil, List.cons_append, List.nil_append, List.not_mem_nil, or_false] at hn
    rcases hn with rfl | rfl | rfl <;>
      simp [Identity.ValidNames, Identity.ValidName, maxNameSize, slash]
  objects := by decide
  objectInstances := by decide
  resources := by
    simp [longIds, M2MObjectInstance.NamesDistinct]
  members := by simp [longIds]

/-- Both instances get the path "3/". -/
theorem createPath_confuses : WellNamed [longIds] ∧
    ((Identity.objectInstance [0x33] 10000).createPath fun _ => true).1 = some [0x33, 0x2F] ∧
    ((Identity.objectInstance [0x33] 10001).createPath fun _ => true).1 = some [0x33, 0x2F] ∧
    joinPath (Identity.objectInstance [0x33] 10000).parts =
      [0x33, 0x2F, 0x31, 0x30, 0x30, 0x30, 0x30] ∧
    ¬((identities [longIds]).map fun n => (n.createPath fun _ => true).1).Nodup :=
  ⟨longIds_wellNamed, by decide +kernel, by decide +kernel, by decide +kernel, by decide +kernel⟩

theorem createPath_identifies_longIds :
    (((Identity.objectInstance [0x33] 10000).createPath fun _ => true).1 =
        some (joinPath (Identity.objectInstance [0x33] 10000).parts) ↔
      (10000 : UInt16).toNat < 10000) ∧
    (((identities [longIds]).map fun n => (n.createPath fun _ => true).1).Nodup ↔
      ∀ o ∈ [longIds], OneLongId (o.instances.map (·.instanceId)) ∧
        ∀ oi ∈ o.instances, ∀ r ∈ oi.resources, OneLongId (r.instances.map (·.instanceId))) :=
  ⟨(createPath_identifies (fun _ => true) rfl).1 (.objectInstance [0x33] 10000)
      (by simp [Identity.ValidNames, Identity.ValidName, maxNameSize, slash]),
    (createPath_identifies (fun _ => true) rfl).2 [longIds] longIds_wellNamed⟩

end Results
end MbedClient
