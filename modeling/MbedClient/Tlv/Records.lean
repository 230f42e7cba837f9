import MbedClient.Tlv.Deserializer
import MbedClient.Growth

/-! What one record does: the verdict of the check, which entry it names, and the state it leaves.
The walks of the decoder are taken apart into such steps later, so this is where the definitions of
the record bodies are unfolded. -/
namespace MbedClient.Tlv
open Search
variable (tlv : Nat → UInt8)

/-- Everything a heap may still do after an allocation, it could do before. -/
def Stable (H : Heap → Prop) : Prop := ∀ h, H h → H fun n => h (n + 1)

/-- Heaps on which every allocation has the same outcome. -/
theorem stable_const (c : Bool) : Stable (· = fun _ => c) := by
  rintro _ rfl
  rfl

/-- What a record leaves as value: nothing if the copy could not be allocated. -/
def stored (o : Nat) (h : Heap) : Bytes := if h 0 then recValue tlv o else []

theorem stored_empty {o : Nat} (h : Heap) (hl : recLength tlv o = 0) : stored tlv o h = [] := by
  have : recValue tlv o = [] := List.length_eq_zero_iff.mp ((length_recValue tlv o).trans hl)
  simp [stored, this]

theorem storeRecord_fst (o : Nat) (b : M2MResourceBase) (env : Env) :
    (storeRecord tlv o b env).1 = { b with value := stored tlv o env.heap } := by
  unfold storeRecord
  split_ifs with hl
  · rw [M2MResourceBase.setValue, if_pos (by rwa [length_recValue])]
    rfl
  · rw [stored_empty tlv env.heap (by omega)]
    rfl

theorem storeRecord_heap {H : Heap → Prop} (hH : Stable H) (o : Nat) (b : M2MResourceBase)
    (env : Env) (he : H env.heap) : H (storeRecord tlv o b env).2.heap := by
  unfold storeRecord
  split_ifs with hl
  · simpa [M2MResourceBase.setValue, hl, Heap.malloc] using hH _ he
  · exact he

theorem storeRecord_log (o : Nat) (b : M2MResourceBase) (env : Env) :
    (storeRecord tlv o b env).2.log = if 0 < recLength tlv o then
      .value (recContent tlv o) (recLength tlv o) :: env.log else env.log := by
  unfold storeRecord
  split_ifs <;> rfl

theorem newNode_heap {H : Heap → Prop} (hH : Stable H) {h : Heap} (he : H h) : H h.newNode.2 := by
  unfold Heap.newNode Heap.malloc
  cases h 0
  · exact hH _ he
  · exact hH _ (hH _ he)

/-- The error of a search: a check refuses a match without PUT permission. -/
def searchVerdict (update found refused : Bool) (missing : Error) : Error :=
  if found then (if !update && refused then .notAllowed else .none) else missing

section Members
variable (operation : Operation) (update nested : Bool) (owner : Option UInt16) (o : Nat)

def memberHit (i : M2MResourceInstance) : Bool :=
  i.instanceId == recId tlv o && recType tlv o == typeResourceInstance

def memberTarget (r : M2MResource) : Option Nat := r.instances.findIdx? (memberHit tlv o)

/-- What the two overloads do about a resource instance they do not find. -/
def missingMember : Error :=
  match operation with
  | .put => .notFound
  | .post => if nested then .none else .notAllowed

def createsMembers : Bool := nested && operation == .post

/-- The check of one record that is read as a resource instance. -/
def memberVerdict (r : M2MResource) : Error :=
  if instanceStop tlv nested o then .notValid
  else searchVerdict update (r.instances.any (memberHit tlv o))
    (r.instances.any fun i => memberHit tlv o i && !i.putAllowed) (missingMember operation nested)

theorem memberTarget_none {r : M2MResource} (h : instanceStop tlv nested o = true) :
    memberTarget tlv o r = none := by
  rw [memberTarget, List.findIdx?_eq_none_iff]
  intro i _
  cases nested <;> simp_all [instanceStop, memberHit]

/-- The step of one record that is read as a resource instance. -/
def memberStep (s : M2MResource × Env) : M2MResource × Env :=
  let s := (s.1, s.2.read (header tlv o))
  match memberTarget tlv o s.1 with
  | some k =>
    if update then
      (M2MResource.memberAt k).zoom (fun t => storeMember tlv owner s.1.nameId o t.1 t.2) s
    else s
  | none =>
    if !instanceStop tlv owner.isSome o && createsMembers operation owner.isSome then
      createMember tlv owner o s
    else s

theorem instanceRecord_eq (r : M2MResource) (env : Env) :
    instanceRecord tlv operation update owner o (r, env) =
      (memberVerdict tlv operation update owner.isSome o r,
        memberStep tlv operation update owner o (r, env)) := by
  have hhit : (fun i : M2MResourceInstance => i.instanceId == recId tlv o &&
      recType tlv o == typeResourceInstance) = memberHit tlv o := rfl
  have hany : r.instances.any (memberHit tlv o) = (memberTarget tlv o r).isSome := by
    rw [memberTarget, List.findIdx?_isSome]
  cases hs : instanceStop tlv owner.isSome o with
  | true =>
    have hc : (owner.isSome && recType tlv o == typeMultipleResource ||
      recType tlv o == typeResourceInstance) = false := by
      rwa [instanceStop, Bool.not_eq_true'] at hs
    simp [instanceRecord, memberVerdict, memberStep, hc, hs,
      memberTarget_none tlv owner.isSome o hs]
  | false =>
    have hc : (owner.isSome && recType tlv o == typeMultipleResource ||
      recType tlv o == typeResourceInstance) = true := by
      rwa [instanceStop, Bool.not_eq_false'] at hs
    have hst := scan_state (memberHit tlv o) (·.putAllowed) (storeMember tlv owner r.nameId o)
      r.instances (env.read (header tlv o)) update
    rw [Prod.mk.injEq] at hst
    simp only [instanceRecord, memberVerdict, memberStep, searchVerdict, hc, hs, if_true, hhit,
      scan_found,
      scan_refused, hany, hst.1, hst.2]
    cases ht : memberTarget tlv o r with
    | none =>
      rw [memberTarget] at ht
      simp only [ht]
      cases operation <;> cases owner <;> simp [missingMember, createsMembers]
    | some k =>
      rw [memberTarget] at ht
      simp only [ht]
      cases update <;> simp [M2MResource.memberAt, Slot.entry_zoom]

def newMember : M2MResourceInstance :=
  ⟨⟨.dynamic, getPutPostDeleteAllowed, .integer, []⟩, recId tlv o⟩

theorem newMember_putAllowed : (newMember tlv o).putAllowed = true :=
  (by decide : (0 != getPutPostDeleteAllowed &&& snGrsPutAllowed) = true)

/-- `create_dynamic_resource_instance` gets as far as its allocations. -/
def memberCreatable (r : M2MResource) : Bool :=
  validateStringLength r.name 1 maxAllowedStringLength && r.multipleInstance &&
    (r.resourceInstance (recId tlv o)).isNone

theorem createMember_eq (r : M2MResource) (env : Env) : createMember tlv owner o (r, env) =
    if memberCreatable tlv o r then
      if env.heap.newNode.1 then
        ({ r with instances := r.instances ++ [newMember tlv o] },
          ⟨env.heap.newNode.2, .member o owner r.nameId (recId tlv o) :: env.log⟩)
      else (r, ⟨env.heap.newNode.2, env.log⟩)
    else (r, env) := by
  unfold createMember M2MResource.createDynamicInstance memberCreatable
  split_ifs with hc hn
  · simp only [hc, hn, if_true]
    rfl
  · simp only [hc, hn, if_true, Bool.false_eq_true, if_false]
  · simp only [hc, Bool.false_eq_true, if_false]

theorem mem_storeMember_log {resource : Int} {i : M2MResourceInstance} {env : Env} {a : Access}
    (hi : memberHit tlv o i = true) : a ∈ (storeMember tlv owner resource o i env).2.log ↔
      (0 < recLength tlv o ∧ a = .value (recContent tlv o) (recLength tlv o)) ∨
      a = .member o owner resource (recId tlv o) ∨ a ∈ env.log := by
  have hid : i.instanceId = recId tlv o := by simpa using (Bool.and_eq_true_iff.mp hi).1
  change a ∈ (storeRecord tlv o _ (env.note _)).2.log ↔ _
  rw [storeRecord_log]
  split_ifs with hl <;> simp [Env.note, hl, hid]

theorem storeMember_keeps (resource : Int) (i : M2MResourceInstance) (env : Env) :
    i.Keeps true (storeMember tlv owner resource o i env).1 := by
  refine ⟨?_, rfl⟩
  change M2MResourceBase.Keeps true _ (storeRecord tlv o _ _).1
  rw [storeRecord_fst]
  exact M2MResourceBase.keeps_value _

theorem memberTarget_some {r : M2MResource} {k : Nat} (h : memberTarget tlv o r = some k) :
    ∃ i, r.instances[k]? = some i ∧ memberHit tlv o i = true := by
  obtain ⟨hk, hi, -⟩ := List.findIdx?_eq_some_iff_getElem.mp h
  exact ⟨_, List.getElem?_eq_getElem hk, hi⟩

/-- Everything one record can do to a resource: nothing but reading the header, store into the
instance it names, or try to create an instance. -/
theorem memberStep_cases (s : M2MResource × Env) :
    let env := s.2.read (header tlv o)
    let s' := memberStep tlv operation update owner o s
    ((update = true → memberTarget tlv o s.1 = none) ∧
      (memberTarget tlv o s.1 = none → instanceStop tlv owner.isSome o = false →
        createsMembers operation owner.isSome = false) ∧ s' = (s.1, env)) ∨
    (∃ k i, update = true ∧ memberTarget tlv o s.1 = some k ∧ s.1.instances[k]? = some i ∧
      memberHit tlv o i = true ∧
      s' = ({ s.1 with instances :=
          s.1.instances.set k (storeMember tlv owner s.1.nameId o i env).1 },
        (storeMember tlv owner s.1.nameId o i env).2)) ∨
    (memberTarget tlv o s.1 = none ∧ instanceStop tlv owner.isSome o = false ∧
      createsMembers operation owner.isSome = true ∧ s' = createMember tlv owner o (s.1, env)) := by
  cases ht : memberTarget tlv o s.1 with
  | none =>
    by_cases hc : (!instanceStop tlv owner.isSome o && createsMembers operation owner.isSome) = true
    · refine Or.inr (Or.inr ⟨rfl, ?_, ?_, by simp only [memberStep, ht, hc, if_true]⟩)
      · simpa using (Bool.and_eq_true_iff.mp hc).1
      · exact (Bool.and_eq_true_iff.mp hc).2
    · exact Or.inl ⟨fun _ => rfl, fun _ hs => by simpa [hs] using hc,
        by simp only [memberStep, ht, if_neg hc]⟩
  | some k =>
    obtain ⟨i, hk, hi⟩ := memberTarget_some tlv o ht
    cases update with
    | false => exact Or.inl ⟨by simp, by simp, by simp [memberStep, ht]⟩
    | true =>
      refine Or.inr (Or.inl ⟨k, i, rfl, rfl, hk, hi, ?_⟩)
      simp only [memberStep, ht, if_true]
      exact Slot.zoom_some _ hk

theorem memberStep_grows (s : M2MResource × Env) :
    s.1.Grows update (createsMembers operation owner.isSome)
      (memberStep tlv operation update owner o s).1 := by
  rcases memberStep_cases tlv operation update owner o s with
    ⟨-, -, h⟩ | ⟨k, i, rfl, -, hk, -, h⟩ | ⟨-, -, hc, h⟩
  · rw [h]
    exact .refl _
  · rw [h]
    exact ⟨.refl _, rfl, rfl, .set M2MResourceInstance.Keeps.refl hk
      (storeMember_keeps tlv owner o _ i _)⟩
  · rw [h, createMember_eq]
    split_ifs
    · exact ⟨.refl _, rfl, rfl, .append (.refl M2MResourceInstance.Keeps.refl _)
        ⟨hc, newMember_putAllowed tlv o⟩⟩
    · exact .refl _
    · exact .refl _

theorem memberStep_heap {H : Heap → Prop} (hH : Stable H) (s : M2MResource × Env)
    (hs : H s.2.heap) : H (memberStep tlv operation update owner o s).2.heap := by
  rcases memberStep_cases tlv operation update owner o s with
    ⟨-, -, h⟩ | ⟨k, i, -, -, -, -, h⟩ | ⟨-, -, -, h⟩
  · rwa [h]
  · rw [h]
    exact storeRecord_heap tlv hH o _ _ hs
  · rw [h, createMember_eq]
    split_ifs
    · exact newNode_heap hH hs
    · exact newNode_heap hH hs
    · exact hs

/-- The header of a record is read at the indices in front of its value. -/
theorem mem_read_log {env : Env} {a : Access} : a ∈ (env.read (header tlv o)).log ↔
    (∃ i, a = .byte i ∧ o ≤ i ∧ i < recContent tlv o) ∨ a ∈ env.log := by
  simp only [Env.read, List.mem_append, List.mem_map, mem_reads]
  refine or_congr_left ⟨?_, ?_⟩
  · rintro ⟨i, hi, rfl⟩
    exact ⟨i, rfl, hi⟩
  · rintro ⟨i, rfl, hi⟩
    exact ⟨i, hi, rfl⟩

def memberStored (r : M2MResource) : Prop := update = true ∧ (memberTarget tlv o r).isSome

def memberCreated (s : M2MResource × Env) : Prop :=
  memberTarget tlv o s.1 = none ∧ instanceStop tlv owner.isSome o = false ∧
    createsMembers operation owner.isSome = true ∧ memberCreatable tlv o s.1 = true ∧
    s.2.heap.newNode.1 = true

theorem mem_memberStep_log (s : M2MResource × Env) (a : Access) :
    a ∈ (memberStep tlv operation update owner o s).2.log ↔
      (∃ i, a = .byte i ∧ o ≤ i ∧ i < recContent tlv o) ∨
      (memberStored tlv update o s.1 ∧ 0 < recLength tlv o ∧
        a = .value (recContent tlv o) (recLength tlv o)) ∨
      ((memberStored tlv update o s.1 ∨ memberCreated tlv operation owner o s) ∧
        a = .member o owner s.1.nameId (recId tlv o)) ∨ a ∈ s.2.log := by
  rcases memberStep_cases tlv operation update owner o s with
    ⟨hu, hc, h⟩ | ⟨k, i, hu, ht, hk, hi, h⟩ | ⟨ht, hs, hc, h⟩
  · have hst : ¬memberStored tlv update o s.1 := fun h => by simp [hu h.1, memberStored] at h
    have hcr : ¬memberCreated tlv operation owner o s := fun h =>
      Bool.false_ne_true ((hc h.1 h.2.1).symm.trans h.2.2.1)
    rw [h, mem_read_log]
    simp only [hst, hcr, false_and, or_self, false_or]
  · have hst : memberStored tlv update o s.1 := ⟨hu, by simp [ht]⟩
    rw [h, mem_storeMember_log tlv owner o hi, mem_read_log]
    simp only [hst, true_and, true_or]
    rw [or_left_comm (a := a = _), or_left_comm (a := _ ∧ a = _)]
  · have hst : ¬memberStored tlv update o s.1 := fun h => by simp [ht, memberStored] at h
    have hcr : memberCreated tlv operation owner o s ↔ memberCreatable tlv o s.1 = true ∧
        s.2.heap.newNode.1 = true := ⟨fun h => h.2.2.2, fun h => ⟨ht, hs, hc, h.1, h.2⟩⟩
    have hh : (s.2.read (header tlv o)).heap = s.2.heap := rfl
    rw [h, createMember_eq, hcr, hh]
    simp only [hst, false_and, false_or]
    split_ifs with h1 h2
    · simp only [List.mem_cons, mem_read_log, h1, h2, and_self, true_and]
      rw [or_left_comm]
    · simp only [mem_read_log, h2, Bool.false_eq_true, and_false, false_and, false_or]
    · simp only [mem_read_log, h1, Bool.false_eq_true, false_and, false_or]

end Members

section Resources
variable (size : Nat) (operation : Operation) (update : Bool) (o : Nat)

def ownHit (r : M2MResource) : Bool := r.nameId == ((recId tlv o).toNat : Int)

def isOwn : Bool := recType tlv o == typeResource || recType tlv o == typeResourceInstance

def ownTarget (oi : M2MObjectInstance) : Option Nat :=
  if isOwn tlv o then oi.resources.findIdx? (ownHit tlv o) else none

/-- The multi-instance resources a multiple resource record enters. -/
def multiHit (r : M2MResource) : Bool :=
  r.multipleInstance && r.nameId == ((recId tlv o).toNat : Int)

def missingOwn : Error :=
  match operation with
  | .put => .notFound
  | .post => .none

/-- The check of one record that is read as a resource, without what it contains. -/
def ownVerdict (oi : M2MObjectInstance) : Error :=
  if isOwn tlv o then searchVerdict update (oi.resources.any (ownHit tlv o))
    (oi.resources.any fun r => ownHit tlv o r && !r.putAllowed) (missingOwn operation)
  else if recType tlv o == typeMultipleResource then .none
  else .notValid

/-- The step of one record that is read as a resource, without what it contains. -/
def ownStep (s : M2MObjectInstance × Env) : M2MObjectInstance × Env :=
  let s := (s.1, s.2.read (header tlv o))
  match ownTarget tlv o s.1 with
  | some k =>
    if update then (M2MObjectInstance.resourceAt k).zoom
      (fun t => storeResource tlv s.1.instanceId o t.1 t.2) s
    else s
  | none => if isOwn tlv o && operation == .post then createResource tlv o s else s

theorem resourceRecord_eq (h : (recType tlv o == typeMultipleResource) = false)
    (oi : M2MObjectInstance) (env : Env) :
    resourceRecord tlv size operation update o (oi, env) =
      (ownVerdict tlv operation update o oi, ownStep tlv operation update o (oi, env)) := by
  have hhit : (fun r : M2MResource => r.nameId == ((recId tlv o).toNat : Int)) =
      ownHit tlv o := rfl
  cases hc : isOwn tlv o with
  | false =>
    have hc' := hc
    rw [isOwn] at hc'
    simp [resourceRecord, ownVerdict, ownStep, ownTarget, hc, hc', h]
  | true =>
    have hc' := hc
    rw [isOwn] at hc'
    have hany : oi.resources.any (ownHit tlv o) = (ownTarget tlv o oi).isSome := by
      rw [ownTarget, if_pos hc, List.findIdx?_isSome]
    have hst := scan_state (ownHit tlv o) (·.putAllowed) (storeResource tlv oi.instanceId o)
      oi.resources (env.read (header tlv o)) update
    rw [Prod.mk.injEq] at hst
    simp only [resourceRecord, ownVerdict, ownStep, searchVerdict, hc, hc', if_true, hhit,
      scan_found, scan_refused, hany, hst.1, hst.2]
    cases ht : ownTarget tlv o oi with
    | none =>
      rw [ownTarget, if_pos hc] at ht
      simp only [ht]
      cases operation <;> simp [missingOwn]
    | some k =>
      rw [ownTarget, if_pos hc] at ht
      simp only [ht]
      cases update <;> simp [M2MObjectInstance.resourceAt, Slot.entry_zoom]

/-- A multiple resource record has no step of its own. -/
theorem ownStep_multi (h : recType tlv o = typeMultipleResource) (s : M2MObjectInstance × Env) :
    ownStep tlv operation update o s = (s.1, s.2.read (header tlv o)) := by
  have hc : isOwn tlv o = false := by
    rw [isOwn, h]
    decide
  simp [ownStep, ownTarget, hc]

def newResource : M2MResource :=
  ⟨⟨.dynamic, getPutPostDeleteAllowed, .integer, []⟩, Decimal.digits (recId tlv o).toNat,
    false, []⟩

theorem newResource_putAllowed : (newResource tlv o).putAllowed = true :=
  (by decide : (0 != getPutPostDeleteAllowed &&& snGrsPutAllowed) = true)

def resourceCreatable (oi : M2MObjectInstance) : Bool :=
  (oi.resource (Decimal.digits (recId tlv o).toNat)).isNone

theorem itoaC_id (id : UInt16) : itoaC (Int64.ofNat id.toNat) = Decimal.digits id.toNat := by
  have hlt : id.toNat < 2 ^ 16 := id.toNat_lt
  have hid : (Int64.ofNat id.toNat).toInt = id.toNat := by
    rw [Int64.toInt_ofNat_of_lt (by omega)]
  have hne : Int64.ofNat id.toNat ≠ Int64.minValue := by
    intro h
    rw [h] at hid
    have : Int64.minValue.toInt = -2 ^ 63 := rfl
    omega
  rw [itoaC_eq _ hne, hid, if_neg (by omega), Int.natAbs_natCast]

/-- The decimal numeral of an id is a valid name of a resource with that id. -/
theorem validate_digits (id : UInt16) :
    validateStringLength (Decimal.digits id.toNat) 1 maxAllowedStringLength = true := by
  have hlt : id.toNat < 2 ^ 16 := id.toNat_lt
  have hle := Decimal.length_digits_le (n := id.toNat) (k := 4) (by omega)
  have hpos := List.length_pos_iff.mpr (Decimal.digits_ne_nil id.toNat)
  have hmax : 5 ≤ maxAllowedStringLength := by decide
  simp only [validateStringLength, Bool.and_eq_true, decide_eq_true_eq]
  exact ⟨hpos, hle.trans hmax⟩

theorem createResource_eq (oi : M2MObjectInstance) (env : Env) : createResource tlv o (oi, env) =
    if resourceCreatable tlv o oi then
      if env.heap.newNode.1 then
        ({ oi with resources := oi.resources ++ [newResource tlv o] },
          ⟨env.heap.newNode.2, .resource o oi.instanceId (recId tlv o).toNat :: env.log⟩)
      else (oi, ⟨env.heap.newNode.2, env.log⟩)
    else (oi, env) := by
  have hlt : (recId tlv o).toNat < 2 ^ 16 := (recId tlv o).toNat_lt
  have hid := nameId_digits (n := (recId tlv o).toNat) (by omega)
  simp only [createResource, M2MObjectInstance.createDynamicResource, itoaC_id, validate_digits,
    Bool.true_and, resourceCreatable, hid]
  by_cases hc : (oi.resource (Decimal.digits (recId tlv o).toNat)).isNone = true
  · by_cases hn : env.heap.newNode.1 = true
    · simp only [hc, hn, if_true]
      rfl
    · simp only [hc, hn, if_true, Bool.false_eq_true, if_false]
  · simp only [hc, Bool.false_eq_true, if_false]

theorem mem_storeResource_log {owner : UInt16} {r : M2MResource} {env : Env} {a : Access}
    (hr : ownHit tlv o r = true) : a ∈ (storeResource tlv owner o r env).2.log ↔
      (0 < recLength tlv o ∧ a = .value (recContent tlv o) (recLength tlv o)) ∨
      a = .resource o owner (recId tlv o).toNat ∨ a ∈ env.log := by
  have hid : r.nameId = (recId tlv o).toNat := by simpa [ownHit] using hr
  change a ∈ (storeRecord tlv o _ (env.note _)).2.log ↔ _
  rw [storeRecord_log]
  split_ifs with hl <;> simp [Env.note, hl, hid]

theorem storeResource_grows (owner : UInt16) (creates : Bool) (r : M2MResource) (env : Env) :
    r.Grows true creates (storeResource tlv owner o r env).1 := by
  refine ⟨?_, rfl, rfl, .refl M2MResourceInstance.Keeps.refl _⟩
  change M2MResourceBase.Keeps true _ (storeRecord tlv o _ _).1
  rw [storeRecord_fst]
  exact M2MResourceBase.keeps_value _

theorem ownTarget_some {oi : M2MObjectInstance} {k : Nat} (h : ownTarget tlv o oi = some k) :
    isOwn tlv o = true ∧ ∃ r, oi.resources[k]? = some r ∧ ownHit tlv o r = true := by
  unfold ownTarget at h
  split_ifs at h with hc
  obtain ⟨hk, hr, -⟩ := List.findIdx?_eq_some_iff_getElem.mp h
  exact ⟨hc, _, List.getElem?_eq_getElem hk, hr⟩

/-- Everything one record can do to an object instance at its own level. -/
theorem ownStep_cases (s : M2MObjectInstance × Env) :
    let env := s.2.read (header tlv o)
    let s' := ownStep tlv operation update o s
    ((update = true → ownTarget tlv o s.1 = none) ∧
      (ownTarget tlv o s.1 = none → isOwn tlv o = true → operation = .put) ∧ s' = (s.1, env)) ∨
    (∃ k r, update = true ∧ ownTarget tlv o s.1 = some k ∧ s.1.resources[k]? = some r ∧
      ownHit tlv o r = true ∧
      s' = ({ s.1 with
          resources := s.1.resources.set k (storeResource tlv s.1.instanceId o r env).1 },
        (storeResource tlv s.1.instanceId o r env).2)) ∨
    (ownTarget tlv o s.1 = none ∧ isOwn tlv o = true ∧ operation = .post ∧
      s' = createResource tlv o (s.1, env)) := by
  cases ht : ownTarget tlv o s.1 with
  | none =>
    cases hc : isOwn tlv o with
    | false => exact Or.inl ⟨fun _ => rfl, by simp, by simp [ownStep, ht, hc]⟩
    | true =>
      cases operation with
      | put => exact Or.inl ⟨fun _ => rfl, fun _ _ => rfl, by simp [ownStep, ht, hc]⟩
      | post => exact Or.inr (Or.inr ⟨rfl, rfl, rfl, by simp [ownStep, ht, hc]⟩)
  | some k =>
    obtain ⟨hc, r, hk, hr⟩ := ownTarget_some tlv o ht
    cases update with
    | false => exact Or.inl ⟨by simp, by simp, by simp [ownStep, ht]⟩
    | true =>
      refine Or.inr (Or.inl ⟨k, r, rfl, rfl, hk, hr, ?_⟩)
      simp only [ownStep, ht, if_true]
      exact Slot.zoom_some _ hk

theorem ownStep_grows (s : M2MObjectInstance × Env) :
    s.1.Grows update (operation == .post) (ownStep tlv operation update o s).1 := by
  rcases ownStep_cases tlv operation update o s with
    ⟨-, -, h⟩ | ⟨k, r, rfl, -, hk, -, h⟩ | ⟨-, -, rfl, h⟩
  · rw [h]
    exact .refl _
  · rw [h]
    exact .set hk (storeResource_grows tlv o _ _ r _)
  · rw [h, createResource_eq]
    split_ifs
    · exact ⟨rfl, .append (.refl M2MResource.Grows.refl _) ⟨rfl, newResource_putAllowed tlv o, rfl⟩⟩
    · exact .refl _
    · exact .refl _

theorem ownStep_heap {H : Heap → Prop} (hH : Stable H) (s : M2MObjectInstance × Env)
    (hs : H s.2.heap) : H (ownStep tlv operation update o s).2.heap := by
  rcases ownStep_cases tlv operation update o s with
    ⟨-, -, h⟩ | ⟨k, r, -, -, -, -, h⟩ | ⟨-, -, -, h⟩
  · rwa [h]
  · rw [h]
    exact storeRecord_heap tlv hH o _ _ hs
  · rw [h, createResource_eq]
    split_ifs
    · exact newNode_heap hH hs
    · exact newNode_heap hH hs
    · exact hs

def resourceStored (oi : M2MObjectInstance) : Prop := update = true ∧ (ownTarget tlv o oi).isSome

def resourceCreated (s : M2MObjectInstance × Env) : Prop :=
  ownTarget tlv o s.1 = none ∧ isOwn tlv o = true ∧ operation = .post ∧
    resourceCreatable tlv o s.1 = true ∧ s.2.heap.newNode.1 = true

theorem mem_ownStep_log (s : M2MObjectInstance × Env) (a : Access) :
    a ∈ (ownStep tlv operation update o s).2.log ↔
      (∃ i, a = .byte i ∧ o ≤ i ∧ i < recContent tlv o) ∨
      (resourceStored tlv update o s.1 ∧ 0 < recLength tlv o ∧
        a = .value (recContent tlv o) (recLength tlv o)) ∨
      ((resourceStored tlv update o s.1 ∨ resourceCreated tlv operation o s) ∧
        a = .resource o s.1.instanceId (recId tlv o).toNat) ∨ a ∈ s.2.log := by
  rcases ownStep_cases tlv operation update o s with
    ⟨hu, hc, h⟩ | ⟨k, r, hu, ht, hk, hr, h⟩ | ⟨ht, hs, hc, h⟩
  · have hst : ¬resourceStored tlv update o s.1 := fun h => by simp [hu h.1, resourceStored] at h
    have hcr : ¬resourceCreated tlv operation o s := fun h =>
      absurd ((hc h.1 h.2.1).symm.trans h.2.2.1) (by decide)
    rw [h, mem_read_log]
    simp only [hst, hcr, false_and, or_self, false_or]
  · have hst : resourceStored tlv update o s.1 := ⟨hu, by simp [ht]⟩
    rw [h, mem_storeResource_log tlv o hr, mem_read_log]
    simp only [hst, true_and, true_or]
    rw [or_left_comm (a := a = _), or_left_comm (a := _ ∧ a = _)]
  · have hst : ¬resourceStored tlv update o s.1 := fun h => by simp [ht, resourceStored] at h
    have hcr : resourceCreated tlv operation o s ↔ resourceCreatable tlv o s.1 = true ∧
        s.2.heap.newNode.1 = true := ⟨fun h => h.2.2.2, fun h => ⟨ht, hs, hc, h.1, h.2⟩⟩
    have hh : (s.2.read (header tlv o)).heap = s.2.heap := rfl
    rw [h, createResource_eq, hcr, hh]
    simp only [hst, false_and, false_or]
    split_ifs with h1 h2
    · simp only [List.mem_cons, mem_read_log, h1, h2, and_self, true_and]
      rw [or_left_comm]
    · simp only [mem_read_log, h2, Bool.false_eq_true, and_false, false_and, false_or]
    · simp only [mem_read_log, h1, Bool.false_eq_true, false_and, false_or]

end Resources
end MbedClient.Tlv
