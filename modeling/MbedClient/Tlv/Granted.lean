import Mathlib.Algebra.Group.Action.Defs
import Mathlib.Algebra.Order.BigOperators.Group.List
import MbedClient.Tlv.AllOrNothing

/-! A run of the serializer whose allocations succeed. -/
namespace MbedClient.Tlv
open Allocation

section Granted
variable {α : Type*}

/-- No request asks for more than the bytes that are there in the end. -/
def Bounded (requests : Nat → List Nat) (bytes : Bytes) : Prop :=
  ∀ n, ∀ q ∈ requests n, q ≤ n + bytes.length

theorem Appends.granted {f : Output → Heap → Appended} {bytes : Bytes} {requests : Nat → List Nat}
    (h : Appends f bytes requests) (hle : Bounded requests bytes) {pre : Bytes}
    (hpre : pre.length < 2 ^ 32) : f (.of pre) (fun _ => true) =
      if (pre ++ bytes).length < 2 ^ 32 then some (true, .of (pre ++ bytes), fun _ => true)
      else none := by
  have hfits : (∀ q ∈ requests pre.length, q < 2 ^ 32) ↔ (pre ++ bytes).length < 2 ^ 32 := by
    rw [List.length_append]
    constructor
    · intro hq
      obtain ⟨l, hl⟩ := h.last pre.length
      exact hq _ (by rw [hl]; simp)
    · intro hlt q hq
      exact (hle pre.length q hq).trans_lt hlt
  rw [h.run pre _ hpre, attempt_all]
  by_cases hlt : (pre ++ bytes).length < 2 ^ 32
  · rw [if_pos (hfits.mpr hlt), if_pos hlt]
    rfl
  · rw [if_neg (mt hfits.mp hlt), if_neg hlt]
    rfl

/-- The loop ends where the size wraps, and nowhere else. -/
theorem appendAll_granted {f : α → Output → Heap → Appended} {bytes : α → Bytes}
    {requests : α → Nat → List Nat} {xs : List α}
    (hf : ∀ x ∈ xs, Appends (f x) (bytes x) (requests x))
    (hle : ∀ x ∈ xs, Bounded (requests x) (bytes x)) {pre : Bytes} (hpre : pre.length < 2 ^ 32) :
    appendAll f xs (.of pre) (fun _ => true) =
      if (pre ++ xs.flatMap bytes).length < 2 ^ 32 then
        some (true, .of (pre ++ xs.flatMap bytes), fun _ => true)
      else none := by
  induction xs generalizing pre with
  | nil =>
    rw [List.flatMap_nil, List.append_nil, if_pos hpre]
    rfl
  | cons x xs ih =>
    have hx := (hf x List.mem_cons_self).granted (hle x List.mem_cons_self) hpre
    rw [appendAll, hx, List.flatMap_cons, ← List.append_assoc]
    by_cases hlt : (pre ++ bytes x).length < 2 ^ 32
    · rw [if_pos hlt]
      exact ih (fun y hy => hf y (List.mem_cons_of_mem x hy))
        (fun y hy => hle y (List.mem_cons_of_mem x hy)) hlt
    · have hge : ¬(pre ++ bytes x ++ xs.flatMap bytes).length < 2 ^ 32 := by
        rw [List.length_append]
        omega
      rw [if_neg hlt, if_neg hge]
      rfl

/-- Where no call fails, it does not matter whether one looks at what they return. -/
theorem appendEach_eq {f : α → Output → Heap → Appended} {xs : List α} {out : Output}
    {heap : Heap} :
    (∀ s, appendAll f xs out heap = some (true, s) → appendEach f xs out heap = some s) ∧
      (appendAll f xs out heap = none → appendEach f xs out heap = none) := by
  induction xs generalizing out heap with
  | nil => simp [appendAll, appendEach]
  | cons x xs ih =>
    rw [appendAll, appendEach]
    obtain hx | ⟨_ | _, out', heap'⟩ := f x out heap
    · simp
    · simp
    · exact ih

theorem appendEach_granted {f : α → Output → Heap → Appended} {bytes : α → Bytes}
    {requests : α → Nat → List Nat} {xs : List α}
    (hf : ∀ x ∈ xs, Appends (f x) (bytes x) (requests x))
    (hle : ∀ x ∈ xs, Bounded (requests x) (bytes x)) {pre : Bytes} (hpre : pre.length < 2 ^ 32) :
    appendEach f xs (.of pre) (fun _ => true) =
      if (pre ++ xs.flatMap bytes).length < 2 ^ 32 then
        some (.of (pre ++ xs.flatMap bytes), fun _ => true)
      else none := by
  have hrun := appendAll_granted hf hle hpre
  split_ifs at hrun ⊢
  · exact appendEach_eq.1 _ hrun
  · exact appendEach_eq.2 hrun

theorem mul_le_length {bytes : α → Bytes} {xs : List α} {c : Nat}
    (h : ∀ x ∈ xs, c ≤ (bytes x).length) : xs.length * c ≤ (xs.flatMap bytes).length := by
  have hsum := List.card_nsmul_le_sum (xs.map fun x => (bytes x).length) c (by simpa using h)
  rwa [List.length_map, smul_eq_mul, ← List.length_flatMap] at hsum

theorem length_le_mul {bytes : α → Bytes} {xs : List α} {c : Nat}
    (h : ∀ x ∈ xs, (bytes x).length ≤ c) : (xs.flatMap bytes).length ≤ xs.length * c := by
  have hsum := List.sum_le_card_nsmul (xs.map fun x => (bytes x).length) c (by simpa using h)
  rwa [List.length_map, smul_eq_mul, ← List.length_flatMap] at hsum

theorem length_le_record (type : UInt8) (id : UInt16) (value : Bytes) :
    value.length ≤ (record type id value).length := by
  rw [record, List.length_append]
  exact Nat.le_add_left _ _

variable (wire : M2MResourceBase → Bytes)

theorem memberRequests_bounded (i : M2MResourceInstance) :
    Bounded (memberRequests wire i) (memberBytes wire i) := by
  intro n q hq
  rw [List.mem_singleton.mp hq]

theorem resourceRequests_bounded (r : M2MResource) :
    Bounded (resourceRequests wire r) (resourceBytes wire r) := by
  intro n q hq
  obtain hq | hq := List.mem_append.mp hq
  · split_ifs at hq with hm
    · have hle := running_le (fun i _ => memberRequests_bounded wire i) 0 q hq
      have hcontent : (resourceContent wire r).length ≤ (resourceBytes wire r).length :=
        length_le_record _ _ _
      rw [resourceContent, if_pos hm, List.length_flatMap] at hcontent
      omega
    · exact absurd hq List.not_mem_nil
  · rw [List.mem_singleton.mp hq]

theorem objectInstanceRequests_bounded (oi : M2MObjectInstance) :
    Bounded (objectInstanceRequests wire oi) (objectInstanceBytes wire oi) := by
  intro n q hq
  obtain hq | hq := List.mem_append.mp hq
  · have hle := running_le (fun r _ => resourceRequests_bounded wire r) 0 q hq
    have hcontent : (objectInstanceContent wire oi).length ≤ (objectInstanceBytes wire oi).length :=
      length_le_record _ _ _
    rw [objectInstanceContent, List.length_flatMap] at hcontent
    omega
  · rw [List.mem_singleton.mp hq]

end Granted

section Subject
variable {commonWrite64Bit : UInt64 → Vector UInt8 8}

/-- Where some calls do nothing, those of the other elements remain. -/
theorem appendEach_filter {α : Type*} {f : α → Output → Heap → Appended} {named : α → Bool}
    (hf : ∀ x, named x = false → ∀ out heap, f x out heap = some (false, out, heap)) (xs : List α)
    (out : Output) (heap : Heap) :
    appendEach f xs out heap = appendEach f (xs.filter named) out heap := by
  induction xs generalizing out heap with
  | nil => rfl
  | cons x xs ih =>
    cases hn : named x with
    | false =>
      rw [appendEach, hf x hn, List.filter_cons_of_neg (by simp [hn])]
      exact ih out heap
    | true =>
      rw [appendEach, List.filter_cons_of_pos hn, appendEach]
      congr
      funext s
      exact ih s.2.1 s.2.2

theorem serializeObjectInstances_granted {ois : List M2MObjectInstance}
    (h : ∀ oi ∈ ois, allNamed oi.resources = true) :
    let bytes := ois.flatMap (objectInstanceBytes (wireValue commonWrite64Bit))
    serialize commonWrite64Bit (.objectInstances ois) (fun _ => true) =
      if bytes.length < 2 ^ 32 then some (.of bytes, fun _ => true) else none := by
  have happends : ∀ oi ∈ ois, Appends (serializeObjectInstance commonWrite64Bit oi.instanceId oi)
      (objectInstanceBytes (wireValue commonWrite64Bit) oi)
      (objectInstanceRequests (wireValue commonWrite64Bit) oi) := by
    intro oi hoi
    have htries := @serializeObjectInstance_tries commonWrite64Bit oi
    rwa [Tries, if_pos (h oi hoi)] at htries
  exact appendEach_granted happends (fun oi _ => objectInstanceRequests_bounded _ oi)
    (by decide : ([] : Bytes).length < 2 ^ 32)

theorem serializeResources_granted {rs : List M2MResource} (h : allNamed rs = true) :
    let bytes := rs.flatMap (resourceBytes (wireValue commonWrite64Bit))
    serialize commonWrite64Bit (.resources rs) (fun _ => true) =
      if bytes.length < 2 ^ 32 then some (.of bytes, fun _ => true) else none := by
  have hrun := appendAll_granted (serializeEither_appends_all commonWrite64Bit h)
    (fun r _ => resourceRequests_bounded _ r) (by decide : ([] : Bytes).length < 2 ^ 32)
  have hempty : Output.empty = .of [] := rfl
  rw [List.nil_append] at hrun
  intro bytes
  rw [serialize, serializeResources_named h, hempty, hrun]
  split_ifs <;> rfl

theorem serializeResource_granted {r : M2MResource} (h : r.nameId ≠ -1) :
    let bytes := resourceBytes (wireValue commonWrite64Bit) r
    serialize commonWrite64Bit (.resource r) (fun _ => true) =
      if bytes.length < 2 ^ 32 then some (.of bytes, fun _ => true) else none := by
  have hrun := (@serializeEither_appends commonWrite64Bit _ h).granted
    (resourceRequests_bounded _ r) (by decide : ([] : Bytes).length < 2 ^ 32)
  have hempty : Output.empty = .of [] := rfl
  rw [List.nil_append] at hrun
  intro bytes
  rw [serialize, hempty, hrun]
  split_ifs <;> rfl

/-- What is written of a subject: nothing of what has a resource without a number. -/
def Subject.bytes (wire : M2MResourceBase → Bytes) : Subject → Bytes
  | .objectInstances ois =>
    (ois.filter fun oi => allNamed oi.resources).flatMap (objectInstanceBytes wire)
  | .resources rs => if allNamed rs then rs.flatMap (resourceBytes wire) else []
  | .resource r => if r.nameId = -1 then [] else resourceBytes wire r

/-- The size that `serialize` returns is the one thing that does not fit. -/
theorem serialize_granted (subject : Subject) :
    let bytes := subject.bytes (wireValue commonWrite64Bit)
    serialize commonWrite64Bit subject (fun _ => true) =
      if bytes.length < 2 ^ 32 then some (.of bytes, fun _ => true) else none := by
  cases subject with
  | objectInstances ois =>
    have hnamed : ∀ oi ∈ ois.filter fun oi => allNamed oi.resources,
        allNamed oi.resources = true := fun _ hoi => (List.mem_filter.mp hoi).2
    have hskipped : ∀ oi : M2MObjectInstance, allNamed oi.resources = false → ∀ out heap,
        serializeObjectInstance commonWrite64Bit oi.instanceId oi out heap =
          some (false, out, heap) := by
      intro oi hn
      have htries := @serializeObjectInstance_tries commonWrite64Bit oi
      rwa [hn] at htries
    have hfilter := appendEach_filter hskipped ois .empty fun _ => true
    exact hfilter.trans (serializeObjectInstances_granted hnamed)
  | resources rs =>
    cases hn : allNamed rs with
    | false =>
      rw [serialize, serializeResources_unnamed hn]
      simp [Subject.bytes, hn, Output.of, Output.empty]
    | true =>
      have hbytes : (Subject.resources rs).bytes (wireValue commonWrite64Bit) =
          rs.flatMap (resourceBytes (wireValue commonWrite64Bit)) := if_pos hn
      intro bytes
      rw [serializeResources_granted hn, ← hbytes]
  | resource r =>
    by_cases hn : r.nameId = -1
    · simp [serialize, serializeEither, Subject.bytes, hn, Output.of, Output.empty]
    · have hbytes : (Subject.resource r).bytes (wireValue commonWrite64Bit) =
          resourceBytes (wireValue commonWrite64Bit) r := if_neg hn
      intro bytes
      rw [serializeResource_granted hn, ← hbytes]

end Subject
end MbedClient.Tlv
