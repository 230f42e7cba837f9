import MbedClient.Tlv.Appending
import Mathlib.Data.List.Flatten

/-! When the public `serialize` writes everything that it is given or nothing at all. A list of
object instances is written by a loop that does not look at what its calls return; a list of
resources is given up at the first failure, but the size that it has reached stays. -/
namespace MbedClient.Tlv
open Allocation
variable {α : Type*}

section Loops
variable {f : α → Output → Heap → Appended} {bytes : α → Bytes} {requests : α → Nat → List Nat}
  {named : α → Bool}

/-- Elements that are not named make no request and are left out. -/
def Tries (f : Output → Heap → Appended) (bytes : Bytes) (requests : Nat → List Nat)
    (named : Bool) : Prop :=
  if named then Appends f bytes requests else ∀ out heap, f out heap = some (false, out, heap)

def Whole (bytes : α → Bytes) (requests : α → Nat → List Nat) (named : α → Bool) (xs : List α)
    (n : Nat) (heap : Heap) : Prop :=
  (∀ x ∈ xs, named x = true) ∧ Granted (running requests (fun x => (bytes x).length) xs n) heap

def Void (requests : α → Nat → List Nat) (named : α → Bool) (xs : List α) (n : Nat)
    (heap : Heap) : Prop := AllRefused ((xs.filter named).map fun x => requests x n) heap

section Cons
variable {x : α} {xs : List α} {n : Nat} {heap : Heap}

theorem not_whole_cons (hn : named x = false) :
    ¬Whole bytes requests named (x :: xs) n heap := by
  intro h
  have hx := h.1 x List.mem_cons_self
  rw [hn] at hx
  exact Bool.false_ne_true hx

theorem whole_cons (hn : named x = true) : Whole bytes requests named (x :: xs) n heap ↔
    ∃ heap', attempt (requests x n) heap = some (true, heap') ∧
      Whole bytes requests named xs (n + (bytes x).length) heap' := by
  rw [Whole, Granted, running, attempt_append]
  cases attempt (requests x n) heap with
  | none => simp
  | some s =>
    obtain ⟨granted, heap'⟩ := s
    cases granted with
    | false => simp
    | true => simp [Whole, Granted, hn]

theorem void_cons_unnamed (hn : named x = false) :
    Void requests named (x :: xs) n heap ↔ Void requests named xs n heap := by
  simp [Void, hn]

theorem void_cons (hn : named x = true) : Void requests named (x :: xs) n heap ↔
    ∃ heap', attempt (requests x n) heap = some (false, heap') ∧
      Void requests named xs n heap' := by
  simp [Void, hn, AllRefused]

end Cons

/-- What the loop leaves behind the bytes that are there: those of the elements that it kept. -/
def Leaves (bytes : α → Bytes) (requests : α → Nat → List Nat) (named : α → Bool) (xs : List α)
    (pre : Bytes) (heap : Heap) : Option (Output × Heap) → Prop
  | none => ¬Whole bytes requests named xs pre.length heap ∧
      ¬Void requests named xs pre.length heap
  | some (out, _) => ∃ kept : List α, kept.Sublist xs ∧ out = .of (pre ++ kept.flatMap bytes) ∧
      (pre ++ kept.flatMap bytes).length < 2 ^ 32 ∧
      (kept = xs ↔ Whole bytes requests named xs pre.length heap) ∧
      (kept = [] ↔ Void requests named xs pre.length heap)

section Step
variable {x : α} {xs : List α} {pre : Bytes} {heap heap' : Heap} {result : Option (Output × Heap)}

theorem Leaves.left_out (h : Leaves bytes requests named xs pre heap' result)
    (hwhole : ¬Whole bytes requests named (x :: xs) pre.length heap)
    (hvoid : Void requests named (x :: xs) pre.length heap ↔
      Void requests named xs pre.length heap') :
    Leaves bytes requests named (x :: xs) pre heap result := by
  cases result with
  | none => exact ⟨hwhole, mt hvoid.mp h.2⟩
  | some s =>
    obtain ⟨kept, hsub, hout, hlt, -, hnone⟩ := h
    have hne : kept ≠ x :: xs := by
      intro heq
      have hle := hsub.length_le
      rw [heq, List.length_cons] at hle
      omega
    exact ⟨kept, hsub.cons x, hout, hlt, iff_of_false hne hwhole, hnone.trans hvoid.symm⟩

theorem Leaves.kept (h : Leaves bytes requests named xs (pre ++ bytes x) heap' result)
    (hwhole : Whole bytes requests named (x :: xs) pre.length heap ↔
      Whole bytes requests named xs (pre ++ bytes x).length heap')
    (hvoid : ¬Void requests named (x :: xs) pre.length heap) :
    Leaves bytes requests named (x :: xs) pre heap result := by
  cases result with
  | none => exact ⟨mt hwhole.mp h.1, hvoid⟩
  | some s =>
    obtain ⟨kept, hsub, hout, hlt, hall, -⟩ := h
    have hbytes : pre ++ (x :: kept).flatMap bytes = pre ++ bytes x ++ kept.flatMap bytes := by
      rw [List.flatMap_cons, List.append_assoc]
    refine ⟨x :: kept, hsub.cons_cons x, hbytes ▸ hout, hbytes ▸ hlt, ?_,
      iff_of_false (List.cons_ne_nil x kept) hvoid⟩
    rw [hwhole, ← hall, List.cons.injEq, eq_self_iff_true, true_and]

end Step

theorem appendEach_run {xs : List α}
    (hf : ∀ x ∈ xs, Tries (f x) (bytes x) (requests x) (named x)) {pre : Bytes}
    (hpre : pre.length < 2 ^ 32) (heap : Heap) :
    Leaves bytes requests named xs pre heap (appendEach f xs (.of pre) heap) := by
  induction xs generalizing pre heap with
  | nil =>
    refine ⟨[], .refl _, by simp, by simpa using hpre, ?_, ?_⟩
    · simp [Whole, Granted, running, attempt]
    · simp [Void, AllRefused]
  | cons x xs ih =>
    have hx := hf x List.mem_cons_self
    have hrest : ∀ y ∈ xs, Tries (f y) (bytes y) (requests y) (named y) :=
      fun y hy => hf y (List.mem_cons_of_mem x hy)
    rw [appendEach, Option.bind_eq_bind]
    cases hn : named x with
    | false =>
      rw [Tries, hn, if_neg Bool.false_ne_true] at hx
      rw [hx, Option.bind_some]
      exact (ih hrest hpre heap).left_out (not_whole_cons hn) (void_cons_unnamed hn)
    | true =>
      rw [Tries, hn, if_pos rfl] at hx
      rw [hx.run pre heap hpre]
      cases ha : attempt (requests x pre.length) heap with
      | none => exact ⟨by simp [whole_cons hn, ha], by simp [void_cons hn, ha]⟩
      | some s =>
        obtain ⟨granted, heap'⟩ := s
        cases granted with
        | false =>
          exact (ih hrest hpre heap').left_out (by simp [whole_cons hn, ha])
            (by simp [void_cons hn, ha])
        | true =>
          have hlt := hx.fits ha
          rw [← List.length_append] at hlt
          exact (ih hrest hlt heap').kept (by simp [whole_cons hn, ha]) (by simp [void_cons hn, ha])

/-- A refusal in the first element ends the loop. -/
theorem attempt_running_of_lead {xs : List α} {n : Nat} {heap heap' : Heap} {size : α → Nat}
    (h : attempt (lead requests xs n) heap = some (false, heap')) :
    attempt (running requests size xs n) heap = some (false, heap') := by
  cases xs with
  | nil => exact h
  | cons x xs =>
    rw [lead] at h
    rw [running, attempt_append, h]
    rfl

/-- The loop of a container, which starts from a buffer of its own. -/
theorem nested_run {xs : List α} (hf : ∀ x ∈ xs, Appends (f x) (bytes x) (requests x))
    (heap : Heap) :
    match attempt (running requests (fun x => (bytes x).length) xs 0) heap with
    | none => appendAll f xs .empty heap = none
    | some (true, heap') => (xs.flatMap bytes).length < 2 ^ 32 ∧
      appendAll f xs .empty heap = some (true, .of (xs.flatMap bytes), heap')
    | some (false, heap') => ∃ out, appendAll f xs .empty heap = some (false, out, heap') := by
  have hrun := appendAll_run hf (by decide : ([] : Bytes).length < 2 ^ 32) heap
  cases ha : attempt (running requests (fun x => (bytes x).length) xs 0) heap with
  | none =>
    rw [List.length_nil, ha] at hrun
    exact hrun
  | some s =>
    obtain ⟨granted, heap'⟩ := s
    rw [List.length_nil, ha] at hrun
    cases granted with
    | false =>
      obtain ⟨ys, -, hrun, -⟩ := hrun
      exact ⟨_, hrun⟩
    | true => exact hrun

end Loops

section Elements
variable {commonWrite64Bit : UInt64 → Vector UInt8 8}

theorem serializeEither_appends {r : M2MResource} (hname : r.nameId ≠ -1) :
    Appends (serializeEither commonWrite64Bit r) (resourceBytes (wireValue commonWrite64Bit) r)
      (resourceRequests (wireValue commonWrite64Bit) r) := by
  cases hm : r.multipleInstance with
  | false =>
    have hf : serializeEither commonWrite64Bit r =
        serializeValue commonWrite64Bit typeResource (wireId r) r.toM2MResourceBase := by
      funext out heap
      simp [serializeEither, serializeResource, hname, hm]
    have hbytes : resourceBytes (wireValue commonWrite64Bit) r =
        record typeResource (wireId r) (wireValue commonWrite64Bit r.toM2MResourceBase) := by
      simp [resourceBytes, resourceContent, hm]
    have hrequests : resourceRequests (wireValue commonWrite64Bit) r =
        fun n => [n + (resourceBytes (wireValue commonWrite64Bit) r).length] := by
      funext n
      simp [resourceRequests, hm]
    rw [hf, hrequests, hbytes]
    exact serializeValue_appends typeResource (wireId r) r.toM2MResourceBase
  | true =>
    have hf : serializeEither commonWrite64Bit r = fun out heap =>
        (appendAll (fun i => serializeResourceInstance commonWrite64Bit i.instanceId i) r.instances
          .empty heap).bind fun s => if s.1 then
            serializeTILV typeMultipleResource (wireId r) (s.2.1.data.getD []) s.2.1.size out s.2.2
          else some (false, out, s.2.2) := by
      funext out heap
      simp [serializeEither, serializeMultipleResource, hname, hm]
    have hbytes : resourceBytes (wireValue commonWrite64Bit) r =
        record typeMultipleResource (wireId r)
          (r.instances.flatMap (memberBytes (wireValue commonWrite64Bit))) := by
      simp [resourceBytes, resourceContent, hm]
    have hrequests : resourceRequests (wireValue commonWrite64Bit) r = fun n =>
        running (memberRequests (wireValue commonWrite64Bit))
          (fun i => (memberBytes (wireValue commonWrite64Bit) i).length) r.instances 0 ++
          [n + (resourceBytes (wireValue commonWrite64Bit) r).length] := by
      funext n
      simp [resourceRequests, hm]
    rw [hf, hrequests, hbytes]
    exact container_appends (nested_run fun i _ => serializeResourceInstance_appends i)

/-- Every name has an id, which `serialize_resources` asks for before it writes. -/
def allNamed (rs : List M2MResource) : Bool := !rs.any (·.nameId == -1)

theorem allNamed_iff {rs : List M2MResource} :
    allNamed rs = true ↔ ∀ r ∈ rs, r.nameId ≠ -1 := by
  simp [allNamed]

variable (commonWrite64Bit) in
theorem serializeEither_appends_all {rs : List M2MResource} (h : allNamed rs = true) :
    ∀ r ∈ rs, Appends (serializeEither commonWrite64Bit r)
      (resourceBytes (wireValue commonWrite64Bit) r)
      (resourceRequests (wireValue commonWrite64Bit) r) :=
  fun r hr => serializeEither_appends (allNamed_iff.mp h r hr)

theorem serializeResources_unnamed {rs : List M2MResource} (h : allNamed rs = false) (heap : Heap) :
    serializeResources commonWrite64Bit rs heap = some (false, .empty, heap) := by
  have hany : rs.any (·.nameId == -1) = true := by simpa [allNamed] using h
  rw [serializeResources, if_pos hany]

theorem serializeResources_named {rs : List M2MResource} (h : allNamed rs = true) (heap : Heap) :
    serializeResources commonWrite64Bit rs heap =
      (appendAll (serializeEither commonWrite64Bit) rs .empty heap).bind fun s =>
        some (s.1, if s.1 then s.2.1 else ⟨none, s.2.1.size⟩, s.2.2) := by
  have hany : ¬rs.any (·.nameId == -1) = true := by simpa [allNamed] using h
  rw [serializeResources, if_neg hany]
  rfl

theorem serializeObjectInstance_tries (oi : M2MObjectInstance) :
    Tries (serializeObjectInstance commonWrite64Bit oi.instanceId oi)
      (objectInstanceBytes (wireValue commonWrite64Bit) oi)
      (objectInstanceRequests (wireValue commonWrite64Bit) oi) (allNamed oi.resources) := by
  cases hn : allNamed oi.resources with
  | false =>
    intro out heap
    rw [serializeObjectInstance, serializeResources_unnamed hn]
    rfl
  | true =>
    have hf : serializeObjectInstance commonWrite64Bit oi.instanceId oi = fun out heap =>
        (serializeResources commonWrite64Bit oi.resources heap).bind fun s => if s.1 then
          serializeTILV typeObjectInstance oi.instanceId (s.2.1.data.getD []) s.2.1.size out s.2.2
        else some (false, out, s.2.2) := rfl
    rw [Tries, if_pos rfl, hf]
    refine container_appends fun heap => ?_
    have hrun := nested_run (serializeEither_appends_all commonWrite64Bit hn) heap
    rw [serializeResources_named hn]
    rw [resourceListRequests]
    cases ha : attempt (running (resourceRequests (wireValue commonWrite64Bit))
        (fun r => (resourceBytes (wireValue commonWrite64Bit) r).length) oi.resources 0) heap with
    | none =>
      rw [ha] at hrun
      simp [hrun]
    | some s =>
      obtain ⟨granted, heap'⟩ := s
      rw [ha] at hrun
      cases granted with
      | false =>
        obtain ⟨out, hrun⟩ := hrun
        simp [hrun]
      | true => simpa [hrun.2, objectInstanceContent] using hrun.1

end Elements

section Kept
variable {bytes : α → Bytes} {kept xs : List α}

theorem length_flatMap_lt (hne : ∀ x, bytes x ≠ []) (hsub : kept.Sublist xs) (h : kept ≠ xs) :
    (kept.flatMap bytes).length < (xs.flatMap bytes).length := by
  induction hsub with
  | slnil => exact absurd rfl h
  | cons x hsub =>
    have hle := (hsub.flatMap bytes).length_le
    have hpos := List.length_pos_of_ne_nil (hne x)
    rw [List.flatMap_cons, List.length_append]
    omega
  | cons_cons x hsub ih =>
    have hlt := ih fun heq => h (heq ▸ rfl)
    rw [List.flatMap_cons, List.flatMap_cons, List.length_append, List.length_append]
    omega

/-- The bytes of some of the elements list all of them only if none was left out. -/
theorem lists_kept_iff {R : (Nat → UInt8) → Nat → α → Prop} {Fits : α → Prop}
    (hne : ∀ x, bytes x ≠ [])
    (hholds : ∀ tlv p x, Fits x → Holds tlv p (bytes x) →
      R tlv p x ∧ recNext tlv p = p + (bytes x).length)
    (hfits : ∀ tlv p x, R tlv p x → Fits x ∧ p + (bytes x).length ≤ recNext tlv p)
    (hsub : kept.Sublist xs) :
    Lists (ofBytes (kept.flatMap bytes)) (R (ofBytes (kept.flatMap bytes))) 0
      (kept.flatMap bytes).length xs ↔ kept = xs ∧ ∀ x ∈ xs, Fits x := by
  constructor
  · intro h
    have hlen := h.length_le fun x _ p hp => (hfits _ p x hp).2
    refine ⟨?_, fun x hx => ?_⟩
    · by_contra hlost
      have hlt := length_flatMap_lt hne hsub hlost
      omega
    · obtain ⟨p, hp⟩ := h.exists_record hx
      exact (hfits _ p x hp).1
  · rintro ⟨rfl, hall⟩
    have h := lists_of_holds (holds_ofBytes (kept.flatMap bytes))
      fun x hx p hp => hholds _ p x (hall x hx) hp
    rwa [Nat.zero_add] at h

end Kept

section Serialized
variable (commonWrite64Bit : UInt64 → Vector UInt8 8)

/-- The bytes have exactly one record for every element, and so has every container in them. -/
def Subject.Listed (s : Subject) (data : Bytes) : Prop :=
  let tlv := ofBytes data
  let wire := wireValue commonWrite64Bit
  match s with
  | .objectInstances ois => Lists tlv (ObjectInstanceRecord tlv wire) 0 data.length ois
  | .resources rs => Lists tlv (ResourceRecord tlv wire) 0 data.length rs
  | .resource r => Lists tlv (ResourceRecord tlv wire) 0 data.length [r]

/-- A buffer of exactly `size` bytes with all records, or NULL and a size of 0. -/
def AllOrNothing (s : Subject) (out : Output) : Prop :=
  (∃ data, out.data = some data ∧ data.length = out.size.toNat ∧ s.Listed commonWrite64Bit data) ∨
    out.data = none ∧ out.size = 0

/-- All requests are granted and all elements fit their records, or nothing is written at all: every
object instance is refused or has a resource whose name is no id; a resource of the list has such a
name, or the first one is refused; the single resource has such a name or is refused. -/
def Subject.Clean (heap : Heap) (s : Subject) : Prop :=
  let wire := wireValue commonWrite64Bit
  match s with
  | .objectInstances ois =>
    (∀ oi ∈ ois, ObjectInstanceFits wire oi) ∧
        Granted (running (objectInstanceRequests wire)
          (fun oi => (objectInstanceBytes wire oi).length) ois 0) heap ∨
      AllRefused ((ois.filter (allNamed ·.resources)).map (objectInstanceRequests wire · 0)) heap
  | .resources rs =>
    (∀ r ∈ rs, ResourceFits wire r) ∧ Granted (resourceListRequests wire rs) heap ∨
      (∃ r ∈ rs, r.nameId = -1) ∨ Refused (lead (resourceRequests wire) rs 0) heap
  | .resource r =>
    ResourceFits wire r ∧ Granted (resourceRequests wire r 0) heap ∨
      r.nameId = -1 ∨ Refused (resourceRequests wire r 0) heap

variable {commonWrite64Bit} {s : Subject}

theorem allOrNothing_of {bytes : Bytes} (h : bytes.length < 2 ^ 32) :
    AllOrNothing commonWrite64Bit s (.of bytes) ↔
      bytes = [] ∨ s.Listed commonWrite64Bit bytes := by
  by_cases hnil : bytes = []
  · subst hnil
    exact iff_of_true (.inr ⟨rfl, rfl⟩) (.inl rfl)
  · have hdata : (Output.of bytes).data = some bytes := if_neg hnil
    simp [AllOrNothing, hdata, hnil, Output.size_of h]

theorem allOrNothing_null {size : UInt32} :
    AllOrNothing commonWrite64Bit s ⟨none, size⟩ ↔ size = 0 := by
  simp [AllOrNothing]

theorem listed_objectInstances {kept ois : List M2MObjectInstance} (hsub : kept.Sublist ois) :
    (Subject.objectInstances ois).Listed commonWrite64Bit
        (kept.flatMap (objectInstanceBytes (wireValue commonWrite64Bit))) ↔
      kept = ois ∧ ∀ oi ∈ ois, ObjectInstanceFits (wireValue commonWrite64Bit) oi :=
  lists_kept_iff (R := fun tlv => ObjectInstanceRecord tlv (wireValue commonWrite64Bit))
    (fun _ => List.cons_ne_nil _ _) (fun _ _ _ => objectInstanceRecord_of_holds)
    (fun _ _ _ => ObjectInstanceRecord.fits) hsub

theorem listed_resources {rs : List M2MResource} :
    (Subject.resources rs).Listed commonWrite64Bit
        (rs.flatMap (resourceBytes (wireValue commonWrite64Bit))) ↔
      ∀ r ∈ rs, ResourceFits (wireValue commonWrite64Bit) r := by
  have h := lists_kept_iff (R := fun tlv => ResourceRecord tlv (wireValue commonWrite64Bit))
    (fun _ => List.cons_ne_nil _ _) (fun _ _ _ => resourceRecord_of_holds)
    (fun _ _ _ => ResourceRecord.fits) (List.Sublist.refl rs)
  rwa [eq_self_iff_true, true_and] at h

theorem listed_resource {r : M2MResource} :
    (Subject.resource r).Listed commonWrite64Bit
        (resourceBytes (wireValue commonWrite64Bit) r) ↔
      ResourceFits (wireValue commonWrite64Bit) r := by
  have h : (Subject.resources [r]).Listed commonWrite64Bit _ ↔ _ := listed_resources
  rwa [List.flatMap_singleton, List.forall_mem_singleton] at h

/-- A list whose elements all fit has only names with an id. -/
theorem whole_iff {ois : List M2MObjectInstance} {heap : Heap}
    (hfits : ∀ oi ∈ ois, ObjectInstanceFits (wireValue commonWrite64Bit) oi) :
    Whole (objectInstanceBytes (wireValue commonWrite64Bit))
        (objectInstanceRequests (wireValue commonWrite64Bit)) (fun oi => allNamed oi.resources)
        ois 0 heap ↔
      Granted (running (objectInstanceRequests (wireValue commonWrite64Bit))
        (fun oi => (objectInstanceBytes (wireValue commonWrite64Bit) oi).length) ois 0) heap := by
  refine and_iff_right fun oi hoi => allNamed_iff.mpr fun r hr hname => ?_
  have hnonneg := ((hfits oi hoi).2 r hr).1
  omega

theorem objectInstances_iff (heap : Heap) (ois : List M2MObjectInstance) :
    (∃ out heap', serialize commonWrite64Bit (.objectInstances ois) heap = some (out, heap') ∧
      AllOrNothing commonWrite64Bit (.objectInstances ois) out) ↔
    (Subject.objectInstances ois).Clean commonWrite64Bit heap := by
  have hrun : Leaves (objectInstanceBytes (wireValue commonWrite64Bit))
      (objectInstanceRequests (wireValue commonWrite64Bit)) (fun oi => allNamed oi.resources) ois []
      heap (serialize commonWrite64Bit (.objectInstances ois) heap) :=
    appendEach_run (fun oi _ => serializeObjectInstance_tries oi) (by decide) heap
  rw [Subject.Clean]
  cases hs : serialize commonWrite64Bit (.objectInstances ois) heap with
  | none =>
    rw [hs] at hrun
    refine iff_of_false (by simp) ?_
    rintro (⟨hfits, hgranted⟩ | hvoid)
    · exact hrun.1 ((whole_iff hfits).mpr hgranted)
    · exact hrun.2 hvoid
  | some s =>
    obtain ⟨out, heap'⟩ := s
    rw [hs] at hrun
    obtain ⟨kept, hsub, rfl, hlt, hall, hnone⟩ := hrun
    rw [List.nil_append] at hlt ⊢
    have hnil : kept.flatMap (objectInstanceBytes (wireValue commonWrite64Bit)) = [] ↔
        kept = [] := by
      cases kept with
      | nil => simp
      | cons oi kept => simp [objectInstanceBytes, record]
    simp only [Option.some.injEq, Prod.mk.injEq, exists_eq_left', existsAndEq, and_true]
    rw [allOrNothing_of hlt, listed_objectInstances hsub, hnil, hnone, hall, or_comm, and_comm]
    exact or_congr_left (and_congr_right whole_iff)

theorem resources_iff (heap : Heap) (rs : List M2MResource) :
    (∃ out heap', serialize commonWrite64Bit (.resources rs) heap = some (out, heap') ∧
      AllOrNothing commonWrite64Bit (.resources rs) out) ↔
    (Subject.resources rs).Clean commonWrite64Bit heap := by
  rw [Subject.Clean]
  cases hn : allNamed rs with
  | false =>
    obtain ⟨r, hr, hname⟩ : ∃ r ∈ rs, r.nameId = -1 := by simpa [allNamed] using hn
    refine iff_of_true ⟨.empty, heap, ?_, .inr ⟨rfl, rfl⟩⟩ (.inr (.inl ⟨r, hr, hname⟩))
    rw [serialize, serializeResources_unnamed hn]
    rfl
  | true =>
    have hnamed := allNamed_iff.mp hn
    have hno : ¬∃ r ∈ rs, r.nameId = -1 := fun ⟨r, hr, hname⟩ => hnamed r hr hname
    have hrun := appendAll_run (serializeEither_appends_all commonWrite64Bit hn)
      (by decide : ([] : Bytes).length < 2 ^ 32) heap
    have hlead : ∀ heap', attempt (lead (resourceRequests (wireValue commonWrite64Bit)) rs 0) heap =
        some (false, heap') →
        attempt (resourceListRequests (wireValue commonWrite64Bit) rs) heap = some (false, heap') :=
      fun heap' h => attempt_running_of_lead h
    rw [List.length_nil, ← resourceListRequests] at hrun
    rw [serialize, serializeResources_named hn, or_iff_right hno, granted_iff, refused_iff]
    cases ha : attempt (resourceListRequests (wireValue commonWrite64Bit) rs) heap with
    | none =>
      rw [ha] at hrun
      have happ : appendAll (serializeEither commonWrite64Bit) rs .empty heap = none := hrun
      refine iff_of_false (by simp [happ]) ?_
      rintro (⟨-, heap', hgranted⟩ | ⟨heap', hrefused⟩)
      · cases hgranted
      · cases ha.symm.trans (hlead heap' hrefused)
    | some s =>
      obtain ⟨granted, heap'⟩ := s
      rw [ha] at hrun
      cases granted with
      | false =>
        obtain ⟨ys, hlt, happ, hys⟩ := hrun
        rw [List.nil_append] at hlt happ
        have hnull : AllOrNothing commonWrite64Bit (.resources rs) ⟨none, (Output.of ys).size⟩ ↔
            ys = [] := by
          rw [allOrNothing_null, ← UInt32.toNat_inj, Output.size_of hlt]
          exact List.length_eq_zero_iff
        have hsame : (∃ heap'', attempt (lead (resourceRequests (wireValue commonWrite64Bit)) rs 0)
            heap = some (false, heap'')) ↔ ys = [] := by
          rw [hys]
          refine ⟨fun ⟨heap'', h⟩ => ?_, fun h => ⟨heap', h⟩⟩
          rw [h, ← hlead heap'' h, ha]
        have hfalse : ¬∃ heap'' : Heap, some (false, heap') = some (true, heap'') := by simp
        change (∃ out heap'', ((appendAll _ _ (.of []) heap).bind _).map Prod.snd = _ ∧ _) ↔ _
        rw [happ, hsame, ← hnull, or_iff_right fun h => hfalse h.2]
        simp
      | true =>
        obtain ⟨hlt, happ⟩ := hrun
        rw [List.nil_append] at hlt happ
        have hgranted : ∃ heap'' : Heap, some (true, heap') = some (true, heap'') := ⟨heap', rfl⟩
        have hno : ¬∃ heap'', attempt (lead (resourceRequests (wireValue commonWrite64Bit)) rs 0)
            heap = some (false, heap'') := by
          rintro ⟨heap'', h⟩
          cases ha.symm.trans (hlead heap'' h)
        change (∃ out heap'', ((appendAll _ _ (.of []) heap).bind _).map Prod.snd = _ ∧ _) ↔ _
        rw [happ, or_iff_left hno, and_iff_left hgranted]
        simp only [Option.bind_some, Option.map_some, if_true, Option.some.injEq, Prod.mk.injEq,
          exists_eq_left', existsAndEq, and_true]
        rw [allOrNothing_of hlt, listed_resources, or_iff_right_iff_imp]
        intro hnil r hr
        exact absurd (List.flatMap_eq_nil_iff.mp hnil r hr) (List.cons_ne_nil _ _)

theorem resource_iff (heap : Heap) (r : M2MResource) :
    (∃ out heap', serialize commonWrite64Bit (.resource r) heap = some (out, heap') ∧
      AllOrNothing commonWrite64Bit (.resource r) out) ↔
    (Subject.resource r).Clean commonWrite64Bit heap := by
  rw [Subject.Clean, serialize, granted_iff, refused_iff]
  by_cases hname : r.nameId = -1
  · have hrun : serializeEither commonWrite64Bit r .empty heap = some (false, .empty, heap) := by
      simp [serializeEither, hname]
    rw [hrun]
    exact iff_of_true ⟨_, _, rfl, .inr ⟨rfl, rfl⟩⟩ (.inr (.inl hname))
  · have happ : Appends (serializeEither commonWrite64Bit r) _ _ := serializeEither_appends hname
    have hrun := happ.run [] heap (by decide)
    rw [List.length_nil, List.nil_append] at hrun
    rw [show Output.empty = .of [] from rfl, hrun, or_iff_right hname]
    cases ha : attempt (resourceRequests (wireValue commonWrite64Bit) r 0) heap with
    | none => simp
    | some s =>
      obtain ⟨granted, heap'⟩ := s
      cases granted with
      | false => simp [AllOrNothing, Output.of]
      | true =>
        have hlt := happ.fits ha
        rw [Nat.zero_add] at hlt
        have hne : resourceBytes (wireValue commonWrite64Bit) r ≠ [] := List.cons_ne_nil _ _
        simp only [Option.map_some, if_true, Option.some.injEq, Prod.mk.injEq, exists_eq_left',
          existsAndEq, and_true]
        rw [allOrNothing_of hlt, listed_resource, or_iff_right hne]
        simp

theorem all_or_nothing_iff (heap : Heap) (s : Subject) :
    (∃ out heap', serialize commonWrite64Bit s heap = some (out, heap') ∧
      AllOrNothing commonWrite64Bit s out) ↔ s.Clean commonWrite64Bit heap := by
  cases s with
  | objectInstances ois => exact objectInstances_iff heap ois
  | resources rs => exact resources_iff heap rs
  | resource r => exact resource_iff heap r

/-- The first of two object instances without resources is written, the second is refused. -/
theorem refused_instance_lost :
    ¬∃ out heap', serialize bigEndian (.objectInstances [⟨0, []⟩, ⟨1, []⟩]) (fun n => n == 0) =
      some (out, heap') ∧ AllOrNothing bigEndian (.objectInstances [⟨0, []⟩, ⟨1, []⟩]) out := by
  rw [objectInstances_iff]
  rintro (⟨-, hgranted⟩ | ⟨heap', hrefused, -⟩)
  · obtain ⟨heap', hgranted⟩ := granted_iff.mp hgranted
    cases hgranted
  · cases hrefused

end Serialized
end MbedClient.Tlv
