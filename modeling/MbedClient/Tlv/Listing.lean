import MbedClient.Tlv.Encoding

/-! Buffers that hold exactly one record for every element of a list, and in every record of a
container one for every element of it. -/
namespace MbedClient.Tlv

section Records
variable (tlv : Nat → UInt8) (wire : M2MResourceBase → Bytes)

/-- The records that start in `[o, e)` fill it, one for each element in the same order. -/
def Lists {α : Type*} (R : Nat → α → Prop) (o e : Nat) (xs : List α) : Prop :=
  Walk.Exact (frame tlv) o e ∧ List.Forall₂ R (Walk.span (frame tlv) o e) xs

def MemberRecord (p : Nat) (i : M2MResourceInstance) : Prop :=
  recType tlv p = typeResourceInstance ∧ recId tlv p = i.instanceId ∧
    recValue tlv p = wire i.toM2MResourceBase

def ResourceRecord (p : Nat) (r : M2MResource) : Prop := r.nameId = (recId tlv p).toNat ∧
  if r.multipleInstance then recType tlv p = typeMultipleResource ∧
    Lists tlv (MemberRecord tlv wire) (recContent tlv p) (recNext tlv p) r.instances
  else recType tlv p = typeResource ∧ recValue tlv p = wire r.toM2MResourceBase

def ObjectInstanceRecord (p : Nat) (oi : M2MObjectInstance) : Prop :=
  recType tlv p = typeObjectInstance ∧ recId tlv p = oi.instanceId ∧
    Lists tlv (ResourceRecord tlv wire) (recContent tlv p) (recNext tlv p) oi.resources

end Records

/-! The bytes of an element. -/
section Bytes
variable (wire : M2MResourceBase → Bytes)

def memberBytes (i : M2MResourceInstance) : Bytes :=
  record typeResourceInstance i.instanceId (wire i.toM2MResourceBase)

def resourceContent (r : M2MResource) : Bytes :=
  if r.multipleInstance then r.instances.flatMap (memberBytes wire) else wire r.toM2MResourceBase

def resourceBytes (r : M2MResource) : Bytes :=
  record (if r.multipleInstance then typeMultipleResource else typeResource) (wireId r)
    (resourceContent wire r)

def objectInstanceContent (oi : M2MObjectInstance) : Bytes :=
  oi.resources.flatMap (resourceBytes wire)

def objectInstanceBytes (oi : M2MObjectInstance) : Bytes :=
  record typeObjectInstance oi.instanceId (objectInstanceContent wire oi)

/-! Elements whose record and whose parts' records have a length that fits its three bytes, and an
id that fits its two bytes. -/

def MemberFits (i : M2MResourceInstance) : Prop := (wire i.toM2MResourceBase).length < 2 ^ 24

def ResourceFits (r : M2MResource) : Prop :=
  0 ≤ r.nameId ∧ (resourceContent wire r).length < 2 ^ 24 ∧
    (r.multipleInstance = true → ∀ i ∈ r.instances, MemberFits wire i)

def ObjectInstanceFits (oi : M2MObjectInstance) : Prop :=
  (objectInstanceContent wire oi).length < 2 ^ 24 ∧ ∀ r ∈ oi.resources, ResourceFits wire r

end Bytes

variable {tlv : Nat → UInt8} {wire : M2MResourceBase → Bytes} {α : Type*} {R : Nat → α → Prop}
  {bytes : α → Bytes} {o e : Nat} {xs : List α}

section Lists

theorem lists_nil : Lists tlv R o e [] ↔ o = e := by
  constructor
  · rintro ⟨hx, hr⟩
    rw [List.forall₂_nil_right_iff, Walk.span] at hr
    split_ifs at hr with hlt
    exact Nat.le_antisymm hx.1 (Nat.not_lt.mp hlt)
  · rintro rfl
    refine ⟨Walk.exact_refl o, ?_⟩
    rw [Walk.span_self]
    exact .nil

theorem lists_cons {x : α} :
    Lists tlv R o e (x :: xs) ↔ R o x ∧ Lists tlv R (recNext tlv o) e xs := by
  constructor
  · rintro ⟨hx, hr⟩
    have hlt : o < e := by
      by_contra hno
      rw [Walk.span, if_neg hno] at hr
      cases hr
    rw [Walk.span_cons hlt, List.forall₂_cons] at hr
    exact ⟨hr.1, (hx.step hlt).2, hr.2⟩
  · rintro ⟨hr, hx, hrs⟩
    have hlt : o < e := (lt_recNext tlv o).trans_le hx.1
    refine ⟨Walk.Exact.cons hx, ?_⟩
    rw [Walk.span_cons hlt]
    exact .cons hr hrs

/-- Elements written one behind the other are listed. -/
theorem lists_of_holds (h : Holds tlv o (xs.flatMap bytes))
    (hr : ∀ x ∈ xs, ∀ p, Holds tlv p (bytes x) → R p x ∧ recNext tlv p = p + (bytes x).length) :
    Lists tlv R o (o + (xs.flatMap bytes).length) xs := by
  induction xs generalizing o with
  | nil => simp [lists_nil]
  | cons x xs ih =>
    rw [List.flatMap_cons, holds_append] at h
    obtain ⟨hx, hnext⟩ := hr x List.mem_cons_self o h.1
    have ht := ih h.2 fun y hy => hr y (List.mem_cons_of_mem x hy)
    rw [lists_cons, hnext, List.flatMap_cons, List.length_append, ← Nat.add_assoc]
    exact ⟨hx, ht⟩

/-- A buffer that lists elements is long enough for their records. -/
theorem Lists.length_le (h : Lists tlv R o e xs)
    (hr : ∀ x ∈ xs, ∀ p, R p x → p + (bytes x).length ≤ recNext tlv p) :
    o + (xs.flatMap bytes).length ≤ e := by
  induction xs generalizing o with
  | nil => simpa using (lists_nil.mp h).le
  | cons x xs ih =>
    obtain ⟨hx, ht⟩ := lists_cons.mp h
    have hlen := ih ht fun y hy => hr y (List.mem_cons_of_mem x hy)
    have hhead := hr x List.mem_cons_self o hx
    rw [List.flatMap_cons, List.length_append]
    omega

theorem Lists.exists_record (h : Lists tlv R o e xs) {x : α} (hx : x ∈ xs) : ∃ p, R p x := by
  induction xs generalizing o with
  | nil => simp at hx
  | cons y ys ih =>
    obtain ⟨hy, ht⟩ := lists_cons.mp h
    rcases List.mem_cons.mp hx with rfl | hx
    · exact ⟨o, hy⟩
    · exact ih ht hx

end Lists

/-! Elements that fit are listed by their bytes, and only such elements can be listed. -/
section Elements

theorem Reads.holds {type : UInt8} {id : UInt16} {value : Bytes} (h : Reads tlv o type id value) :
    Holds tlv (recContent tlv o) value ∧ recNext tlv o = recContent tlv o + value.length := by
  have hlen : recLength tlv o = value.length := by rw [← length_recValue, h.value_eq]
  exact ⟨by rw [Holds, ← hlen]; exact h.value_eq, by rw [recNext, hlen]⟩

/-- The length of a record with this id and content. -/
theorem length_le_of_content {p : Nat} {type : UInt8} {id : UInt16} {value : Bytes}
    (hid : recId tlv p = id) (hv : value.length ≤ recLength tlv p) :
    p + (record type id value).length ≤ recNext tlv p := by
  have hlt := recLength_lt tlv p
  have hle := headSize_le tlv p
  have hmono : headSize id value.length ≤ headSize id (recLength tlv p) := by
    unfold headSize
    split_ifs <;> omega
  rw [length_record type id (by omega), recNext]
  rw [hid] at hle
  omega

theorem memberRecord_of_holds {i : M2MResourceInstance} {p : Nat} (hs : MemberFits wire i)
    (h : Holds tlv p (memberBytes wire i)) :
    MemberRecord tlv wire p i ∧ recNext tlv p = p + (memberBytes wire i).length := by
  have hr := holds_record (.inr (.inr (.inl rfl))) hs h
  refine ⟨⟨hr.recType, hr.recId, hr.value_eq⟩, ?_⟩
  rw [hr.next, memberBytes, length_record _ _ (hs.trans (by decide)), Nat.add_assoc]

theorem MemberRecord.fits {i : M2MResourceInstance} {p : Nat} (h : MemberRecord tlv wire p i) :
    MemberFits wire i ∧ p + (memberBytes wire i).length ≤ recNext tlv p := by
  have hlen : (wire i.toM2MResourceBase).length = recLength tlv p := by
    rw [← h.2.2, length_recValue]
  exact ⟨hlen.trans_lt (recLength_lt tlv p), length_le_of_content h.2.1 hlen.le⟩

theorem resourceRecord_of_holds {r : M2MResource} {p : Nat} (hs : ResourceFits wire r)
    (h : Holds tlv p (resourceBytes wire r)) :
    ResourceRecord tlv wire p r ∧ recNext tlv p = p + (resourceBytes wire r).length := by
  have htype : IsType (if r.multipleInstance then typeMultipleResource else typeResource) := by
    cases r.multipleInstance
    · exact .inl rfl
    · exact .inr (.inl rfl)
  obtain ⟨hname, hshort, hmembers⟩ := hs
  have hr := holds_record htype hshort h
  obtain ⟨hcontent, hend⟩ := hr.holds
  refine ⟨⟨by rw [hr.recId]; exact wireId_toNat hname, ?_⟩, ?_⟩
  · cases hm : r.multipleInstance with
    | false =>
      exact ⟨by simpa [hm] using hr.recType, by simpa [resourceContent, hm] using hr.value_eq⟩
    | true =>
      have heq : resourceContent wire r = r.instances.flatMap (memberBytes wire) := by
        simp [resourceContent, hm]
      rw [heq] at hcontent hend
      refine ⟨by simpa [hm] using hr.recType, ?_⟩
      rw [hend]
      exact lists_of_holds hcontent fun i hi p hp => memberRecord_of_holds (hmembers hm i hi) hp
  · rw [hr.next, resourceBytes, length_record _ _ (hshort.trans (by decide)), Nat.add_assoc]

theorem ResourceRecord.fits {r : M2MResource} {p : Nat} (h : ResourceRecord tlv wire p r) :
    ResourceFits wire r ∧ p + (resourceBytes wire r).length ≤ recNext tlv p := by
  have hlt := recLength_lt tlv p
  suffices hs : (resourceContent wire r).length ≤ recLength tlv p ∧
      (r.multipleInstance = true → ∀ i ∈ r.instances, MemberFits wire i) from
    ⟨⟨h.1 ▸ Int.natCast_nonneg _, hs.1.trans_lt hlt, hs.2⟩,
      length_le_of_content (wireId_eq h.1).symm hs.1⟩
  obtain ⟨-, h⟩ := h
  cases hm : r.multipleInstance with
  | false =>
    rw [hm, if_neg Bool.false_ne_true] at h
    refine ⟨?_, fun hc => absurd hc Bool.false_ne_true⟩
    rw [resourceContent, hm, if_neg Bool.false_ne_true, ← h.2, length_recValue]
  | true =>
    rw [hm, if_pos rfl] at h
    refine ⟨?_, fun _ i hi => ?_⟩
    · have hle := h.2.length_le fun i _ p hp => hp.fits.2
      rw [recNext] at hle
      rw [resourceContent, hm, if_pos rfl]
      omega
    · obtain ⟨q, hq⟩ := h.2.exists_record hi
      exact hq.fits.1

theorem objectInstanceRecord_of_holds {oi : M2MObjectInstance} {p : Nat}
    (hs : ObjectInstanceFits wire oi) (h : Holds tlv p (objectInstanceBytes wire oi)) :
    ObjectInstanceRecord tlv wire p oi ∧
      recNext tlv p = p + (objectInstanceBytes wire oi).length := by
  have hr := holds_record (.inr (.inr (.inr rfl))) hs.1 h
  obtain ⟨hcontent, hend⟩ := hr.holds
  refine ⟨⟨hr.recType, hr.recId, ?_⟩, ?_⟩
  · rw [hend]
    exact lists_of_holds hcontent fun r hm p hp => resourceRecord_of_holds (hs.2 r hm) hp
  · rw [hr.next, objectInstanceBytes, length_record _ _ (hs.1.trans (by decide)), Nat.add_assoc]

theorem ObjectInstanceRecord.fits {oi : M2MObjectInstance} {p : Nat}
    (h : ObjectInstanceRecord tlv wire p oi) :
    ObjectInstanceFits wire oi ∧ p + (objectInstanceBytes wire oi).length ≤ recNext tlv p := by
  have hlt := recLength_lt tlv p
  have hle := h.2.2.length_le fun r _ p hp => hp.fits.2
  rw [recNext] at hle
  have hcontent : (objectInstanceContent wire oi).length ≤ recLength tlv p := by
    rw [objectInstanceContent]
    omega
  refine ⟨⟨hcontent.trans_lt hlt, fun r hr => ?_⟩, length_le_of_content h.2.1 hcontent⟩
  obtain ⟨q, hq⟩ := h.2.2.exists_record hr
  exact hq.fits.1

end Elements
end MbedClient.Tlv
