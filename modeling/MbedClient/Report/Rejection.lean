import MbedClient.Report.Options

/-! What a query leaves of the write attributes, taken or not. -/
namespace MbedClient.Report
open Observe (BaseType)
open Copying

/-- The options that the handler looks at: all of a query without separator. -/
def considered (query : Bytes) : List Bytes :=
  if ampersand ∈ query then keep optionSlots (query.splitOn ampersand) else [query]

namespace M2MReportHandler
variable {F : Type} [CFloatText F] (h : M2MReportHandler F)
variable (type : BaseType) (resourceType : ResourceType)
variable {a b : Assignment F} {as : List (Assignment F)}

def attributes : Int32 × Int32 × F × F × F × F × F × UInt8 :=
  (h.pmin, h.pmax, h.gt, h.lt, h.st, h.highStep, h.lowStep, h.attributeState)

/-- Attributes other than `pmin` and `pmax` come back as they were, those two through `float`. -/
def KeptByFloat : Prop := viaFloat (F := F) h.pmin = h.pmin ∧ viaFloat (F := F) h.pmax = h.pmax

theorem restore_attributes (h' : M2MReportHandler F) :
    (h'.restore h).attributes = h.attributes ↔ h.KeptByFloat := by
  simp only [attributes, restore, KeptByFloat, Prod.mk.injEq, and_true]

/-- The handler with the attributes of another one. -/
def withAttributes (h' : M2MReportHandler F) : M2MReportHandler F :=
  { h with
    pmin := h'.pmin, pmax := h'.pmax, gt := h'.gt, lt := h'.lt, st := h'.st
    highStep := h'.highStep, lowStep := h'.lowStep, attributeState := h'.attributeState }

theorem withAttributes_of_eq {h' : M2MReportHandler F} (hsame : h.attributes = h'.attributes) :
    h.withAttributes h' = h := by
  simp only [attributes, Prod.mk.injEq] at hsame
  obtain ⟨hpmin, hpmax, hgt, hlt, hst, hhigh, hlow, hstate⟩ := hsame
  rw [withAttributes, ← hpmin, ← hpmax, ← hgt, ← hlt, ← hst, ← hhigh, ← hlow, ← hstate]

theorem assign_withAttributes (h' : M2MReportHandler F) :
    (h.assign a).withAttributes h' = h.withAttributes h' := by
  cases a <;> rfl

theorem assignAll_withAttributes (h' : M2MReportHandler F) :
    (h.assignAll as).withAttributes h' = h.withAttributes h' := by
  induction as generalizing h with
  | nil => rfl
  | cons a as ih => exact (ih (h.assign a)).trans (assign_withAttributes h h')

theorem assignAll_eq_iff : (h.assignAll as).attributes = h.attributes ↔ h.assignAll as = h := by
  constructor
  · intro hsame
    rw [← withAttributes_of_eq _ hsame, assignAll_withAttributes]
    rfl
  · intro hsame
    rw [hsame]

def Has : Assignment F → Prop
  | .pmin v => h.pmin = v ∧ h.has pminFlag = true
  | .pmax v => h.pmax = v ∧ h.has pmaxFlag = true
  | .gt v => h.gt = v ∧ h.has gtFlag = true
  | .lt v => h.lt = v ∧ h.has ltFlag = true
  | .st v =>
    h.st = v ∧ h.highStep = CFloat.add h.currentValue v ∧
      h.lowStep = CFloat.sub h.currentValue v ∧ h.has stFlag = true

/-- The last word on each attribute is what it is already. -/
def HasAll (as : List (Assignment F)) : Prop :=
  ∀ pre a post, as = pre ++ a :: post → (∀ b ∈ post, b.flag ≠ a.flag) → h.Has a

theorem has_iff (f : UInt8) : h.has f = true ↔ h.attributeState ||| f = h.attributeState := by
  rw [has, beq_iff_eq, or_eq_left_iff]

theorem assign_eq_iff : h.assign a = h ↔ h.Has a := by
  cases h
  cases a <;> simp only [assign, Has, has_iff, mk.injEq] <;> tauto

theorem assign_self_has : (h.assign a).Has a := by
  cases a <;> simp [assign, Has, has, or_and_self]

theorem assign_assign (hab : a.flag = b.flag) : (h.assign a).assign b = h.assign b := by
  cases a <;> cases b <;>
    first | exact absurd hab (by simp only [Assignment.flag]; decide) | simp [assign,
      UInt8.or_assoc]

theorem assign_comm (hab : a.flag ≠ b.flag) :
    (h.assign a).assign b = (h.assign b).assign a := by
  cases a <;> cases b <;>
    first | exact absurd rfl hab | simp [assign, or_right_comm]

theorem assign_has_other (hab : b.flag ≠ a.flag) : (h.assign b).Has a ↔ h.Has a := by
  have hflag : (h.assign b).has a.flag = h.has a.flag :=
    assign_has h (Assignment.flag_disjoint b a hab)
  cases a <;> cases b <;>
    first | exact absurd rfl hab | simp only [Has, assign, Assignment.flag] at hflag ⊢; rw [hflag]

/-- An assignment that a later one replaces makes no difference. -/
theorem assignAll_replaced (hlater : ∃ b ∈ as, b.flag = a.flag) :
    (h.assign a).assignAll as = h.assignAll as := by
  induction as generalizing h with
  | nil => exact absurd hlater (by simp)
  | cons c as ih =>
    change ((h.assign a).assign c).assignAll as = (h.assign c).assignAll as
    by_cases hc : a.flag = c.flag
    · rw [assign_assign h hc]
    · rw [assign_comm h hc]
      obtain ⟨b, hb, hba⟩ := hlater
      rcases List.mem_cons.mp hb with rfl | hb
      · exact absurd hba.symm hc
      · exact ih (h.assign c) ⟨b, hb, hba⟩

theorem assignAll_comm (hlater : ∀ b ∈ as, b.flag ≠ a.flag) :
    (h.assign a).assignAll as = (h.assignAll as).assign a := by
  induction as generalizing h with
  | nil => rfl
  | cons c as ih =>
    obtain ⟨hc, has⟩ := List.forall_mem_cons.mp hlater
    change ((h.assign a).assign c).assignAll as = ((h.assign c).assignAll as).assign a
    rw [assign_comm h hc.symm, ih (h.assign c) has]

theorem assignAll_has_other (hlater : ∀ b ∈ as, b.flag ≠ a.flag) :
    (h.assignAll as).Has a ↔ h.Has a := by
  induction as generalizing h with
  | nil => exact Iff.rfl
  | cons c as ih =>
    obtain ⟨hc, has⟩ := List.forall_mem_cons.mp hlater
    exact (ih (h.assign c) has).trans (assign_has_other h hc)

theorem hasAll_cons : h.HasAll (a :: as) ↔
    ((∀ b ∈ as, b.flag ≠ a.flag) → h.Has a) ∧ h.HasAll as := by
  constructor
  · intro hall
    refine ⟨fun hlater => hall [] a as rfl hlater, fun pre b post hsplit hlater => ?_⟩
    exact hall (a :: pre) b post (by rw [hsplit, List.cons_append]) hlater
  · rintro ⟨hfirst, hrest⟩ pre b post hsplit hlater
    cases pre with
    | nil =>
      obtain ⟨rfl, rfl⟩ := List.cons.inj hsplit
      exact hfirst hlater
    | cons c pre =>
      exact hrest pre b post (List.cons.inj hsplit).2 hlater

/-- Assignments change nothing exactly if the last one of each attribute says what holds. -/
theorem assignAll_eq_self_iff : h.assignAll as = h ↔ h.HasAll as := by
  induction as with
  | nil => exact iff_of_true rfl fun pre a post hsplit => absurd hsplit (by simp)
  | cons a as ih =>
    rw [hasAll_cons, ← ih]
    change (h.assign a).assignAll as = h ↔ _
    by_cases hlater : ∃ b ∈ as, b.flag = a.flag
    · have hnot : ¬∀ b ∈ as, b.flag ≠ a.flag := by
        simpa using hlater
      rw [assignAll_replaced h hlater]
      exact ⟨fun heq => ⟨fun hall => absurd hall hnot, heq⟩, And.right⟩
    · have hall : ∀ b ∈ as, b.flag ≠ a.flag := by
        simpa using hlater
      rw [assignAll_comm h hall]
      constructor
      · intro heq
        have hhas : h.Has a := heq ▸ assign_self_has (h.assignAll as)
        refine ⟨fun _ => hhas, ?_⟩
        rwa [(assign_eq_iff _).mpr ((assignAll_has_other h hall).mpr hhas)] at heq
      · rintro ⟨hhas, heq⟩
        rw [heq, (assign_eq_iff h).mpr (hhas hall)]

section Query
variable (query : CString)

theorem strchr_isSome {c : UInt8} {s : Bytes} (hmem : c ∈ s) : ∃ p, strchr s c = some p := by
  rcases strchr_cases s c with ⟨hnot, -⟩ | ⟨a, t, -, -, hsome⟩
  · exact absurd hmem hnot
  · exact ⟨_, hsome⟩

theorem considered_slots (hmem : ampersand ∈ query.1) :
    keep optionSlots (query.1.splitOn ampersand) ≠ [] ∧
      ∀ text ∈ keep optionSlots (query.1.splitOn ampersand),
        0 ∉ text ∧ text.length < optionSize := by
  obtain ⟨a, t, hquery, ha⟩ := List.eq_append_cons_of_mem hmem
  constructor
  · rw [hquery, List.splitOn_append_cons_self_of_not_mem ha, optionSlots,
      keep_cons _ _ (List.splitOn_ne_nil _ _)]
    exact List.cons_ne_nil _ _
  · intro text htext
    obtain ⟨hl, option, hoption, hpre⟩ := mem_keep htext
    exact ⟨fun hzero => query.2 (mem_of_mem_splitOn hoption (hpre.subset hzero)), hl⟩

/-- With a separator every failed option is undone, and no array is left. -/
theorem parse_many (hmem : ampersand ∈ query.1) :
    (h.parseNotificationAttribute query.1 type resourceType).value =
      (let r := adoptAll type resourceType false h (considered query.1)
      some (if r.1 then (r.2.checkAttributeValidity, r.2) else (r.1, r.2.restore h))) ∧
    (h.parseNotificationAttribute query.1 type resourceType).Contained := by
  obtain ⟨p, hp⟩ := strchr_isSome hmem
  obtain ⟨hvalue, hcontained⟩ := queryOptions_keep query.2
  obtain ⟨hset, hinside⟩ := setOptions_slot type resourceType
    (considered_slots query hmem).2 false h
  rw [considered, if_pos hmem, parseNotificationAttribute, hp]
  rw [value_bind, hvalue, Option.bind_some, value_bind, hset, Option.bind_some,
    contained_bind hvalue, contained_bind hset]
  dsimp only
  split_ifs
  · exact ⟨rfl, hcontained, hinside, contained_pure _⟩
  · exact ⟨rfl, hcontained, hinside, contained_pure _⟩

/-- Without one nothing is undone, and the arrays for name and value have to do. -/
theorem parse_one (hmem : ampersand ∉ query.1) :
    (h.parseNotificationAttribute query.1 type resourceType).value =
      (if HasRoom query.1 then
        let r := h.adopt resourceType (requested type query.1)
        some (if r.1 then (r.2.checkAttributeValidity, r.2) else (r.1, r.2))
      else none) ∧
    ((h.parseNotificationAttribute query.1 type resourceType).Contained ↔
      (nameOf query.1).length < optionSize ∧ (valueOf query.1).length < optionSize) := by
  have hset := h.value_setNotificationAttribute type resourceType query.2
  rw [← h.contained_setNotificationAttribute type resourceType query.2,
    parseNotificationAttribute, strchr_of_notMem hmem]
  dsimp only
  by_cases hroom : HasRoom query.1
  · rw [if_pos hroom] at hset ⊢
    rw [value_bind, hset, Option.bind_some, contained_bind hset]
    split_ifs
    · exact ⟨rfl, and_iff_left (contained_pure _)⟩
    · exact ⟨rfl, and_iff_left (contained_pure _)⟩
  · rw [if_neg hroom] at hset ⊢
    rw [value_bind, hset, contained_bind_none hset]
    exact ⟨rfl, Iff.rfl⟩

/-- A query that is not taken changes nothing: either it is undone and `float` has kept the periods,
or it says what holds already. Undone is what a failed option of several left, not what has failed
the check of the whole, and nothing of a single option. -/
def RejectsCleanly (query : Bytes) : Prop :=
  if ampersand ∈ query then
    (∀ as, h.Accepts type resourceType (considered query) as →
      (h.assignAll as).checkAttributeValidity = true ∨ h.HasAll as) ∧
    ((∀ as, ¬h.Accepts type resourceType (considered query) as) → h.KeptByFloat)
  else
    HasRoom query ∧ ∀ a, requested type query = some a →
      h.Typed resourceType [a] ∧ (h.assign a).checkAttributeValidity = true ∨ h.Has a

theorem typed_singleton : h.Typed resourceType [a] ↔
    (isNumerical resourceType || !(h.assign a).watchesValue) = true := by
  rw [typed_cons, and_iff_left_of_imp]
  intro htyped
  simpa [Typed] using htyped

/-- Exactly then a rejected query leaves the write attributes as they were. -/
theorem rejection_keeps_iff :
    ((h.parseNotificationAttribute query.1 type resourceType).Ends fun r =>
      r.1 = false → r.2.attributes = h.attributes) ↔
    h.RejectsCleanly type resourceType query.1 := by
  rw [RejectsCleanly]
  by_cases hmem : ampersand ∈ query.1
  · have hvalue := (h.parse_many type resourceType query hmem).1
    rw [if_pos hmem, ends_of_value hvalue]
    by_cases haccepts : ∃ as, h.Accepts type resourceType (considered query.1) as
    · obtain ⟨as, has⟩ := haccepts
      have hne : considered query.1 ≠ [] := by
        rw [considered, if_pos hmem]
        exact (considered_slots query hmem).1
      rw [adoptAll_of_accepts h resourceType (Or.inl hne) has]
      simp only [if_true]
      constructor
      · intro hkeeps
        refine ⟨fun as' has' => ?_, fun hnone => absurd has (hnone as)⟩
        obtain rfl := Option.some.inj (has.1.symm.trans has'.1)
        cases hvalid : (h.assignAll as).checkAttributeValidity with
        | true => exact Or.inl rfl
        | false =>
          exact Or.inr ((assignAll_eq_self_iff h).mp ((assignAll_eq_iff h).mp (hkeeps hvalid)))
      · intro hclean hvalid
        rcases hclean.1 as has with htrue | hall
        · exact absurd (htrue.symm.trans hvalid) Bool.true_eq_false.mp
        · rw [(assignAll_eq_self_iff h).mpr hall]
    · have hnone : ∀ as, ¬h.Accepts type resourceType (considered query.1) as :=
        not_exists.mp haccepts
      have hfalse : (adoptAll type resourceType false h (considered query.1)).1 = false :=
        adoptAll_of_refuses h resourceType (fun hf => absurd hf Bool.false_ne_true) hnone
      simp only [hfalse, Bool.false_eq_true, if_false, forall_true_left, restore_attributes]
      exact ⟨fun hkept => ⟨fun as has => absurd has (hnone as), fun _ => hkept⟩,
        fun hclean => hclean.2 hnone⟩
  · have hvalue := (h.parse_one type resourceType query hmem).1
    rw [if_neg hmem]
    by_cases hroom : HasRoom query.1
    · rw [if_pos hroom] at hvalue
      rw [ends_of_value hvalue, and_iff_right hroom]
      cases ha : requested (F := F) type query.1 with
      | none =>
        exact iff_of_true (fun _ => rfl) fun a hsome => absurd hsome (Option.some_ne_none a).symm
      | some a =>
        have hone : (∀ a', some a = some a' →
            h.Typed resourceType [a'] ∧ (h.assign a').checkAttributeValidity = true ∨ h.Has a') ↔
            h.Typed resourceType [a] ∧ (h.assign a).checkAttributeValidity = true ∨ h.Has a := by
          simp
        have hsame : (h.assignAll [a]).attributes = h.attributes ↔ h.Has a :=
          (assignAll_eq_iff h).trans (assign_eq_iff h)
        change (h.assign a).attributes = h.attributes ↔ h.Has a at hsame
        rw [hone, typed_singleton, ← hsame, adopt]
        dsimp only
        by_cases htaken : (isNumerical resourceType || !(h.assign a).watchesValue) = true
        · rw [if_pos htaken, and_iff_right htaken]
          cases (h.assign a).checkAttributeValidity <;> simp
        · rw [if_neg htaken]
          simp only [Bool.eq_false_iff.mpr htaken, Bool.false_eq_true, false_and, false_or,
            forall_true_left]
    · rw [if_neg hroom] at hvalue
      exact iff_of_false (not_ends hvalue) fun hclean => hroom hclean.1

/-- A query with a separator stays in its arrays; any other one only if its name and its value fit
there. -/
theorem contained_iff :
    (h.parseNotificationAttribute query.1 type resourceType).Contained ↔
      ampersand ∈ query.1 ∨
        (nameOf query.1).length < optionSize ∧ (valueOf query.1).length < optionSize := by
  by_cases hmem : ampersand ∈ query.1
  · exact iff_of_true (h.parse_many type resourceType query hmem).2 (Or.inl hmem)
  · rw [(h.parse_one type resourceType query hmem).2, or_iff_right hmem]

theorem adoptAll_singleton (option : Bytes) :
    adoptAll type resourceType false h [option] = h.adopt resourceType (requested type option) := by
  rw [adoptAll]
  split_ifs
  · rfl
  · rfl

theorem adoptAll_true_iff {options : List Bytes} (hne : options ≠ [])
    (undone h' : M2MReportHandler F) :
    (let r := adoptAll type resourceType false h options;
      if r.1 then (r.2.checkAttributeValidity, r.2) else (r.1, undone)) = (true, h') ↔
      ∃ as, h.Accepts type resourceType options as ∧
        (h.assignAll as).checkAttributeValidity = true ∧ h' = h.assignAll as := by
  by_cases haccepts : ∃ as, h.Accepts type resourceType options as
  · obtain ⟨as, has⟩ := haccepts
    rw [adoptAll_of_accepts h resourceType (Or.inl hne) has]
    simp only [if_true, Prod.mk.injEq]
    constructor
    · rintro ⟨hvalid, rfl⟩
      exact ⟨as, has, hvalid, rfl⟩
    · rintro ⟨as', has', hvalid, rfl⟩
      obtain rfl := Option.some.inj (has.1.symm.trans has'.1)
      exact ⟨hvalid, rfl⟩
  · have hfalse : (adoptAll type resourceType false h options).1 = false :=
      adoptAll_of_refuses h resourceType (fun hf => absurd hf Bool.false_ne_true)
        (not_exists.mp haccepts)
    simp only [hfalse, Bool.false_eq_true, if_false, Prod.mk.injEq, false_and, false_iff]
    rintro ⟨as, has, -⟩
    exact haccepts ⟨as, has⟩

/-- A query is taken if all options that the handler looks at are, and together they make sense;
then each of them is applied. -/
theorem accepted_iff (h' : M2MReportHandler F) :
    (h.parseNotificationAttribute query.1 type resourceType).value = some (true, h') ↔
      (ampersand ∈ query.1 ∨ HasRoom query.1) ∧
      ∃ as, h.Accepts type resourceType (considered query.1) as ∧
        (h.assignAll as).checkAttributeValidity = true ∧ h' = h.assignAll as := by
  by_cases hmem : ampersand ∈ query.1
  · have hne : considered query.1 ≠ [] := by
      rw [considered, if_pos hmem]
      exact (considered_slots query hmem).1
    rw [(h.parse_many type resourceType query hmem).1, and_iff_right (Or.inl hmem),
      ← adoptAll_true_iff h type resourceType hne, Option.some.injEq]
  · have hone : considered query.1 = [query.1] := by
      rw [considered, if_neg hmem]
    rw [(h.parse_one type resourceType query hmem).1, or_iff_right hmem, hone,
      ← adoptAll_true_iff h type resourceType (List.cons_ne_nil query.1 []), adoptAll_singleton]
    by_cases hroom : HasRoom query.1
    · rw [if_pos hroom, and_iff_right hroom, Option.some.injEq]
    · rw [if_neg hroom]
      exact iff_of_false (Option.some_ne_none _).symm fun hboth => hroom hboth.1

/-- An option that is alone and too long for the arrays that it is copied to. -/
theorem handleObservationAttribute_none :
    (h.handleObservationAttribute query.1 type resourceType).value = none ↔
      ampersand ∉ query.1 ∧ ¬HasRoom query.1 := by
  have hend (r : Bool × M2MReportHandler F) :
      (if r.1 then
        if r.2.isUnderObservation then pure (r.1, r.2.setUnderObservation true)
        else pure (r.1, r.2, [])
      else pure (r.1, r.2.setDefaultValues, []) :
        Copying (Bool × M2MReportHandler F × List Call)).value ≠ none := by
    split_ifs <;> exact Option.some_ne_none _
  rw [handleObservationAttribute, value_bind]
  by_cases hmem : ampersand ∈ query.1
  · rw [(h.parse_many type resourceType query hmem).1, Option.bind_some]
    exact iff_of_false (hend _) fun hc => hc.1 hmem
  · rw [(h.parse_one type resourceType query hmem).1, and_iff_right hmem]
    by_cases hroom : HasRoom query.1
    · rw [if_pos hroom]
      dsimp only
      rw [Option.bind_some]
      exact iff_of_false (hend _) (not_not_intro hroom)
    · rw [if_neg hroom]
      exact iff_of_true rfl hroom

end Query

/-- `pmin=9&pmax=5` is rejected and leaves both. -/
theorem rejection_changes :
    ¬(({} : M2MReportHandler Int).parseNotificationAttribute
      [0x70, 0x6D, 0x69, 0x6E, 0x3D, 0x39, 0x26, 0x70, 0x6D, 0x61, 0x78, 0x3D, 0x35]
      .resource .integer).Ends fun r =>
        r.1 = false → r.2.attributes = ({} : M2MReportHandler Int).attributes := by
  rintro ⟨r, hvalue, hkeeps⟩
  have hrun : (({} : M2MReportHandler Int).parseNotificationAttribute
      [0x70, 0x6D, 0x69, 0x6E, 0x3D, 0x39, 0x26, 0x70, 0x6D, 0x61, 0x78, 0x3D, 0x35]
      .resource .integer).value.map (fun r => (r.1, r.2.pmin)) = some (false, 9) := by
    decide +kernel
  rw [hvalue, Option.map_some, Option.some.injEq, Prod.mk.injEq] at hrun
  have hpmin : r.2.pmin = 1 := congrArg Prod.fst (hkeeps hrun.1)
  exact absurd (hrun.2.symm.trans hpmin) (by decide)

/-- Twenty letters and their NUL do not fit. -/
theorem overlong_query_overruns :
    ¬(({} : M2MReportHandler Int).parseNotificationAttribute
      (List.replicate 20 0x61) .resource .integer).Contained := by
  intro hcontained
  exact absurd (hcontained ⟨zeros 20, List.replicate 20 0x61 ++ [0]⟩ (by decide +kernel)).1
    (by decide)

/-- `pmin=1&pmin=1&pmin=1&pmin=1&pmin=1&x` is taken although its sixth option means nothing. -/
theorem sixth_option_ignored :
    ∃ h' : M2MReportHandler Int,
      (({} : M2MReportHandler Int).parseNotificationAttribute
        (List.flatten (List.replicate 5 (pminName ++ [equal, 0x31, ampersand])) ++ [0x78])
        .resource .integer).value = some (true, h') ∧
      ∃ option ∈ (List.flatten (List.replicate 5 (pminName ++ [equal, 0x31, ampersand])) ++
        [0x78]).splitOn ampersand, (requested .resource option : Option (Assignment Int)) = none :=
  ⟨_, rfl, [0x78], by decide +kernel, rfl⟩

end M2MReportHandler
end MbedClient.Report
