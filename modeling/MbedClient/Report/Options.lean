import MbedClient.Report.Query

/-! The options of a query: which of them get a slot, and what taking one after the other comes
to. -/
namespace MbedClient.Report
open Observe (BaseType)
open Copying

namespace M2MReportHandler
variable {F : Type} [CFloatText F] (type : BaseType) (resourceType : ResourceType)

/-- The first options, one after the other, up to the first one that is not taken. -/
def adoptAll : (success : Bool) → M2MReportHandler F → List Bytes → Bool × M2MReportHandler F
  | success, h, [] => (success, h)
  | _, h, option :: options =>
    let r := h.adopt resourceType (requested type option)
    if r.1 then adoptAll r.1 r.2 options else r

/-- What the options come to, if all of them are taken. -/
def Accepts (h : M2MReportHandler F) (options : List Bytes) (as : List (Assignment F)) : Prop :=
  options.mapM (requested type) = some as ∧ h.Typed resourceType as

end M2MReportHandler

/-- The array of a slot that holds the text. -/
def slot (text : Bytes) : Bytes := text ++ zeros (optionSize - text.length)

/-- The options that get one of the slots: those before a separator, each cut to what a slot holds,
and the last one too unless it is empty. -/
def keep : (slots : Nat) → List Bytes → List Bytes
  | 0, _ => []
  | _ + 1, [] => []
  | _ + 1, [option] => if option = [] then [] else [option.take (optionSize - 1)]
  | slots + 1, option :: o :: options => option.take (optionSize - 1) :: keep slots (o :: options)

theorem keep_cons (slots : Nat) (option : Bytes) {options : List Bytes} (h : options ≠ []) :
    keep (slots + 1) (option :: options) = option.take (optionSize - 1) :: keep slots options := by
  cases options with
  | nil => exact absurd rfl h
  | cons o options => rfl

theorem mem_keep {slots : Nat} {options : List Bytes} {text : Bytes}
    (h : text ∈ keep slots options) :
    text.length < optionSize ∧ ∃ option ∈ options, text <+: option := by
  have hcut (option : Bytes) : (option.take (optionSize - 1)).length < optionSize := by
    rw [List.length_take, optionSize]
    omega
  induction slots, options using keep.induct with
  | case1 => exact absurd h List.not_mem_nil
  | case2 => exact absurd h List.not_mem_nil
  | case3 slots => exact absurd h (by simp [keep])
  | case4 slots option hne =>
    rw [keep, if_neg hne, List.mem_singleton] at h
    subst h
    exact ⟨hcut option, option, List.mem_singleton_self option, List.take_prefix _ option⟩
  | case5 slots option o options ih =>
    rw [keep, List.mem_cons] at h
    rcases h with rfl | h
    · exact ⟨hcut option, option, List.mem_cons_self, List.take_prefix _ option⟩
    · obtain ⟨hl, option', hmem, hpre⟩ := ih h
      exact ⟨hl, option', List.mem_cons_of_mem _ hmem, hpre⟩

namespace M2MReportHandler
variable {F : Type} [CFloatText F] (type : BaseType) (resourceType : ResourceType)

theorem copy_slot {text : Bytes} (hl : text.length < optionSize) :
    (memcpy (zeros optionSize) text).value = some (slot text) ∧
      (memcpy (zeros optionSize) text).Contained :=
  ⟨value_memcpy_zeros hl.le,
    (contained_memcpy _ _).mpr ⟨inside_zeros.mpr hl.le, terminated_zeros.mpr (Or.inr hl)⟩⟩

/-- By induction on the slots that are left; the filled ones stay as they are. -/
theorem splitOptions_keep (slots : Nat) (filled : List Bytes) {rest : Bytes} (hrest : 0 ∉ rest) :
    ∃ texts left r,
      (splitOptions slots (filled ++ List.replicate slots (zeros optionSize)) filled.length
          rest).value =
        some (filled ++ texts.map slot ++ List.replicate left (zeros optionSize),
          filled.length + texts.length, r) ∧
      (splitOptions slots (filled ++ List.replicate slots (zeros optionSize)) filled.length
          rest).Contained ∧
      slots = texts.length + left ∧ 0 ∉ r ∧
      keep slots (rest.splitOn ampersand) =
        texts ++ if 0 < left ∧ 0 < r.length then [r.take (optionSize - 1)] else [] := by
  induction slots generalizing filled rest with
  | zero =>
    refine ⟨[], 0, rest, ?_, contained_pure _, rfl, hrest, ?_⟩
    · simp [splitOptions]
    · simp [keep]
  | succ slots ih =>
    rcases strchr_cases rest ampersand with ⟨hmem, hnone⟩ | ⟨a, t, ha, rfl, hsome⟩
    · refine ⟨[], slots + 1, rest, ?_, ?_, ?_, hrest, ?_⟩
      · simp only [splitOptions, hnone, value_pure, List.map_nil, List.append_nil,
          List.length_nil, Nat.add_zero]
      · simp only [splitOptions, hnone, contained_pure]
      · simp
      · rw [List.splitOn_eq_singleton hmem, keep]
        by_cases he : rest = []
        · simp [he]
        · simp [he, List.length_pos_iff]
    · have hzero : 0 ∉ a ∧ 0 ∉ t := by
        rw [List.mem_append, List.mem_cons, not_or, not_or] at hrest
        exact ⟨hrest.1, hrest.2.2⟩
      have htake : (a ++ ampersand :: t).take
          (min ((a ++ ampersand :: t).length - (ampersand :: t).length) (optionSize - 1)) =
          a.take (optionSize - 1) := by
        rw [List.length_append, Nat.add_sub_cancel,
          List.take_append_of_le_length (min_le_left _ _), List.take_eq_take_iff]
        omega
      have hl : (a.take (optionSize - 1)).length < optionSize := by
        rw [List.length_take, optionSize]
        omega
      have hget : (filled ++ List.replicate (slots + 1) (zeros optionSize)).getD filled.length [] =
          zeros optionSize := by
        simp [List.replicate_succ]
      have hset : (filled ++ List.replicate (slots + 1) (zeros optionSize)).set filled.length
          (slot (a.take (optionSize - 1))) =
          (filled ++ [slot (a.take (optionSize - 1))]) ++
            List.replicate slots (zeros optionSize) := by
        simp [List.replicate_succ]
      obtain ⟨texts, left, r, hvalue, hcontained, hslots, hr, hkeep⟩ :=
        ih (filled ++ [slot (a.take (optionSize - 1))]) hzero.2
      rw [List.length_append, List.length_singleton] at hvalue hcontained
      have hcopy := copy_slot hl
      refine ⟨a.take (optionSize - 1) :: texts, left, r, ?_, ?_, ?_, hr, ?_⟩
      · simp only [splitOptions, hsome, htake, hget]
        rw [value_bind, hcopy.1, Option.bind_some, hset, List.tail_cons, hvalue]
        simp
        omega
      · simp only [splitOptions, hsome, htake, hget]
        rw [contained_bind hcopy.1, hset, List.tail_cons]
        exact ⟨hcopy.2, hcontained⟩
      · rw [hslots, List.length_cons]
        omega
      · rw [List.splitOn_append_cons_self_of_not_mem ha, keep_cons _ _ (List.splitOn_ne_nil _ _),
          hkeep, List.cons_append]

/-- All copies of the splitter stay in their slots, whatever the query. -/
theorem queryOptions_keep {query : Bytes} (hquery : 0 ∉ query) :
    (queryOptions query).value =
      some ((keep optionSlots (query.splitOn ampersand)).map slot) ∧
    (queryOptions query).Contained := by
  obtain ⟨texts, left, r, hvalue, hcontained, hslots, hr, hkeep⟩ :=
    splitOptions_keep optionSlots [] hquery
  simp only [List.nil_append, List.length_nil, Nat.zero_add] at hvalue hcontained
  have htaken : (texts.map slot ++ List.replicate left (zeros optionSize)).take texts.length =
      texts.map slot := by
    rw [List.take_append_of_le_length (by rw [List.length_map]), List.take_of_length_le (by simp)]
  rw [queryOptions, value_bind, hvalue, Option.bind_some, contained_bind hvalue, hkeep]
  dsimp only
  by_cases hlast : 0 < left ∧ 0 < r.length
  · have hl : (r.take (optionSize - 1)).length < optionSize := by
      rw [List.length_take, optionSize]
      omega
    have hlen : r.take (min r.length (optionSize - 1)) = r.take (optionSize - 1) := by
      rw [List.take_eq_take_iff]
      omega
    obtain ⟨k, rfl⟩ : ∃ k, left = k + 1 := ⟨left - 1, by omega⟩
    have hget : (texts.map slot ++ List.replicate (k + 1) (zeros optionSize)).getD texts.length [] =
        zeros optionSize := by
      simp [List.getD_eq_getElem?_getD, List.replicate_succ]
    have hset : ((texts.map slot ++ List.replicate (k + 1) (zeros optionSize)).set texts.length
        (slot (r.take (optionSize - 1)))).take (texts.length + 1) =
        (texts ++ [r.take (optionSize - 1)]).map slot := by
      have : texts.length = (texts.map slot).length := by rw [List.length_map]
      rw [this, List.set_append_right _ _ le_rfl, List.take_append]
      simp [List.replicate_succ]
    have hcopy := copy_slot hl
    rw [if_pos hlast, if_pos ⟨by omega, hlast.2⟩, hlen, hget, value_bind, hcopy.1,
      Option.bind_some, contained_bind hcopy.1, value_pure, hset]
    exact ⟨rfl, hcontained, hcopy.2, contained_pure _⟩
  · rw [if_neg hlast, if_neg (by omega), List.append_nil, value_pure, htaken]
    exact ⟨rfl, hcontained, contained_pure _⟩

theorem hasRoom_of_length {text : Bytes} (hl : text.length < optionSize) :
    HasRoom text ∧ (nameOf text).length < optionSize ∧ (valueOf text).length < optionSize := by
  have hname : (nameOf text).length ≤ text.length := (List.takeWhile_prefix _).length_le
  have hvalue : (valueOf text).length ≤ text.length := by
    rw [valueOf, List.length_tail]
    exact (Nat.sub_le _ _).trans (List.dropWhile_suffix _).length_le
  refine ⟨⟨?_, by omega⟩, by omega, by omega⟩
  rw [nameCopy]
  split_ifs
  · omega
  · rw [List.length_append, List.length_singleton]
    omega

/-- Options that lie in slots are read whole and leave no array. -/
theorem setOptions_slot {texts : List Bytes}
    (htexts : ∀ text ∈ texts, 0 ∉ text ∧ text.length < optionSize) (success : Bool)
    (h : M2MReportHandler F) :
    (setOptions type resourceType success h (texts.map slot)).value =
      some (adoptAll type resourceType success h texts) ∧
    (setOptions type resourceType success h (texts.map slot)).Contained := by
  induction texts generalizing success h with
  | nil => exact ⟨rfl, contained_pure _⟩
  | cons text texts ih =>
    obtain ⟨⟨hzero, hl⟩, hrest⟩ := List.forall_mem_cons.mp htexts
    have hstring : (string (slot text)).value = some text :=
      value_string_zeros hzero (by omega)
    have hset := h.value_setNotificationAttribute type resourceType hzero
    rw [if_pos (hasRoom_of_length hl).1] at hset
    have hinside := (h.contained_setNotificationAttribute type resourceType hzero).mpr
      (hasRoom_of_length hl).2
    rw [List.map_cons, setOptions, value_bind, hstring, Option.bind_some, value_bind, hset,
      Option.bind_some, contained_bind hstring, contained_bind hset, adoptAll]
    dsimp only
    by_cases hr : (h.adopt resourceType (requested type text)).1 = true
    · rw [if_pos hr, if_pos hr]
      obtain ⟨hvalue, hcontained⟩ := ih hrest _ (h.adopt resourceType (requested type text)).2
      exact ⟨hvalue, contained_string _, hinside, hcontained⟩
    · rw [if_neg hr, if_neg hr]
      exact ⟨rfl, contained_string _, hinside, contained_pure _⟩

end M2MReportHandler

section Flags
variable (s f g : UInt8)

theorem or_and_self : (s ||| f) &&& f = f :=
  UInt8.toBitVec_inj.mp (by ext i; simpa using Or.inr)

theorem or_and_of_disjoint (h : f &&& g = 0) : (s ||| f) &&& g = s &&& g := by
  have hdistrib : (s ||| f) &&& g = s &&& g ||| f &&& g :=
    UInt8.toBitVec_inj.mp (by ext i; simp [Bool.and_or_distrib_right])
  rw [hdistrib, h, UInt8.or_zero]

theorem or_eq_left_iff : s ||| f = s ↔ s &&& f = f := by
  constructor
  · intro h
    rw [← h, or_and_self]
  · intro h
    rw [← h]
    exact UInt8.toBitVec_inj.mp (by ext i; simpa using fun hs _ => hs)

theorem or_right_comm : s ||| f ||| g = s ||| g ||| f := by
  rw [UInt8.or_assoc, UInt8.or_comm f, ← UInt8.or_assoc]

end Flags

namespace Assignment
variable {F : Type} (a b : Assignment F)

def flags : List UInt8 := [pminFlag, pmaxFlag, gtFlag, ltFlag, stFlag]

theorem flag_mem : a.flag ∈ flags := by
  cases a <;> simp [flag, flags]

theorem flag_disjoint (h : a.flag ≠ b.flag) : a.flag &&& b.flag = 0 := by
  have hflags : ∀ f ∈ flags, ∀ g ∈ flags, f ≠ g → f &&& g = 0 := by
    decide +kernel
  exact hflags _ a.flag_mem _ b.flag_mem h

theorem flag_of_isPeriod (h : a.isPeriod = true) :
    a.flag &&& gtFlag = 0 ∧ a.flag &&& ltFlag = 0 ∧ a.flag &&& stFlag = 0 := by
  have hflags : ∀ f ∈ [pminFlag, pmaxFlag], f &&& gtFlag = 0 ∧ f &&& ltFlag = 0 ∧
      f &&& stFlag = 0 := by
    decide +kernel
  cases a with
  | pmin | pmax => exact hflags _ (by simp [flag])
  | gt | lt | st => exact absurd h Bool.false_ne_true

end Assignment

namespace M2MReportHandler
variable {F : Type} [CFloatText F] (h : M2MReportHandler F) (resourceType : ResourceType)
variable {a b : Assignment F} {as : List (Assignment F)}

@[simp] theorem assign_currentValue : (h.assign a).currentValue = h.currentValue := by
  cases a <;> rfl

@[simp] theorem assign_attributeState :
    (h.assign a).attributeState = h.attributeState ||| a.flag := by
  cases a <;> rfl

theorem assign_has_flag : (h.assign a).has a.flag = true := by
  rw [has, assign_attributeState, or_and_self, beq_self_eq_true]

theorem assign_has {f : UInt8} (hf : a.flag &&& f = 0) : (h.assign a).has f = h.has f := by
  rw [has, assign_attributeState, or_and_of_disjoint _ _ _ hf, has]

theorem assign_watchesValue :
    (h.assign a).watchesValue = (h.watchesValue || !a.isPeriod) := by
  cases hp : a.isPeriod with
  | true =>
    obtain ⟨hgt, hlt, hst⟩ := a.flag_of_isPeriod hp
    rw [watchesValue, assign_has h hgt, assign_has h hlt, assign_has h hst, Bool.not_true,
      Bool.or_false, watchesValue]
  | false =>
    have hself := h.assign_has_flag (a := a)
    rw [Bool.not_false, Bool.or_true, watchesValue]
    cases a with
    | pmin | pmax => exact absurd hp.symm Bool.false_ne_true
    | gt | lt | st =>
      rw [Assignment.flag] at hself
      simp [hself]

theorem typed_cons : h.Typed resourceType (a :: as) ↔
    (isNumerical resourceType || !(h.assign a).watchesValue) = true ∧
      (h.assign a).Typed resourceType as := by
  simp only [Typed, assign_watchesValue, Bool.or_eq_true, Bool.not_eq_true', Bool.or_eq_false_iff,
    List.forall_mem_cons, Bool.not_eq_false']
  tauto

/-- An option after the other: either all of them are taken, and the handler is what they come
to, or one of them is not. -/
theorem adoptAll_of_accepts {type : BaseType} {options : List Bytes} {success : Bool}
    (hsome : options ≠ [] ∨ success = true) (haccepts : h.Accepts type resourceType options as) :
    adoptAll type resourceType success h options = (true, h.assignAll as) := by
  induction options generalizing h as success with
  | nil =>
    obtain rfl := Option.some.inj haccepts.1
    rw [adoptAll, hsome.resolve_left (not_not.mpr rfl)]
    rfl
  | cons option options ih =>
    obtain ⟨hmap, htyped⟩ := haccepts
    rw [List.mapM_cons] at hmap
    obtain ⟨a, ha, hmap⟩ := Option.bind_eq_some_iff.mp hmap
    obtain ⟨as', has', hcons⟩ := Option.bind_eq_some_iff.mp hmap
    obtain rfl := Option.some.inj hcons
    have htyped' := (typed_cons h resourceType).mp htyped
    rw [adoptAll, ha, adopt, if_pos htyped'.1, htyped'.1,
      ih (h.assign a) (Or.inr rfl) ⟨has', htyped'.2⟩]
    rfl

theorem adoptAll_of_refuses {type : BaseType} {options : List Bytes} {success : Bool}
    (hsuccess : success = true → h.Typed resourceType [])
    (hrefuses : ∀ as, ¬h.Accepts type resourceType options as) :
    (adoptAll type resourceType success h options).1 = false := by
  induction options generalizing h success with
  | nil =>
    rw [adoptAll]
    exact Bool.eq_false_iff.mpr fun hs => hrefuses [] ⟨rfl, hsuccess hs⟩
  | cons option options ih =>
    rw [adoptAll]
    by_cases hr : (h.adopt resourceType (requested type option)).1 = true
    · rw [if_pos hr]
      cases ha : requested (F := F) type option with
      | none => exact absurd hr (by rw [ha]; exact Bool.false_ne_true)
      | some a =>
        rw [ha] at hr
        refine ih (h.assign a) (fun _ => ?_) fun as has => hrefuses (a :: as) ⟨?_, ?_⟩
        · simpa [Typed, adopt] using hr
        · rw [List.mapM_cons, ha, has.1]
          rfl
        · exact (typed_cons h resourceType).mpr ⟨hr, has.2⟩
    · rw [if_neg hr]
      exact Bool.eq_false_iff.mpr hr

end M2MReportHandler
end MbedClient.Report
