import MbedClient.Report.Attributes

/-! What the options of a query ask for, and what is made of them. -/
namespace MbedClient.Report
open Observe (BaseType)
open Copying

inductive Assignment (F : Type) where
  | pmin (v : Int32)
  | pmax (v : Int32)
  | gt (v : F)
  | lt (v : F)
  | st (v : F)

namespace Assignment
variable {F : Type} [CFloatText F]

/-- What the value asks for under the name. Only a resource has `gt`, `lt` and `st`. -/
def named (name value : Bytes) (type : BaseType) : Option (Assignment F) :=
  if name = pminName then some (.pmin (Int32.ofInt (Interface.atoi value)))
  else if name = pmaxName then some (.pmax (Int32.ofInt (Interface.atoi value)))
  else if name = gtName ∧ type = .resource then some (.gt (CFloatText.atof value))
  else if name = ltName ∧ type = .resource then some (.lt (CFloatText.atof value))
  else if (name = stSizeName ∨ name = stpName) ∧ type = .resource then
    some (.st (CFloatText.atof value))
  else none

def flag : Assignment F → UInt8
  | .pmin _ => pminFlag
  | .pmax _ => pmaxFlag
  | .gt _ => gtFlag
  | .lt _ => ltFlag
  | .st _ => stFlag

def isPeriod : Assignment F → Bool
  | .pmin _ => true
  | .pmax _ => true
  | _ => false

end Assignment

def nameOf (option : Bytes) : Bytes := option.takeWhile (· != equal)
def valueOf (option : Bytes) : Bytes := (option.dropWhile (· != equal)).tail

/-- What an option `name=value` asks for, if the name is known and the value not empty. -/
def requested {F : Type} [CFloatText F] (type : BaseType) (option : Bytes) :
    Option (Assignment F) :=
  if valueOf option = [] then none else Assignment.named (nameOf option) (valueOf option) type

namespace M2MReportHandler
variable {F : Type} [CFloatText F] (h : M2MReportHandler F)

def assign : Assignment F → M2MReportHandler F
  | .pmin v => { h with pmin := v, attributeState := h.attributeState ||| pminFlag }
  | .pmax v => { h with pmax := v, attributeState := h.attributeState ||| pmaxFlag }
  | .gt v => { h with gt := v, attributeState := h.attributeState ||| gtFlag }
  | .lt v => { h with lt := v, attributeState := h.attributeState ||| ltFlag }
  | .st v =>
    { h with st := v, highStep := CFloat.add h.currentValue v,
             lowStep := CFloat.sub h.currentValue v,
             attributeState := h.attributeState ||| stFlag }

def assignAll (as : List (Assignment F)) : M2MReportHandler F := as.foldl assign h

def watchesValue : Bool := h.has gtFlag || h.has ltFlag || h.has stFlag

/-- Only a number can be watched. -/
def Typed (resourceType : ResourceType) (as : List (Assignment F)) : Prop :=
  isNumerical resourceType = true ∨ h.watchesValue = false ∧ ∀ a ∈ as, a.isPeriod = true

/-- What is made of one option, and whether it is taken. -/
def adopt (resourceType : ResourceType) : Option (Assignment F) → Bool × M2MReportHandler F
  | none => (false, h)
  | some a => (isNumerical resourceType || !(h.assign a).watchesValue, h.assign a)

end M2MReportHandler

/-- The copies of an option that has `=` are its name and its value. -/
def nameCopy (option : Bytes) : Bytes :=
  if equal ∈ option then nameOf option else option ++ [0]

/-- Name and value fit in the arrays for them, the value with its NUL. -/
def HasRoom (option : Bytes) : Prop :=
  (nameCopy option).length ≤ optionSize ∧ (valueOf option).length < optionSize

instance (option : Bytes) : Decidable (HasRoom option) := inferInstanceAs (Decidable (_ ∧ _))

section Option
variable {option : Bytes}

theorem nameOf_append {name : Bytes} (hname : equal ∉ name) (value : Bytes) :
    nameOf (name ++ equal :: value) = name := by
  rw [nameOf, List.takeWhile_append_of_pos (bne_of_notMem hname)]
  simp

theorem valueOf_append {name : Bytes} (hname : equal ∉ name) (value : Bytes) :
    valueOf (name ++ equal :: value) = value := by
  rw [valueOf, List.dropWhile_append_of_pos (bne_of_notMem hname)]
  simp

theorem valueOf_of_notMem (h : equal ∉ option) : valueOf option = [] := by
  rw [valueOf, List.dropWhile_eq_nil_iff.mpr (bne_of_notMem h), List.tail_nil]

theorem nameOf_of_notMem (h : equal ∉ option) : nameOf option = option := by
  rw [nameOf, List.takeWhile_eq_self_iff]
  exact bne_of_notMem h

theorem requested_append {F : Type} [CFloatText F] (type : BaseType) {name : Bytes}
    (hname : equal ∉ name) (value : Bytes) :
    requested (F := F) type (name ++ equal :: value) =
      if value = [] then none else Assignment.named name value type := by
  rw [requested, valueOf_append hname, nameOf_append hname]

theorem requested_of_notMem {F : Type} [CFloatText F] (type : BaseType) (h : equal ∉ option) :
    requested (F := F) type option = none := by
  rw [requested, if_pos (valueOf_of_notMem h)]

theorem hasRoom_append {name : Bytes} (hname : equal ∉ name) (value : Bytes) :
    HasRoom (name ++ equal :: value) ↔ name.length ≤ optionSize ∧ value.length < optionSize := by
  have hmem : equal ∈ name ++ equal :: value := by simp
  rw [HasRoom, nameCopy, if_pos hmem, valueOf_append hname, nameOf_append hname]

theorem hasRoom_of_notMem (h : equal ∉ option) : HasRoom option ↔ option.length < optionSize := by
  rw [HasRoom, nameCopy, if_neg h, valueOf_of_notMem h, List.length_append, List.length_nil]
  simp only [optionSize, List.length_singleton]
  omega

end Option

namespace M2MReportHandler
variable {F : Type} [CFloatText F] (h : M2MReportHandler F)
variable {name value option : Bytes} (type : BaseType) (resourceType : ResourceType)

theorem setNamed_eq (hname : 0 ∉ name) :
    h.setNamed (name ++ zeros (optionSize - name.length)) value type =
      match Assignment.named name value type with
      | none => (false, h)
      | some a => (true, h.assign a) := by
  have heq (text : Bytes) (ht : 0 ∉ text) (hl : text.length < optionSize) :=
    strcmpEq_zeros hname ht hl
  rw [setNamed, heq pminName (by decide) (by decide), heq pmaxName (by decide) (by decide),
    heq gtName (by decide) (by decide), heq ltName (by decide) (by decide),
    heq stSizeName (by decide) (by decide), heq stpName (by decide) (by decide), Assignment.named]
  simp only [decide_eq_true_eq, Bool.and_eq_true, Bool.or_eq_true, beq_iff_eq]
  split_ifs <;> rfl

/-- What is made of a name and a value once both are in their arrays. -/
def settle (attr value : Bytes) : Copying (Bool × M2MReportHandler F) := do
  let value ← string value
  if value.isEmpty then pure (false, h)
  else
    let (success, h) := h.setNamed attr value type
    if !isNumerical resourceType && (h.has gtFlag || h.has ltFlag || h.has stFlag) then
      pure (false, h)
    else pure (success, h)

theorem setNotificationAttribute_append (hname : equal ∉ name) :
    h.setNotificationAttribute (name ++ equal :: value) type resourceType =
      (do
        let attr ← memcpy (zeros optionSize) name
        let value ← memcpy (zeros optionSize) value
        h.settle type resourceType attr value) := by
  have htake : (name ++ equal :: value).take
      ((name ++ equal :: value).length - (equal :: value).length) = name := by
    rw [List.length_append, Nat.add_sub_cancel, List.take_left]
  rw [setNotificationAttribute, strchr_append hname]
  simp only [htake]
  rfl

theorem setNotificationAttribute_of_notMem (hoption : equal ∉ option) :
    h.setNotificationAttribute option type resourceType =
      (do
        let attr ← memcpy (zeros optionSize) (option ++ [0])
        h.settle type resourceType attr (zeros optionSize)) := by
  rw [setNotificationAttribute, strchr_of_notMem hoption]
  rfl

theorem contained_settle (attr : Bytes) :
    (h.settle type resourceType attr value).Contained := by
  cases hv : (string value).value with
  | none => exact (contained_bind_none hv _).mpr (contained_string value)
  | some text =>
    refine (contained_bind hv _).mpr ⟨contained_string value, ?_⟩
    dsimp only
    split_ifs <;> exact contained_pure _

theorem value_settle (hname : 0 ∉ name) (hvalue : 0 ∉ value) (hl : value.length < optionSize) :
    (h.settle type resourceType (name ++ zeros (optionSize - name.length))
      (value ++ zeros (optionSize - value.length))).value =
      some (h.adopt resourceType
        (if value = [] then none else Assignment.named name value type)) := by
  rw [settle, value_bind, value_string_zeros hvalue (by omega), Option.bind_some]
  by_cases hv : value = []
  · rw [if_pos hv, hv]
    rfl
  · rw [if_neg hv, if_neg (by simpa using hv), setNamed_eq h type hname]
    cases Assignment.named (F := F) name value type with
    | none =>
      dsimp only
      split_ifs <;> rfl
    | some a =>
      change (if !isNumerical resourceType && (h.assign a).watchesValue then
        pure (false, h.assign a) else pure (true, h.assign a) : Copying _).value = _
      cases hn : isNumerical resourceType <;> cases hw : (h.assign a).watchesValue <;>
        simp [adopt, hn, hw]

/-- One option. The function leaves C if the option has no room. -/
theorem value_setNotificationAttribute (hoption : 0 ∉ option) :
    (h.setNotificationAttribute option type resourceType).value =
      if HasRoom option then some (h.adopt resourceType (requested type option)) else none := by
  rcases strchr_cases option equal with ⟨hmem, -⟩ | ⟨name, value, hname, rfl, -⟩
  · rw [setNotificationAttribute_of_notMem h type resourceType hmem, value_bind,
      requested_of_notMem type hmem]
    by_cases hroom : HasRoom option
    · have hlength : (option ++ [0]).length ≤ optionSize := by
        have := (hasRoom_of_notMem hmem).mp hroom
        rw [List.length_append, List.length_singleton]
        omega
      rw [if_pos hroom, value_memcpy_zeros hlength, Option.bind_some, settle, value_bind]
      rfl
    · have hlength : optionSize < (option ++ [0]).length := by
        have := (hasRoom_of_notMem hmem).not.mp hroom
        rw [List.length_append, List.length_singleton]
        omega
      rw [if_neg hroom, value_memcpy_zeros_none hlength, Option.bind_none]
  · have hzero : 0 ∉ name ∧ 0 ∉ value := by
      rw [List.mem_append, List.mem_cons, not_or, not_or] at hoption
      exact ⟨hoption.1, hoption.2.2⟩
    rw [setNotificationAttribute_append h type resourceType hname, value_bind,
      requested_append type hname]
    by_cases hn : name.length ≤ optionSize
    · rw [value_memcpy_zeros hn, Option.bind_some, value_bind]
      by_cases hv : value.length < optionSize
      · rw [if_pos ((hasRoom_append hname value).mpr ⟨hn, hv⟩), value_memcpy_zeros hv.le,
          Option.bind_some, value_settle h type resourceType hzero.1 hzero.2 hv]
      · rw [if_neg (fun hroom => hv ((hasRoom_append hname value).mp hroom).2)]
        rcases (not_lt.mp hv).eq_or_lt with he | hlt
        · rw [value_memcpy_zeros he.ge, he, Nat.sub_self, Option.bind_some, settle, value_bind,
            zeros, List.replicate_zero, List.append_nil, value_string_none hzero.2,
            Option.bind_none]
        · rw [value_memcpy_zeros_none hlt, Option.bind_none]
    · rw [if_neg (fun hroom => hn ((hasRoom_append hname value).mp hroom).1),
        value_memcpy_zeros_none (not_le.mp hn), Option.bind_none]

theorem contained_setNotificationAttribute (hoption : 0 ∉ option) :
    (h.setNotificationAttribute option type resourceType).Contained ↔
      (nameOf option).length < optionSize ∧ (valueOf option).length < optionSize := by
  rcases strchr_cases option equal with ⟨hmem, -⟩ | ⟨name, value, hname, rfl, -⟩
  · have hcopy : (memcpy (zeros optionSize) (option ++ [0])).Contained ↔
        option.length < optionSize := by
      have hzero : (0 : UInt8) ∈ option ++ [0] := List.mem_append_right _ List.mem_cons_self
      rw [contained_memcpy, inside_zeros, terminated_zeros, List.length_append,
        List.length_singleton, Nat.succ_le_iff, and_iff_left (Or.inl hzero)]
    rw [setNotificationAttribute_of_notMem h type resourceType hmem, nameOf_of_notMem hmem,
      valueOf_of_notMem hmem, ← hcopy]
    cases hv : (memcpy (zeros optionSize) (option ++ [0])).value with
    | none => rw [contained_bind_none hv]; simp [optionSize]
    | some attr =>
      rw [contained_bind hv, and_iff_left (h.contained_settle type resourceType attr)]
      simp [optionSize]
  · have hcopy {text : Bytes} (ht : 0 ∉ text) :
        (memcpy (zeros optionSize) text).Contained ↔ text.length < optionSize := by
      rw [contained_memcpy, inside_zeros, terminated_zeros, or_iff_right ht,
        and_iff_right_of_imp Nat.le_of_lt]
    rw [List.mem_append, List.mem_cons, not_or, not_or] at hoption
    rw [setNotificationAttribute_append h type resourceType hname, nameOf_append hname,
      valueOf_append hname, ← hcopy hoption.1, ← hcopy hoption.2.2]
    by_cases hn : name.length ≤ optionSize
    · rw [contained_bind (value_memcpy_zeros hn)]
      refine and_congr_right fun _ => ?_
      by_cases hv : value.length ≤ optionSize
      · rw [contained_bind (value_memcpy_zeros hv),
          and_iff_left (h.contained_settle type resourceType _)]
      · rw [contained_bind_none (value_memcpy_zeros_none (not_le.mp hv))]
    · rw [contained_bind_none (value_memcpy_zeros_none (not_le.mp hn)), hcopy hoption.1,
        iff_self_and]
      omega

end M2MReportHandler
end MbedClient.Report
