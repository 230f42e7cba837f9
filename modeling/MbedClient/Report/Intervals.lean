import MbedClient.Report.Rejection
import MbedClient.Report.Runs

/-! The intervals that the timers of the handler are started with, after any queries that were
accepted. -/
namespace MbedClient.Report
open Observe (BaseType)

namespace Assignment
variable {F : Type}

def pmin? : Assignment F → Option Int32
  | .pmin v => some v
  | _ => none

def pmax? : Assignment F → Option Int32
  | .pmax v => some v
  | _ => none

end Assignment

/-- The last `pmin` and the last `pmax` that are asked for. -/
def lastPmin {F : Type} (asked : List (Assignment F)) : Option Int32 :=
  (asked.filterMap Assignment.pmin?).getLast?

def lastPmax {F : Type} (asked : List (Assignment F)) : Option Int32 :=
  (asked.filterMap Assignment.pmax?).getLast?

section Last
variable {F : Type} (asked : List (Assignment F)) (a : Assignment F)

theorem lastPmin_append : lastPmin (asked ++ [a]) = a.pmin?.or (lastPmin asked) := by
  cases a <;> simp [lastPmin, Assignment.pmin?, List.filterMap_append]

theorem lastPmax_append : lastPmax (asked ++ [a]) = a.pmax?.or (lastPmax asked) := by
  cases a <;> simp [lastPmax, Assignment.pmax?, List.filterMap_append]

end Last

namespace M2MReportHandler
variable {F : Type} [CFloatText F]

/-- Default attributes and those of accepted queries. What happens between two queries leaves them
alone. -/
inductive Accepted : List (Assignment F) → M2MReportHandler F → Prop where
  | default (h : M2MReportHandler F)
      (hdefault : h.attributes = ({} : M2MReportHandler F).attributes) : Accepted [] h
  | query {asked : List (Assignment F)} {h h' : M2MReportHandler F} (hacc : Accepted asked h)
      (query : CString) (type : BaseType) (resourceType : ResourceType)
      (hquery : (h.parseNotificationAttribute query.1 type resourceType).value = some (true, h')) :
      Accepted (asked ++ (considered query.1).filterMap (requested type)) h'
  | other {asked : List (Assignment F)} {h h' : M2MReportHandler F} (hacc : Accepted asked h)
      (hpmin : h'.pmin = h.pmin) (hpmax : h'.pmax = h.pmax)
      (hstate : h'.attributeState = h.attributeState) : Accepted asked h'

/-- An interval that is a number of seconds in milliseconds. -/
def Milliseconds (interval : UInt64) (seconds : Int32) : Prop :=
  0 ≤ seconds.toInt ∧ (interval.toNat : Int) = 1000 * seconds.toInt

/-- Every timer is started with the seconds that its attribute says, and the one of `pmin` only if
these are less than those of `pmax`. -/
structure SaneIntervals (h : M2MReportHandler F) : Prop where
  pmin (i : UInt64) (hstart : Call.startTimer .pMinTimer i ∈ h.handleTimers.2) :
    Milliseconds i h.pmin ∧ (h.has pmaxFlag = true → 0 < h.pmax → h.pmin < h.pmax)
  pmax (i : UInt64) (hstart : Call.startTimer .pMaxTimer i ∈ h.handleTimers.2) :
    Milliseconds i h.pmax

/-- What the handler knows of the queries. -/
structure Reflects (asked : List (Assignment F)) (h : M2MReportHandler F) : Prop where
  pmin : h.pmin = (lastPmin asked).getD 1
  pmax : h.pmax = (lastPmax asked).getD (-1)
  pminFlag : h.has pminFlag = (lastPmin asked).isSome

def Ordered (h : M2MReportHandler F) : Prop :=
  h.has Report.pmaxFlag = true → 0 < h.pmax → h.pmin ≤ h.pmax

section Accepted
variable {asked : List (Assignment F)} {h : M2MReportHandler F}

theorem Reflects.assign (hr : Reflects asked h) (a : Assignment F) :
    Reflects (asked ++ [a]) (h.assign a) := by
  cases a with
  | pmin v =>
    refine ⟨?_, ?_, ?_⟩
    · rw [lastPmin_append]; rfl
    · rw [lastPmax_append]; exact hr.pmax
    · rw [lastPmin_append]; exact h.assign_has_flag (a := .pmin v)
  | pmax v =>
    refine ⟨?_, ?_, ?_⟩
    · rw [lastPmin_append]; exact hr.pmin
    · rw [lastPmax_append]; rfl
    · rw [lastPmin_append, assign_has h (by simp only [Assignment.flag]; decide)]
      exact hr.pminFlag
  | gt v | lt v | st v =>
    refine ⟨?_, ?_, ?_⟩
    · rw [lastPmin_append]; exact hr.pmin
    · rw [lastPmax_append]; exact hr.pmax
    · rw [lastPmin_append, assign_has h (by simp only [Assignment.flag]; decide)]
      exact hr.pminFlag

theorem Reflects.assignAll (hr : Reflects asked h) (as : List (Assignment F)) :
    Reflects (asked ++ as) (h.assignAll as) := by
  induction as generalizing asked h with
  | nil =>
    rw [List.append_nil]
    exact hr
  | cons a as ih =>
    have hnext := ih (hr.assign a)
    rwa [List.append_assoc, List.singleton_append] at hnext

/-- What the options ask for, if all of them are known. -/
theorem filterMap_of_mapM {α β : Type*} {f : α → Option β} {l : List α} {as : List β}
    (h : l.mapM f = some as) : l.filterMap f = as := by
  induction l generalizing as with
  | nil => exact Option.some.inj h
  | cons x l ih =>
    rw [List.mapM_cons] at h
    obtain ⟨a, ha, h⟩ := Option.bind_eq_some_iff.mp h
    obtain ⟨as', has', hcons⟩ := Option.bind_eq_some_iff.mp h
    rw [List.filterMap_cons_some ha, ih has']
    exact Option.some.inj hcons

theorem ordered_of_checkAttributeValidity (hv : h.checkAttributeValidity = true) : Ordered h := by
  intro hflag hpos
  by_contra hlt
  have hlow : (-1 : Int32) ≤ h.pmax := by
    rw [Int32.le_iff_toInt_le]
    rw [Int32.lt_iff_toInt_lt] at hpos
    exact le_trans (by decide) hpos.le
  simp [checkAttributeValidity, hflag, hlow, hlt] at hv

theorem Accepted.reflects (hacc : Accepted asked h) : Reflects asked h ∧ Ordered h := by
  induction hacc with
  | default h hdefault =>
    simp only [attributes, Prod.mk.injEq] at hdefault
    obtain ⟨hpmin, hpmax, -, -, -, -, -, hstate⟩ := hdefault
    refine ⟨⟨hpmin, hpmax, ?_⟩, fun hflag => ?_⟩
    · rw [has, hstate]; rfl
    · rw [has, hstate] at hflag
      cases hflag
  | query hacc query type resourceType hquery ih =>
    obtain ⟨-, as, haccepts, hvalid, rfl⟩ := (accepted_iff _ type resourceType query _).mp hquery
    rw [filterMap_of_mapM haccepts.1]
    exact ⟨ih.1.assignAll as, ordered_of_checkAttributeValidity hvalid⟩
  | other hacc hpmin hpmax hstate ih =>
    refine ⟨⟨hpmin.trans ih.1.pmin, hpmax.trans ih.1.pmax, ?_⟩, ?_⟩
    · rw [has, hstate]; exact ih.1.pminFlag
    · rw [Ordered, has, hstate, hpmin, hpmax]; exact ih.2

end Accepted

/-- A number of seconds that is not negative is not wrapped around. -/
theorem milliseconds_interval {s : Int32} (hs : 0 ≤ s) : Milliseconds (interval s) s := by
  have hpos : 0 ≤ s.toInt := Int32.le_iff_toInt_le.mp hs
  have hlt : s.toInt < 2 ^ 31 := Int32.toInt_lt s
  have hclamp : s.toInt64.toUInt64.toNat = s.toInt.toNat := by
    rw [Int64.toNat_toUInt64_of_le, Int32.toNatClampNeg_toInt64]
    · rfl
    · rw [Int64.le_iff_toInt_le, Int32.toInt_toInt64]
      exact hpos
  refine ⟨hpos, ?_⟩
  have hthousand : (1000 : UInt64).toNat = 1000 := rfl
  rw [interval, UInt64.toNat_mul, hclamp, hthousand]
  omega

theorem startTimer_pmin_mem (h : M2MReportHandler F) {i : UInt64} :
    Call.startTimer .pMinTimer i ∈ h.handleTimers.2 ↔
      h.has pminFlag = true ∧ h.pmin ≠ h.pmax ∧ i = interval h.pmin := by
  rw [handleTimers_eq]
  simp only [timerCalls]
  split_ifs <;> simp_all [startsPmin]

theorem startTimer_pmax_mem (h : M2MReportHandler F) {i : UInt64} :
    Call.startTimer .pMaxTimer i ∈ h.handleTimers.2 ↔
      h.has pmaxFlag = true ∧ 0 < h.pmax ∧ i = interval h.pmax := by
  rw [handleTimers_eq]
  simp only [timerCalls]
  split_ifs <;> simp_all [startsPmax]

/-- The intervals are right exactly if the last `pmin` that was asked for is not negative, or is
the `pmax` too, so that its timer is not started. -/
theorem saneIntervals_iff {asked : List (Assignment F)} {h : M2MReportHandler F}
    (hacc : Accepted asked h) :
    h.SaneIntervals ↔
      ∀ v, lastPmin asked = some v → 0 ≤ v ∨ v = (lastPmax asked).getD (-1) := by
  obtain ⟨hr, hordered⟩ := hacc.reflects
  constructor
  · intro hsane v hv
    have hflag : h.has pminFlag = true := by
      rw [hr.pminFlag, hv]; rfl
    have hpmin : h.pmin = v := by
      rw [hr.pmin, hv]; rfl
    by_contra hnot
    rw [not_or, ← hr.pmax, ← hpmin] at hnot
    have hstart := (startTimer_pmin_mem h).mpr ⟨hflag, hnot.2, rfl⟩
    exact hnot.1 (Int32.le_iff_toInt_le.mpr (hsane.pmin _ hstart).1.1)
  · intro hasked
    refine ⟨fun i hstart => ?_, fun i hstart => ?_⟩
    · obtain ⟨hflag, hne, rfl⟩ := (startTimer_pmin_mem h).mp hstart
      rw [hr.pminFlag] at hflag
      obtain ⟨v, hv⟩ := Option.isSome_iff_exists.mp hflag
      have hpmin : h.pmin = v := by
        rw [hr.pmin, hv]; rfl
      have hpos : 0 ≤ h.pmin := by
        rcases hasked v hv with hv | hv
        · exact hpmin ▸ hv
        · exact absurd (hpmin.trans (hv.trans hr.pmax.symm)) hne
      refine ⟨milliseconds_interval hpos, fun hmax hpmax => ?_⟩
      exact Int32.lt_of_le_of_ne (hordered hmax hpmax) hne
    · obtain ⟨-, hpos, rfl⟩ := (startTimer_pmax_mem h).mp hstart
      exact milliseconds_interval (Int32.le_of_lt hpos)

/-- `pmin=10&pmax=60` on a new handler. -/
theorem saneIntervals_accepted :
    let h : M2MReportHandler Int := { pmin := 10, pmax := 60, attributeState := 6 }
    (({} : M2MReportHandler Int).parseNotificationAttribute
      (pminName ++ [equal, 0x31, 0x30, ampersand] ++ pmaxName ++ [equal, 0x36, 0x30])
      .resource .integer).value = some (true, h) ∧ h.SaneIntervals := by
  intro h
  have hquery : (({} : M2MReportHandler Int).parseNotificationAttribute
      (pminName ++ [equal, 0x31, 0x30, ampersand] ++ pmaxName ++ [equal, 0x36, 0x30])
      .resource .integer).value = some (true, h) := by
    decide +kernel
  have hacc := Accepted.query (.default ({} : M2MReportHandler Int) rfl)
    ⟨pminName ++ [equal, 0x31, 0x30, ampersand] ++ pmaxName ++ [equal, 0x36, 0x30],
      by decide +kernel⟩ .resource .integer hquery
  refine ⟨hquery, (saneIntervals_iff hacc).mpr fun v hv => ?_⟩
  have hten : v = 10 := Option.some.inj (hv.symm.trans (by decide +kernel))
  exact Or.inl (hten ▸ by decide)

/-- `pmin=-5` is accepted on a new handler and starts a timer for almost 2^64 milliseconds. -/
theorem negative_pmin_wraps :
    ∃ h : M2MReportHandler Int, (({} : M2MReportHandler Int).parseNotificationAttribute
        (pminName ++ [equal, 0x2D, 0x35]) .resource .integer).value = some (true, h) ∧
      Call.startTimer .pMinTimer (2 ^ 64 - 5000) ∈ h.handleTimers.2 ∧ ¬h.SaneIntervals := by
  refine ⟨_, rfl, by decide +kernel, fun hsane => ?_⟩
  exact absurd (hsane.pmin (2 ^ 64 - 5000) (by decide +kernel)).1.1 (by decide +kernel)

end M2MReportHandler
end MbedClient.Report
