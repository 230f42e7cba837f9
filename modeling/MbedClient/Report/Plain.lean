import MbedClient.Report.Runs

/-! What no change of a value touches, and which changes are sent at once when no write attribute
is set. -/
namespace MbedClient.Report.M2MReportHandler
variable {F : Type*} [CFloat F] (h : M2MReportHandler F)

def Passing (f : M2MReportHandler F → M2MReportHandler F × List Call) : Prop :=
  ∀ h, (f h).1.isUnderObservation = h.isUnderObservation ∧
    (f h).1.attributeState = h.attributeState

theorem report_passing : Passing (F := F) report := by
  intro h
  have hr := h.report_cases
  generalize h.report = r at hr ⊢
  cases hr <;> exact ⟨rfl, rfl⟩

theorem scheduleReport_passing : Passing (F := F) scheduleReport := by
  intro h
  obtain ⟨-, -, heq⟩ | ⟨-, heq⟩ := h.scheduleReport_cases <;> rw [heq]
  · exact ⟨rfl, rfl⟩
  · exact report_passing _

theorem setNotificationTrigger_passing (id : UInt16) :
    Passing (F := F) (·.setNotificationTrigger id) := fun _ => scheduleReport_passing _

theorem setValue_passing (value : F) : Passing (F := F) (·.setValue value) := by
  intro h
  have hw := h.setValue_cases value
  simp only
  generalize h.setValue value = r at hw ⊢
  cases hw with
  | same heq => exact ⟨rfl, rfl⟩
  | inRange hne hr high low => exact scheduleReport_passing { h with currentValue := value }
  | outOfRange hne hr high low => exact ⟨rfl, rfl⟩

theorem setUnderObservation_isUnderObservation (observed : Bool) :
    (h.setUnderObservation observed).1.isUnderObservation = observed := by
  cases observed with
  | false => rfl
  | true => exact congrArg isUnderObservation h.observed_eq

/-- Starting leaves the write attributes, stopping forgets them. -/
theorem setUnderObservation_attributeState (observed : Bool) :
    (h.setUnderObservation observed).1.attributeState =
      if observed then h.attributeState else 0 := by
  cases observed with
  | false => rfl
  | true =>
    have heq : h.observed.attributeState = h.unstarted.restarted.attributeState := by
      rw [observed_eq]
    exact heq

def Sends (calls : List Call) : Prop :=
  ∃ ids number sendObject, Call.observationToBeSent ids number sendObject ∈ calls

section Attributes
variable (ha : h.attributeState = 0)
include ha

theorem scheduleReport_sends (hv : CFloat.eq h.currentValue h.lastValue = false) :
    Sends h.scheduleReport.2 := by
  have hp : h.has pminFlag = false := by simp [has, ha, pminFlag]
  rw [scheduleReport_eq, if_pos (by simp [hp])]
  have hr := report_cases { h with notify := true }
  generalize report { h with notify := true } = r at hr
  cases hr with
  | value hne hn => exact ⟨_, _, _, List.mem_append_left _ List.mem_cons_self⟩
  | pmax hno hx => simp [hv] at hno
  | nothing hno hx => simp [hv] at hno

theorem setNotificationTrigger_sends (id : UInt16) : Sends (h.setNotificationTrigger id).2 := by
  refine scheduleReport_sends _ ?_ ?_
  · exact ha
  · exact CFloat.zero_ne_one

theorem setValue_sends_iff (value : F) :
    Sends (h.setValue value).2 ↔ CFloat.eq value h.lastValue = false := by
  have hw := h.setValue_cases value
  generalize h.setValue value = r at hw
  cases hw with
  | same heq => simp [Sends, heq]
  | inRange hne hr high low =>
    exact ⟨fun _ => hne, fun _ => scheduleReport_sends { h with currentValue := value } ha hne⟩
  | outOfRange hne hr high low =>
    have hf := flags_of_checkThresholdValues _ hr
    simp [has, ha, ltFlag, gtFlag, stFlag] at hf

end Attributes
end MbedClient.Report.M2MReportHandler
