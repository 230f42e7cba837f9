import MbedClient.Observe.Sound

/-! Who is notified of a change of a value: the resource, its parent resource, its object instance
and its object, each asked separately. -/
namespace MbedClient.Observe
open Report (CFloat Call)
open Report.M2MReportHandler (Sends)

def Entity.chain : Entity → List Entity
  | .resource i j k => [.resource i j k, .objectInstance i j, .object i]
  | .resourceInstance i j k n =>
    [.resourceInstance i j k n, .resource i j k, .objectInstance i j, .object i]
  | _ => []

inductive Change where
  | setValue (value : Bytes) (copied : Bool)
  | clearValue

def Change.event (c : Change) (e : Entity) (put : Entity → Bool) : Event :=
  match c with
  | setValue value copied => .setValue e value copied put
  | clearValue => .clearValue e put

namespace Client
variable {F : Type*} [CFloat F] (m : Client F) (t : ObjectList)
open ObjectList

def reports (e : Entity) : List Call :=
  m.log.filterMap fun o => match o with
    | .report b call => if b = e then some call else none
    | _ => none

def Notified (e : Entity) : Prop := Sends (m.reports e)

def attributeState (e : Entity) : UInt8 :=
  match m.reportHandler e with
  | none => 0
  | some h => h.attributeState

def lastValue (e : Entity) : F :=
  match m.reportHandler e with
  | none => CFloat.ofInt (-1)
  | some h => h.lastValue

section Reports

theorem reports_emit (o : Output) (b : Entity) :
    (m.emit o).reports b = m.reports b ++ match o with
      | .report e call => if e = b then [call] else []
      | _ => [] := by
  cases o with
  | report e call => by_cases h : e = b <;> simp [reports, h]
  | observationToBeSent | valueUpdated | resourceToBeDeleted => simp [reports]

theorem reports_observe (e b : Entity) (call : Call) :
    (m.observe e call).reports b = m.reports b ++ if e = b then [call] else [] := by
  cases call with
  | observationToBeSent ids number sendObject =>
    simp only [observe, observationToBeSent]
    split_ifs <;> simp_all [reports_emit]
  | startTimer | stopTimer => exact m.reports_emit _ b

theorem reports_observeAll (e b : Entity) (calls : List Call) :
    (calls.foldl (fun m call => m.observe e call) m).reports b =
      m.reports b ++ if e = b then calls else [] := by
  induction calls generalizing m with
  | nil => simp
  | cons call calls ih =>
    rw [List.foldl_cons, ih, reports_observe]
    split_ifs <;> simp

def callsOf (e : Entity)
    (f : Report.M2MReportHandler F → Report.M2MReportHandler F × List Call) : List Call :=
  match m.reportHandler e with
  | none => []
  | some h => (f h.toM2MReportHandler).2

theorem reports_onReportHandler (e b : Entity)
    (f : Report.M2MReportHandler F → Report.M2MReportHandler F × List Call) :
    (m.onReportHandler e f).reports b = m.reports b ++ if e = b then m.callsOf e f else [] := by
  unfold onReportHandler callsOf
  cases m.reportHandler e with
  | none => simp
  | some h => exact reports_observeAll (m.setReportHandler e _) e b _

theorem notified_onReportHandler (e b : Entity)
    (f : Report.M2MReportHandler F → Report.M2MReportHandler F × List Call) :
    (m.onReportHandler e f).Notified b ↔ m.Notified b ∨ b = e ∧ Sends (m.callsOf e f) := by
  unfold Notified
  rw [reports_onReportHandler]
  by_cases h : e = b
  · simp [h, Sends, exists_or]
  · simp [h, Ne.symm h]

end Reports

/-- An observation without write attributes. -/
def Plain (e : Entity) : Prop := m.isUnderObservation e = true → m.attributeState e = 0

section Calls
variable {m} {e : Entity}

theorem sends_trigger (hu : m.isUnderObservation e = true) (hp : m.Plain e) (id : UInt16) :
    Sends (m.callsOf e (·.setNotificationTrigger id)) := by
  have ha := hp hu
  unfold isUnderObservation at hu
  unfold attributeState at ha
  unfold callsOf
  cases h : m.reportHandler e with
  | none => simp [h] at hu
  | some r =>
    rw [h] at ha
    exact r.toM2MReportHandler.setNotificationTrigger_sends ha id

theorem sends_setValue (hu : m.isUnderObservation e = true) (hp : m.Plain e) (value : F) :
    Sends (m.callsOf e (·.setValue value)) ↔ CFloat.eq value (m.lastValue e) = false := by
  have ha := hp hu
  unfold isUnderObservation at hu
  unfold attributeState at ha
  unfold callsOf lastValue
  cases h : m.reportHandler e with
  | none => simp [h] at hu
  | some r =>
    rw [h] at ha
    exact r.toM2MReportHandler.setValue_sends_iff ha value

end Calls

section Report
variable {m t} {i j : Nat} {x : ObjectInstance} (hx : t.objectInstance? i j = some x)
  (ho : m.Plain (.object i)) (hi : m.Plain (.objectInstance i j))

theorem Plain.congr {m' : Client F} {e : Entity} (h : m.Plain e)
    (heq : m'.reportHandler e = m.reportHandler e) : m'.Plain e := by
  unfold Plain isUnderObservation attributeState at *
  rwa [heq]

include hx ho hi

theorem notified_notificationUpdate (level : Observation) (b : Entity) :
    (m.notificationUpdate t i j level).Notified b ↔ m.Notified b ∨
      (b = .object i ∧ level.o = true ∧ m.isUnderObservation b = true) ∨
      (b = .objectInstance i j ∧ level.oi = true ∧ m.isUnderObservation b = true) := by
  obtain ⟨m', hm'⟩ : ∃ m', m' = if level.o then m.objectNotificationUpdate i x.instanceId else m :=
    ⟨_, rfl⟩
  have hobject : m'.Notified b ↔ m.Notified b ∨
      (b = .object i ∧ level.o = true ∧ m.isUnderObservation b = true) := by
    rw [hm', objectNotificationUpdate]
    split_ifs with hl hu
    · rw [notified_onReportHandler]
      have hsend := sends_trigger hu ho x.instanceId
      constructor
      · rintro (h | ⟨rfl, -⟩)
        · exact Or.inl h
        · exact Or.inr ⟨rfl, hl, hu⟩
      · rintro (h | ⟨rfl, -, -⟩)
        · exact Or.inl h
        · exact Or.inr ⟨rfl, hsend⟩
    · refine (or_iff_left ?_).symm
      rintro ⟨rfl, -, h⟩
      exact hu h
    · refine (or_iff_left ?_).symm
      rintro ⟨-, h, -⟩
      exact hl h
  have hsame : m'.reportHandler (.objectInstance i j) = m.reportHandler (.objectInstance i j) := by
    rw [hm', objectNotificationUpdate]
    split_ifs <;> simp
  have hunder : m'.isUnderObservation (.objectInstance i j) =
      m.isUnderObservation (.objectInstance i j) := by
    rw [isUnderObservation, hsame, isUnderObservation]
  have heq : m.notificationUpdate t i j level =
      if level.oi && m'.isUnderObservation (.objectInstance i j) then
        m'.onReportHandler (.objectInstance i j) (·.setNotificationTrigger 0)
      else m' := by
    simp only [notificationUpdate, hx, hm']
  rw [heq]
  split_ifs with hc
  · rw [notified_onReportHandler, hobject, or_assoc]
    rw [Bool.and_eq_true] at hc
    have hsend := sends_trigger hc.2 (hi.congr hsame) 0
    refine or_congr_right (or_congr_right ⟨?_, ?_⟩)
    · rintro ⟨rfl, -⟩
      exact ⟨rfl, hc.1, hunder ▸ hc.2⟩
    · rintro ⟨rfl, -, -⟩
      exact ⟨rfl, hsend⟩
  · rw [hobject, ← or_assoc]
    refine (or_iff_left ?_).symm
    rintro ⟨rfl, hl, hu⟩
    exact hc (by rw [hl, hunder, hu]; rfl)

omit ho hi in
theorem notificationUpdate_reportHandler (level : Observation) {b : Entity} (hb : b ≠ .object i)
    (hb' : b ≠ .objectInstance i j) :
    (m.notificationUpdate t i j level).reportHandler b = m.reportHandler b := by
  simp only [notificationUpdate, hx, objectNotificationUpdate]
  split_ifs <;> simp [hb, hb']

theorem notified_reportInstance {e : Entity}
    (he : ∃ k, e = .resource i j k ∨ ∃ n, e = .resourceInstance i j k n) (b : Entity) :
    (m.reportInstance t e).Notified b ↔ m.Notified b ∨
      (b = .object i ∧ (m.combinedLevel e).o = true ∧ m.isUnderObservation b = true) ∨
      (b = .objectInstance i j ∧ (m.combinedLevel e).oi = true ∧
        m.isUnderObservation b = true) := by
  have heq : m.reportInstance t e =
      if (m.combinedLevel e).o || (m.combinedLevel e).oi then
        m.notificationUpdate t i j (m.combinedLevel e)
      else m := by
    obtain ⟨k, rfl | ⟨n, rfl⟩⟩ := he <;> rfl
  rw [heq]
  split_ifs with hl
  · exact notified_notificationUpdate hx ho hi _ b
  · simp only [Bool.or_eq_true, not_or] at hl
    simp [hl.1, hl.2]

omit ho hi in
theorem reportInstance_reportHandler {e b : Entity}
    (he : ∃ k, e = .resource i j k ∨ ∃ n, e = .resourceInstance i j k n) (hb : b ≠ .object i)
    (hb' : b ≠ .objectInstance i j) :
    (m.reportInstance t e).reportHandler b = m.reportHandler b := by
  obtain ⟨k, rfl | ⟨n, rfl⟩⟩ := he <;> simp only [reportInstance] <;> split_ifs <;>
    first | exact notificationUpdate_reportHandler hx _ hb hb' | rfl

end Report

section Resource
variable {m t} (atof : Bytes → F) (put : Entity → Bool) {p : ResourceParams} {e : Entity}

theorem notified_reportResource (hdyn : p.mode = .dynamic) (ownLevel level : Observation)
    (b : Entity) :
    (m.reportResource t atof put e p ownLevel level).Notified b ↔ m.Notified b ∨
      (level.r = true ∧ (p.resourceType ≠ .string ∧ ownLevel ≠ Observation.none) ∧
        t.isObservable e = true ∧ b = e ∧
        Sends (m.callsOf e (·.setValue (number atof (m.value e))))) ∨
      (level.r = true ∧ ¬(p.resourceType ≠ .string ∧ ownLevel ≠ Observation.none) ∧
        ∃ i j k n x, e = .resourceInstance i j k n ∧ t.objectInstance? i j = some x ∧
          t.isObservable (.resource i j k) = true ∧ b = .resource i j k ∧
          Sends (m.callsOf b (·.setNotificationTrigger x.instanceId))) := by
  unfold reportResource
  by_cases hl : level.r = true
  · rw [if_pos (by simp [hdyn, hl])]
    by_cases hown : p.resourceType ≠ .string ∧ ownLevel ≠ Observation.none
    · rw [if_pos (by simpa using hown)]
      by_cases hobs : t.isObservable e = true
      · simp [hobs, hl, hown, notified_onReportHandler]
      · simp [hobs, hown]
    · rw [if_neg (by simpa using hown)]
      simp only [hl, hown, true_and, false_and, not_false_iff, false_or]
      cases e with
      | resourceInstance i j k n =>
        simp only [Entity.resourceInstance.injEq]
        cases hx : t.objectInstance? i j with
        | none =>
          refine (or_iff_left ?_).symm
          rintro ⟨_, _, _, _, x, ⟨rfl, rfl, rfl, rfl⟩, hx', -⟩
          simp [hx] at hx'
        | some x =>
          by_cases hobs : t.isObservable (.resource i j k) = true
          · simp only [hobs, if_true, notified_onReportHandler]
            refine or_congr_right ⟨?_, ?_⟩
            · rintro ⟨rfl, hs⟩
              exact ⟨i, j, k, n, x, ⟨rfl, rfl, rfl, rfl⟩, hx, hobs, rfl, hs⟩
            · rintro ⟨_, _, _, _, y, ⟨rfl, rfl, rfl, rfl⟩, hy, -, rfl, hs⟩
              obtain rfl := Option.some.inj (hx.symm.trans hy)
              exact ⟨rfl, hs⟩
          · simp only [hobs]
            refine (or_iff_left ?_).symm
            rintro ⟨_, _, _, _, x, ⟨rfl, rfl, rfl, rfl⟩, -, h, -⟩
            exact hobs h
      | object | objectInstance | resource => simp
  · have hstatic : ¬(p.mode = .static ∧ m.observationHandler e.objectIndex = true) := by simp [hdyn]
    rw [if_neg (by simp [hl]), if_neg (by simpa using hstatic)]
    simp [hl]

/-- When `report` makes the report handler of an observed entity send a notification of the new
value. The resource is told itself, or else its parent resource. -/
def Hears (t : ObjectList) (atof : Bytes → F) (m : Client F) (e : Entity) (p : ResourceParams)
    (new : Bytes) (b : Entity) : Prop :=
  let itself := p.resourceType ≠ .string ∧ m.observationLevel e ≠ Observation.none
  match b.baseType with
  | .object => (m.combinedLevel e).o = true
  | .objectInstance => (m.combinedLevel e).oi = true
  | .resource | .resourceInstance => (m.combinedLevel e).r = true ∧
    if b = e then itself ∧ CFloat.eq (number atof new) (m.lastValue e) = false
    else ¬itself ∧ t.isObservable b = true

theorem objectInstance?_of_params (hp : t.resourceParams? e = some p) :
    ∃ i j x, t.objectInstance? i j = some x ∧
      ∃ k, e = .resource i j k ∨ ∃ n, e = .resourceInstance i j k n := by
  cases e with
  | object | objectInstance => simp [resourceParams?] at hp
  | resource i j k =>
    obtain ⟨r, hr, -⟩ := Option.map_eq_some_iff.mp hp
    obtain ⟨x, hx, -⟩ := Option.bind_eq_some_iff.mp hr
    exact ⟨i, j, x, hx, k, Or.inl rfl⟩
  | resourceInstance i j k n =>
    obtain ⟨r, hr, -⟩ := Option.bind_eq_some_iff.mp hp
    obtain ⟨x, hx, -⟩ := Option.bind_eq_some_iff.mp hr
    exact ⟨i, j, x, hx, k, Or.inr ⟨n, rfl⟩⟩

theorem isObservable_of_params (hp : t.resourceParams? e = some p) :
    t.isObservable e = p.isObservable := by
  unfold isObservable
  cases e with
  | object | objectInstance => simp [resourceParams?] at hp
  | resource i j k =>
    obtain ⟨r, hr, rfl⟩ := Option.map_eq_some_iff.mp hp
    simp [params?, hr]
  | resourceInstance i j k n =>
    have hr : t.resourceInstance? i j k n = some p := hp
    simp [params?, hr]

theorem reportInstance_value : (m.reportInstance t e).value = m.value := by
  unfold reportInstance
  split <;> simp only [notificationUpdate, objectNotificationUpdate] <;> split_ifs <;>
    (try split) <;> simp

theorem callsOf_congr {m' : Client F} {b : Entity} (h : m'.reportHandler b = m.reportHandler b)
    (f : Report.M2MReportHandler F → Report.M2MReportHandler F × List Call) :
    m'.callsOf b f = m.callsOf b f := by
  unfold callsOf
  rw [h]

theorem notified_report (hp : t.resourceParams? e = some p) (hdyn : p.mode = .dynamic)
    (hobs : p.isObservable = true) (hplain : ∀ b ∈ e.chain, m.Plain b) (hnew : m.log = [])
    {b : Entity} (hb : b ∈ e.chain) (hu : m.isUnderObservation b = true) :
    (m.report t atof put e).Notified b ↔ m.Hears t atof e p (m.value e) b := by
  have hno : ¬m.Notified b := by simp [Notified, reports, hnew, Sends]
  obtain ⟨i, j, x, hx, he⟩ := objectInstance?_of_params hp
  have ho : m.Plain (.object i) :=
    hplain _ (by obtain ⟨k, rfl | ⟨n, rfl⟩⟩ := he <;> simp [Entity.chain])
  have hi : m.Plain (.objectInstance i j) :=
    hplain _ (by obtain ⟨k, rfl | ⟨n, rfl⟩⟩ := he <;> simp [Entity.chain])
  have hpe := isObservable_of_params hp
  simp only [report, hp]
  rw [notified_reportResource atof put hdyn, notified_reportInstance hx ho hi he,
    reportInstance_value]
  have hcalls (hbo : b ≠ .object i) (hbi : b ≠ .objectInstance i j)
      (f : Report.M2MReportHandler F → Report.M2MReportHandler F × List Call) :
      (m.reportInstance t e).callsOf b f = m.callsOf b f :=
    callsOf_congr (reportInstance_reportHandler hx he hbo hbi) f
  have hvalue := sends_setValue hu (hplain b hb) (number atof (m.value e))
  have htrigger := sends_trigger hu (hplain b hb) x.instanceId
  obtain ⟨k, rfl | ⟨n, rfl⟩⟩ := he
  · simp only [Entity.chain, List.mem_cons, List.not_mem_nil, or_false] at hb
    rcases hb with rfl | rfl | rfl
    · simp [Hears, Entity.baseType, hno, hpe, hobs, hcalls, hvalue, and_assoc]
    · simp [Hears, Entity.baseType, hno, hu]
    · simp [Hears, Entity.baseType, hno, hu]
  · simp only [Entity.chain, List.mem_cons, List.not_mem_nil, or_false] at hb
    rcases hb with rfl | rfl | rfl | rfl
    · simp [Hears, Entity.baseType, hno, hpe, hobs, hcalls, hvalue, and_assoc]
    · simp [Hears, Entity.baseType, hno, hcalls, htrigger, hx]
    · simp [Hears, Entity.baseType, hno, hu]
    · simp [Hears, Entity.baseType, hno, hu]

end Resource

/-- When a change makes the report handler of an observed entity send a notification of it. A new
string is told to nobody but the resource itself. -/
def Reaches (t : ObjectList) (atof : Bytes → F) (m : Client F) (e : Entity) (p : ResourceParams)
    (c : Change) (b : Entity) : Prop :=
  match c with
  | .setValue value copied =>
    copied = true ∧ if p.resourceType = .string then b = e else m.Hears t atof e p value b
  | .clearValue => m.Hears t atof e p [] b

section Change
variable {m t} {e : Entity} {p : ResourceParams} (hp : t.resourceParams? e = some p)
  (hdyn : p.mode = .dynamic) (hobs : p.isObservable = true)
  (hplain : ∀ b ∈ e.chain, m.Plain b) (atof : Bytes → F) (c : Change) (put : Entity → Bool)
include hp hdyn hobs hplain

theorem notified_change {b : Entity} (hb : b ∈ e.chain) (hu : m.isUnderObservation b = true)
    (hc : (Client.step t atof (c.event e put) m).value e ≠ m.value e) :
    (Client.step t atof (c.event e put) m).Notified b ↔ m.Reaches t atof e p c b := by
  have hno : ¬({ m with log := [] } : Client F).Notified b := by simp [Notified, reports, Sends]
  have hreport (value : Bytes) :
      ((({ m with log := [] } : Client F).store e value).report t atof put e).Notified b ↔
        m.Hears t atof e p value b := by
    have h := notified_report (m := ({ m with log := [] } : Client F).store e value)
      atof put hp hdyn hobs hplain rfl hb hu
    have hv : (({ m with log := [] } : Client F).store e value).value e = value :=
      Function.update_self ..
    rw [hv] at h
    exact h
  cases c with
  | clearValue => exact hreport []
  | setValue value copied =>
    have hstep : Client.step t atof ((Change.setValue value copied).event e put) m =
        ({ m with log := [] } : Client F).setValue t atof put e value copied := rfl
    rw [hstep] at hc ⊢
    simp only [Client.setValue, hp] at hc ⊢
    by_cases hlen : 0 < value.length
    · cases copied with
      | false => simp [hlen, Reaches, Notified, reports, Sends, store]
      | true =>
        have hchanged : (value != m.value e) = true := by
          by_contra h
          simp only [bne_iff_ne, ne_eq, not_not] at h
          simp [h, store] at hc
        simp only [hlen, hchanged, if_true, Reaches, true_and]
        split_ifs with hstring hue
        · have htrigger := sends_trigger (m := ({ m with log := [] } : Client F).store e value)
            hue (hplain e (by cases e <;> simp_all [Entity.chain, ObjectList.resourceParams?])) 0
          rw [notified_onReportHandler]
          exact ⟨fun h => (h.resolve_left hno).1, fun h => Or.inr ⟨h, htrigger⟩⟩
        · refine iff_of_false hno ?_
          rintro rfl
          exact hue hu
        · exact hreport value
    · simp [hlen] at hc

/-- Every observed entity that a value lies in is notified of a change, exactly if the change
reaches every one of them. -/
theorem change_notified_iff
    (hc : (Client.step t atof (c.event e put) m).value e ≠ m.value e) :
    (∀ b ∈ e.chain, m.isUnderObservation b = true →
        (Client.step t atof (c.event e put) m).Notified b) ↔
      ∀ b ∈ e.chain, m.isUnderObservation b = true → m.Reaches t atof e p c b :=
  forall₂_congr fun _ hb => forall_congr' fun hu =>
    notified_change hp hdyn hobs hplain atof c put hb hu hc

end Change

/-- The object is observed, and a string in it changes. -/
def watched : Client Int :=
  Trace.fold (Client.step device atoll) [.get (.served [51] 0 [1])] (fresh fun _ => [])

instance (m : Client F) (e : Entity) : Decidable (m.Plain e) := inferInstanceAs (Decidable (_ → _))

theorem change_notified_iff_watched :
    (∀ b ∈ (Entity.resource 0 0 1).chain, watched.isUnderObservation b = true →
        (Client.step device atoll
          ((Change.setValue [53] true).event (.resource 0 0 1) fun _ => true) watched).Notified b) ↔
      ∀ b ∈ (Entity.resource 0 0 1).chain, watched.isUnderObservation b = true →
        watched.Reaches device atoll (.resource 0 0 1)
          ((device.resourceParams? (.resource 0 0 1)).get (by decide)) (.setValue [53] true) b :=
  change_notified_iff (Option.some_get _).symm rfl rfl (by decide +kernel) atoll _ _
    (by decide +kernel)

theorem string_unnoticed :
    let m := Client.step device atoll
      ((Change.setValue [65] true).event (.resource 0 0 0) fun _ => true) watched
    device.isObservable (.resource 0 0 0) = true ∧
      (device.resourceParams? (.resource 0 0 0)).map (·.mode) = some .dynamic ∧
      watched.isUnderObservation (.object 0) = true ∧ watched.attributeState (.object 0) = 0 ∧
      m.value (.resource 0 0 0) ≠ watched.value (.resource 0 0 0) ∧ ¬m.Notified (.object 0) := by
  refine ⟨by decide, by decide, by decide +kernel, by decide +kernel, by decide +kernel, ?_⟩
  have hnone : (Client.step device atoll
      ((Change.setValue [65] true).event (.resource 0 0 0) fun _ => true) watched).reports
        (.object 0) = [] := by decide +kernel
  rw [Notified, hnone]
  simp [Sends]

end Client
end MbedClient.Observe
