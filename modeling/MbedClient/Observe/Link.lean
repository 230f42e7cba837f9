import MbedClient.Observe.Happening
import MbedClient.Observe.Rendering
import MbedClient.Replica

/-! What a step of the client leaves to be sent about an observed object. A server's copy of the
object is right under every id about which nothing is pending. -/
namespace MbedClient.Observe
open Report (CFloat CFloatText Call ChangedIds Carried Delivered Due)
open Nsdl (Labels ServerCopy)
open Replica (Link)

/-- An object of a tree, and how it is sent. -/
structure View where
  tree : ObjectList
  object : Nat
  names : Names
  labels : Labels
  commonWrite64Bit : UInt64 → Vector UInt8 8

/-- What leaves the tree when a report handler calls its observer. -/
def outputs (e : Entity) (handled : Bool) (call : Call) : List Output :=
  match call with
  | .observationToBeSent ids number whole =>
    .report e call :: if handled then [.observationToBeSent e ids number whole] else []
  | _ => [.report e call]

namespace Client
variable {F : Type*} [CFloat F] {m : Client F} {e : Entity}

theorem observe_log (call : Call) :
    (m.observe e call).log = m.log ++ outputs e (m.observationHandler e.objectIndex) call := by
  cases call with
  | observationToBeSent ids number whole =>
    have hemit (o : Output) : (m.emit o).observationHandler e.objectIndex =
        m.observationHandler e.objectIndex := rfl
    cases hhandled : m.observationHandler e.objectIndex with
    | true =>
      rw [observe, observationToBeSent, if_pos ((hemit _).trans hhandled), outputs, if_pos rfl]
      exact List.append_assoc _ _ _
    | false =>
      have hno : (m.emit (.report e (.observationToBeSent ids number whole))).observationHandler
          e.objectIndex ≠ true := by
        rw [hemit, hhandled]
        exact Bool.false_ne_true
      rw [observe, observationToBeSent, if_neg hno, outputs, if_neg Bool.false_ne_true]
      rfl
  | startTimer | stopTimer => rfl

theorem observeAll_log (calls : List Call) :
    (calls.foldl (fun m call => m.observe e call) m).log =
      m.log ++ calls.flatMap (outputs e (m.observationHandler e.objectIndex)) := by
  induction calls generalizing m with
  | nil => exact (List.append_nil _).symm
  | cons call calls ih =>
    rw [List.foldl_cons, ih, observe_log, (SameMemory.observe e call).observationHandler,
      List.flatMap_cons, List.append_assoc]

theorem onReportHandler_log {h : ReportHandler F} (hh : m.reportHandler e = some h)
    (f : Report.M2MReportHandler F → Report.M2MReportHandler F × List Call) :
    (m.onReportHandler e f).log = m.log ++ (f h.toM2MReportHandler).2.flatMap
      (outputs e (m.observationHandler e.objectIndex)) := by
  simp only [onReportHandler, hh]
  exact observeAll_log (m := m.setReportHandler e _) _

theorem onReportHandler_none (hh : m.reportHandler e = none)
    (f : Report.M2MReportHandler F → Report.M2MReportHandler F × List Call) :
    m.onReportHandler e f = m := by
  simp only [onReportHandler, hh]

end Client

section Outputs
variable {commonWrite64Bit : UInt64 → Vector UInt8 8} {labels : Labels} {i : Nat} {obj : M2MObject}

def Mentions (id : UInt16) (calls : List Call) : Prop :=
  ∃ ids number whole, Call.observationToBeSent ids number whole ∈ calls ∧
    (whole = true ∨ id ∈ ids.1)

theorem Mentions.of_delivered {id : UInt16} {calls : List Call} (h : Delivered id calls) :
    Mentions id calls := by
  obtain ⟨ids, number, whole, hmem, hid, -⟩ := h
  exact ⟨ids, number, whole, hmem, .inr hid⟩

theorem receive_outputs_other {e : Entity} (he : e ≠ .object i) (handled : Bool) (calls : List Call)
    (copy : ServerCopy) :
    receive commonWrite64Bit labels i obj (calls.flatMap (outputs e handled)) copy = copy := by
  induction calls with
  | nil => rfl
  | cons call calls ih =>
    have hone : receive commonWrite64Bit labels i obj (outputs e handled call) copy = copy := by
      cases call with
      | observationToBeSent ids number whole =>
        cases handled with
        | true => exact deliver_other he copy ids number whole
        | false => rfl
      | startTimer | stopTimer => rfl
    rw [List.flatMap_cons, receive_append, hone, ih]

/-- A server that hears the calls knows what they mention, and all else as before. -/
theorem receive_outputs (h : Encodable commonWrite64Bit obj) (calls : List Call) (copy : ServerCopy)
    (id : UInt16) :
    let copy' :=
      receive commonWrite64Bit labels i obj (calls.flatMap (outputs (.object i) true)) copy
    (Mentions id calls ∧ (obj.objectInstance id).isSome = true →
      copy' id = known commonWrite64Bit obj id) ∧
    (¬(Mentions id calls ∧ (obj.objectInstance id).isSome = true) → copy' id = copy id) := by
  induction calls generalizing copy with
  | nil =>
    refine ⟨fun hid => ?_, fun _ => rfl⟩
    obtain ⟨⟨ids, number, whole, hmem, -⟩, -⟩ := hid
    exact absurd hmem List.not_mem_nil
  | cons call calls ih =>
    dsimp only
    rw [List.flatMap_cons, receive_append]
    obtain ⟨hmentioned, hrest⟩ :=
      ih (receive commonWrite64Bit labels i obj (outputs (.object i) true call) copy)
    by_cases hlater : Mentions id calls ∧ (obj.objectInstance id).isSome = true
    · refine ⟨fun _ => hmentioned hlater, fun hno => absurd ⟨?_, hlater.2⟩ hno⟩
      obtain ⟨ids, number, whole, hmem, hid⟩ := hlater.1
      exact ⟨ids, number, whole, List.mem_cons_of_mem _ hmem, hid⟩
    rw [hrest hlater]
    have hsplit : Mentions id (call :: calls) ∧ (obj.objectInstance id).isSome = true ↔
        ∃ ids number whole, call = .observationToBeSent ids number whole ∧
          (whole = true ∨ id ∈ ids.1) ∧ (obj.objectInstance id).isSome = true := by
      constructor
      · intro hid
        obtain ⟨⟨ids, number, whole, hmem, hnamed⟩, hsome⟩ := hid
        obtain hcall | hmem := List.mem_cons.mp hmem
        · exact ⟨ids, number, whole, hcall.symm, hnamed, hsome⟩
        · exact absurd ⟨⟨ids, number, whole, hmem, hnamed⟩, hsome⟩ hlater
      · intro hcall
        obtain ⟨ids, number, whole, rfl, hnamed, hsome⟩ := hcall
        exact ⟨⟨ids, number, whole, List.mem_cons_self, hnamed⟩, hsome⟩
    rw [hsplit]
    cases call with
    | observationToBeSent ids number whole =>
      have hread : receive commonWrite64Bit labels i obj
          (outputs (.object i) true (.observationToBeSent ids number whole)) copy id =
          if (whole = true ∨ id ∈ ids.1) ∧ (obj.objectInstance id).isSome = true then
            known commonWrite64Bit obj id else copy id :=
        deliver_eq h copy ids number whole id
      rw [hread]
      constructor
      · intro hcall
        obtain ⟨ids', number', whole', hcall, hnamed, hsome⟩ := hcall
        cases hcall
        rw [if_pos ⟨hnamed, hsome⟩]
      · intro hno
        rw [if_neg fun hid => hno ⟨ids, number, whole, rfl, hid.1, hid.2⟩]
    | startTimer | stopTimer =>
      refine ⟨fun hcall => ?_, fun _ => rfl⟩
      obtain ⟨ids', number', whole', hcall, -, -⟩ := hcall
      cases hcall

end Outputs

namespace View
variable {F : Type} [CFloatText F] (v : View) (m : Client F)

def entity : Entity := .object v.object

def shown : M2MObject := v.tree.shown v.names v.object m.value

def Encodable : Prop := Observe.Encodable v.commonWrite64Bit (v.shown m)

def known : ServerCopy := Observe.known v.commonWrite64Bit (v.shown m)

def received (copy : ServerCopy) : ServerCopy :=
  receive v.commonWrite64Bit v.labels v.object (v.shown m) m.log copy

/-- The ids of the changed instances that the report handler of the object has collected. -/
def collected : List UInt16 :=
  match m.reportHandler v.entity with
  | none => []
  | some h => h.changedInstanceIds.1

def pending : Set UInt16 := { id | id ∈ v.collected m ∧ id ∈ v.tree.instanceIds v.object }

def link (copy : ServerCopy) : Link UInt16 (Option (List (Tlv.Path × Bytes))) :=
  ⟨v.known m, v.received m copy, v.pending m⟩

variable {m} {v}

theorem collected_of_some {h : ReportHandler F} (hh : m.reportHandler v.entity = some h) :
    v.collected m = h.changedInstanceIds.1 := by
  rw [collected, hh]

theorem isSome_iff {id : UInt16} :
    ((v.shown m).objectInstance id).isSome = true ↔ id ∈ v.tree.instanceIds v.object :=
  ObjectList.objectInstance_isSome v.names

/-- A call of the report handler sends or keeps what was to be sent. -/
theorem call_advances {f : Report.M2MReportHandler F → Report.M2MReportHandler F × List Call}
    {h : ReportHandler F} (hh : m.reportHandler v.entity = some h)
    (hhandled : m.observationHandler v.object = true) (henc : v.Encodable m) {p : Set UInt16}
    (hp : ∀ id ∈ p, id ∈ v.tree.instanceIds v.object ∧ Carried id (f h.toM2MReportHandler))
    (copy : ServerCopy) :
    ({ v.link m copy with pending := p } : Link _ _).Advances
      (v.link (m.onReportHandler v.entity f) copy) := by
  have hread := fun id => @receive_outputs v.commonWrite64Bit v.labels v.object _ henc
    (f h.toM2MReportHandler).2 (v.received m copy) id
  have hlink : v.link (m.onReportHandler v.entity f) copy =
      { v.link m copy with
        copy := receive v.commonWrite64Bit v.labels v.object (v.shown m)
          ((f h.toM2MReportHandler).2.flatMap (outputs v.entity true)) (v.received m copy)
        pending := v.pending (m.onReportHandler v.entity f) } := by
    have hobject : v.entity.objectIndex = v.object := rfl
    have hlog := Client.onReportHandler_log hh f
    rw [hobject, hhandled] at hlog
    simp only [link, known, received, shown, Client.onReportHandler_value, hlog, receive_append]
  rw [hlink]
  let sent := { id | Mentions id (f h.toM2MReportHandler).2 ∧
    ((v.shown m).objectInstance id).isSome = true }
  refine @Link.Advances.send _ _ _ _ sent _ (fun id hid => ?_) (fun id hid => ?_)
    fun id hid => ?_
  · obtain ⟨hplaced, hcarried⟩ := hp id hid
    obtain hkept | hsent := hcarried
    · refine .inr ⟨?_, hplaced⟩
      have hnew : (m.onReportHandler v.entity f).reportHandler v.entity =
          some (Client.called f h) := by
        rw [Client.onReportHandler_reportHandler, Function.update_self, hh, Option.map_some]
      rw [collected_of_some hnew]
      exact hkept
    · exact .inl ⟨Mentions.of_delivered hsent, isSome_iff.mpr hplaced⟩
  · exact (hread id).1 hid
  · exact (hread id).2 hid

/-- A step that changes nothing that is shown, and loses nothing that is to be sent. -/
structure Carries (v : View) (m m' : Client F) : Prop where
  shown : v.shown m' = v.shown m
  handled : m.observationHandler v.object = true → m'.observationHandler v.object = true
  under : m'.isUnderObservation v.entity = true → m.isUnderObservation v.entity = true
  level : (m.observationLevel v.entity).o = true → (m'.observationLevel v.entity).o = true
  advances : v.Encodable m → m.observationHandler v.object = true → ∀ copy,
    (v.link m copy).Advances (v.link m' copy)

namespace Carries
variable {m' m'' : Client F}

theorem refl (m : Client F) : v.Carries m m :=
  ⟨rfl, id, id, id, fun _ _ _ => Link.Advances.refl _⟩

theorem trans (h : v.Carries m m') (h' : v.Carries m' m'') : v.Carries m m'' := by
  refine ⟨h'.shown.trans h.shown, fun hh => h'.handled (h.handled hh),
    fun hu => h.under (h'.under hu), fun hl => h'.level (h.level hl), fun henc hh copy => ?_⟩
  have henc' : v.Encodable m' := by
    rw [Encodable, h.shown]
    exact henc
  exact (h.advances henc hh copy).trans (h'.advances henc' (h.handled hh) copy)

theorem ite {c : Prop} [Decidable c] (h : v.Carries m m') (h' : v.Carries m m'') :
    v.Carries m (if c then m' else m'') := by
  split_ifs
  · exact h
  · exact h'

theorem foldl {f : Client F → Entity → Client F} {es : List Entity}
    (hf : ∀ m, ∀ e ∈ es, v.Carries m (f m e)) (m : Client F) : v.Carries m (es.foldl f m) := by
  induction es generalizing m with
  | nil => exact refl m
  | cons e es ih =>
    exact (hf m e List.mem_cons_self).trans
      (ih (fun m e he => hf m e (List.mem_cons_of_mem _ he)) _)

/-- Nothing that concerns the object. -/
theorem of_frame (hshown : v.shown m' = v.shown m)
    (hreport : m'.reportHandler v.entity = m.reportHandler v.entity)
    (hhandled : m.observationHandler v.object = true → m'.observationHandler v.object = true)
    (hlog : ∀ copy, receive v.commonWrite64Bit v.labels v.object (v.shown m) m'.log copy =
      v.received m copy) : v.Carries m m' := by
  refine ⟨hshown, hhandled, fun hu => ?_, fun hl => ?_, fun _ _ copy => ?_⟩
  · rwa [Client.isUnderObservation, hreport] at hu
  · rwa [Client.observationLevel, hreport]
  · have hlink : v.link m' copy = v.link m copy := by
      simp only [link, known, received, pending, collected, hshown, hreport, hlog]
    rw [hlink]
    exact Link.Advances.refl _

theorem updated (e : Entity) : v.Carries m (m.emit (.valueUpdated e)) :=
  of_frame rfl rfl id fun copy => receive_append m.log [.valueUpdated e] copy

theorem setObservationHandler {e : Entity} {handler : Bool}
    (he : handler = true ∨ e.objectIndex ≠ v.object) :
    v.Carries m (m.setObservationHandler e handler) := by
  refine of_frame rfl rfl (fun hh => ?_) fun _ => rfl
  rw [Client.setObservationHandler_observationHandler]
  by_cases hobject : v.object = e.objectIndex
  · rw [hobject, Function.update_self]
    exact he.resolve_right fun hne => hne hobject.symm
  · rwa [Function.update_of_ne hobject]

theorem setReportHandler {e : Entity} (he : e ≠ v.entity) (h : Option (ReportHandler F)) :
    v.Carries m (m.setReportHandler e h) :=
  of_frame rfl (Function.update_of_ne (Ne.symm he) _ _) id fun _ => rfl

/-- A change of a handler that passes the report handler proper by. -/
theorem map (e : Entity) {g : ReportHandler F → ReportHandler F}
    (hg : ∀ h, (g h).toM2MReportHandler = h.toM2MReportHandler)
    (hlevel : ∀ h, h.observationLevel.o = true → (g h).observationLevel.o = true) :
    v.Carries m (m.setReportHandler e ((m.reportHandler e).map g)) := by
  by_cases he : e = v.entity
  · have hnew : (m.setReportHandler e ((m.reportHandler e).map g)).reportHandler v.entity =
        (m.reportHandler v.entity).map g := by
      rw [he, Client.setReportHandler_reportHandler, Function.update_self]
    refine ⟨rfl, id, fun hu => ?_, fun hl => ?_, fun _ _ copy => ?_⟩
    · rw [Client.isUnderObservation, hnew] at hu
      rw [Client.isUnderObservation]
      cases hh : m.reportHandler v.entity with
      | none =>
        rw [hh] at hu
        cases hu
      | some h =>
        rw [hh] at hu
        dsimp only [Option.map_some] at hu ⊢
        rwa [hg] at hu
    · rw [Client.observationLevel, hnew]
      rw [Client.observationLevel] at hl
      cases hh : m.reportHandler v.entity with
      | none =>
        rw [hh] at hl
        cases hl
      | some h =>
        rw [hh] at hl
        exact hlevel h hl
    · have hids : v.collected (m.setReportHandler e ((m.reportHandler e).map g)) =
          v.collected m := by
        rw [collected, collected, hnew]
        cases m.reportHandler v.entity with
        | none => rfl
        | some h => exact congrArg (·.changedInstanceIds.1) (hg h)
      have hlink : v.link (m.setReportHandler e ((m.reportHandler e).map g)) copy =
          v.link m copy := by
        simp only [link, pending, hids]
        rfl
      rw [hlink]
      exact Link.Advances.refl _
  · exact setReportHandler he _

theorem call_other {e : Entity} (he : e ≠ v.entity)
    (f : Report.M2MReportHandler F → Report.M2MReportHandler F × List Call) :
    v.Carries m (m.onReportHandler e f) := by
  cases hh : m.reportHandler e with
  | none =>
    rw [Client.onReportHandler_none hh]
    exact refl m
  | some h =>
    refine of_frame ?_ ?_ ?_ fun copy => ?_
    · rw [View.shown, Client.onReportHandler_value, View.shown]
    · rw [Client.onReportHandler_reportHandler, Function.update_of_ne (Ne.symm he)]
    · rw [Client.onReportHandler_observationHandler]
      exact id
    · rw [Client.onReportHandler_log hh, receive_append, receive_outputs_other he, received]

theorem call_self {f : Report.M2MReportHandler F → Report.M2MReportHandler F × List Call}
    (hf : ∀ h, m.reportHandler v.entity = some h →
      (f h.toM2MReportHandler).1.isUnderObservation = h.isUnderObservation ∧
      ∀ id ∈ h.changedInstanceIds.1, Carried id (f h.toM2MReportHandler)) :
    v.Carries m (m.onReportHandler v.entity f) := by
  cases hh : m.reportHandler v.entity with
  | none =>
    rw [Client.onReportHandler_none hh]
    exact refl m
  | some h =>
    obtain ⟨hunder, hcarried⟩ := hf h hh
    have hnew : (m.onReportHandler v.entity f).reportHandler v.entity =
        some (Client.called f h) := by
      rw [Client.onReportHandler_reportHandler, Function.update_self, hh, Option.map_some]
    refine ⟨?_, ?_, fun hu => ?_, fun hl => ?_, fun henc hhandled copy => ?_⟩
    · rw [View.shown, Client.onReportHandler_value, View.shown]
    · rw [Client.onReportHandler_observationHandler]
      exact id
    · rw [Client.isUnderObservation, hnew] at hu
      rw [Client.isUnderObservation, hh]
      exact hunder.symm.trans hu
    · rw [Client.observationLevel, hh] at hl
      rw [Client.observationLevel, hnew]
      exact hl
    · refine call_advances (p := v.pending m) hh hhandled henc (fun id hid => ⟨hid.2, ?_⟩) copy
      refine hcarried id ?_
      rw [← collected_of_some hh]
      exact hid.1

theorem trigger (e : Entity) (id : UInt16) :
    v.Carries m (m.onReportHandler e (·.setNotificationTrigger id)) := by
  by_cases he : e = v.entity
  · subst he
    exact call_self fun h _ => ⟨(Report.M2MReportHandler.setNotificationTrigger_passing id _).1,
      fun _ hid => Carried.trigger hid id⟩
  · exact call_other he _

theorem timerExpired (e : Entity) (type : M2MTimerObserver) :
    v.Carries m (m.onReportHandler e (·.occur (.timerExpired type))) := by
  by_cases he : e = v.entity
  · subst he
    exact call_self fun h _ => ⟨(Report.M2MReportHandler.timerExpired_passing type _).1,
      fun _ hid => Carried.timerExpired hid type⟩
  · exact call_other he _

theorem moves (h : Client.Moves m m') : v.Carries m m' := by
  refine h.invariant (I := fun m' => v.Carries m m') (fun m₁ m₂ hmove hm => hm.trans ?_) (refl m)
  cases hmove with
  | updated e => exact updated e
  | value w he => exact call_other (fun heq => he (by rw [heq]; rfl)) _
  | trigger e id => exact trigger e id
  | handle e => exact setObservationHandler (.inl rfl)
  | publish e => exact of_frame rfl rfl id fun _ => rfl

end Carries
end View
end MbedClient.Observe
