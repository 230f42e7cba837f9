import MbedClient.Observe.Moves
import MbedClient.Report.Collected

/-! All that can happen to an observed tree: what `step` knows, the expiry of a timer, and a query
for write attributes. -/
namespace MbedClient.Observe
open Report (CFloat CFloatText Call Due)

inductive Happening where
  | tree (ev : Event)
  | timerExpired (e : Entity) (type : M2MTimerObserver)
  | query (e : Entity) (query : CString)

/-- What `parse_notification_attribute` is told, by default that it is opaque. -/
def ObjectList.resourceTypeOf (t : ObjectList) (e : Entity) : ResourceType :=
  match t.resourceParams? e with
  | none => .opaqueData
  | some p => p.resourceType

namespace Client
section Happening
variable {F : Type} [CFloatText F] (m : Client F) (t : ObjectList)

/-- `handle_observation_attribute`. A resource that is observed passes the news on to its instances.
Nothing if the query leaves the arrays it is copied to. -/
def handleObservationAttribute (e : Entity) (query : CString) : Option (Client F) := do
  let m := m.createReportHandler e
  let h ← m.reportHandler e
  let r ← (h.toM2MReportHandler.handleObservationAttribute query.1 e.baseType
    (t.resourceTypeOf e)).value
  let m := m.onReportHandler e fun _ => r.2
  some (if e.baseType = .resource && r.1 && m.isUnderObservation e then
      (t.children e).foldl (fun m c => m.onReportHandler c (·.setNotificationTrigger 0)) m
    else m)

def happen (x : Happening) : Client F :=
  match x with
  | .tree ev => m.step t CFloatText.atof ev
  | .timerExpired e type => { m with log := [] }.onReportHandler e (·.occur (.timerExpired type))
  | .query e query =>
    match { m with log := [] }.handleObservationAttribute t e query with
    | none => { m with log := [] }
    | some m => m

end Happening

/-! The ids that an object has collected are due, whatever happens. -/
section DueAt
variable {F : Type} [CFloatText F] {m m' : Client F} {b : Entity}

def DueAt (m : Client F) (b : Entity) : Prop :=
  ∀ h, m.reportHandler b = some h → Due h.toM2MReportHandler

namespace DueAt

theorem congr (hd : DueAt m b) (heq : m'.reportHandler b = m.reportHandler b) : DueAt m' b := by
  intro h hh
  exact hd h (heq ▸ hh)

theorem setReportHandler (hd : DueAt m b) (e : Entity) {r : Option (ReportHandler F)}
    (hr : e = b → ∀ h, r = some h → Due h.toM2MReportHandler) :
    DueAt (m.setReportHandler e r) b := by
  intro h hh
  rw [setReportHandler_reportHandler] at hh
  by_cases he : b = e
  · subst he
    rw [Function.update_self] at hh
    exact hr rfl h hh
  · rw [Function.update_of_ne he] at hh
    exact hd h hh

/-- A change of the handler that passes the report handler proper by. -/
theorem map (hd : DueAt m b) (e : Entity) {g : ReportHandler F → ReportHandler F}
    (hg : ∀ h, (g h).toM2MReportHandler = h.toM2MReportHandler) :
    DueAt (m.setReportHandler e ((m.reportHandler e).map g)) b := by
  refine hd.setReportHandler e fun he h hh => ?_
  subst he
  obtain ⟨h', hh', rfl⟩ := Option.map_eq_some_iff.mp hh
  rw [hg]
  exact hd h' hh'

theorem onReportHandler (hd : DueAt m b) {e : Entity}
    {f : Report.M2MReportHandler F → Report.M2MReportHandler F × List Call}
    (hf : e = b → ∀ h, m.reportHandler e = some h → Due h.toM2MReportHandler →
      Due (f h.toM2MReportHandler).1) : DueAt (m.onReportHandler e f) b := by
  intro h hh
  rw [onReportHandler_reportHandler] at hh
  by_cases he : b = e
  · subst he
    rw [Function.update_self] at hh
    obtain ⟨h', hh', rfl⟩ := Option.map_eq_some_iff.mp hh
    exact hf rfl h' hh' (hd h' hh')
  · rw [Function.update_of_ne he] at hh
    exact hd h hh

theorem ite {c : Prop} [Decidable c] (h : DueAt m b) (h' : DueAt m' b) :
    DueAt (if c then m else m') b := by
  split_ifs
  · exact h
  · exact h'

theorem foldl {f : Client F → Entity → Client F} (hf : ∀ m e, DueAt m b → DueAt (f m e) b)
    (hd : DueAt m b) (es : List Entity) : DueAt (es.foldl f m) b := by
  induction es generalizing m with
  | nil => exact hd
  | cons e es ih => exact ih (hf m e hd)

theorem createReportHandler (hd : DueAt m b) (e : Entity) : DueAt (m.createReportHandler e) b := by
  unfold Client.createReportHandler
  cases m.reportHandler e with
  | none =>
    refine hd.setReportHandler e fun _ h hh => ?_
    obtain rfl := Option.some.inj hh
    exact Due.of_empty rfl
  | some _ => exact hd

theorem setUnderObservation (hd : DueAt m b) (e : Entity) (observed handler : Bool) :
    DueAt (m.setUnderObservation e observed handler) b := by
  have hcall (m : Client F) (hd : DueAt m b) :
      DueAt (m.onReportHandler e (·.setUnderObservation observed)) b :=
    hd.onReportHandler fun _ _ _ hd => hd.setUnderObservation observed
  have hfirst := hcall m hd
  unfold Client.setUnderObservation
  dsimp only
  have hset : DueAt ((m.onReportHandler e
    (·.setUnderObservation observed)).setObservationHandler e handler) b := hfirst.congr rfl
  split_ifs
  · exact hcall _ (hset.createReportHandler e)
  · exact hcall _ hset
  · exact hset
  · exact hset.setReportHandler e fun _ h hh => by cases hh

theorem addOwnLevel (hd : DueAt m b) (l : Observation) (e : Entity) :
    DueAt (m.addOwnLevel l e) b := hd.map e fun _ => rfl

theorem removeOwnLevel (hd : DueAt m b) (l : Observation) (e : Entity) :
    DueAt (m.removeOwnLevel l e) b := hd.map e fun _ => rfl

variable (t : ObjectList)

theorem startAt (hd : DueAt m b) (e : Entity) : DueAt (m.startAt t e) b := by
  have hlevel (m : Client F) (hd : DueAt m b) (l : Observation) (es : List Entity) :
      DueAt (es.foldl (fun m e => m.addOwnLevel l e) m) b :=
    hd.foldl (fun m e hd => hd.addOwnLevel l e) es
  cases e with
  | object | objectInstance => exact hlevel _ (hd.setUnderObservation _ true true) _ _
  | resource | resourceInstance =>
    refine addOwnLevel (setUnderObservation ?_ _ true true) _ _
    split_ifs
    · exact hlevel m hd _ _
    · exact hd

theorem stopAt (hd : DueAt m b) (e : Entity) : DueAt (m.stopAt t e) b := by
  have hlevel (m : Client F) (hd : DueAt m b) (l : Observation) (es : List Entity) :
      DueAt (es.foldl (fun m e => m.removeOwnLevel l e) m) b :=
    hd.foldl (fun m e hd => hd.removeOwnLevel l e) es
  have hstop := hd.setUnderObservation e false false
  cases e with
  | object | objectInstance => exact hlevel _ hstop _ _
  | resource | resourceInstance =>
    have hleft := fun e => hstop.removeOwnLevel Observation.rAttribute e
    dsimp only [Client.stopAt]
    split_ifs
    · exact hlevel _ (hleft _) _ _
    · exact hleft _

theorem resetAt (hd : DueAt m b) (e : Entity) : DueAt (m.resetAt t e) b := by
  unfold Client.resetAt
  refine setUnderObservation ?_ e false true
  split_ifs
  · exact hd
  · exact hd.foldl (fun _ e hd => hd.removeOwnLevel _ e) _

theorem withToken (hd : DueAt m b) (e : Entity) (request : GetRequest) :
    DueAt (m.withToken e request) b := by
  unfold Client.withToken
  cases request.token with
  | none => exact hd
  | some token => exact hd.map e fun _ => rfl

theorem get (hd : DueAt m b) (request : GetRequest) : DueAt (m.get t request) b := by
  rw [get_eq]
  cases m.findResource t request.uriPath none with
  | none => exact hd
  | some e =>
    dsimp only [answer]
    split_ifs
    · exact (hd.startAt t e).withToken e request
    · exact hd.withToken e request
    · exact hd.stopAt t e
    · exact hd
    · exact hd

theorem reset (hd : DueAt m b) (token : Option Bytes) : DueAt (m.reset t token) b := by
  rw [reset_eq]
  cases m.findResource t [] token with
  | none => exact hd
  | some e => exact hd.resetAt t e

theorem moves (hd : DueAt m b) (hb : b.baseType = .object) (h : Moves m m') : DueAt m' b := by
  refine h.invariant (I := fun m => DueAt m b) (fun m m' hmove hd => ?_) hd
  cases hmove with
  | updated e => exact hd.congr rfl
  | value v he => exact hd.onReportHandler fun heb => absurd (heb ▸ hb) he
  | trigger e id => exact hd.onReportHandler fun _ h _ _ => Due.trigger h.toM2MReportHandler id
  | handle e => exact hd.congr rfl
  | publish e => exact hd.congr rfl

theorem setValue (hd : DueAt m b) (hb : b.baseType = .object) (atof : Bytes → F)
    (put : Entity → Bool) (e : Entity) (value : Bytes) (copied : Bool) :
    DueAt (m.setValue t atof put e value copied) b := by
  have hstore (value : Bytes) : DueAt (m.store e value) b := hd.congr rfl
  obtain heq | ⟨p, -, ⟨-, heq⟩ | ⟨-, -, heq⟩ | ⟨-, -, -, hmoves⟩ | ⟨-, -, -, heq⟩⟩ :=
    setValue_cases t atof put m e value copied
  · rw [heq]
    exact hd
  · rw [heq]
    exact hstore []
  · rw [heq]
    exact hstore value
  · exact (hstore value).moves hb hmoves
  · rw [heq]
    exact (hstore value).moves hb (report_moves t atof put _ e)

theorem step (hd : DueAt m b) (hb : b.baseType = .object) (atof : Bytes → F) (ev : Event) :
    DueAt (m.step t atof ev) b := by
  have hclear : DueAt { m with log := [] } b := hd.congr rfl
  cases ev with
  | get request => exact hclear.get t request
  | reset token => exact hclear.reset t token
  | setValue e value copied put => exact hclear.setValue t hb atof put e value copied
  | clearValue e put =>
    have hstore : DueAt (({ m with log := [] } : Client F).store e []) b := hclear.congr rfl
    exact hstore.moves hb (report_moves t atof put _ e)
  | putValue uriPath value copied put =>
    change DueAt (({ m with log := [] } : Client F).putValue t atof put uriPath value copied) b
    unfold Client.putValue
    cases ({ m with log := [] } : Client F).findResource t uriPath none with
    | none => exact hclear
    | some e =>
      dsimp only
      cases t.resourceParams? e with
      | none => exact hclear
      | some p =>
        have hset := hclear.setValue t hb atof put e value copied
        exact ite (ite (hset.moves hb (valueUpdated_moves t put _ e)) hset) hclear
  | publish i put =>
    exact hclear.moves hb (createNsdlObjectStructure_moves t put _ (.object i))

theorem query (hd : DueAt m b) {e : Entity} {query : CString}
    (hq : m.handleObservationAttribute t e query = some m') : DueAt m' b := by
  obtain ⟨h, hh, hrest⟩ := Option.bind_eq_some_iff.mp hq
  obtain ⟨r, hr, heq⟩ := Option.bind_eq_some_iff.mp hrest
  obtain rfl := Option.some.inj heq
  have hcalled : DueAt ((m.createReportHandler e).onReportHandler e fun _ => r.2) b := by
    refine (hd.createReportHandler e).onReportHandler fun _ h' hh' hd => ?_
    obtain rfl := Option.some.inj (hh.symm.trans hh')
    obtain ⟨h', hsame, hcases⟩ := h.toM2MReportHandler.handled_cases hr
    have hd' : Due h' := hd.of_withAttributes hsame
    obtain ⟨-, -, heq⟩ | ⟨-, heq⟩ | ⟨-, heq⟩ := hcases
    · rw [heq]
      exact hd'.setUnderObservation true
    · rw [heq]
      exact hd'
    · rw [heq]
      exact Due.of_empty rfl
  exact ite (hcalled.foldl (fun _ c hd => hd.onReportHandler fun _ h _ _ =>
    Due.trigger h.toM2MReportHandler 0) _) hcalled

theorem happen (hd : DueAt m b) (hb : b.baseType = .object) (x : Happening) :
    DueAt (m.happen t x) b := by
  have hclear : DueAt { m with log := [] } b := hd.congr rfl
  cases x with
  | tree ev => exact hd.step t hb CFloatText.atof ev
  | timerExpired e type => exact hclear.onReportHandler fun _ h _ hd => hd.timerExpired type
  | query e query =>
    rw [Client.happen]
    cases hq : ({ m with log := [] } : Client F).handleObservationAttribute t e query with
    | none => exact hclear
    | some m' => exact hclear.query t hq

end DueAt
end DueAt
end Client
end MbedClient.Observe
