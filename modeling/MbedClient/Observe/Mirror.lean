import MbedClient.Observe.Change
import MbedClient.Observe.Delivery
import MbedClient.Observe.Link

/-! A server that observes an object has a copy of it. Outside the instances whose report is due the
copy is right in every state of a run, and at the end of the minimum period it is complete. -/
namespace MbedClient.Observe
open Report (CFloat CFloatText Call Carried Due)
open Nsdl (ServerCopy)
open Replica (Link)

namespace View
section Steps
variable {F : Type} [CFloatText F] {v : View} {m m' : Client F} {e : Entity}

namespace Carries

theorem addOwnLevel (l : Observation) (e : Entity) : v.Carries m (m.addOwnLevel l e) := by
  refine map e (fun _ => rfl) fun h hl => ?_
  show (h.observationLevel.o || l.o) = true
  rw [hl, Bool.true_or]

theorem removeOwnLevel (he : e ≠ v.entity) (l : Observation) : v.Carries m (m.removeOwnLevel l e) :=
  setReportHandler he _

theorem createReportHandler (he : e ≠ v.entity) : v.Carries m (m.createReportHandler e) := by
  unfold Client.createReportHandler
  cases m.reportHandler e with
  | none => exact setReportHandler he _
  | some h => exact refl m

theorem setUnderObservation (he : e ≠ v.entity) (observed : Bool) {handler : Bool}
    (hhandler : handler = true ∨ e.objectIndex ≠ v.object) :
    v.Carries m (m.setUnderObservation e observed handler) := by
  have hset : v.Carries m ((m.onReportHandler e
      (·.setUnderObservation observed)).setObservationHandler e handler) :=
    (call_other he _).trans (setObservationHandler hhandler)
  unfold Client.setUnderObservation
  dsimp only
  split_ifs
  · exact (hset.trans (createReportHandler he)).trans (call_other he _)
  · exact hset.trans (call_other he _)
  · exact hset
  · exact hset.trans (setReportHandler he _)

theorem withToken (e : Entity) (request : GetRequest) : v.Carries m (m.withToken e request) := by
  unfold Client.withToken
  cases request.token with
  | none => exact refl m
  | some token => exact map e (fun _ => rfl) fun _ hl => hl

/-- The object does not lie below another entity. -/
theorem ne_entity_of_mem (he : e ≠ v.entity) {t : ObjectList} {b : Entity}
    (hb : b ∈ t.subtree e) : b ≠ v.entity := by
  intro hbv
  subst hbv
  obtain ⟨j, s, hpath⟩ := ObjectList.mem_subtree_below t hb (Ne.symm he)
  cases e <;> simp [entity, Entity.path] at hpath

theorem startAt (he : e ≠ v.entity) (t : ObjectList) : v.Carries m (m.startAt t e) := by
  have hlevel (m : Client F) (l : Observation) (es : List Entity) :
      v.Carries m (es.foldl (fun m e => m.addOwnLevel l e) m) :=
    foldl (fun _ e _ => addOwnLevel l e) m
  cases e with
  | object | objectInstance => exact (setUnderObservation he true (.inl rfl)).trans (hlevel _ _ _)
  | resource | resourceInstance =>
    refine trans ?_ ((setUnderObservation he true (.inl rfl)).trans (addOwnLevel _ _))
    split_ifs
    · exact hlevel m _ _
    · exact refl m

theorem stopAt (he : e ≠ v.entity) (hobject : e.objectIndex ≠ v.object) (t : ObjectList) :
    v.Carries m (m.stopAt t e) := by
  have hstop : v.Carries m (m.setUnderObservation e false false) :=
    setUnderObservation he false (.inr hobject)
  have hlevel (m : Client F) (l : Observation) (es : List Entity)
      (hes : ∀ b ∈ es, b ≠ v.entity) :
      v.Carries m (es.foldl (fun m e => m.removeOwnLevel l e) m) :=
    foldl (fun _ b hb => removeOwnLevel (hes b hb) l) m
  cases e with
  | object | objectInstance => exact hstop.trans (hlevel _ _ _ fun _ => ne_entity_of_mem he)
  | resource i j k =>
    have hleft := hstop.trans (removeOwnLevel he Observation.rAttribute)
    dsimp only [Client.stopAt]
    split_ifs
    · refine hleft.trans (hlevel _ _ _ fun b hb hbv => ?_)
      obtain ⟨n, hpath⟩ := ObjectList.children_path t hb
      rw [hbv] at hpath
      simp [entity, Entity.path] at hpath
    · exact hleft
  | resourceInstance i j k n => exact hstop.trans (removeOwnLevel he Observation.rAttribute)

theorem resetAt (he : e ≠ v.entity) (t : ObjectList) : v.Carries m (m.resetAt t e) := by
  unfold Client.resetAt
  refine trans ?_ (setUnderObservation he false (.inl rfl))
  split_ifs
  · exact refl m
  · exact foldl (fun _ b hb => removeOwnLevel (ne_entity_of_mem he hb) _) m

end Carries

/-- A value that is stored before it is told: its instance is to be sent. -/
theorem store_advances (hlog : m.log = []) (value : Bytes) {p : Set UInt16}
    (hsub : v.pending m ⊆ p) (hmarked : ∀ j x, v.tree.objectInstance? v.object j = some x →
      e.Within v.object j → x.instanceId ∈ p) (copy : ServerCopy) :
    (v.link m copy).Advances { v.link (m.store e value) copy with pending := p } := by
  have hreceived {m' : Client F} (hlog' : m'.log = []) : v.received m' copy = copy := by
    rw [received, hlog']
    rfl
  have hstored : (m.store e value).log = [] := hlog
  have hlink : ({ v.link (m.store e value) copy with pending := p } : Link _ _) =
      { v.link m copy with source := v.known (m.store e value), pending := p } := by
    rw [link, link, hreceived hlog, hreceived hstored]
  rw [hlink]
  refine Link.Advances.change hsub fun id hid => ?_
  have hsame : (v.shown (m.store e value)).objectInstance id = (v.shown m).objectInstance id := by
    refine ObjectList.objectInstance_congr v.names fun j x hx hxid b hb => ?_
    refine Function.update_of_ne (fun hbe : b = e => hid ?_) _ _
    rw [← hxid]
    exact hmarked j x hx (hbe ▸ hb)
  change v.known (m.store e value) id = v.known m id
  rw [known, known, Observe.known, Observe.known, hsame]

/-- A value that the object does not show. -/
theorem Carries.store (h : ∀ j, ¬e.Within v.object j) (value : Bytes) :
    v.Carries m (m.store e value) := by
  have hshown : v.shown (m.store e value) = v.shown m :=
    ObjectList.shown_congr v.names fun j b hb =>
      Function.update_of_ne (fun hbe : b = e => h j (hbe ▸ hb)) _ _
  exact of_frame hshown rfl id fun _ => rfl

theorem Carries.store_same (m : Client F) (e : Entity) : v.Carries m (m.store e (m.value e)) := by
  have hsame : m.store e (m.value e) = m := by
    rw [Client.store, Function.update_eq_self]
  rw [hsame]
  exact refl m

/-- A report of a value in the object begins with the news to the object. -/
theorem report_told {i j : Nat} {x : ObjectInstance} {p : ResourceParams} {t : ObjectList}
    (he : e.Within i j) (hx : t.objectInstance? i j = some x) (hp : t.resourceParams? e = some p)
    (hu : m.isUnderObservation (.object i) = true) (hl : (m.observationLevel (.object i)).o = true)
    (atof : Bytes → F) (put : Entity → Bool) :
    Client.Moves (m.onReportHandler (.object i) (·.setNotificationTrigger x.instanceId))
      (m.report t atof put e) := by
  have hlevel : (m.combinedLevel e).o = true := by
    cases e with
    | object | objectInstance => exact he.elim
    | resource i' j' k | resourceInstance i' j' k n =>
      obtain ⟨rfl, rfl⟩ := he
      simp [Client.combinedLevel, Observation.union, hl]
  have hinstance : m.reportInstance t e = m.notificationUpdate t i j (m.combinedLevel e) := by
    cases e with
    | object | objectInstance => exact he.elim
    | resource i' j' k | resourceInstance i' j' k n =>
      obtain ⟨rfl, rfl⟩ := he
      simp [Client.reportInstance, hlevel]
  have hnews : Client.Moves (m.onReportHandler (.object i)
      (·.setNotificationTrigger x.instanceId)) (m.reportInstance t e) := by
    rw [hinstance]
    simp only [Client.notificationUpdate, hx, hlevel, if_true, Client.objectNotificationUpdate, hu]
    exact (Client.trigger_moves _ _ _).ite (Client.Moves.refl _)
  simp only [Client.report, hp]
  exact hnews.trans
    (Client.reportResource_moves t atof put _ (Client.baseType_of_params t hp) p _ _)

end Steps

structure Session (F : Type) [CFloatText F] where
  client : Client F
  copy : ServerCopy

section Session
variable {F : Type} [CFloatText F] (v : View)

/-- The server is answered with the object and starts to observe it. -/
def starts (m : Client F) (x : Happening) : Bool :=
  match x with
  | .tree (.get request) =>
    decide (m.findResource v.tree request.uriPath none = some v.entity) &&
      v.tree.accepts v.entity request && decide (request.observe = 0)
  | _ => false

def answer (m : Client F) : ServerCopy := answered v.commonWrite64Bit (v.shown m)

def Session.happen (x : Happening) (s : Session F) : Session F :=
  let m := s.client.happen v.tree x
  { client := m, copy := v.received m (if v.starts s.client x then v.answer m else s.copy) }

def Session.fresh (value : Entity → Bytes) : Session F := ⟨Client.fresh value, fun _ => none⟩

/-- The news of a value that is set reaches the object, or a report of its instance is due anyway.
It does not where a string becomes another one, which `set_value` tells the resource only, and where
the copy of the value is refused. -/
def Told (m : Client F) (e : Entity) (value : Bytes) (copied : Bool) : Prop :=
  value = [] ∨ e.objectIndex ≠ v.object ∨
    (copied = true ∧ (value = m.value e ∨
      ∀ p, v.tree.resourceParams? e = some p → p.resourceType ≠ .string)) ∨
    ∀ j x, v.tree.objectInstance? v.object j = some x → e.Within v.object j →
      x.instanceId ∈ v.collected m

/-- What a server has to rely on: news is told; no GET ends the observation of something else in the
object, which takes the observer from the whole object; and no query for the object is refused while
a report is due, which drops the report. -/
def Allowed (x : Happening) (m : Client F) : Prop :=
  match x with
  | .tree (.get request) => ∀ e, m.Cancels v.tree request e → e.objectIndex = v.object →
    e = v.entity
  | .tree (.setValue e value copied _) => v.Told m e value copied
  | .tree (.clearValue e _) => (v.tree.resourceParams? e).isSome = true
  | .tree (.putValue uriPath value copied _) =>
    ∀ e, m.findResource v.tree uriPath none = some e → v.Told m e value copied
  | .query e query => (m.handleObservationAttribute v.tree e query).isSome = true ∧
    (e = v.entity → v.collected m = [] ∨ ∀ h r, m.reportHandler v.entity = some h →
      (h.toM2MReportHandler.handleObservationAttribute query.1 .object .opaqueData).value = some r →
      r.1 = true)
  | _ => True

/-- Such a happening, if the object fits in a message afterwards. -/
structure Admissible (x : Happening) (s : Session F) : Prop where
  allowed : v.Allowed x { s.client with log := [] }
  encodable : v.Encodable (s.client.happen v.tree x)

/-- While the object is observed, the copy is right wherever no report is due, and complete if the
minimum period ends. -/
structure Faithful (s : Session F) : Prop where
  outside : s.client.isUnderObservation v.entity = true →
    ∀ id, id ∉ v.collected s.client → s.copy id = v.known s.client id
  complete : s.client.isUnderObservation v.entity = true →
    (Session.happen v (.timerExpired v.entity .pMinTimer) s).copy = v.known s.client

structure Mirrored (s : Session F) : Prop where
  due : s.client.DueAt v.entity
  encodable : s.client.isUnderObservation v.entity = true → v.Encodable s.client
  handled : s.client.isUnderObservation v.entity = true →
    s.client.observationHandler v.object = true
  level : s.client.isUnderObservation v.entity = true →
    (s.client.observationLevel v.entity).o = true
  tracks : s.client.isUnderObservation v.entity = true →
    (v.link { s.client with log := [] } s.copy).Tracks

variable {v} {s : Session F} {x : Happening}

/-- A step after which the object is observed, and before which it was. -/
theorem Mirrored.advance (hs : v.Mirrored s) (hx : v.Admissible x s)
    (hstarts : v.starts s.client x = false)
    (h : (s.client.happen v.tree x).isUnderObservation v.entity = true →
      s.client.isUnderObservation v.entity = true ∧
      (s.client.happen v.tree x).observationHandler v.object = true ∧
      ((s.client.happen v.tree x).observationLevel v.entity).o = true ∧
      (v.link { s.client with log := [] } s.copy).Advances
        (v.link (s.client.happen v.tree x) s.copy)) : v.Mirrored (s.happen v x) := by
  refine ⟨hs.due.happen v.tree rfl x, fun _ => hx.encodable, fun hu => (h hu).2.1,
    fun hu => (h hu).2.2.1, fun hu => ?_⟩
  have htracks := (hs.tracks (h hu).1).advance (h hu).2.2.2
  have hlink : v.link { (s.happen v x).client with log := [] } (s.happen v x).copy =
      v.link (s.client.happen v.tree x) s.copy := by
    rw [Session.happen, hstarts, if_neg Bool.false_ne_true]
    rfl
  rw [hlink]
  exact htracks

theorem Mirrored.carried (hs : v.Mirrored s) (hx : v.Admissible x s)
    (hstarts : v.starts s.client x = false)
    (h : v.Carries { s.client with log := [] } (s.client.happen v.tree x)) :
    v.Mirrored (s.happen v x) := by
  refine hs.advance hx hstarts fun hu => ?_
  have hunder : s.client.isUnderObservation v.entity = true := h.under hu
  exact ⟨hunder, h.handled (hs.handled hunder), h.level (hs.level hunder),
    h.advances (hs.encodable hunder) (hs.handled hunder) s.copy⟩

/-- A step after which the object is not observed. -/
theorem Mirrored.unobserved (hs : v.Mirrored s)
    (h : (s.client.happen v.tree x).isUnderObservation v.entity = false) :
    v.Mirrored (s.happen v x) := by
  have hno (hu : (s.happen v x).client.isUnderObservation v.entity = true) : False := by
    have hfalse : (s.happen v x).client.isUnderObservation v.entity = false := h
    rw [hfalse] at hu
    cases hu
  exact ⟨hs.due.happen v.tree rfl x, fun hu => (hno hu).elim, fun hu => (hno hu).elim,
    fun hu => (hno hu).elim, fun hu => (hno hu).elim⟩

/-- Where the standing of all entities stays. -/
theorem Mirrored.minor (hs : v.Mirrored s) (hx : v.Admissible x s)
    (hstarts : v.starts s.client x = false)
    (hminor : Client.Minor { s.client with log := [] } (s.client.happen v.tree x))
    (h : s.client.isUnderObservation v.entity = true →
      (v.link { s.client with log := [] } s.copy).Advances
        (v.link (s.client.happen v.tree x) s.copy)) : v.Mirrored (s.happen v x) := by
  refine hs.advance hx hstarts fun hu => ?_
  rw [Client.isUnderObservation_eq, hminor.standing, ← Client.isUnderObservation_eq] at hu
  have hunder : s.client.isUnderObservation v.entity = true := hu
  refine ⟨hunder, hminor.observationHandler _ (hs.handled hunder), ?_, h hunder⟩
  rw [Client.observationLevel_eq, hminor.standing, ← Client.observationLevel_eq]
  exact hs.level hunder

/-! The start of the observation itself. -/
theorem starts_iff {request : GetRequest} : v.starts s.client (.tree (.get request)) = true ↔
    s.client.findResource v.tree request.uriPath none = some v.entity ∧
      v.tree.accepts v.entity request = true ∧ request.observe = 0 := by
  simp only [starts, Bool.and_eq_true, decide_eq_true_eq, and_assoc]

theorem Mirrored.start (hs : v.Mirrored s) {request : GetRequest}
    (hx : v.Admissible (.tree (.get request)) s)
    (hstarts : v.starts s.client (.tree (.get request)) = true) :
    v.Mirrored (s.happen v (.tree (.get request))) := by
  obtain ⟨hfind, haccepts, hobserve⟩ := starts_iff.mp hstarts
  have hclient : s.client.happen v.tree (.tree (.get request)) =
      (Client.startAt { s.client with log := [] } v.tree v.entity).withToken v.entity request := by
    have hfind' :
      ({ s.client with log := [] } : Client F).findResource v.tree request.uriPath none =
        some v.entity := hfind
    have hoctet : request.observe.toUInt32.toUInt8 = startObservation := by
      rw [hobserve]
      rfl
    change ({ s.client with log := [] } : Client F).get v.tree request = _
    rw [Client.get_eq, hfind']
    dsimp only
    rw [if_pos haccepts, Client.answer, if_pos hoctet, if_pos hobserve]
  refine ⟨hs.due.happen v.tree rfl _, fun _ => hx.encodable, fun _ => ?_, fun _ => ?_, fun _ => ?_⟩
  · change (s.client.happen v.tree _).observationHandler v.object = true
    rw [hclient, Client.withToken_observationHandler, Client.startAt_observationHandler]
    exact Function.update_self ..
  · change ((s.client.happen v.tree _).observationLevel v.entity).o = true
    rw [hclient]
    refine (Carries.withToken v.entity request).level ?_
    rw [Client.observationLevel_eq, Client.startAt_self _ _ fun h => by cases h]
    exact v.entity.inLevel_own _
  · have hcopy : (s.happen v (.tree (.get request))).copy =
        v.known (s.client.happen v.tree (.tree (.get request))) := by
      rw [Session.happen, hstarts, if_pos rfl]
      dsimp only
      rw [answer, answered_eq hx.encodable]
      exact receive_known hx.encodable _
    intro id _
    change (s.happen v (.tree (.get request))).copy id = _
    rw [hcopy]
    rfl

theorem Mirrored.get (hs : v.Mirrored s) {request : GetRequest}
    (hx : v.Admissible (.tree (.get request)) s) :
    v.Mirrored (s.happen v (.tree (.get request))) := by
  cases hstarts : v.starts s.client (.tree (.get request)) with
  | true => exact hs.start hx hstarts
  | false =>
    have hclient : s.client.happen v.tree (.tree (.get request)) =
      Client.get { s.client with log := [] } v.tree request := rfl
    rw [Client.get_eq] at hclient
    cases hfind : Client.findResource { s.client with log := [] } v.tree request.uriPath none with
    | none =>
      rw [hfind] at hclient
      exact hs.carried hx hstarts (hclient ▸ Carries.refl _)
    | some e =>
      rw [hfind] at hclient
      by_cases haccepts : v.tree.accepts e request = true
      · dsimp only at hclient
        rw [if_pos haccepts, Client.answer] at hclient
        split_ifs at hclient with hoctet hzero hstop
        · refine hs.carried hx hstarts (hclient ▸ (Carries.startAt (fun he => ?_) v.tree).trans
            (Carries.withToken e request))
          subst he
          rw [starts_iff.mpr ⟨hfind, haccepts, hzero⟩] at hstarts
          cases hstarts
        · exact hs.carried hx hstarts (hclient ▸ Carries.withToken e request)
        · by_cases he : e = v.entity
          · subst he
            refine hs.unobserved ?_
            rw [hclient, Client.isUnderObservation_eq, Client.stopAt_self]
            rfl
          · refine hs.carried hx hstarts (hclient ▸ Carries.stopAt he (fun hobject => he ?_) v.tree)
            exact hx.allowed e ⟨hfind, haccepts, hstop⟩ hobject
        · exact hs.carried hx hstarts (hclient ▸ Carries.refl _)
      · dsimp only at hclient
        rw [if_neg haccepts] at hclient
        exact hs.carried hx hstarts (hclient ▸ Carries.refl _)

theorem Mirrored.reset (hs : v.Mirrored s) {token : Option Bytes}
    (hx : v.Admissible (.tree (.reset token)) s) :
    v.Mirrored (s.happen v (.tree (.reset token))) := by
  have hclient : s.client.happen v.tree (.tree (.reset token)) =
      Client.reset { s.client with log := [] } v.tree token := rfl
  rw [Client.reset_eq] at hclient
  cases hfind : Client.findResource { s.client with log := [] } v.tree [] token with
  | none =>
    rw [hfind] at hclient
    exact hs.carried hx rfl (hclient ▸ Carries.refl _)
  | some e =>
    rw [hfind] at hclient
    by_cases he : e = v.entity
    · subst he
      refine hs.unobserved ?_
      obtain ⟨l, hl⟩ := Client.resetAt_self { s.client with log := [] } v.tree v.entity
      rw [hclient, Client.isUnderObservation_eq, hl]
      cases Client.standing { s.client with log := [] } v.entity with
      | none => rfl
      | some st => rfl
    · exact hs.carried hx rfl (hclient ▸ Carries.resetAt he v.tree)

/-! Values. A client whose object is observed, in front of a change of a value. -/
section Values

/-- The object is observed, as it is in every state of an admissible run. -/
structure Watched (v : View) (m : Client F) : Prop where
  log : m.log = []
  under : m.isUnderObservation v.entity = true
  handled : m.observationHandler v.object = true
  level : (m.observationLevel v.entity).o = true
  encodable : v.Encodable m

variable {m m' : Client F} {e : Entity} (put : Entity → Bool)

theorem Mirrored.watched (hs : v.Mirrored s)
    (hu : s.client.isUnderObservation v.entity = true) :
    v.Watched { s.client with log := [] } :=
  ⟨rfl, hu, hs.handled hu, hs.level hu, hs.encodable hu⟩

/-- What is told after a value has been stored. -/
theorem Carries.encodable (h : v.Carries m m') (henc : v.Encodable m') : v.Encodable m := by
  rw [Encodable, ← h.shown]
  exact henc

theorem exists_handler (hu : m.isUnderObservation v.entity = true) :
    ∃ h, m.reportHandler v.entity = some h := by
  rw [Client.isUnderObservation] at hu
  cases hh : m.reportHandler v.entity with
  | none =>
    rw [hh] at hu
    cases hu
  | some h => exact ⟨h, rfl⟩

/-- A resource of the object lies in one of its instances. -/
theorem within_of_params {p : ResourceParams} (hp : v.tree.resourceParams? e = some p)
    (hobject : e.objectIndex = v.object) :
    ∃ j x, v.tree.objectInstance? v.object j = some x ∧ e.Within v.object j := by
  obtain ⟨i, j, x, hx, k, he⟩ := Client.objectInstance?_of_params hp
  obtain rfl | ⟨n, rfl⟩ := he
  · cases hobject
    exact ⟨j, x, hx, rfl, rfl⟩
  · cases hobject
    exact ⟨j, x, hx, rfl, rfl⟩

theorem not_within (hobject : e.objectIndex ≠ v.object) (j : Nat) : ¬e.Within v.object j := by
  intro he
  cases e with
  | object | objectInstance => exact he
  | resource | resourceInstance => exact hobject he.1

/-- A value in the object that is stored and reported: the object is told of the instance. -/
theorem Watched.report (hm : v.Watched m) {p : ResourceParams}
    (hp : v.tree.resourceParams? e = some p) (value : Bytes)
    (henc : v.Encodable ((m.store e value).report v.tree CFloatText.atof put e))
    (copy : ServerCopy) : (v.link m copy).Advances
      (v.link ((m.store e value).report v.tree CFloatText.atof put e) copy) := by
  by_cases hobject : e.objectIndex = v.object
  · obtain ⟨j, x, hx, he⟩ := within_of_params hp hobject
    obtain ⟨h, hh⟩ := exists_handler hm.under
    have hstored : (m.store e value).reportHandler v.entity = some h := hh
    have hmoves := report_told he hx hp (m := m.store e value) hm.under hm.level
      CFloatText.atof put
    have hcarries : v.Carries _ _ := Carries.moves hmoves
    have hnews : v.Encodable (m.store e value) :=
      (Carries.trigger v.entity x.instanceId).encodable (hcarries.encodable henc)
    have hplaced : x.instanceId ∈ v.tree.instanceIds v.object := v.tree.mem_instanceIds _ hx
    -- the instance is marked when its value is stored, and the object is told next
    have hchange := store_advances (e := e) hm.log value
      (p := v.pending m ∪ {x.instanceId}) Set.subset_union_left
      (fun j' x' hx' he' => .inr (by
        have hj : j' = j := by
          cases e with
          | object | objectInstance => exact he.elim
          | resource | resourceInstance => exact he'.2.symm.trans he.2
        subst hj
        rw [hx] at hx'
        rw [Option.some.inj hx']
        rfl)) copy
    have hcall := call_advances (f := (·.setNotificationTrigger x.instanceId))
      (p := v.pending m ∪ {x.instanceId}) hstored hm.handled hnews (fun id hid => by
        obtain hid | rfl := hid
        · refine ⟨hid.2, Carried.trigger ?_ _⟩
          rw [← collected_of_some hh]
          exact hid.1
        · exact ⟨hplaced, Carried.triggered _ _⟩) copy
    refine (hchange.trans hcall).trans (hcarries.advances (hcarries.encodable henc) ?_ copy)
    rw [Client.onReportHandler_observationHandler]
    exact hm.handled
  · have hstore : v.Carries m (m.store e value) := Carries.store (not_within hobject) value
    have hcarries :=
      hstore.trans (Carries.moves (Client.report_moves v.tree CFloatText.atof put _ e))
    exact hcarries.advances hm.encodable hm.handled copy

/-- A value that is stored where a report of its instance is due, or where the object does not show
it, and what follows. -/
theorem Watched.stored (hm : v.Watched m) (value : Bytes)
    (htold : e.objectIndex ≠ v.object ∨ ∀ j x, v.tree.objectInstance? v.object j = some x →
      e.Within v.object j → x.instanceId ∈ v.collected m)
    (h : v.Carries (m.store e value) m') (henc : v.Encodable m') (copy : ServerCopy) :
    (v.link m copy).Advances (v.link m' copy) := by
  obtain hobject | hmarked := htold
  · have hstore : v.Carries m (m.store e value) := Carries.store (not_within hobject) value
    exact (hstore.trans h).advances hm.encodable hm.handled copy
  · have hstore := store_advances (e := e) hm.log value (p := v.pending m) Set.Subset.rfl
      (fun j x hx he => ⟨hmarked j x hx he, v.tree.mem_instanceIds _ hx⟩) copy
    exact hstore.trans (h.advances (h.encodable henc) hm.handled copy)

theorem setValue_nil (m : Client F) (e : Entity) (copied : Bool) :
    m.setValue v.tree CFloatText.atof put e [] copied = m := by
  unfold Client.setValue
  cases v.tree.resourceParams? e with
  | none => rfl
  | some p => rfl

theorem Watched.setValue (hm : v.Watched m) {value : Bytes} {copied : Bool}
    (htold : v.Told m e value copied)
    (henc : v.Encodable (m.setValue v.tree CFloatText.atof put e value copied))
    (copy : ServerCopy) : (v.link m copy).Advances
      (v.link (m.setValue v.tree CFloatText.atof put e value copied) copy) := by
  obtain rfl | htold := htold
  · rw [setValue_nil]
    exact Link.Advances.refl _
  have hcases := Client.setValue_cases v.tree CFloatText.atof put m e value copied
  obtain heq | ⟨p, hp, ⟨hcopied, heq⟩ | ⟨hcopied, hsame, heq⟩ | ⟨hcopied, hnew, hstring, hmoves⟩ |
    ⟨hcopied, hnew, hstring, heq⟩⟩ := hcases
  · rw [heq]
    exact Link.Advances.refl _
  · rw [heq] at henc ⊢
    refine hm.stored [] ?_ (Carries.refl _) henc copy
    obtain hobject | ⟨hcopy, -⟩ | hmarked := htold
    · exact .inl hobject
    · rw [hcopied] at hcopy
      cases hcopy
    · exact .inr hmarked
  · rw [heq, hsame]
    exact (Carries.store_same m e).advances hm.encodable hm.handled copy
  · refine hm.stored value ?_ (Carries.moves hmoves) henc copy
    obtain hobject | ⟨-, hsame | hno⟩ | hmarked := htold
    · exact .inl hobject
    · exact absurd hsame hnew
    · exact absurd hstring (hno p hp)
    · exact .inr hmarked
  · rw [heq] at henc ⊢
    exact hm.report put hp value henc copy

end Values

theorem Mirrored.setValue (hs : v.Mirrored s) {e : Entity} {value : Bytes} {copied : Bool}
    {put : Entity → Bool} (hx : v.Admissible (.tree (.setValue e value copied put)) s) :
    v.Mirrored (s.happen v (.tree (.setValue e value copied put))) :=
  hs.minor hx rfl (Client.Minor.setValue v.tree CFloatText.atof put e value copied) fun hu =>
    (hs.watched hu).setValue put hx.allowed hx.encodable s.copy

theorem Mirrored.clearValue (hs : v.Mirrored s) {e : Entity} {put : Entity → Bool}
    (hx : v.Admissible (.tree (.clearValue e put)) s) :
    v.Mirrored (s.happen v (.tree (.clearValue e put))) := by
  obtain ⟨p, hp⟩ := Option.isSome_iff_exists.mp hx.allowed
  exact hs.minor hx rfl (Client.Minor.clearValue v.tree CFloatText.atof put e) fun hu =>
    (hs.watched hu).report put hp [] hx.encodable s.copy

theorem Mirrored.putValue (hs : v.Mirrored s) {uriPath value : Bytes} {copied : Bool}
    {put : Entity → Bool} (hx : v.Admissible (.tree (.putValue uriPath value copied put)) s) :
    v.Mirrored (s.happen v (.tree (.putValue uriPath value copied put))) := by
  refine hs.minor hx rfl (Client.Minor.putValue v.tree CFloatText.atof put uriPath value copied)
    fun hu => ?_
  have henc := hx.encodable
  have hm := hs.watched hu
  have hclient : s.client.happen v.tree (.tree (.putValue uriPath value copied put)) =
    Client.putValue { s.client with log := [] } v.tree CFloatText.atof put uriPath value copied :=
      rfl
  rw [hclient] at henc ⊢
  unfold Client.putValue at henc ⊢
  cases hfind : Client.findResource { s.client with log := [] } v.tree uriPath none with
  | none => exact Link.Advances.refl _
  | some e =>
    rw [hfind] at henc
    dsimp only at henc ⊢
    cases hp : v.tree.resourceParams? e with
    | none => exact Link.Advances.refl _
    | some p =>
      rw [hp] at henc
      dsimp only at henc ⊢
      have htold := hx.allowed e hfind
      split_ifs at henc ⊢
      · have hcarries : v.Carries _ _ := Carries.moves (Client.valueUpdated_moves v.tree put
          (Client.setValue { s.client with log := [] } v.tree CFloatText.atof put e value copied) e)
        have hset := hm.setValue put htold (hcarries.encodable henc) s.copy
        refine hset.trans (hcarries.advances (hcarries.encodable henc) ?_ s.copy)
        exact (Client.Minor.setValue v.tree CFloatText.atof put e value copied).observationHandler _
          hm.handled
      · exact hm.setValue put htold henc s.copy
      · exact Link.Advances.refl _

/-- A query for the object itself. -/
theorem Mirrored.ownQuery (hs : v.Mirrored s) {query : CString}
    (hx : v.Admissible (.query v.entity query) s) {r : Bool × Report.M2MReportHandler F × List Call}
    {h : ReportHandler F}
    (hh : (Client.createReportHandler { s.client with log := [] } v.entity).reportHandler v.entity =
      some h)
    (hr : (h.toM2MReportHandler.handleObservationAttribute query.1 .object .opaqueData).value =
      some r)
    (hclient : s.client.happen v.tree (.query v.entity query) =
      (Client.createReportHandler { s.client with log := [] } v.entity).onReportHandler v.entity
        fun _ => r.2) : v.Mirrored (s.happen v (.query v.entity query)) := by
  obtain ⟨h', hsame, hcases⟩ := h.toM2MReportHandler.handled_cases hr
  have hunder : h'.isUnderObservation = h.isUnderObservation := by
    have hkept := congrArg Report.M2MReportHandler.isUnderObservation (hsame h.toM2MReportHandler)
    exact hkept
  have hids : h'.changedInstanceIds = h.changedInstanceIds :=
    Report.changedInstanceIds_of_withAttributes hsame
  have hresult : r.2.1.isUnderObservation = h.isUnderObservation := by
    obtain ⟨-, htrue, heq⟩ | ⟨-, heq⟩ | ⟨-, heq⟩ := hcases
    · rw [heq, Report.M2MReportHandler.setUnderObservation_isUnderObservation, ← hunder, htrue]
    · rw [heq, hunder]
    · rw [heq, ← hunder]
      rfl
  cases hold : s.client.reportHandler v.entity with
  | none =>
    have hnew : h = {} := by
      simp only [Client.createReportHandler, hold, Client.setReportHandler_reportHandler,
        Function.update_self, Option.some.injEq] at hh
      exact hh.symm
    refine hs.unobserved ?_
    rw [hclient, Client.isUnderObservation, Client.onReportHandler_reportHandler,
      Function.update_self, hh, Option.map_some]
    exact hresult.trans (by rw [hnew])
  | some h₀ =>
    have hcreate : Client.createReportHandler { s.client with log := [] } v.entity =
        { s.client with log := [] } := by
      simp only [Client.createReportHandler, hold]
    rw [hcreate] at hh hclient
    obtain rfl := Option.some.inj (hold.symm.trans hh)
    refine hs.carried hx rfl (hclient ▸ Carries.call_self fun h hh' => ?_)
    obtain rfl := Option.some.inj (hh.symm.trans hh')
    refine ⟨hresult, fun id hid => .inl ?_⟩
    obtain ⟨-, -, heq⟩ | ⟨-, heq⟩ | ⟨hfalse, -⟩ := hcases
    · rw [heq, Report.observed_changedInstanceIds, hids]
      exact hid
    · rw [heq, hids]
      exact hid
    · obtain hnone | htaken := hx.allowed.2 rfl
      · rw [collected_of_some (m := { s.client with log := [] }) hold] at hnone
        rw [hnone] at hid
        cases hid
      · rw [htaken h₀ r hold hr] at hfalse
        cases hfalse

theorem Mirrored.query (hs : v.Mirrored s) {e : Entity} {query : CString}
    (hx : v.Admissible (.query e query) s) : v.Mirrored (s.happen v (.query e query)) := by
  obtain ⟨m', hm'⟩ := Option.isSome_iff_exists.mp hx.allowed.1
  have hhappen : s.client.happen v.tree (.query e query) = m' := by
    rw [Client.happen, hm']
  obtain ⟨h, hh, hrest⟩ := Option.bind_eq_some_iff.mp hm'
  obtain ⟨r, hr, hlast⟩ := Option.bind_eq_some_iff.mp hrest
  have hclient := Option.some.inj hlast
  rw [← hhappen] at hclient
  by_cases he : e = v.entity
  · subst he
    refine hs.ownQuery hx hh hr ?_
    rw [← hclient]
    exact if_neg (by simp [entity, Entity.baseType])
  · refine hs.carried hx rfl ?_
    rw [← hclient]
    have hcall : v.Carries { s.client with log := [] }
        ((Client.createReportHandler { s.client with log := [] } e).onReportHandler e
          fun _ => r.2) :=
      (Carries.createReportHandler he).trans (Carries.call_other he _)
    exact (hcall.trans (Carries.foldl (fun m c _ => Carries.trigger c 0) _)).ite hcall

theorem Mirrored.step (hs : v.Mirrored s) (hx : v.Admissible x s) : v.Mirrored (s.happen v x) := by
  cases x with
  | tree ev =>
    cases ev with
    | get request => exact hs.get hx
    | reset token => exact hs.reset hx
    | setValue e value copied put => exact hs.setValue hx
    | clearValue e put => exact hs.clearValue hx
    | putValue uriPath value copied put => exact hs.putValue hx
    | publish i put =>
      exact hs.carried hx rfl
        (Carries.moves (Client.createNsdlObjectStructure_moves v.tree put _ (.object i)))
  | timerExpired e type => exact hs.carried hx rfl (Carries.timerExpired e type)
  | query e query => exact hs.query hx

theorem Mirrored.faithful (hs : v.Mirrored s) : v.Faithful s := by
  refine ⟨fun hu id hid => ?_, fun hu => ?_⟩
  · exact hs.tracks hu fun hpending => hid hpending.1
  · have hcarries : v.Carries { s.client with log := [] }
        (s.client.happen v.tree (.timerExpired v.entity .pMinTimer)) :=
      Carries.timerExpired v.entity .pMinTimer
    have htracks := (hs.tracks hu).advance
      (hcarries.advances (hs.encodable hu) (hs.handled hu) s.copy)
    have hnone : v.pending (s.client.happen v.tree (.timerExpired v.entity .pMinTimer)) = ∅ := by
      obtain ⟨h, hh⟩ := exists_handler hu
      have hnew : (s.client.happen v.tree (.timerExpired v.entity .pMinTimer)).reportHandler
          v.entity = some (Client.called (·.occur (.timerExpired .pMinTimer)) h) := by
        rw [Client.happen, Client.onReportHandler_reportHandler, Function.update_self, hh,
          Option.map_some]
      have hempty := Due.pmin (hs.due h hh)
      refine Set.eq_empty_iff_forall_notMem.mpr fun id hid => ?_
      have hmem := hid.1
      rw [collected_of_some hnew] at hmem
      change id ∈ (Report.M2MReportHandler.occur (.timerExpired .pMinTimer)
        h.toM2MReportHandler).1.changedInstanceIds.1 at hmem
      rw [hempty] at hmem
      cases hmem
    have hcopy := htracks.copy_eq hnone
    refine Eq.trans hcopy ?_
    change v.known (s.client.happen v.tree (.timerExpired v.entity .pMinTimer)) = _
    rw [known, hcarries.shown]
    rfl

section Device

instance (wire : M2MResourceBase → Bytes) (r : M2MResource) : Decidable (Tlv.ResourceFits wire r) :=
  inferInstanceAs
    (Decidable (_ ∧ _ ∧ (_ → ∀ i ∈ r.instances, (wire i.toM2MResourceBase).length < _)))

instance (wire : M2MResourceBase → Bytes) (oi : M2MObjectInstance) :
    Decidable (Tlv.ObjectInstanceFits wire oi) :=
  inferInstanceAs (Decidable (_ ∧ ∀ r ∈ oi.resources, Tlv.ResourceFits wire r))

instance (commonWrite64Bit : UInt64 → Vector UInt8 8) (obj : M2MObject) :
    Decidable (Observe.Encodable commonWrite64Bit obj) :=
  decidable_of_iff
    ((∀ oi ∈ obj.instances, Tlv.ObjectInstanceFits (Tlv.wireValue commonWrite64Bit) oi) ∧
    (obj.instances.flatMap (Tlv.objectInstanceBytes (Tlv.wireValue commonWrite64Bit))).length <
      2 ^ 16)
    ⟨fun h => ⟨h.1, h.2⟩, fun h => ⟨h.fits, h.short⟩⟩

instance (v : View) (m : Client F) : Decidable (v.Encodable m) :=
  inferInstanceAs (Decidable (Observe.Encodable _ _))

/-- The device object with the resources 0 and 9. -/
def deviceView : View :=
  { tree := device
    object := 0
    names := ⟨fun e => if e = .resource 0 0 0 then [48] else [57], fun _ => 0⟩
    labels := ⟨[1], 0, 0⟩
    commonWrite64Bit := Tlv.bigEndian }

/-- `pmin=10` -/
def tenSeconds : CString := ⟨[0x70, 0x6D, 0x69, 0x6E, 0x3D, 0x31, 0x30], by decide⟩

def deviceRun : List Happening :=
  [.tree (.get (.served [51] 0 [1])), .query (.object 0) tenSeconds,
    .tree (.setValue (.resource 0 0 1) [53] true fun _ => true),
    .tree (.setValue (.resource 0 0 0) [65] true fun _ => true)]

end Device

end Session
end View
end MbedClient.Observe
