import Mathlib.Data.List.Nodup
import Mathlib.Logic.Function.Basic
import MbedClient.Trace

/-! `M2MCallbackStorage`: the callbacks of all objects, in one vector. An object and a callback are
known by their addresses, of which 0 is `NULL`. -/
namespace MbedClient.Callbacks

inductive M2MCallbackType where
  | valueUpdated | valueUpdated2
  | execute | execute2
  | incomingBlockMessage | outgoingBlockMessage
  | resourceCallback
  | notificationSent | notificationSent2
deriving DecidableEq

structure M2MCallbackAssociation where
  object : Nat
  callback : Nat
  type : M2MCallbackType
deriving DecidableEq

namespace M2MCallbackAssociation

def key (a : M2MCallbackAssociation) : Nat × M2MCallbackType := (a.object, a.type)

def isFor (object : Nat) (type : M2MCallbackType) (a : M2MCallbackAssociation) : Bool :=
  a.object == object && a.type == type

theorem isFor_iff {object : Nat} {type : M2MCallbackType} {a : M2MCallbackAssociation} :
    a.isFor object type = true ↔ a.key = (object, type) := by
  simp [isFor, key]

end M2MCallbackAssociation

abbrev M2MCallbackAssociationList := List M2MCallbackAssociation

section Vector
variable (callbacks : M2MCallbackAssociationList) (object callback : Nat) (type : M2MCallbackType)

def doesCallbackExist : Bool :=
  callbacks.any fun a => a.isFor object type && a.callback == callback

def doAddCallback : Bool × M2MCallbackAssociationList :=
  if doesCallbackExist callbacks object callback type then (false, callbacks)
  else (true, callbacks ++ [⟨object, callback, type⟩])

/-- The first association that is found goes, and its callback is handed out. -/
def doRemoveCallback : Nat × M2MCallbackAssociationList :=
  (((callbacks.find? (·.isFor object type)).map (·.callback)).getD 0,
    callbacks.eraseP (·.isFor object type))

def doGetCallback : Nat :=
  ((callbacks.find? (·.isFor object type)).map (·.callback)).getD 0

end Vector

/-- The shared instance, `NULL` until the first callback is added or asked for. -/
abbrev M2MCallbackStorage := Option M2MCallbackAssociationList

namespace M2MCallbackStorage
variable (s : M2MCallbackStorage) (object callback : Nat) (type : M2MCallbackType)

def getInstance : M2MCallbackAssociationList := s.getD []

def addCallback : Bool × M2MCallbackStorage :=
  ((doAddCallback s.getInstance object callback type).1,
    some (doAddCallback s.getInstance object callback type).2)

/-- It does not create the instance. -/
def removeCallback : Nat × M2MCallbackStorage :=
  match s with
  | none => (0, none)
  | some callbacks =>
    ((doRemoveCallback callbacks object type).1, some (doRemoveCallback callbacks object type).2)

def getCallback : Nat := doGetCallback s.getInstance object type

/-- The setters: the old callback out, and the new one or a copy of it in. -/
def setCallback : Bool × M2MCallbackStorage :=
  (s.removeCallback object type).2.addCallback object callback type

def setValueUpdatedFunction := s.setCallback object callback .valueUpdated
def setValueUpdatedFunction2 := s.setCallback object callback .valueUpdated2
def setExecuteFunction := s.setCallback object callback .execute
def setExecuteFunction2 := s.setCallback object callback .execute2
def setIncomingBlockMessageCallback := s.setCallback object callback .incomingBlockMessage
def setOutgoingBlockMessageCallback := s.setCallback object callback .outgoingBlockMessage
def setNotificationSentCallback := s.setCallback object callback .notificationSent
def setNotificationSentCallback2 := s.setCallback object callback .notificationSent2

def removeTypes (types : List M2MCallbackType) : M2MCallbackStorage :=
  types.foldl (fun s type => (s.removeCallback object type).2) s

def destroyBase : M2MCallbackStorage := s.removeTypes object [.valueUpdated, .valueUpdated2]

/-- `~M2MResourceBase`, after which that of its base class runs. -/
def destroyResourceBase : M2MCallbackStorage :=
  (s.removeTypes object [.execute, .execute2, .incomingBlockMessage, .outgoingBlockMessage,
    .notificationSent, .notificationSent2]).destroyBase object

end M2MCallbackStorage

/-- An object of the tree: only resources and their instances have the callbacks of
`M2MResourceBase`. -/
structure M2MBase where
  address : Nat
  isResourceBase : Bool
deriving DecidableEq

inductive Setter where
  | valueUpdatedFunction | valueUpdatedFunction2
  | executeFunction | executeFunction2
  | incomingBlockMessageCallback | outgoingBlockMessageCallback
  | notificationSentCallback | notificationSentCallback2
deriving DecidableEq

namespace Setter

def call (s : M2MCallbackStorage) (object callback : Nat) : Setter → Bool × M2MCallbackStorage
  | valueUpdatedFunction => s.setValueUpdatedFunction object callback
  | valueUpdatedFunction2 => s.setValueUpdatedFunction2 object callback
  | executeFunction => s.setExecuteFunction object callback
  | executeFunction2 => s.setExecuteFunction2 object callback
  | incomingBlockMessageCallback => s.setIncomingBlockMessageCallback object callback
  | outgoingBlockMessageCallback => s.setOutgoingBlockMessageCallback object callback
  | notificationSentCallback => s.setNotificationSentCallback object callback
  | notificationSentCallback2 => s.setNotificationSentCallback2 object callback

def type : Setter → M2MCallbackType
  | valueUpdatedFunction => .valueUpdated
  | valueUpdatedFunction2 => .valueUpdated2
  | executeFunction => .execute
  | executeFunction2 => .execute2
  | incomingBlockMessageCallback => .incomingBlockMessage
  | outgoingBlockMessageCallback => .outgoingBlockMessage
  | notificationSentCallback => .notificationSent
  | notificationSentCallback2 => .notificationSent2

def ofBase : Setter → Bool
  | valueUpdatedFunction | valueUpdatedFunction2 => true
  | _ => false

end Setter

inductive Event where
  | construct (object : M2MBase)
  | set (object : M2MBase) (setter : Setter) (callback : Nat)
  | destroy (object : M2MBase)

structure World where
  storage : M2MCallbackStorage := none
  live : List M2MBase := []

/-- Two objects that are alive have different addresses, and only such an object is called. -/
def Event.legal (live : List M2MBase) : Event → Bool
  | construct object => !(live.map (·.address)).contains object.address
  | set object setter _ => live.contains object && (object.isResourceBase || setter.ofBase)
  | destroy object => live.contains object

def Event.happen (w : World) : Event → World
  | construct object => { w with live := object :: w.live }
  | set object setter callback =>
    { w with storage := (setter.call w.storage object.address callback).2 }
  | destroy object =>
    { storage :=
        if object.isResourceBase then w.storage.destroyResourceBase object.address
        else w.storage.destroyBase object.address
      live := w.live.erase object }

def World.step (e : Event) (w : World) : World := if e.legal w.live then e.happen w else w

/-- What the storage is for: the callback of each object and type, 0 if there is none. -/
structure CallbackMap where
  callbacks : Nat → M2MCallbackType → Nat := fun _ _ => 0
  live : List M2MBase := []

def Event.record (a : CallbackMap) : Event → CallbackMap
  | construct object => { a with live := object :: a.live }
  | set object setter callback =>
    { a with callbacks := fun o t =>
        if (o, t) = (object.address, setter.type) then callback else a.callbacks o t }
  | destroy object =>
    { callbacks := fun o t => if o = object.address then 0 else a.callbacks o t
      live := a.live.erase object }

def CallbackMap.step (e : Event) (a : CallbackMap) : CallbackMap :=
  if e.legal a.live then e.record a else a

def Event.concerns (address : Nat) (type : M2MCallbackType) : Event → Bool
  | construct _ => false
  | set object setter _ => object.address == address && setter.type == type
  | destroy object => object.address == address

section Vector
variable {callbacks : M2MCallbackAssociationList} {object o callback : Nat}
variable {type t : M2MCallbackType}

/-- With one association a pair at most, to erase the first is to keep the others. -/
theorem eraseP_eq_filter (h : (callbacks.map (·.key)).Nodup) :
    callbacks.eraseP (·.isFor object type) = callbacks.filter (!·.isFor object type) := by
  induction callbacks with
  | nil => rfl
  | cons a callbacks ih =>
    obtain ⟨ha, hrest⟩ := List.nodup_cons.mp h
    by_cases hfor : a.isFor object type = true
    · have hothers : ∀ b ∈ callbacks, (!b.isFor object type) = true := by
        intro b hb
        rw [Bool.not_eq_true', Bool.eq_false_iff]
        intro hb'
        have hkey : b.key = a.key :=
          (M2MCallbackAssociation.isFor_iff.mp hb').trans
            (M2MCallbackAssociation.isFor_iff.mp hfor).symm
        exact ha (List.mem_map.mpr ⟨b, hb, hkey⟩)
      rw [List.eraseP_cons_of_pos hfor, List.filter_cons_of_neg (by simp [hfor]),
        List.filter_eq_self.mpr hothers]
    · rw [List.eraseP_cons_of_neg hfor, List.filter_cons_of_pos (by simpa using hfor), ih hrest]

theorem doGetCallback_filter {p : M2MCallbackAssociation → Bool}
    (hp : ∀ a : M2MCallbackAssociation, a.isFor o t = true → p a = true) :
    doGetCallback (callbacks.filter p) o t = doGetCallback callbacks o t := by
  have hsame : (fun a : M2MCallbackAssociation => decide (p a = true ∧ a.isFor o t = true)) =
      (·.isFor o t) := by
    funext a
    cases ha : a.isFor o t with
    | true => simp [hp a ha]
    | false => simp
  rw [doGetCallback, doGetCallback, List.find?_filter, hsame]

theorem doGetCallback_eq_zero (h : ∀ a ∈ callbacks, ¬a.isFor o t = true) :
    doGetCallback callbacks o t = 0 := by
  rw [doGetCallback, List.find?_eq_none.mpr h]
  rfl

theorem doGetCallback_append (h : ∀ a ∈ callbacks, ¬a.isFor object type = true) :
    doGetCallback (callbacks ++ [⟨object, callback, type⟩]) o t =
      if (o, t) = (object, type) then callback else doGetCallback callbacks o t := by
  rw [doGetCallback, List.find?_append]
  by_cases hkey : (o, t) = (object, type)
  · obtain ⟨rfl, rfl⟩ := Prod.mk.inj hkey
    rw [List.find?_eq_none.mpr h, if_pos rfl]
    simp [M2MCallbackAssociation.isFor]
  · have hnot : ¬(⟨object, callback, type⟩ : M2MCallbackAssociation).isFor o t = true := by
      rw [M2MCallbackAssociation.isFor_iff]
      exact Ne.symm hkey
    rw [List.find?_singleton, if_neg hnot, Option.or_none, if_neg hkey, doGetCallback]

end Vector

/-- The storage of the live objects: no pair has two associations, and none is of an object that is
gone or of a type without setter. -/
structure Sound (w : World) : Prop where
  pairs : (w.storage.getInstance.map (·.key)).Nodup
  addresses : (w.live.map (·.address)).Nodup
  owned : ∀ a ∈ w.storage.getInstance, ∃ object ∈ w.live, object.address = a.object ∧
    ∃ setter : Setter, setter.type = a.type ∧
      (object.isResourceBase || setter.ofBase) = true

theorem notMem_isFor (callbacks : M2MCallbackAssociationList) (object : Nat)
    (type : M2MCallbackType) :
    ∀ a ∈ callbacks.filter (!·.isFor object type), ¬a.isFor object type = true := by
  intro a ha
  simpa using (List.mem_filter.mp ha).2

section Storage
variable {s : M2MCallbackStorage} {object callback : Nat} {type : M2MCallbackType}

theorem removeCallback_instance (h : (s.getInstance.map (·.key)).Nodup) :
    (s.removeCallback object type).2.getInstance =
      s.getInstance.filter (!·.isFor object type) := by
  cases s with
  | none => rfl
  | some callbacks => exact eraseP_eq_filter h

theorem nodup_filter {callbacks : M2MCallbackAssociationList} (h : (callbacks.map (·.key)).Nodup)
    (p : M2MCallbackAssociation → Bool) : ((callbacks.filter p).map (·.key)).Nodup :=
  h.sublist (List.filter_sublist.map _)

/-- A setter always succeeds: what it could collide with has just been removed. -/
theorem setCallback_instance (h : (s.getInstance.map (·.key)).Nodup) :
    (s.setCallback object callback type).1 = true ∧
      (s.setCallback object callback type).2.getInstance =
        s.getInstance.filter (!·.isFor object type) ++ [⟨object, callback, type⟩] := by
  have hnone : doesCallbackExist (s.getInstance.filter (!·.isFor object type)) object callback
      type = false := by
    rw [doesCallbackExist, List.any_eq_false]
    intro a ha hboth
    have hfor := (List.mem_filter.mp ha).2
    rw [(Bool.and_eq_true_iff.mp hboth).1] at hfor
    exact Bool.false_ne_true hfor
  rw [M2MCallbackStorage.setCallback, M2MCallbackStorage.addCallback, removeCallback_instance h,
    doAddCallback, hnone]
  exact ⟨rfl, rfl⟩

theorem removeTypes_instance (object : Nat) (h : (s.getInstance.map (·.key)).Nodup)
    (types : List M2MCallbackType) :
    (s.removeTypes object types).getInstance =
      s.getInstance.filter fun a => !(a.object == object && types.contains a.type) := by
  induction types generalizing s with
  | nil => simp [M2MCallbackStorage.removeTypes]
  | cons type types ih =>
    have hremoved : (s.removeCallback object type).2.getInstance =
        s.getInstance.filter (!·.isFor object type) := removeCallback_instance h
    have hrest := ih (s := (s.removeCallback object type).2)
      (by rw [hremoved]; exact nodup_filter h _)
    change ((s.removeCallback object type).2.removeTypes object types).getInstance = _
    rw [hrest, hremoved, List.filter_filter]
    refine List.filter_congr fun a _ => ?_
    simp only [M2MCallbackAssociation.isFor, List.contains_cons]
    cases a.object == object <;> simp [Bool.and_comm]

end Storage

section Step
variable {w : World}

theorem Setter.call_eq (s : M2MCallbackStorage) (object callback : Nat) (setter : Setter) :
    setter.call s object callback = s.setCallback object callback setter.type := by
  cases setter <;> rfl

/-- Both destructors together forget all that the setters of the object have set. -/
theorem destroy_instance (h : Sound w) {object : M2MBase} (hlive : object ∈ w.live) :
    ((Event.destroy object).happen w).storage.getInstance =
      w.storage.getInstance.filter fun a => a.object != object.address := by
  have hknown : ∀ a ∈ w.storage.getInstance, a.object = object.address →
      ∃ setter : Setter, setter.type = a.type ∧
        (object.isResourceBase || setter.ofBase) = true := by
    intro a ha hobject
    obtain ⟨object', hlive', haddress, setter, htype, hof⟩ := h.owned a ha
    obtain rfl := List.inj_on_of_nodup_map h.addresses hlive' hlive (haddress.trans hobject)
    exact ⟨setter, htype, hof⟩
  change (if object.isResourceBase then w.storage.destroyResourceBase object.address
    else w.storage.destroyBase object.address).getInstance = _
  cases hbase : object.isResourceBase with
  | true =>
    rw [if_pos rfl, M2MCallbackStorage.destroyResourceBase, M2MCallbackStorage.destroyBase]
    have hfirst := removeTypes_instance object.address h.pairs
      [.execute, .execute2, .incomingBlockMessage, .outgoingBlockMessage, .notificationSent,
        .notificationSent2]
    rw [removeTypes_instance object.address (by rw [hfirst]; exact nodup_filter h.pairs _), hfirst,
      List.filter_filter]
    refine List.filter_congr fun a ha => ?_
    by_cases hobject : a.object = object.address
    · obtain ⟨setter, htype, -⟩ := hknown a ha hobject
      rw [← htype]
      cases setter <;> simp [hobject, Setter.type]
    · rw [beq_eq_false_iff_ne.mpr hobject, bne, beq_eq_false_iff_ne.mpr hobject]
      rfl
  | false =>
    rw [if_neg Bool.false_ne_true, M2MCallbackStorage.destroyBase,
      removeTypes_instance object.address h.pairs]
    refine List.filter_congr fun a ha => ?_
    by_cases hobject : a.object = object.address
    · obtain ⟨setter, htype, hof⟩ := hknown a ha hobject
      rw [hbase, Bool.false_or] at hof
      rw [← htype]
      cases setter <;> simp [hobject, Setter.type, Setter.ofBase] at hof ⊢
    · rw [beq_eq_false_iff_ne.mpr hobject, bne, beq_eq_false_iff_ne.mpr hobject]
      rfl

theorem set_instance (h : Sound w) (object : M2MBase) (setter : Setter) (callback : Nat) :
    ((Event.set object setter callback).happen w).storage.getInstance =
      w.storage.getInstance.filter (!·.isFor object.address setter.type) ++
        [⟨object.address, callback, setter.type⟩] := by
  rw [← (setCallback_instance h.pairs).2, ← Setter.call_eq]
  rfl

theorem set_sound (h : Sound w) {object : M2MBase} {setter : Setter} {callback : Nat}
    (hlegal : (Event.set object setter callback).legal w.live = true) :
    Sound ((Event.set object setter callback).happen w) := by
  obtain ⟨hlive, hof⟩ := Bool.and_eq_true_iff.mp hlegal
  refine ⟨?_, h.addresses, ?_⟩
  · rw [set_instance h, List.map_append, List.nodup_append]
    refine ⟨nodup_filter h.pairs _, List.nodup_singleton _, ?_⟩
    intro k hk k' hk' he
    obtain ⟨a, ha, rfl⟩ := List.mem_map.mp hk
    rw [List.map_singleton, List.mem_singleton] at hk'
    exact notMem_isFor _ _ _ a ha (M2MCallbackAssociation.isFor_iff.mpr (he.trans hk'))
  · rw [set_instance h]
    intro a ha
    rcases List.mem_append.mp ha with ha | ha
    · exact h.owned a (List.mem_filter.mp ha).1
    · obtain rfl := List.mem_singleton.mp ha
      exact ⟨object, List.contains_iff_mem.mp hlive, rfl, setter, rfl, hof⟩

theorem destroy_sound (h : Sound w) {object : M2MBase} (hlive : object ∈ w.live) :
    Sound ((Event.destroy object).happen w) := by
  refine ⟨?_, h.addresses.sublist (List.erase_sublist.map _), ?_⟩
  · rw [destroy_instance h hlive]
    exact nodup_filter h.pairs _
  · rw [destroy_instance h hlive]
    intro a ha
    obtain ⟨ha, hother⟩ := List.mem_filter.mp ha
    obtain ⟨object', hlive', haddress, hsetter⟩ := h.owned a ha
    refine ⟨object', (List.mem_erase_of_ne ?_).mpr hlive', haddress, hsetter⟩
    rintro rfl
    exact (bne_iff_ne.mp hother) haddress.symm

theorem construct_sound (h : Sound w) {object : M2MBase}
    (hlegal : (Event.construct object).legal w.live = true) :
    Sound ((Event.construct object).happen w) := by
  refine ⟨h.pairs, ?_, fun a ha => ?_⟩
  · refine List.nodup_cons.mpr ⟨fun hmem => ?_, h.addresses⟩
    rw [Event.legal, List.contains_iff_mem.mpr hmem] at hlegal
    exact Bool.false_ne_true hlegal
  · obtain ⟨object', hlive, hrest⟩ := h.owned a ha
    exact ⟨object', List.mem_cons_of_mem object hlive, hrest⟩

theorem step_sound (h : Sound w) (e : Event) : Sound (w.step e) := by
  rw [World.step]
  split_ifs with hlegal
  · cases e with
    | construct object => exact construct_sound h hlegal
    | set object setter callback => exact set_sound h hlegal
    | destroy object => exact destroy_sound h (List.contains_iff_mem.mp hlegal)
  · exact h

structure Represents (w : World) (a : CallbackMap) : Prop where
  sound : Sound w
  live : w.live = a.live
  callbacks : ∀ object type, w.storage.getCallback object type = a.callbacks object type

theorem Represents.step {a : CallbackMap} (h : Represents w a) (e : Event) :
    Represents (w.step e) (a.step e) := by
  refine ⟨step_sound h.sound e, ?_, ?_⟩
  · rw [World.step, CallbackMap.step, h.live]
    split_ifs
    · cases e <;> simp [Event.happen, Event.record, h.live]
    · exact h.live
  · intro o t
    rw [World.step, CallbackMap.step, h.live]
    split_ifs with hlegal
    · rw [← h.live] at hlegal
      cases e with
      | construct object => exact h.callbacks o t
      | set object setter callback =>
        rw [M2MCallbackStorage.getCallback, set_instance h.sound,
          doGetCallback_append (notMem_isFor _ _ _), Event.record]
        dsimp only
        rw [← h.callbacks]
        by_cases hkey : (o, t) = (object.address, setter.type)
        · rw [if_pos hkey, if_pos hkey]
        · rw [if_neg hkey, if_neg hkey, M2MCallbackStorage.getCallback]
          refine doGetCallback_filter fun b hb => ?_
          rw [Bool.not_eq_true', Bool.eq_false_iff]
          intro hb'
          rw [M2MCallbackAssociation.isFor_iff] at hb hb'
          exact hkey (hb.symm.trans hb')
      | destroy object =>
        rw [M2MCallbackStorage.getCallback,
          destroy_instance h.sound (List.contains_iff_mem.mp hlegal), Event.record]
        dsimp only
        rw [← h.callbacks]
        by_cases hobject : o = object.address
        · rw [if_pos hobject]
          refine doGetCallback_eq_zero fun b hb hfor => ?_
          have hkey := M2MCallbackAssociation.isFor_iff.mp hfor
          exact bne_iff_ne.mp (List.mem_filter.mp hb).2 ((congrArg Prod.fst hkey).trans hobject)
        · rw [if_neg hobject, M2MCallbackStorage.getCallback]
          refine doGetCallback_filter fun b hb => bne_iff_ne.mpr ?_
          have hkey := M2MCallbackAssociation.isFor_iff.mp hb
          exact fun he => hobject ((congrArg Prod.fst hkey).symm.trans he)
    · exact h.callbacks o t

theorem record_other {a : CallbackMap} {e : Event} {o : Nat} {t : M2MCallbackType}
    (h : e.concerns o t = false) : (a.step e).callbacks o t = a.callbacks o t := by
  rw [CallbackMap.step]
  split_ifs
  · cases e with
    | construct object => rfl
    | set object setter callback =>
      refine if_neg fun hkey => ?_
      obtain ⟨rfl, rfl⟩ := Prod.mk.inj hkey
      simp [Event.concerns] at h
    | destroy object =>
      refine if_neg fun hobject => ?_
      subst hobject
      simp [Event.concerns] at h
  · rfl

end Step

/-- The callback storage is a finite map: in every run no pair of an object and a type has two
associations, the callback found for a pair is the one set last, an event that is not about a pair
leaves its callback alone, and every association is of an object that is alive. -/
theorem storage_is_map (l : List Event) :
    let w := Trace.fold World.step l {}
    (w.storage.getInstance.map (·.key)).Nodup ∧
    (∀ object type, w.storage.getCallback object type =
      (Trace.fold CallbackMap.step l {}).callbacks object type) ∧
    (∀ e object type, e.concerns object type = false →
      (w.step e).storage.getCallback object type = w.storage.getCallback object type) ∧
    ∀ a ∈ w.storage.getInstance, ∃ object ∈ w.live, object.address = a.object := by
  intro w
  have hrun : Represents w (Trace.fold CallbackMap.step l {}) :=
    Trace.fold_simulates (fun e w a h => h.step e)
      ⟨⟨List.nodup_nil, List.nodup_nil, fun a ha => absurd ha List.not_mem_nil⟩, rfl,
        fun _ _ => rfl⟩
  refine ⟨hrun.sound.pairs, hrun.callbacks, fun e object type he => ?_, fun a ha => ?_⟩
  · rw [(hrun.step e).callbacks, record_other he, hrun.callbacks]
  · obtain ⟨object, hlive, haddress, -⟩ := hrun.sound.owned a ha
    exact ⟨object, hlive, haddress⟩

end MbedClient.Callbacks
