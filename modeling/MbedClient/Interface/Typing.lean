import MbedClient.Interface.Steady

/-! Event data and the casts of the state functions that receive them. -/
namespace MbedClient.Interface
open Callback Callback.Prog

/-- Whether a state function has got data of another class than it casts to, and whether the
transition map of `update_registration` has been consulted in the idle state. -/
structure Typing where
  illTyped : Bool := false
  idleUpdate : Bool := false
deriving DecidableEq

def typing : Monitor M2MInterfaceImpl Output Entry Typing
  | .called (.stateFunction state data), _, y =>
    { y with illTyped := y.illTyped || !wellTyped state data }
  | .called (.transition .updateRegistration), i, y =>
    { y with idleUpdate := y.idleUpdate || decide (i.currentState = .idle) }
  | _, _, y => y

structure Told (t : M2MInterfaceImpl × Typing) : Prop where
  quiet : t.1.eventGenerated = false
  iff : t.2.illTyped = t.2.idleUpdate

section Told
variable {noisy : Bool} {t : M2MInterfaceImpl × Typing}

abbrev byTold : Contract M2MInterfaceImpl Output Typing := fun _ _ I => I = Told

/-- Entering a state keeps the balance if the data are typed as what has been noted says. -/
theorem Told.entering {s : EStates} {data : Option EventData}
    (h : (t.2.illTyped || !wellTyped s data) = t.2.idleUpdate) (b : Bool) :
    Told (entering typing s data b t) := ⟨rfl, h⟩

theorem Told.enterTyped {s : EStates} {data : Option EventData} (h : wellTyped s data = true)
    (ht : Told t) (b : Bool) : Told (Interface.entering typing s data b t) :=
  Told.entering (by rw [h, Bool.not_true, Bool.or_false]; exact ht.iff) b

theorem Told.assign (ht : Told t) {i : M2MInterfaceImpl}
    (hi : i.eventGenerated = t.1.eventGenerated) : Told (i, t.2) := ⟨hi.trans ht.quiet, ht.iff⟩

theorem told_lawful : Lawful typing byTold Told Told where
  quiet _ ht := ht.quiet
  contract _ _ _ := rfl
  called o t ho ht := by cases o <;> first | exact ht | cases ho
  answered _ _ _ _ ht := ht
  refused _ _ _ ht := ht
  minor _ _ ht hi _ := ht.assign hi.eventGenerated
  enter _ b _ _ ht := ht.enterTyped rfl b
  idle b _ ht := ht.enterTyped rfl b

theorem told_connects : Connects typing byTold Told Told where
  weaken _ ht := ht
  minor _ _ ht hi := ht.assign hi.eventGenerated
  created _ _ _ ht := ht
  contract _ _ _ _ _ := rfl
  called _ _ _ _ _ ht := ht
  answered _ _ _ _ _ _ ht := ht

/-- An internal event is all right if the balance is when the state is entered. -/
theorem Told.event {s : EStates} {data : Option EventData}
    (he : ∀ b, Told (Interface.entering typing s data b t)) :
    wp (machine noisy) typing byTold (internalEvent s data) (fun _ => Told) t := by
  apply told_lawful.event told_connects _ _ he
  · exact fun _ _ ht hi _ => ht.assign hi
  · exact fun _ _ _ _ _ ht' => wp_ask_keep (fun _ => rfl) ht' fun _ _ h => h

/-- The update is the one operation with an entry in its map that does not take its data: that of
the idle state. -/
theorem wellTyped_update {s s' : EStates} (hs : transition .updateRegistration s = some s')
    (security : Option M2MSecurity) (lifetime : UInt32) (objectList : M2MObjectList) :
    wellTyped s' (some (.updateRegister security lifetime objectList)) = !decide (s = .idle) := by
  cases s <;> cases hs <;> rfl

theorem told_update (security : Option M2MSecurity) (lifetime : UInt32) (objectList : M2MObjectList)
    (ht : Told t) : wp (machine noisy) typing byTold
      (externalEvent .updateRegistration (some (.updateRegister security lifetime objectList)))
      (fun _ => Told) t := by
  apply wp_externalEvent
  · intro hs _
    -- the idle state is not among those that ignore the update
    have hidle : t.1.currentState ≠ .idle := fun h => by
      rw [h] at hs
      cases hs
    refine ⟨ht.quiet, ?_⟩
    change t.2.illTyped = (t.2.idleUpdate || decide (t.1.currentState = .idle))
    rw [decide_eq_false hidle, Bool.or_false]
    exact ht.iff
  · intro s hs _
    refine Told.event (Told.entering ?_)
    rw [wellTyped_update hs, Bool.not_not]
    change (t.2.illTyped || _) = (t.2.idleUpdate || _)
    rw [ht.iff]

theorem told_steady : Steady noisy typing byTold Told where
  lawful := told_lawful
  assign _ _ ht hi _ _ := ht.assign hi
  consulted operation _ t hop ht := by cases operation <;> first | exact ht | exact (hop rfl).elim
  update security lifetime objectList _ ht := told_update security lifetime objectList ht
  event _ _ _ _ _ hd ht := Told.event fun b => ht.enterTyped hd b

theorem told_keeps (e : Entry) : Keeps (machine noisy) typing byTold Told e := by
  intro t ht
  apply told_steady.codeAll _ _ e ht
  · exact fun t' ht' => Told.event fun b => ht'.enterTyped rfl b
  · exact fun _ _ t' ht' => Told.event fun b => ht'.enterTyped rfl b

theorem told_honours : Honours (machine noisy) typing byTold := by
  rintro o b I rfl e -
  exact told_keeps e

end Told

/-- In every run the state functions have got the data they cast to if and only if the registration
has never been updated from the idle state. -/
theorem typed_iff (noisy : Bool) (config : Config) (endpointName domain : Bytes)
    (bindingMode : BindingMode) (listenPort : UInt16) (l : List (Script Entry)) :
    let t := run (machine noisy) typing l
      (M2MInterfaceImpl.create config endpointName domain bindingMode listenPort, {})
    t.2.illTyped = false ↔ t.2.idleUpdate = false := by
  intro t
  have ht : Told t := told_honours.run told_keeps l ⟨rfl, rfl⟩
  rw [ht.iff]

/-- An update of the registration before anything else hands `state_register` an
`M2MUpdateRegisterData`. -/
theorem update_illTyped : (run (machine false) typing
      [.mk (.updateRegistration none [] 0) []]
      (M2MInterfaceImpl.create {} [] [] .udp 0, {})).2.illTyped = true := by
  decide +kernel

end MbedClient.Interface
