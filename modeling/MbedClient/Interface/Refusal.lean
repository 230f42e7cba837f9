import MbedClient.Interface.Rules

/-! Calls of the application that the transition maps ignore, and what is left of them. -/
namespace MbedClient.Interface
open Callback Callback.Prog

def calls : Monitor M2MInterfaceImpl Output Entry (List Output)
  | .called o, _, y => y ++ [o]
  | _, _, y => y

def Entry.refused (i : M2MInterfaceImpl) : Entry → Bool
  | .bootstrap (some _) => (transition .bootstrap i.currentState).isNone
  | .registerObject (some _) _ => (transition .registerObject i.currentState).isNone
  | .updateRegistration _ _ _ =>
    !i.reconnecting && (transition .updateRegistration i.currentState).isNone
  | .unregisterObject => (transition .unregisterObject i.currentState).isNone
  | _ => false

def Entry.written (i : M2MInterfaceImpl) : Entry → M2MInterfaceImpl
  | .registerObject security _ => { i with registerServer := security }
  | .updateRegistration _ _ _ => { i with reconnectionState := .withUpdate }
  | _ => i

def Entry.writesNothing (i : M2MInterfaceImpl) : Entry → Bool
  | .registerObject security _ => i.registerServer == security
  | .updateRegistration _ _ _ => i.reconnectionState == .withUpdate
  | _ => true

section Refusal
variable {noisy : Bool} {i : M2MInterfaceImpl} {y : List Output} {operation : Operation}

/-- Callbacks that do nothing keep whatever there is. -/
abbrev byNothing : Contract M2MInterfaceImpl Output (List Output) := fun _ _ _ => True

def Refused (i : M2MInterfaceImpl) (t : M2MInterfaceImpl × List Output) : Prop :=
  t.1 = { i with eventIgnored := false } ∧ .error .notAllowed ∈ t.2

theorem refused_wp (h : (transition operation i.currentState).isNone = true)
    (data : Option EventData) (report : M2MInterfaceImpl → Bool)
    (hreport : report { i with eventIgnored := false } = true) :
    wp (machine noisy) calls byNothing (externalEvent operation data)
      (fun _ => wp (machine noisy) calls byNothing (refuse report) (fun _ => Refused i))
        (i, y) := by
  have hnone : ∀ s, transition operation i.currentState ≠ some s := fun s hs => by
    rw [hs] at h
    cases h
  apply wp_externalEvent _ fun s hs => absurd hs (hnone s)
  intro _ b
  rw [refuse, wp_bind, wp_read, wp_whenM]
  refine ⟨fun _ => ?_, nofun⟩
  rw [wp_bind, wp_modify, wp_bind, wp_read, wp_whenM]
  refine ⟨fun _ => ?_, fun hr => nomatch hr.symm.trans hreport⟩
  exact wp_tell_keep (I := Refused i) (fun _ => trivial)
    ⟨rfl, List.mem_append_right _ List.mem_cons_self⟩ fun _ _ ht => ht

/-- A refused call leaves behind what it has written, and tells the application so. -/
theorem refused_code {e : Entry} (h : e.refused i = true) :
    wp (machine noisy) calls byNothing (code e) (fun _ => Refused (e.written i)) (i, y) := by
  cases e with
  | bootstrap security =>
    cases security with
    | none => cases h
    | some security =>
      change wp (machine noisy) calls byNothing (bootstrap (some security)) _ _
      rw [bootstrap, wp_bind]
      exact refused_wp h _ _ rfl
  | registerObject security objectList =>
    cases security with
    | none => cases h
    | some security =>
      change wp (machine noisy) calls byNothing (registerObject (some security) objectList) _ _
      rw [registerObject, wp_bind, wp_modify, wp_bind]
      exact refused_wp (i := { i with registerServer := some security }) h _ _ rfl
  | updateRegistration security objectList lifetime =>
    obtain ⟨hrec, hmap⟩ := Bool.and_eq_true_iff.mp h
    have hgo : ∀ y, wp (machine noisy) calls byNothing (do
        let i ← Prog.read
        if i.reconnecting then pure ()
        else do
          Prog.modify fun i => { i with reconnectionState := .withUpdate }
          externalEvent .updateRegistration (some (.updateRegister security lifetime objectList))
          refuse fun i => !i.reconnecting)
        (fun _ => Refused { i with reconnectionState := .withUpdate }) (i, y) := by
      intro y
      have hgoes : ¬ i.reconnecting = true := by simpa using hrec
      rw [wp_bind, wp_read, if_neg hgoes, wp_bind, wp_modify, wp_bind]
      exact refused_wp (i := { i with reconnectionState := .withUpdate }) hmap _
        (fun i => !i.reconnecting) hrec
    change wp (machine noisy) calls byNothing (updateRegistration security objectList lifetime) _ _
    rw [updateRegistration, wp_bind, wp_whenM]
    refine ⟨fun _ => ?_, fun _ => hgo y⟩
    -- a lifetime that is too short is reported as well
    exact wp_tell_keep (I := (· = (i, y ++ [.error .invalidParameters]))) (fun _ => trivial) rfl
      fun _ _ ht => ht ▸ hgo _
  | unregisterObject =>
    change wp (machine noisy) calls byNothing unregisterObject _ _
    rw [unregisterObject, wp_bind]
    exact refused_wp h _ _ rfl
  | _ => cases h

/-- Answers alone do nothing. -/
theorem harmless_answers (values : List Bool) :
    ∀ r ∈ runReplies (machine noisy) calls (values.map fun b => .mk b []),
      Harmless (machine noisy) byNothing r := by
  induction values with
  | nil => exact nofun
  | cons b values ih =>
    intro r hr
    rw [List.map_cons, runReplies] at hr
    cases List.mem_cons.mp hr with
    | inl heq =>
      have hid : ∀ o t, r.2 o t = t := fun o t => by
        rw [heq]
        simp only [runReply, runMeanwhile]
      exact fun o t => ⟨fun _ _ ht => (hid o t).symm ▸ ht, fun _ => hid o t⟩
    | inr hmem => exact ih r hmem

theorem refused_run {e : Entry} (h : e.refused i = true) (values : List Bool) :
    Refused (e.written i)
      (runScript (machine noisy) calls (.mk e (values.map fun b => .mk b [])) (i, y)) := by
  rw [runScript]
  have hcode :
      wp (machine noisy) calls byNothing (code e) (fun _ => Refused (e.written i)) (i, y) :=
    refused_code h
  obtain ⟨-, ht⟩ := exec_wp (harmless_answers values) hcode
  exact ht

theorem written_eq_iff (i : M2MInterfaceImpl) (e : Entry) :
    ({ e.written i with eventIgnored := false } : M2MInterfaceImpl) =
      { i with eventIgnored := false } ↔
      e.writesNothing i = true := by
  cases e with
  | registerObject security objectList =>
    refine ⟨fun h => ?_, fun h => ?_⟩
    · have hsame : security = i.registerServer := congrArg (·.registerServer) h
      exact beq_iff_eq.mpr hsame.symm
    · obtain rfl := eq_of_beq h
      rfl
  | updateRegistration security objectList lifetime =>
    refine ⟨fun h => ?_, fun h => ?_⟩
    · have hsame : .withUpdate = i.reconnectionState := congrArg (·.reconnectionState) h
      exact beq_iff_eq.mpr hsame.symm
    · have hsame : i.reconnectionState = .withUpdate := eq_of_beq h
      exact congrArg (fun r => { i with reconnectionState := r, eventIgnored := false }) hsame.symm
  | _ => exact ⟨fun _ => rfl, fun _ => rfl⟩

end Refusal

/-- In every state, a call that its transition map ignores is answered with `NotAllowed`, and it
leaves the interface as it was if and only if what it writes before that is there already. -/
theorem refusal_harmless_iff (noisy : Bool) (i : M2MInterfaceImpl) (e : Entry)
    (h : e.refused i = true) (values : List Bool) :
    let t := runScript (machine noisy) calls (.mk e (values.map fun b => .mk b [])) (i, [])
    .error .notAllowed ∈ t.2 ∧
      (t.1 = { i with eventIgnored := false } ↔ e.writesNothing i = true) := by
  intro t
  obtain ⟨hstate, htold⟩ : Refused (e.written i) t := refused_run h values
  rw [hstate]
  exact ⟨htold, written_eq_iff i e⟩

/-- A second bootstrap, while the first is under way. -/
theorem refusal_harmless_bootstrap :
    let server : M2MSecurity := ⟨1, .bootstrap, [], noSecurity⟩
    let i : M2MInterfaceImpl := { currentState := .bootstrap, security := some server }
    let t := runScript (machine true) calls (.mk (.bootstrap (some server)) []) (i, [])
    .error .notAllowed ∈ t.2 ∧ (t.1 = { i with eventIgnored := false } ↔ true = true) :=
  refusal_harmless_iff true
    { currentState := .bootstrap, security := some ⟨1, .bootstrap, [], noSecurity⟩ }
    (.bootstrap (some ⟨1, .bootstrap, [], noSecurity⟩)) (by decide +kernel) []

/-- A registration with a second server is refused while that with the first is under way. Then the
first server answers, and the application hears that it has registered with the second. -/
theorem refusal_changes_report :
    let first : M2MSecurity := ⟨1, .lwm2mServer, coapScheme ++ [0x61, 0x3A, 0x31], noSecurity⟩
    let second : M2MSecurity := ⟨2, .lwm2mServer, coapScheme ++ [0x62, 0x3A, 0x32], noSecurity⟩
    let yes : Reply Entry := .mk true []
    let start := M2MInterfaceImpl.create {} [] [] .udp 0
    let registered : Script Entry := .mk .clientRegistered []
    let t := run (machine true) calls [.mk (.registerObject (some first) []) [yes, yes, yes, yes]]
      (start, [])
    let t' := runScript (machine true) calls (.mk (.registerObject (some second) []) []) t
    (Entry.registerObject (some second) []).refused t.1 = true ∧ t.1 ≠ t'.1 ∧
      .objectRegistered (some first) ∈ (runScript (machine true) calls registered t).2 ∧
      .objectRegistered (some second) ∈ (runScript (machine true) calls registered t').2 := by
  decide +kernel

end MbedClient.Interface
