import MbedClient.CallbackTotal
import MbedClient.Interface.Engine

/-! More fuel for the internal events changes nothing in a run that comes to an end. -/
namespace MbedClient.Interface
open Callback Callback.Prog

section StateFunctions
variable {event event' : InternalEvent} (hev : ∀ s data, Below (event s data) (event' s data))

theorem below_whenM {c : Bool} {p p' : Code Unit} (hp : Below p p') :
    Below (whenM c p) (whenM c p') := by
  cases c with
  | true => exact hp
  | false => exact .refl _

include hev

theorem below_fail (error : Error) : Below (fail event error) (fail event' error) :=
  (hev .idle none).bind fun _ => .refl _

theorem below_sendRegister : Below (sendRegister event) (sendRegister event') :=
  (Below.refl _).bind fun _ => below_whenM (below_fail hev _)

theorem below_stateBootstrap (data : Option EventData) :
    Below (stateBootstrap event data) (stateBootstrap event' data) := by
  refine (Below.refl _).bind fun _ => (Below.refl _).bind fun i => ?_
  split_ifs
  · exact (Below.refl _).bind fun _ => below_whenM (below_fail hev _)
  · exact .refl _

theorem below_stateBootstrapAddressResolved (data : Option EventData) :
    Below (stateBootstrapAddressResolved event data)
      (stateBootstrapAddressResolved event' data) := by
  unfold stateBootstrapAddressResolved
  split
  · refine (Below.refl _).bind fun _ => (Below.refl _).bind fun i => ?_
    cases bootstrapName i.endpointName i.domain with
    | none => exact .refl _
    | some name =>
      refine (Below.refl _).bind fun created => ?_
      cases created with
      | true => exact hev _ _
      | false => exact below_fail hev _
  · exact .refl _

theorem below_stateRegister (data : Option EventData) :
    Below (stateRegister event data) (stateRegister event' data) := by
  refine (Below.refl _).bind fun i => ?_
  split_ifs
  · exact (Below.refl _).bind fun _ => below_whenM (below_fail hev _)
  · exact .refl _

theorem below_stateRegisterAddressResolved (data : Option EventData) :
    Below (stateRegisterAddressResolved event data) (stateRegisterAddressResolved event' data) := by
  unfold stateRegisterAddressResolved
  split
  · refine (Below.refl _).bind fun _ => (Below.refl _).bind fun _ => (Below.refl _).bind fun i => ?_
    cases i.reconnectionState with
    | none => exact below_sendRegister hev
    | fullRegistration => exact below_sendRegister hev
    | withUpdate => exact hev _ _
  · exact .refl _

theorem below_stateUpdateRegistration (data : Option EventData) :
    Below (stateUpdateRegistration event data) (stateUpdateRegistration event' data) := by
  refine (Below.refl _).bind fun _ => (Below.refl _).bind fun success =>
    (Below.refl _).bind fun i => ?_
  split_ifs
  · exact (Below.refl _).bind fun _ => below_sendRegister hev
  · exact .refl _

theorem below_stateUnregister : Below (stateUnregister event) (stateUnregister event') :=
  (hev _ _).bind fun _ => (Below.refl _).bind fun _ => below_whenM (below_fail hev _)

theorem below_stateCoapDataReceived (data : Option EventData) :
    Below (stateCoapDataReceived event data) (stateCoapDataReceived event' data) := by
  unfold stateCoapDataReceived
  split
  · exact (hev _ _).bind fun _ => .refl _
  · exact .refl _

theorem below_stateFunction (s : EStates) (data : Option EventData) :
    Below (stateFunction event s data) (stateFunction event' s data) := by
  cases s with
  | bootstrap => exact below_stateBootstrap hev data
  | bootstrapAddressResolved => exact below_stateBootstrapAddressResolved hev data
  | register => exact below_stateRegister hev data
  | registerAddressResolved => exact below_stateRegisterAddressResolved hev data
  | updateRegistration => exact below_stateUpdateRegistration hev data
  | unregister => exact below_stateUnregister hev
  | coapDataReceived => exact below_stateCoapDataReceived hev data
  | unregistered => exact hev _ _
  | sendingCoapData => exact hev _ _
  | coapDataSent => exact hev _ _
  | processingCoapData => exact hev _ _
  | coapDataProcessed => exact hev _ _
  | idle => exact .refl _
  | bootstrapResourceCreated => exact .refl _
  | bootstrapWait => exact .refl _
  | bootstrapped => exact .refl _
  | registered => exact .refl _
  | waiting => exact .refl _

theorem below_stateEngine (n : Nat) : Below (stateEngine event n) (stateEngine event' n) := by
  induction n with
  | zero => exact .refl _
  | succ n ih =>
    refine (Below.refl _).bind fun i => below_whenM ?_
    exact (Below.refl _).bind fun _ => (Below.refl _).bind fun _ => (hev _ _).bind fun _ => ih

end StateFunctions

theorem below_internalEventAt (n k : Nat) (s : EStates) (data : Option EventData) :
    Below (internalEventAt n s data) (internalEventAt (n + k) s data) := by
  induction n generalizing s data with
  | zero => exact .diverge _
  | succ n ih =>
    rw [Nat.add_right_comm]
    exact (Below.refl _).bind fun _ => below_stateEngine (below_stateFunction ih) 1

end MbedClient.Interface
