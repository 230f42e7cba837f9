import MbedClient.Itoa
import MbedClient.Nsdl.Server
import MbedClient.Value

/-! The lifetime of a registration, as text in the endpoint and as the interval of the updates that
refresh it. -/
namespace MbedClient.Nsdl

structure EpParameters where
  endpointNamePtr : Option Bytes := none
  endpointNameLen : Nat := 0
  domainNamePtr : Option Bytes := none
  typePtr : Option Bytes := none
  bindingAndMode : UInt8 := 0
  lifetimePtr : Option Bytes := none
  lifetimeLen : Nat := 0
  deriving DecidableEq

/-- The endpoint, and the interval with which the registration timer was last started. The structure
of the endpoint is allocated once, which may have failed. -/
structure Registration where
  endpoint : Option EpParameters
  timer : Option UInt64 := none
  heap : Heap

/-- `alloc_string_copy` of a text, and what the pointer then shows. -/
def copyText (text : Bytes) (h : Heap) : Option Bytes × Heap :=
  let (copied, h) := allocStringCopy (UInt32.ofNat text.length) h
  (if copied then some text else none, h)

namespace Registration
variable (r : Registration)

/-- The parameter is an `int`; the text always fits in its buffer. -/
def setEndpointLifetimeBuffer (lifetime : Int32) : Registration :=
  match r.endpoint with
  | none => r
  | some e =>
    let (lifetimePtr, heap) := copyText (itoaC lifetime.toInt64) r.heap
    { r with
      endpoint := some { e with
        lifetimePtr := lifetimePtr
        lifetimeLen := match lifetimePtr with
          | none => 0
          | some text => text.length }
      heap := heap }

/-- `_endpoint_name` is the name from now on. -/
def createEndpoint (name type : Bytes) (lifeTime : Int32) (domain : Bytes) (mode : UInt8) :
    Registration :=
  match r.endpoint with
  | none => r
  | some _ =>
    let (namePtr, heap) := if name.isEmpty then (none, r.heap) else copyText name r.heap
    let e : EpParameters :=
      { endpointNamePtr := namePtr, endpointNameLen := name.length
        typePtr := if type.isEmpty then none else some type
        domainNamePtr := if domain.isEmpty then none else some domain
        bindingAndMode := mode }
    let r := { r with endpoint := some e, heap := heap }
    if 0 < lifeTime then r.setEndpointLifetimeBuffer lifeTime else r

/-- `_registration_timer->start_timer(registration_time() * 1000, ..)` -/
def startRegistrationTimer : Registration :=
  { r with timer := some (registrationTime (r.endpoint.bind (·.lifetimePtr)) * 1000) }

def freeLifetime : Registration :=
  { r with endpoint := r.endpoint.map ({ · with lifetimePtr := none, lifetimeLen := 0 }) }

/-- `send_update_registration` after it has published the objects; `update` is what
`sn_nsdl_update_registration` makes of the new lifetime. -/
def sendUpdateRegistration (update : Option Bytes → Bool) (lifetime : UInt32) :
    Bool × Registration :=
  if lifetime ≠ 0 then
    let r := (r.freeLifetime.setEndpointLifetimeBuffer lifetime.toInt32).startRegistrationTimer
    match r.endpoint.bind (·.lifetimePtr) with
    | none => (false, r)
    | some text => (update (some text), r)
  else (update none, r)

/-- The answer to a registration: 2.01 with its options, if it has any. The endpoint is not tested
for NULL. -/
def received (maxAge : Option UInt32) : Option Registration :=
  match r.endpoint with
  | none => none
  | some _ =>
    let r := match maxAge with
      | none => r
      | some maxTime =>
        if 0 < maxTime then r.freeLifetime.setEndpointLifetimeBuffer maxTime.toInt32
        else r.freeLifetime
    if (r.endpoint.bind (·.lifetimePtr)).isSome then some r.startRegistrationTimer else some r

/-- The lifetime is in the endpoint as text, and its registration is refreshed before it ends. -/
def Refreshed (lifetime : Nat) : Prop := ∃ e, r.endpoint = some e ∧
  e.lifetimePtr = some (Decimal.digits lifetime) ∧
  e.lifetimeLen = (Decimal.digits lifetime).length ∧
  0 < (registrationTime e.lifetimePtr).toNat ∧ (registrationTime e.lifetimePtr).toNat < lifetime

end Registration

section Text

theorem copyText_eq {text : Bytes} (h : Heap) (hl : text.length + 1 < 2 ^ 32) :
    copyText text h = (if h.malloc.1 then some text else none, h.malloc.2) := by
  have hsize : UInt32.ofNat text.length + 1 ≠ 0 := by
    intro hzero
    have hnat := congrArg UInt32.toNat hzero
    rw [UInt32.toNat_add, UInt32.toNat_ofNat', UInt32.toNat_one, UInt32.toNat_zero] at hnat
    omega
  rw [copyText, allocStringCopy, if_neg hsize]

theorem itoaC_int (l : Int32) :
    itoaC l.toInt64 = decimalText l.toInt ∧ (itoaC l.toInt64).length + 1 < 2 ^ 32 := by
  have hge := l.le_toInt
  have hne : l.toInt64 ≠ Int64.minValue := by
    intro hmin
    have hint := congrArg Int64.toInt hmin
    rw [Int32.toInt_toInt64] at hint
    have hvalue : Int64.minValue.toInt = -2 ^ 63 := rfl
    omega
  have htext : itoaC l.toInt64 = decimalText l.toInt := by
    rw [itoaC_decimalText hne, Int32.toInt_toInt64]
  have hlength := length_decimalText l.toInt64
  rw [Int32.toInt_toInt64] at hlength
  refine ⟨htext, ?_⟩
  rw [htext]
  omega

theorem registrationTime_toNat {lifetime : Nat} (hhigh : lifetime < 2 ^ 31) :
    (registrationTime (some (Decimal.digits lifetime))).toNat =
      if 3600 ≤ lifetime then lifetime - 900 else lifetime * 3 / 4 := by
  have hatoll : atoll (Decimal.digits lifetime) = lifetime := by
    rw [atoll, numeral_digits (Decimal.digits_isDigit _) (Decimal.digits_ne_nil _)]
    simp only [Bool.false_eq_true, if_false, Decimal.value_digits]
    omega
  have hvalue : (UInt64.ofInt (lifetime : Int)).toNat = lifetime := by
    rw [UInt64.ofInt, UInt64.toNat_ofNat']
    omega
  simp only [registrationTime, hatoll]
  generalize UInt64.ofInt (lifetime : Int) = value at hvalue
  have hlong : value ≥ 3600 ↔ 3600 ≤ lifetime := by
    rw [ge_iff_le, UInt64.le_iff_toNat_le, hvalue]
    rfl
  simp only [hlong]
  split_ifs with h
  · rw [UInt64.toNat_sub_of_le _ _ (UInt64.le_iff_toNat_le.mpr (by
      rw [hvalue]
      exact Nat.le_trans (by decide) h)), hvalue]
    rfl
  · rw [UInt64.toNat_div, UInt64.toNat_mul, hvalue]
    change lifetime * 3 % 2 ^ 64 / 4 = _
    rw [Nat.mod_eq_of_lt (by omega)]

/-- A registration lasts longer than its refresh interval. -/
theorem registrationTime_digits {lifetime : Nat} (hlow : 60 ≤ lifetime)
    (hhigh : lifetime < 2 ^ 31) :
    0 < (registrationTime (some (Decimal.digits lifetime))).toNat ∧
      (registrationTime (some (Decimal.digits lifetime))).toNat < lifetime := by
  rw [registrationTime_toNat hhigh]
  split_ifs <;> omega

end Text

namespace Registration
variable (r : Registration)

theorem refreshed_congr {r' : Registration} (he : r'.endpoint = r.endpoint) (lifetime : Nat) :
    r'.Refreshed lifetime ↔ r.Refreshed lifetime := by
  rw [Refreshed, Refreshed, he]

/-- An `int` is stored as it is, which is the lifetime unless it has become negative. -/
theorem setEndpointLifetimeBuffer_refreshed {l : Int32} {lifetime : Nat} (hlow : 60 ≤ lifetime)
    (hint : l.toInt = lifetime ∨ l.toInt < 0 ∧ 2 ^ 31 ≤ lifetime) :
    (r.setEndpointLifetimeBuffer l).Refreshed lifetime ↔
      r.endpoint.isSome = true ∧ lifetime < 2 ^ 31 ∧ r.heap.malloc.1 = true := by
  obtain ⟨htext, hlength⟩ := itoaC_int l
  have hlt := l.toInt_lt
  cases he : r.endpoint with
  | none =>
    refine iff_of_false ?_ (by simp)
    rintro ⟨e, hsome, -⟩
    rw [setEndpointLifetimeBuffer, he] at hsome
    exact absurd (he.symm.trans hsome) (by simp)
  | some e =>
    simp only [setEndpointLifetimeBuffer, he, copyText_eq r.heap hlength, Option.isSome_some,
      true_and]
    cases hm : r.heap.malloc.1 with
    | false => simp [Refreshed]
    | true =>
      simp only [Refreshed, if_true, Option.some.injEq, exists_eq_left', and_true, htext]
      rcases hint with hint | ⟨hneg, hhigh⟩
      · have hdigits : decimalText l.toInt = Decimal.digits lifetime := by
          rw [decimalText, if_neg (by omega), hint, Int.natAbs_natCast]
        rw [hdigits]
        have hhigh : lifetime < 2 ^ 31 := by omega
        exact iff_of_true ⟨rfl, rfl, registrationTime_digits hlow hhigh⟩ hhigh
      · refine iff_of_false ?_ (by omega)
        rintro ⟨hsame, -⟩
        rw [decimalText, if_pos hneg] at hsame
        have hminus := Decimal.digits_isDigit lifetime 0x2D (hsame ▸ List.mem_cons_self)
        exact absurd hminus (by decide)

end Registration

/-! The same buffer in the state that received messages change. -/
section Received
variable {s : NsdlInterface} {header : CoapHeader}

/-- The endpoint has the lifetime of the interface, and both use one heap. -/
structure Registration.Backs (r : Registration) (s : NsdlInterface) : Prop where
  lifetime : r.endpoint.map (·.lifetimePtr) = some s.lifetime
  heap : r.heap = s.heap

theorem Registration.Backs.bind_lifetime {r : Registration} (h : r.Backs s) :
    r.endpoint.bind (·.lifetimePtr) = s.lifetime := by
  obtain ⟨e, he, hlifetime⟩ := Option.map_eq_some_iff.mp h.lifetime
  rw [he]
  exact hlifetime

theorem Registration.Backs.setEndpointLifetimeBuffer {r : Registration} (h : r.Backs s)
    (l : Int32) : (r.setEndpointLifetimeBuffer l).Backs (Nsdl.setEndpointLifetimeBuffer s l) := by
  obtain ⟨e, he, -⟩ := Option.map_eq_some_iff.mp h.lifetime
  have hwide : Int64.ofInt l.toInt = l.toInt64 := by
    rw [← Int32.toInt_toInt64, Int64.ofInt_toInt]
  simp only [Registration.setEndpointLifetimeBuffer, he, h.heap, copyText_eq s.heap (itoaC_int l).2,
    Nsdl.setEndpointLifetimeBuffer, hwide]
  exact ⟨rfl, rfl⟩

/-- The registration timer is started with the interval that the interface has called for. -/
structure Registration.Times (r : Registration) (s : NsdlInterface) : Prop where
  timer : r.timer = some (registrationTime s.lifetime * 1000)
  called : s.calls.getLast? = some (.startRegistrationTimer (registrationTime s.lifetime * 1000))

theorem Registration.Backs.restart {r : Registration} (h : r.Backs s) :
    ∃ r', (if (r.endpoint.bind (·.lifetimePtr)).isSome then some r.startRegistrationTimer
        else some r) = some r' ∧
      r'.Backs (if s.lifetime.isSome then Nsdl.startRegistrationTimer s else s) ∧
      ((if s.lifetime.isSome then Nsdl.startRegistrationTimer s else s).lifetime.isSome = true →
        r'.Times (if s.lifetime.isSome then Nsdl.startRegistrationTimer s else s)) := by
  rw [h.bind_lifetime]
  by_cases hsome : s.lifetime.isSome = true
  · rw [if_pos hsome, if_pos hsome]
    refine ⟨_, rfl, ⟨h.lifetime, h.heap⟩, fun _ => ⟨?_, ?_⟩⟩
    · rw [startRegistrationTimer, h.bind_lifetime]
      rfl
    · simp [Nsdl.startRegistrationTimer, NsdlInterface.tell]
  · rw [if_neg hsome, if_neg hsome]
    exact ⟨_, rfl, h, fun hs => absurd hs hsome⟩

theorem Registration.Backs.takeOptions {r : Registration} (h : r.Backs s) (options : OptionsList) :
    (if 0 < options.maxAge then r.freeLifetime.setEndpointLifetimeBuffer options.maxAge.toInt32
      else r.freeLifetime).Backs (Nsdl.takeOptions s options) := by
  have hfree : r.freeLifetime.Backs { s with lifetime := none } := by
    refine ⟨?_, h.heap⟩
    obtain ⟨e, he, -⟩ := Option.map_eq_some_iff.mp h.lifetime
    rw [Registration.freeLifetime, he]
    rfl
  have hstored : (if 0 < options.maxAge then
        r.freeLifetime.setEndpointLifetimeBuffer options.maxAge.toInt32
      else r.freeLifetime).Backs
      (if options.maxAge > 0 then
        Nsdl.setEndpointLifetimeBuffer { s with lifetime := none } options.maxAge.toInt32
      else { s with lifetime := none }) := by
    by_cases hage : 0 < options.maxAge
    · rw [if_pos hage, if_pos hage]
      exact hfree.setEndpointLifetimeBuffer _
    · rw [if_neg hage, if_neg hage]
      exact hfree
  unfold Nsdl.takeOptions
  cases options.locationPath with
  | none => exact hstored
  | some location => exact ⟨hstored.lifetime, hstored.heap⟩

/-- The answer to a registration does to the endpoint what it does to the interface. -/
theorem Registration.Backs.received {r : Registration} (h : r.Backs s)
    (hcreated : header.msgCode = .created) :
    ∃ r', r.received (header.options.map fun options => options.maxAge) = some r' ∧
      r'.Backs (receivedRegistration header s) ∧
      ((receivedRegistration header s).lifetime.isSome = true →
        r'.Times (receivedRegistration header s)) := by
  obtain ⟨e, he, -⟩ := Option.map_eq_some_iff.mp h.lifetime
  have hsame : r.Backs (s.tell .clientRegistered) := ⟨h.lifetime, h.heap⟩
  simp only [receivedRegistration, if_pos hcreated, Registration.received, he]
  cases header.options with
  | none => exact hsame.restart
  | some options => exact (hsame.takeOptions options).restart

end Received

/-- Where a lifetime comes from: `create_endpoint`, an update, or the `Max-Age` of the server. -/
inductive LifetimeSource where
  | created (name type : Bytes) (lifeTime : Int32) (domain : Bytes) (mode : UInt8)
  | updated (update : Option Bytes → Bool) (lifetime : UInt32)
  | granted (maxAge : UInt32)

namespace LifetimeSource

def lifetime : LifetimeSource → Nat
  | created _ _ lifeTime _ _ => lifeTime.toInt.toNat
  | updated _ lifetime => lifetime.toNat
  | granted maxAge => maxAge.toNat

/-- Nothing where the endpoint is read through a NULL pointer. -/
def apply (r : Registration) : LifetimeSource → Option Registration
  | created name type lifeTime domain mode => some (r.createEndpoint name type lifeTime domain mode)
  | updated update lifetime => some (r.sendUpdateRegistration update lifetime).2
  | granted maxAge => r.received (some maxAge)

def heapForText (h : Heap) : LifetimeSource → Heap
  | created name .. => if name.isEmpty then h else (copyText name h).2
  | _ => h

theorem toInt_toInt32 (l : UInt32) :
    l.toInt32.toInt = l.toNat ∨ l.toInt32.toInt < 0 ∧ 2 ^ 31 ≤ l.toNat := by
  have hlt := l.toNat_lt
  have hint : l.toInt32.toInt = (l.toNat : Int).bmod (2 ^ 32) := by
    change l.toInt32.toBitVec.toInt = _
    rw [UInt32.toBitVec_toInt32, BitVec.toInt_eq_toNat_bmod]
    rfl
  rw [hint, Int.bmod_def]
  split_ifs <;> omega

theorem freeLifetime_isSome (r : Registration) :
    r.freeLifetime.endpoint.isSome = r.endpoint.isSome := Option.isSome_map

/-- A lifetime of a minute or more is stored and refreshed in time exactly if it is less than 2^31
seconds and its text could be copied. -/
theorem refreshed_iff (r : Registration) (s : LifetimeSource) (hlow : 60 ≤ s.lifetime) :
    (∃ r', s.apply r = some r' ∧ r'.Refreshed s.lifetime) ↔
      r.endpoint.isSome = true ∧ s.lifetime < 2 ^ 31 ∧ (s.heapForText r.heap).malloc.1 = true := by
  cases s with
  | created name type lifeTime domain mode =>
    simp only [lifetime] at hlow
    have hpos : 0 < lifeTime := by
      rw [Int32.lt_iff_toInt_lt]
      change 0 < lifeTime.toInt
      omega
    have hint : lifeTime.toInt = (lifeTime.toInt.toNat : Nat) := by
      omega
    simp only [apply, Option.some.injEq, exists_eq_left', lifetime, heapForText]
    cases he : r.endpoint with
    | none =>
      refine iff_of_false ?_ (by simp)
      rintro ⟨e, hsome, -⟩
      rw [Registration.createEndpoint, he] at hsome
      exact absurd (he.symm.trans hsome) (by simp)
    | some e =>
      simp only [Registration.createEndpoint, he, if_pos hpos]
      rw [Registration.setEndpointLifetimeBuffer_refreshed _ hlow (Or.inl hint)]
      cases name.isEmpty <;> rfl
  | updated update lifetime =>
    have hne : lifetime ≠ 0 := by
      rintro rfl
      exact absurd hlow (by simp [lifetime])
    have hbuffer := r.freeLifetime.setEndpointLifetimeBuffer_refreshed hlow (toInt_toInt32 lifetime)
    rw [freeLifetime_isSome] at hbuffer
    simp only [apply, Option.some.injEq, exists_eq_left', heapForText]
    refine Iff.trans (Registration.refreshed_congr _ ?_ _) hbuffer
    rw [Registration.sendUpdateRegistration, if_pos hne]
    dsimp only
    split <;> rfl
  | granted maxAge =>
    have hpos : 0 < maxAge := by
      rw [UInt32.lt_iff_toNat_lt]
      exact lt_of_lt_of_le (by decide) hlow
    have hbuffer := r.freeLifetime.setEndpointLifetimeBuffer_refreshed hlow (toInt_toInt32 maxAge)
    rw [freeLifetime_isSome] at hbuffer
    cases he : r.endpoint with
    | none => simp [apply, Registration.received, he]
    | some e =>
      rw [he] at hbuffer
      simp only [apply, Registration.received, he, if_pos hpos]
      refine Iff.trans ?_ hbuffer
      split_ifs
      · simp only [Option.some.injEq, exists_eq_left']
        exact Registration.refreshed_congr _ rfl _
      · simp only [Option.some.injEq, exists_eq_left']

/-- An update to an hour, with memory for its text. -/
theorem hour_refreshed :
    ∃ r', (updated (fun _ => true) 3600).apply ⟨some {}, none, fun _ => true⟩ = some r' ∧
      r'.Refreshed 3600 :=
  (refreshed_iff ⟨some {}, none, fun _ => true⟩ (updated (fun _ => true) 3600) (by decide)).mpr
    ⟨rfl, by decide, rfl⟩

/-- The server grants 2^31 seconds: the text is `-2147483648`, and the interval is almost 2^64
seconds. -/
theorem long_lifetime_negative :
    ¬∃ r', (granted 0x80000000).apply ⟨some {}, none, fun _ => true⟩ = some r' ∧
      r'.Refreshed (granted 0x80000000).lifetime := by
  rintro ⟨r', hr, e, he, htext, -⟩
  have hrun : (((granted 0x80000000).apply ⟨some {}, none, fun _ => true⟩).bind
      (·.endpoint)).bind (·.lifetimePtr) =
        some [0x2D, 0x32, 0x31, 0x34, 0x37, 0x34, 0x38, 0x33, 0x36, 0x34, 0x38] := by
    decide +kernel
  rw [hr, Option.bind_some, he, Option.bind_some, htext] at hrun
  revert hrun
  decide +kernel

end LifetimeSource
end MbedClient.Nsdl
