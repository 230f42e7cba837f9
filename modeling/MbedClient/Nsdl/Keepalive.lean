import MbedClient.Heartbeat
import MbedClient.Nsdl.Endpoint

/-! A registration over time: the timer of the client, the updates under way, and the lifetime that
the server counts down. -/
namespace MbedClient.Nsdl
open Heartbeat (Renewal Lease Line)

/-- A registered client and its server, in milliseconds. The messages under way show the text of a
new lifetime, and the server has the lifetime in seconds. -/
structure Tenure where
  registration : Registration
  elapsed : Nat := 0
  inFlight : List (Renewal Bytes) := []
  lease : Lease Nat

/-- A millisecond passes, the oldest message arrives, or the application updates its
registration. -/
inductive Moment where
  | tick
  | deliver
  | update (lifetime : UInt32)

namespace Registration
variable (r : Registration)

/-- What `send_update_registration` hands to `sn_nsdl_update_registration`, if it comes to that. -/
def updateSent (lifetime : UInt32) : Option (Option Bytes) :=
  if lifetime ≠ 0 then
    ((r.freeLifetime.setEndpointLifetimeBuffer lifetime.toInt32).endpoint.bind
      (·.lifetimePtr)).map some
  else some none

end Registration

namespace Tenure
-- `update` is `sn_nsdl_update_registration`, which tells whether it has sent the message.
variable (update : Option Bytes → Bool) (s : Tenure)

def pass : Tenure :=
  { s with
    elapsed := s.elapsed + 1
    inFlight := s.inFlight.map Renewal.older
    lease := s.lease.older }

/-- A new lifetime starts the timer again. -/
def sendUpdateRegistration (lifetime : UInt32) : Tenure :=
  let sent := (s.registration.updateSent lifetime).filter update
  { s with
    registration := (s.registration.sendUpdateRegistration update lifetime).2
    elapsed := if lifetime ≠ 0 then 0 else s.elapsed
    inFlight := s.inFlight ++ sent.toList.map (⟨·, 0⟩) }

/-- The server reads the text of a lifetime, if there is one. -/
def deliver : Tenure :=
  match s.inFlight with
  | [] => s
  | m :: rest =>
    { s with
      inFlight := rest
      lease := s.lease.renewed ⟨m.term.map Decimal.value, m.age⟩ }

/-- The registration timer is restarted at every expiry, where `timer_expired` sends an update
without a lifetime. -/
def step : Moment → Tenure → Tenure
  | .tick, s =>
    let s := s.pass
    match s.registration.timer with
    | none => s
    | some interval =>
      if s.elapsed < interval.toNat then s
      else { s with elapsed := 0 }.sendUpdateRegistration update 0
  | .deliver, s => s.deliver
  | .update lifetime, s => s.sendUpdateRegistration update lifetime

end Tenure

def milliseconds (lifetime : Nat) : Nat := lifetime * 1000

def refreshInterval (lifetime : Nat) : Nat :=
  (registrationTime (some (Decimal.digits lifetime)) * 1000).toNat

/-- A lifetime that is at least a minute and an `int`, and eight times the time that a message
takes, where no more than an hour counts. -/
def Roomy (delay lifetime : Nat) : Prop :=
  60 ≤ lifetime ∧ lifetime < 2 ^ 31 ∧ 8 * delay < milliseconds (min lifetime 3600)

namespace Tenure

/-- Every message arrives within the delay, and a new lifetime has room and can be copied. -/
def Admissible (delay : Nat) : Moment → Tenure → Prop
  | .tick, s => ∀ m ∈ s.inFlight, m.age < delay
  | .deliver, _ => True
  | .update lifetime, s =>
    lifetime = 0 ∨ Roomy delay lifetime.toNat ∧ s.registration.heap.malloc.1 = true

/-- The client as it is when the answer to its registration has come, which has taken `latency`. -/
def registered (r : Registration) (lifetime latency : Nat) : Tenure :=
  { registration := r, lease := ⟨lifetime, latency⟩ }

end Tenure

section Interval
variable {lifetime delay : Nat}

theorem refreshInterval_eq (hhigh : lifetime < 2 ^ 31) :
    refreshInterval lifetime =
      milliseconds (if 3600 ≤ lifetime then lifetime - 900 else lifetime * 3 / 4) := by
  rw [refreshInterval, UInt64.toNat_mul, registrationTime_toNat hhigh]
  change (if 3600 ≤ lifetime then lifetime - 900 else lifetime * 3 / 4) * 1000 % 2 ^ 64 = _
  rw [Nat.mod_eq_of_lt, milliseconds]
  split_ifs <;> omega

/-- A quarter of the lifetime is left when the timer ends, and of a long one a quarter of an
hour. -/
theorem Roomy.safe (h : Roomy delay lifetime) :
    Heartbeat.Safe refreshInterval milliseconds delay lifetime := by
  obtain ⟨hlow, hhigh, hroom⟩ := h
  unfold Heartbeat.Safe
  rw [refreshInterval_eq hhigh]
  unfold milliseconds at hroom ⊢
  split_ifs <;> omega

end Interval

/-- The endpoint has the text of a lifetime, with which the timer has been started. -/
structure Registration.Asks (r : Registration) (lifetime : Nat) : Prop where
  text : r.endpoint.bind (·.lifetimePtr) = some (Decimal.digits lifetime)
  timer : r.timer = some (registrationTime (some (Decimal.digits lifetime)) * 1000)

namespace Registration
variable {r : Registration} {lifetime : Nat}

theorem Refreshed.bind_text (h : r.Refreshed lifetime) :
    r.endpoint.bind (·.lifetimePtr) = some (Decimal.digits lifetime) := by
  obtain ⟨e, he, htext, -⟩ := h
  rw [he]
  exact htext

theorem Refreshed.asks (h : r.Refreshed lifetime) : r.startRegistrationTimer.Asks lifetime := by
  refine ⟨h.bind_text, ?_⟩
  rw [startRegistrationTimer, h.bind_text]

/-- The answer to a registration. -/
theorem received_asks {r' : Registration} {maxAge : UInt32}
    (hr : r.received (some maxAge) = some r')
    (hlow : 60 ≤ maxAge.toNat) (hhigh : maxAge.toNat < 2 ^ 31) (hmem : r.heap.malloc.1 = true) :
    r'.Asks maxAge.toNat := by
  have hpos : 0 < maxAge := by
    rw [UInt32.lt_iff_toNat_lt]
    exact Nat.lt_of_lt_of_le (by decide) hlow
  unfold received at hr
  cases he : r.endpoint with
  | none =>
    rw [he] at hr
    cases hr
  | some e =>
    have hsome : r.freeLifetime.endpoint.isSome = true := by
      rw [LifetimeSource.freeLifetime_isSome, he]
      rfl
    have hnew := (r.freeLifetime.setEndpointLifetimeBuffer_refreshed hlow
      (LifetimeSource.toInt_toInt32 maxAge)).mpr ⟨hsome, hhigh, hmem⟩
    rw [he] at hr
    dsimp only at hr
    rw [if_pos hpos, hnew.bind_text, Option.isSome_some, if_pos rfl] at hr
    exact Option.some.inj hr ▸ hnew.asks

/-- An update with a new lifetime. -/
theorem Asks.update (h : r.Asks lifetime) {new : UInt32} (hlow : 60 ≤ new.toNat)
    (hhigh : new.toNat < 2 ^ 31) (hmem : r.heap.malloc.1 = true) (update : Option Bytes → Bool) :
    (r.sendUpdateRegistration update new).2.Asks new.toNat ∧
      r.updateSent new = some (some (Decimal.digits new.toNat)) := by
  have hsome : r.freeLifetime.endpoint.isSome = true := by
    have htext := h.text
    rw [LifetimeSource.freeLifetime_isSome]
    cases he : r.endpoint with
    | none =>
      rw [he] at htext
      cases htext
    | some e => rfl
  have hnew := (r.freeLifetime.setEndpointLifetimeBuffer_refreshed hlow
    (LifetimeSource.toInt_toInt32 new)).mpr ⟨hsome, hhigh, hmem⟩
  have hne : new ≠ 0 := by
    rintro rfl
    exact absurd hlow (by decide)
  constructor
  · have hasks := hnew.asks
    rw [sendUpdateRegistration, if_pos hne]
    dsimp only
    split <;> exact hasks
  · rw [updateSent, if_pos hne, hnew.bind_text]
    rfl

end Registration

namespace Tenure
variable {update : Option Bytes → Bool} {delay : Nat} {s : Tenure} {l : Line Nat}

/-- What a message of the line looks like. -/
def written (m : Renewal Nat) : Renewal Bytes := ⟨m.term.map Decimal.digits, m.age⟩

/-- The tenure is an instance of a line whose terms are lifetimes. -/
structure Shows (s : Tenure) (l : Line Nat) : Prop where
  asks : s.registration.Asks l.term
  elapsed : s.elapsed = l.elapsed
  inFlight : s.inFlight = l.inFlight.map written
  lease : s.lease = l.lease

namespace Shows

theorem pass (h : s.Shows l) : s.pass.Shows l.pass := by
  refine ⟨h.asks, congrArg (· + 1) h.elapsed, ?_, congrArg Lease.older h.lease⟩
  change s.inFlight.map Renewal.older = (l.inFlight.map Renewal.older).map written
  rw [h.inFlight, List.map_map, List.map_map]
  rfl

theorem send {r : Registration} (h : s.Shows l) (term : Option Nat) (elapsed : Nat)
    (hasks : r.Asks (term.getD l.term)) :
    ({ s with
        registration := r
        elapsed := elapsed
        inFlight := s.inFlight ++ [⟨term.map Decimal.digits, 0⟩] } : Tenure).Shows
      ({ l with term := term.getD l.term, elapsed := elapsed }.send term) := by
  refine ⟨hasks, rfl, ?_, h.lease⟩
  let sent : Renewal Nat := ⟨term, 0⟩
  change s.inFlight ++ [written sent] = (l.inFlight ++ [sent]).map written
  rw [List.map_append, h.inFlight]
  rfl

/-- An update that leaves the lifetime as it is, after the timer or for the application. -/
theorem sendUpdateRegistration_zero (hupdate : ∀ text, update text = true) (h : s.Shows l) :
    (s.sendUpdateRegistration update 0).Shows (l.send none) := by
  have hsent : (s.registration.updateSent 0).filter update = some none := by
    rw [Registration.updateSent, if_neg (by simp), Option.filter_some, if_pos (hupdate none)]
  have hsend := h.send none l.elapsed h.asks
  unfold Tenure.sendUpdateRegistration
  rw [hsent, Registration.sendUpdateRegistration, if_neg (by simp), if_neg (by simp), h.elapsed]
  exact hsend

theorem sendUpdateRegistration (hupdate : ∀ text, update text = true) (h : s.Shows l)
    {new : UInt32} (hlow : 60 ≤ new.toNat) (hhigh : new.toNat < 2 ^ 31)
    (hmem : s.registration.heap.malloc.1 = true) :
    (s.sendUpdateRegistration update new).Shows
      (l.step refreshInterval (.restart new.toNat)) := by
  obtain ⟨hasks, htext⟩ := h.asks.update hlow hhigh hmem update
  have hne : new ≠ 0 := by
    rintro rfl
    exact absurd hlow (by decide)
  have hsent : (s.registration.updateSent new).filter update =
      some (some (Decimal.digits new.toNat)) := by
    rw [htext, Option.filter_some, if_pos (hupdate _)]
  have hsend := h.send (some new.toNat) 0 hasks
  unfold Tenure.sendUpdateRegistration
  rw [hsent, if_pos hne]
  exact hsend

theorem deliver (h : s.Shows l) : s.deliver.Shows l.deliver := by
  have hinFlight := h.inFlight
  unfold Tenure.deliver Line.deliver
  cases hqueue : l.inFlight with
  | nil =>
    rw [hqueue] at hinFlight
    rw [hinFlight]
    exact h
  | cons m rest =>
    rw [hqueue] at hinFlight
    rw [hinFlight]
    refine ⟨h.asks, h.elapsed, rfl, ?_⟩
    dsimp only [List.map_cons]
    rw [h.lease]
    cases m with
    | mk term age => cases term with
      | none => rfl
      | some term =>
        change Lease.renewed _ ⟨some (Decimal.value (Decimal.digits term)), age⟩ = _
        rw [Decimal.value_digits]

theorem tick (hupdate : ∀ text, update text = true) (h : s.Shows l) :
    (s.step update .tick).Shows (l.step refreshInterval .tick) := by
  have hpass := h.pass
  simp only [Tenure.step, Line.step, hpass.asks.timer, hpass.elapsed]
  change Tenure.Shows (if _ < refreshInterval l.term then _ else _) _
  split_ifs
  · exact hpass
  · refine sendUpdateRegistration_zero hupdate ?_
    exact ⟨hpass.asks, rfl, hpass.inFlight, hpass.lease⟩

end Shows

def Alive (s : Tenure) : Prop := s.lease.Alive milliseconds

/-- A client that keeps time stays a line that keeps time. -/
def Steady (delay : Nat) (s : Tenure) : Prop :=
  ∃ l : Line Nat, s.Shows l ∧ l.Steady refreshInterval milliseconds delay

theorem Steady.step (hupdate : ∀ text, update text = true) (h : s.Steady delay) {m : Moment}
    (hm : s.Admissible delay m) : (s.step update m).Steady delay := by
  obtain ⟨l, hshows, hsteady⟩ := h
  cases m with
  | tick =>
    have hyoung : ∀ r ∈ l.inFlight, r.age < delay := by
      intro r hr
      have hmem := List.mem_map_of_mem (f := written) hr
      exact hm (written r) (hshows.inFlight ▸ hmem)
    exact ⟨_, hshows.tick hupdate, hsteady.tick hyoung⟩
  | deliver => exact ⟨_, hshows.deliver, hsteady.deliver⟩
  | update lifetime =>
    rcases hm with rfl | ⟨hroomy, hmem⟩
    · exact ⟨_, hshows.sendUpdateRegistration_zero hupdate, hsteady.step (e := .renew) trivial⟩
    · exact ⟨_, hshows.sendUpdateRegistration hupdate hroomy.1 hroomy.2.1 hmem,
        hsteady.step (e := .restart lifetime.toNat) hroomy.safe⟩

/-- A client keeps its registration alive: if the server grants a lifetime that leaves room for the
delay of the messages, and the messages arrive in order within it, the lifetime never runs out at
the server, whatever updates the application sends and whenever it sends them. -/
theorem registration_kept (hupdate : ∀ text, update text = true) {r r' : Registration}
    {maxAge : UInt32} (hr : r.received (some maxAge) = some r')
    (hroomy : Roomy delay maxAge.toNat) (hmem : r.heap.malloc.1 = true) {latency : Nat}
    (hlatency : latency ≤ delay) (moments : List Moment)
    (hmoments : Trace.Along (Tenure.step update) (fun m s => s.Admissible delay m) moments
      (registered r' maxAge.toNat latency)) :
    Trace.Always (Tenure.step update) Alive moments (registered r' maxAge.toNat latency) := by
  have hasks : r'.Asks maxAge.toNat := Registration.received_asks hr hroomy.1 hroomy.2.1 hmem
  have hstart : (registered r' maxAge.toNat latency).Steady delay := by
    refine ⟨⟨maxAge.toNat, 0, [], ⟨maxAge.toNat, latency⟩⟩, ⟨hasks, rfl, rfl, rfl⟩, ?_⟩
    have hidle : latency ≤ 0 + delay := by omega
    exact ⟨hroomy.safe.1, hroomy.safe, fun r hr => (List.not_mem_nil hr).elim, rfl, hidle⟩
  refine Trace.Along.always (fun m s hs hm => hs.step hupdate hm) (fun s hs => ?_) hstart hmoments
  obtain ⟨l, hshows, hsteady⟩ := hs
  have halive := hsteady.alive
  rw [← hshows.lease] at halive
  exact halive

instance (m : Moment) (s : Tenure) : Decidable (s.Admissible delay m) :=
  match m with
  | .tick => inferInstanceAs (Decidable (∀ m ∈ s.inFlight, m.age < delay))
  | .deliver => inferInstanceAs (Decidable True)
  | .update lifetime => inferInstanceAs (Decidable (lifetime = 0 ∨
      (60 ≤ lifetime.toNat ∧ lifetime.toNat < 2 ^ 31 ∧
        8 * delay < milliseconds (min lifetime.toNat 3600)) ∧
      s.registration.heap.malloc.1 = true))

/-- While nothing is under way and the timer runs, time just passes. -/
theorem fold_ticks {interval : UInt64} (hidle : s.inFlight = [])
    (htimer : s.registration.timer = some interval) {n : Nat}
    (hn : s.elapsed + n < interval.toNat) :
    Trace.Along (Tenure.step update) (fun m s => s.Admissible delay m) (.replicate n .tick) s ∧
      Trace.fold (Tenure.step update) (.replicate n .tick) s =
        { s with elapsed := s.elapsed + n, lease := ⟨s.lease.term, s.lease.idle + n⟩ } := by
  induction n generalizing s with
  | zero => exact ⟨trivial, rfl⟩
  | succ n ih =>
    have hstep : s.step update .tick = s.pass := by
      have hearly : s.pass.elapsed < interval.toNat := Nat.lt_of_le_of_lt
        (Nat.add_le_add_left (Nat.le_add_left 1 n) s.elapsed) hn
      have hsame : s.pass.registration.timer = some interval := htimer
      simp only [Tenure.step, hsame, if_pos hearly]
    have hpass : s.pass.inFlight = [] := by rw [pass, hidle, List.map_nil]
    obtain ⟨halong, hfold⟩ := @ih s.pass hpass htimer
      (by rw [pass, Nat.add_assoc, Nat.add_comm 1 n]; exact hn)
    refine ⟨⟨fun m hm => absurd (hidle ▸ hm) List.not_mem_nil, hstep ▸ halong⟩, ?_⟩
    rw [List.replicate_succ, Trace.fold_cons, hstep, hfold]
    simp only [pass, hidle, List.map_nil, Lease.older, Nat.add_assoc, Nat.add_comm 1 n]

/-- A minute is granted. After three quarters of it the timer runs out, and while the update is
under way the lifetime is extended to an hour. -/
theorem registration_kept_extended :
    let r : Registration := ⟨some {}, none, fun _ => true⟩
    let r' := (r.received (some 60)).get (by decide +kernel)
    Trace.Always (Tenure.step fun _ => true) Alive
      (.replicate 44999 .tick ++ [.tick, .tick, .update 3600, .deliver, .tick, .deliver])
      (registered r' 60 100) ∧
    (Trace.fold (Tenure.step fun _ => true) (.replicate 44999 .tick ++ [.tick])
      (registered r' 60 100)).inFlight = [⟨none, 0⟩] := by
  intro r r'
  have hr : r.received (some 60) = some r' := (Option.some_get _).symm
  have hroomy : Roomy 7000 (60 : UInt32).toNat := ⟨by decide, by decide, by decide⟩
  have htimer : r'.timer = some 45000 := by decide +kernel
  obtain ⟨halong, hfold⟩ := @fold_ticks (fun _ => true) 7000 (registered r' 60 100) 45000 rfl htimer
    44999 (by decide +kernel)
  constructor
  · refine registration_kept (fun _ => rfl) hr hroomy rfl (by decide) _
      ((Trace.along_append _ _ _).mpr ⟨halong, ?_⟩)
    change Trace.Along _ _ _ (Trace.fold _ _ (registered r' 60 100))
    rw [hfold]
    decide +kernel
  · rw [Trace.fold_append, hfold]
    decide +kernel

end Tenure
end MbedClient.Nsdl
