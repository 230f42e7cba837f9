import Mathlib.Tactic.SplitIfs
import MbedClient.Trace

/-! A lease that its holder renews with a periodic timer, over a channel that keeps the order of the
messages and delivers each of them within a bounded delay. Time is counted in ticks. -/
namespace MbedClient.Heartbeat

/-- What the holder sends: the term of the lease from now on, or nothing if the present one stays.
The age is the time the message has been under way. -/
structure Renewal (τ : Type*) where
  term : Option τ
  age : Nat
  deriving DecidableEq

/-- What the grantor has: the term, and the time since the last renewal that has arrived. -/
structure Lease (τ : Type*) where
  term : τ
  idle : Nat
  deriving DecidableEq

/-- The holder with the time since its timer was started or has last expired, the messages under
way from the oldest on, and the grantor. -/
structure Line (τ : Type*) where
  term : τ
  elapsed : Nat
  inFlight : List (Renewal τ)
  lease : Lease τ

inductive Event (τ : Type*) where
  | tick
  | deliver
  | renew
  | restart (term : τ)

variable {τ : Type*}

namespace Renewal
variable (r : Renewal τ)

def older : Renewal τ := { r with age := r.age + 1 }

@[simp] theorem older_age : r.older.age = r.age + 1 := rfl

@[simp] theorem older_term : r.older.term = r.term := rfl

end Renewal

namespace Lease
variable (lease : Lease τ)

def older : Lease τ := { lease with idle := lease.idle + 1 }

def renewed (r : Renewal τ) : Lease τ := ⟨r.term.getD lease.term, 0⟩

def Alive (duration : τ → Nat) : Prop := lease.idle < duration lease.term

end Lease

namespace Line
variable (l : Line τ)

def pass : Line τ :=
  { l with
    elapsed := l.elapsed + 1
    inFlight := l.inFlight.map Renewal.older
    lease := l.lease.older }

def send (term : Option τ) : Line τ := { l with inFlight := l.inFlight ++ [⟨term, 0⟩] }

def deliver : Line τ :=
  match l.inFlight with
  | [] => l
  | r :: rest => { l with inFlight := rest, lease := l.lease.renewed r }

/-- Only a new term starts the timer again. -/
def step (period : τ → Nat) : Event τ → Line τ → Line τ
  | .tick, l =>
    if l.pass.elapsed < period l.term then l.pass else { l.pass with elapsed := 0 }.send none
  | .deliver, l => l.deliver
  | .renew, l => l.send none
  | .restart term, l => { l with term := term, elapsed := 0 }.send (some term)

end Line

section Steady
variable (period duration : τ → Nat) (delay : Nat)

/-- The timer leaves room for a message in each direction. -/
def Safe (term : τ) : Prop := 0 < period term ∧ period term + 2 * delay < duration term

/-- A lease that is `idle` behind is renewed in time by what is under way: no message follows the
one in front of it by more than a period and a delay, and the holder follows the last one. -/
def Spaced (term : τ) (elapsed : Nat) : Lease τ → List (Renewal τ) → Prop
  | lease, [] => lease.term = term ∧ lease.idle ≤ elapsed + delay
  | lease, r :: rest =>
    Safe period duration delay lease.term ∧ lease.idle ≤ r.age + period lease.term + delay ∧
      Spaced term elapsed ⟨r.term.getD lease.term, r.age⟩ rest

structure Line.Steady (l : Line τ) : Prop where
  running : l.elapsed < period l.term
  safe : Safe period duration delay l.term
  young : ∀ r ∈ l.inFlight, r.age ≤ delay
  spaced : Spaced period duration delay l.term l.elapsed l.lease l.inFlight

/-- Time passes only while every message can still arrive in time, and a term is safe. -/
def Admissible : Event τ → Line τ → Prop
  | .tick, l => ∀ r ∈ l.inFlight, r.age < delay
  | .restart term, _ => Safe period duration delay term
  | _, _ => True

variable {period duration delay} {term : τ} {elapsed : Nat}

theorem Spaced.fresher {lease : Lease τ} {queue : List (Renewal τ)} {idle : Nat}
    (h : Spaced period duration delay term elapsed lease queue) (hidle : idle ≤ lease.idle) :
    Spaced period duration delay term elapsed ⟨lease.term, idle⟩ queue := by
  cases queue with
  | nil => exact ⟨h.1, Nat.le_trans hidle h.2⟩
  | cons r rest => exact ⟨h.1, Nat.le_trans hidle h.2.1, h.2.2⟩

theorem Spaced.older {lease : Lease τ} {queue : List (Renewal τ)}
    (h : Spaced period duration delay term elapsed lease queue) :
    Spaced period duration delay term (elapsed + 1) lease.older (queue.map Renewal.older) := by
  induction queue generalizing lease with
  | nil =>
    refine ⟨h.1, ?_⟩
    have hidle := h.2
    change lease.idle + 1 ≤ elapsed + 1 + delay
    omega
  | cons r rest ih =>
    refine ⟨h.1, ?_, ih h.2.2⟩
    have hidle := h.2.1
    change lease.idle + 1 ≤ r.age + 1 + period lease.term + delay
    omega

/-- A new message is close enough to the last one if the timer has not passed its end. -/
theorem Spaced.append {lease : Lease τ} {queue : List (Renewal τ)} {next : Option τ}
    {elapsed' : Nat} (h : Spaced period duration delay term elapsed lease queue)
    (hsafe : Safe period duration delay term) (hrunning : elapsed ≤ period term) :
    Spaced period duration delay (next.getD term) elapsed' lease (queue ++ [⟨next, 0⟩]) := by
  induction queue generalizing lease with
  | nil =>
    obtain ⟨hterm, hidle⟩ := h
    obtain rfl := hterm
    refine ⟨hsafe, ?_, rfl, Nat.zero_le _⟩
    change lease.idle ≤ 0 + period lease.term + delay
    omega
  | cons r rest ih => exact ⟨h.1, h.2.1, ih h.2.2⟩

namespace Line.Steady
variable {l : Line τ}

theorem alive (h : l.Steady period duration delay) : l.lease.Alive duration := by
  have hspaced := h.spaced
  have hrunning := h.running
  have hsafe := h.safe
  unfold Lease.Alive
  cases hqueue : l.inFlight with
  | nil =>
    rw [hqueue] at hspaced
    obtain ⟨hterm, hidle⟩ := hspaced
    rw [hterm]
    have hroom := hsafe.2
    omega
  | cons r rest =>
    rw [hqueue] at hspaced
    have hroom := hspaced.1.2
    have hidle := hspaced.2.1
    have hage : r.age ≤ delay := h.young r (hqueue ▸ List.mem_cons_self)
    omega

/-- The message that a step sends, behind what is still under way. -/
theorem send (term : Option τ)
    (h : Spaced period duration delay l.term l.elapsed l.lease l.inFlight)
    (hyoung : ∀ r ∈ l.inFlight, r.age ≤ delay) (hrunning : l.elapsed ≤ period l.term)
    (hold : Safe period duration delay l.term)
    (hnew : Safe period duration delay (term.getD l.term)) {elapsed : Nat}
    (helapsed : elapsed < period (term.getD l.term)) :
    ({ l with term := term.getD l.term, elapsed := elapsed }.send term).Steady period duration
      delay := by
  refine ⟨helapsed, hnew, fun r hr => ?_, h.append hold hrunning⟩
  rcases List.mem_append.mp hr with hr | hr
  · exact hyoung r hr
  · rw [List.mem_singleton.mp hr]
    exact Nat.zero_le delay

theorem tick (h : l.Steady period duration delay) (hyoung : ∀ r ∈ l.inFlight, r.age < delay) :
    (l.step period .tick).Steady period duration delay := by
  have hages : ∀ r ∈ l.pass.inFlight, r.age ≤ delay := by
    intro r hr
    obtain ⟨r', hr', rfl⟩ := List.mem_map.mp hr
    exact hyoung r' hr'
  have hspaced : Spaced period duration delay l.pass.term l.pass.elapsed l.pass.lease
      l.pass.inFlight := h.spaced.older
  simp only [Line.step]
  split_ifs with hrunning
  · exact ⟨hrunning, h.safe, hages, hspaced⟩
  · have hend : l.pass.elapsed ≤ period l.pass.term := h.running
    exact send none hspaced hages hend h.safe h.safe h.safe.1

theorem deliver (h : l.Steady period duration delay) :
    l.deliver.Steady period duration delay := by
  have hspaced := h.spaced
  unfold Line.deliver
  cases hqueue : l.inFlight with
  | nil => exact h
  | cons r rest =>
    rw [hqueue] at hspaced
    refine ⟨h.running, h.safe, fun r' hr' => ?_, hspaced.2.2.fresher (Nat.zero_le _)⟩
    exact h.young r' (hqueue ▸ List.mem_cons_of_mem r hr')

theorem step (h : l.Steady period duration delay) {e : Event τ}
    (he : Admissible period duration delay e l) :
    (l.step period e).Steady period duration delay := by
  cases e with
  | tick => exact h.tick he
  | deliver => exact h.deliver
  | renew =>
    exact send none h.spaced h.young (Nat.le_of_lt h.running) h.safe h.safe h.running
  | restart term => exact send (some term) h.spaced h.young (Nat.le_of_lt h.running) h.safe he he.1

end Line.Steady
end Steady
end MbedClient.Heartbeat
