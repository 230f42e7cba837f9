import MbedClient.ObjectTree
import Mathlib.Data.List.Basic

/-! Requests to an allocator, made one after the other until one is refused. Sizes are 32 bits wide:
a granted request for more bytes comes out too small for what is then copied into it. -/
namespace MbedClient.Allocation
variable {α : Type*}

/-- Whether all requests were granted and the allocator afterwards; nothing if one was granted that
does not fit its size. -/
def attempt : List Nat → Heap → Option (Bool × Heap)
  | [], h => some (true, h)
  | n :: q, h =>
    if h.malloc.1 then if n < 2 ^ 32 then attempt q h.malloc.2 else none
    else some (false, h.malloc.2)

def Granted (q : List Nat) (h : Heap) : Prop := (attempt q h).map Prod.fst = some true
def Refused (q : List Nat) (h : Heap) : Prop := (attempt q h).map Prod.fst = some false

theorem granted_iff {q : List Nat} {h : Heap} :
    Granted q h ↔ ∃ h', attempt q h = some (true, h') := by
  simp [Granted]

theorem refused_iff {q : List Nat} {h : Heap} :
    Refused q h ↔ ∃ h', attempt q h = some (false, h') := by
  simp [Refused]

/-- Of every group of requests one is refused, which ends the group. -/
def AllRefused : List (List Nat) → Heap → Prop
  | [], _ => True
  | q :: qs, h => ∃ h', attempt q h = some (false, h') ∧ AllRefused qs h'

/-- The requests of elements that are appended to a buffer one after the other. -/
def running (requests : α → Nat → List Nat) (size : α → Nat) : List α → Nat → List Nat
  | [], _ => []
  | x :: xs, n => requests x n ++ running requests size xs (n + size x)

theorem attempt_append (p q : List Nat) (h : Heap) : attempt (p ++ q) h =
    (attempt p h).bind fun s => if s.1 then attempt q s.2 else some s := by
  induction p generalizing h with
  | nil => rfl
  | cons n p ih =>
    rw [List.cons_append, attempt, attempt]
    split_ifs
    · exact ih _
    · rfl
    · rfl

/-- Where every request is granted, it only matters that they fit. -/
theorem attempt_all (q : List Nat) : attempt q (fun _ => true) =
    if ∀ n ∈ q, n < 2 ^ 32 then some (true, fun _ => true) else none := by
  induction q with
  | nil => rfl
  | cons n q ih =>
    have hm : Heap.malloc (fun _ => true) = (true, fun _ => true) := rfl
    rw [attempt, hm, if_pos rfl, ih]
    simp only [List.forall_mem_cons, ite_and]

/-- No request asks for more than what is there in the end. -/
theorem running_le {requests : α → Nat → List Nat} {size : α → Nat} {xs : List α}
    (h : ∀ x ∈ xs, ∀ n, ∀ q ∈ requests x n, q ≤ n + size x) (n : Nat) :
    ∀ q ∈ running requests size xs n, q ≤ n + (xs.map size).sum := by
  induction xs generalizing n with
  | nil => simp [running]
  | cons x xs ih =>
    intro q hq
    rw [List.map_cons, List.sum_cons]
    obtain hq | hq := List.mem_append.mp hq
    · have hle := h x List.mem_cons_self n q hq
      omega
    · have hle := ih (fun y hy => h y (List.mem_cons_of_mem x hy)) (n + size x) q hq
      omega

theorem lt_of_attempt {q : List Nat} {h h' : Heap} (hq : attempt q h = some (true, h')) :
    ∀ n ∈ q, n < 2 ^ 32 := by
  induction q generalizing h with
  | nil => simp
  | cons n q ih =>
    rw [attempt] at hq
    split_ifs at hq with hg hn
    · intro m hm
      rcases List.mem_cons.mp hm with rfl | hm
      · exact hn
      · exact ih hq m hm
    · simp at hq

end MbedClient.Allocation
