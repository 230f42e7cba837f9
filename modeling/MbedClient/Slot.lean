import MbedClient.Trace

/-! A place inside a structure that may hold a part of it, and the update of that part together
with an environment. Updates of one place compose, so a run inside a place is a run of the whole. -/
namespace MbedClient

/-- Reading and overwriting a place of `σ`; the laws say that it behaves like a variable. -/
structure Slot (σ α : Type*) where
  get : σ → Option α
  put : α → σ → σ
  get_put : ∀ s a, (get s).isSome → get (put a s) = some a
  put_put : ∀ s a b, (get s).isSome → put b (put a s) = put b s
  put_get : ∀ s a, get s = some a → put a s = s

namespace Slot
variable {σ α β η ν : Type*} (l : Slot σ α)

/-- Runs `f` on the part a place holds; an absent place leaves everything alone. -/
def zoom (f : α × η → α × η) (s : σ × η) : σ × η :=
  match l.get s.1 with
  | none => s
  | some a => (l.put (f (a, s.2)).1 s.1, (f (a, s.2)).2)

theorem zoom_none {f : α × η → α × η} {s : σ × η} (h : l.get s.1 = none) : l.zoom f s = s := by
  simp [zoom, h]

theorem zoom_some {f : α × η → α × η} {s : σ × η} {a : α} (h : l.get s.1 = some a) :
    l.zoom f s = (l.put (f (a, s.2)).1 s.1, (f (a, s.2)).2) := by
  simp [zoom, h]

theorem zoom_id (s : σ × η) : l.zoom id s = s := by
  cases h : l.get s.1 with
  | none => exact l.zoom_none h
  | some a => simp [l.zoom_some h, l.put_get s.1 a h]

theorem zoom_zoom (f g : α × η → α × η) (s : σ × η) :
    l.zoom g (l.zoom f s) = l.zoom (fun t => g (f t)) s := by
  cases h : l.get s.1 with
  | none => simp [l.zoom_none h]
  | some a =>
    have hs : (l.get s.1).isSome := by simp [h]
    rw [l.zoom_some h, l.zoom_some h, l.zoom_some (l.get_put s.1 _ hs), l.put_put s.1 _ _ hs]

/-- A run inside a place. -/
theorem zoom_fold (step : ν → α × η → α × η) (vs : List ν) (s : σ × η) :
    l.zoom (Trace.fold step vs) s = Trace.fold (fun v => l.zoom (step v)) vs s := by
  induction vs generalizing s with
  | nil => exact l.zoom_id s
  | cons v vs ih => rw [Trace.fold_cons, ← ih, zoom_zoom]; rfl

def trans (m : Slot α β) : Slot σ β where
  get s := (l.get s).bind m.get
  put b s := match l.get s with
    | none => s
    | some a => l.put (m.put b a) s
  get_put s b h := by
    cases ha : l.get s with
    | none => simp [ha] at h
    | some a => simp_all [l.get_put, m.get_put]
  put_put s b c h := by
    cases ha : l.get s with
    | none => simp [ha] at h
    | some a => simp_all [l.get_put, l.put_put, m.put_put]
  put_get s b h := by
    cases ha : l.get s with
    | none => simp [ha] at h
    | some a => simp_all [l.put_get, m.put_get]

theorem trans_zoom (m : Slot α β) (f : β × η → β × η) (s : σ × η) :
    (l.trans m).zoom f s = l.zoom (m.zoom f) s := by
  cases ha : l.get s.1 with
  | none => rw [l.zoom_none ha, (l.trans m).zoom_none (by simp [trans, ha])]
  | some a =>
    cases hb : m.get a with
    | none =>
      rw [l.zoom_some ha, m.zoom_none hb, (l.trans m).zoom_none (by simp [trans, ha, hb])]
      exact Prod.ext (l.put_get s.1 a ha).symm rfl
    | some b =>
      have hab : (l.trans m).get s.1 = some b := by simp [trans, ha, hb]
      rw [l.zoom_some ha, m.zoom_some hb, (l.trans m).zoom_some hab]
      simp [trans, ha]

def entry (get : σ → List α) (put : List α → σ → σ) (get_put : ∀ s xs, get (put xs s) = xs)
    (put_put : ∀ s xs ys, put ys (put xs s) = put ys s) (put_get : ∀ s, put (get s) s = s)
    (k : Nat) : Slot σ α where
  get s := (get s)[k]?
  put a s := put ((get s).set k a) s
  get_put s a h := by
    have hk : k < (get s).length := by simpa using h
    simp [get_put, hk]
  put_put s a b _ := by simp [get_put, put_put]
  put_get s a h := by
    obtain ⟨hk, rfl⟩ := List.getElem?_eq_some_iff.mp h
    simp [put_get]

def nth (k : Nat) : Slot (List α) α :=
  entry id (fun xs _ => xs) (fun _ _ => rfl) (fun _ _ _ => rfl) (fun _ => rfl) k

section Component
variable (get : σ → List α) (put : List α → σ → σ) (gp : ∀ s xs, get (put xs s) = xs)
  (pp : ∀ s xs ys, put ys (put xs s) = put ys s) (pg : ∀ s, put (get s) s = s)

theorem entry_zoom (k : Nat) (f : α × η → α × η) (s : σ) (e : η) :
    (entry get put gp pp pg k).zoom f (s, e) =
      (put ((nth k).zoom f (get s, e)).1 s, ((nth k).zoom f (get s, e)).2) := by
  have hget : (entry get put gp pp pg k).get s = (get s)[k]? := rfl
  have hnth : (nth k).get (get s) = (get s)[k]? := rfl
  cases hk : (get s)[k]? with
  | none => rw [zoom_none _ (hget.trans hk), zoom_none _ (hnth.trans hk), pg]
  | some a =>
    rw [zoom_some _ (hget.trans hk), zoom_some _ (hnth.trans hk)]
    rfl

/-- A run over entries of a component is a run over the component. -/
theorem entry_fold (k : ν → Nat) (f : ν → α × η → α × η) (vs : List ν) (s : σ) (e : η) :
    Trace.fold (fun v => (entry get put gp pp pg (k v)).zoom (f v)) vs (s, e) =
      let t := Trace.fold (fun v => (nth (k v)).zoom (f v)) vs (get s, e)
      (put t.1 s, t.2) := by
  induction vs generalizing s e with
  | nil => simp [pg]
  | cons v vs ih =>
    rw [Trace.fold_cons, Trace.fold_cons, entry_zoom, ih, gp]
    simp only [pp]

end Component
end Slot
end MbedClient
