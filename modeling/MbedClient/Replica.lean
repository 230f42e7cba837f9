import Mathlib.Data.Set.Function

/-! A copy that follows its source by partial updates. What has changed since it was last sent is
pending, and what is sent is the source as it is at that moment. -/
namespace MbedClient.Replica
variable {κ α : Type*}

/-- A source, the copy of it elsewhere, and the keys about which something is still to be sent. -/
structure Link (κ α : Type*) where
  source : κ → α
  copy : κ → α
  pending : Set κ

namespace Link
variable {l l' l'' : Link κ α}

/-- The copy is right wherever nothing is pending. -/
def Tracks (l : Link κ α) : Prop := Set.EqOn l.copy l.source l.pendingᶜ

/-- From one state to a later one: a key that is not pending in the end has arrived as it is, or
nothing at all has happened to it. -/
def Advances (l l' : Link κ α) : Prop := ∀ k, k ∉ l'.pending →
  l'.copy k = l'.source k ∨ k ∉ l.pending ∧ l'.copy k = l.copy k ∧ l'.source k = l.source k

theorem Advances.refl (l : Link κ α) : l.Advances l := fun _ hk => .inr ⟨hk, rfl, rfl⟩

theorem Advances.trans (h : l.Advances l') (h' : l'.Advances l'') : l.Advances l'' := by
  intro k hk
  obtain hright | ⟨hk', hcopy', hsource'⟩ := h' k hk
  · exact .inl hright
  · obtain hright | ⟨hkl, hcopy, hsource⟩ := h k hk'
    · exact .inl (by rw [hcopy', hsource', hright])
    · exact .inr ⟨hkl, hcopy'.trans hcopy, hsource'.trans hsource⟩

theorem Tracks.advance (h : l.Tracks) (hstep : l.Advances l') : l'.Tracks := by
  intro k hk
  obtain hright | ⟨hkl, hcopy, hsource⟩ := hstep k hk
  · exact hright
  · rw [hcopy, hsource]
    exact h hkl

/-- Nothing is pending, and the copy is complete. -/
theorem Tracks.copy_eq (h : l.Tracks) (hnone : l.pending = ∅) : l.copy = l.source := by
  funext k
  exact h (by simp [hnone])

/-- A change of the source whose keys are marked. -/
theorem Advances.change {source : κ → α} {pending : Set κ} (hsub : l.pending ⊆ pending)
    (hmarked : Set.EqOn source l.source pendingᶜ) :
    l.Advances { l with source := source, pending := pending } := by
  intro k hk
  exact .inr ⟨fun hkl => hk (hsub hkl), rfl, hmarked hk⟩

/-- An update of the copy: only what it carries may lose its mark. -/
theorem Advances.send {copy : κ → α} {sent pending : Set κ}
    (hsub : l.pending ⊆ sent ∪ pending) (hsent : Set.EqOn copy l.source sent)
    (hrest : Set.EqOn copy l.copy sentᶜ) :
    l.Advances { l with copy := copy, pending := pending } := by
  intro k hk
  by_cases hks : k ∈ sent
  · exact .inl (hsent hks)
  · exact .inr ⟨fun hkl => (hsub hkl).elim hks hk, hrest hks, rfl⟩

end Link
end MbedClient.Replica
