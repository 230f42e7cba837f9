import Mathlib.Data.List.Basic

/-! Runs of a machine whose steps may have no result. -/
namespace MbedClient.Stepping
variable {σ ν τ : Type*} (step : ν → σ → Option σ)

def run : List ν → σ → Option σ
  | [], s => some s
  | v :: l, s => (step v s).bind (run l)

/-- Every event of a run has a result, and it is the right one. -/
def Follows (right : ν → σ → σ → Prop) : List ν → σ → Prop
  | [], _ => True
  | v :: l, s => ∃ s', step v s = some s' ∧ right v s s' ∧ Follows right l s'

/-- Every event that a run gets to happens in a state where it is admissible. -/
def Admitted (ok : ν → σ → Prop) : List ν → σ → Prop
  | [], _ => True
  | v :: l, s => ok v s ∧ ∀ s', step v s = some s' → Admitted ok l s'

variable {step} {right : ν → σ → σ → Prop} {ok legal : ν → σ → Prop} {I : σ → Prop}
  {l : List ν} {s : σ}

/-- Where one step of a legal event is right exactly if the event is admissible, a run is right
exactly if all of its events are. -/
theorem follows_iff_admitted
    (hstep : ∀ v s, I s → legal v s → ((∃ s', step v s = some s' ∧ right v s s') ↔ ok v s))
    (hI : ∀ v s s', I s → right v s s' → I s') (hs : I s) (hlegal : Admitted step legal l s) :
    Follows step right l s ↔ Admitted step ok l s := by
  induction l generalizing s with
  | nil => exact Iff.rfl
  | cons v l ih =>
    obtain ⟨hv, hrest⟩ := hlegal
    constructor
    · intro ⟨s', hs', hright, hfollows⟩
      refine ⟨(hstep v s hs hv).mp ⟨s', hs', hright⟩, fun t ht => ?_⟩
      cases hs'.symm.trans ht
      exact (ih (hI v s s' hs hright) (hrest s' hs')).mp hfollows
    · intro ⟨hok, hadmitted⟩
      obtain ⟨s', hs', hright⟩ := (hstep v s hs hv).mpr hok
      exact ⟨s', hs', hright, (ih (hI v s s' hs hright) (hrest s' hs')).mpr (hadmitted s' hs')⟩

/-- A run that is right ends in a state, and what the state stands for is what the events make of
it. -/
theorem Follows.exists_run {contents : σ → τ} {spec : ν → τ → τ}
    (hspec : ∀ v s s', right v s s' → contents s' = spec v (contents s))
    (h : Follows step right l s) :
    ∃ s', run step l s = some s' ∧ contents s' = l.foldl (fun c v => spec v c) (contents s) := by
  induction l generalizing s with
  | nil => exact ⟨s, rfl, rfl⟩
  | cons v l ih =>
    obtain ⟨s', hs', hright, hrest⟩ := h
    obtain ⟨t, ht, hcontents⟩ := ih hrest
    refine ⟨t, ?_, ?_⟩
    · rw [run, hs']
      exact ht
    · rw [hcontents, hspec v s s' hright, List.foldl_cons]

end MbedClient.Stepping
