import MbedClient.Observe.Steps

/-! What holds of every report handler in a run without write attributes. -/
namespace MbedClient.Observe
open Report (CFloat)

/-- The handler of an entity that a token can find; while the entity is observed, its own level is
set. -/
structure SoundAt (t : ObjectList) (e : Entity) (s : Standing) : Prop where
  baseType : e.baseType ≠ .resourceInstance
  placed : e ∈ t.tokenOrder
  attributes : s.attributeState = 0
  level : s.underObservation = true → e.inLevel s.level = true
  observable : s.underObservation = true → t.isObservable e = true

namespace SoundAt
variable {t : ObjectList} {e : Entity} {s : Standing}

theorem join (h : SoundAt t e s) (l : Observation) : SoundAt t e (s.join l) :=
  ⟨h.baseType, h.placed, h.attributes, fun hu => e.inLevel_union (h.level hu) l, h.observable⟩

/-- The end of an observation further up. -/
theorem leave (h : SoundAt t e s) {b : Entity} (hb : ∃ j r, e.path = b.path ++ j :: r) :
    SoundAt t e (s.leave b.ownLevel) := by
  obtain ⟨j, r, hj⟩ := hb
  exact ⟨h.baseType, h.placed, h.attributes,
    fun hu => (Entity.inLevel_below hj h.baseType s.level).trans (h.level hu), h.observable⟩

end SoundAt

namespace Client
variable {F : Type*} [CFloat F] {t : ObjectList} {m m' : Client F}
open ObjectList

def Sound (t : ObjectList) (m : Client F) : Prop := ∀ e s, m.standing e = some s → SoundAt t e s

namespace Sound

theorem of_standing (hm : Sound t m) (h : m'.standing = m.standing) : Sound t m' := by
  intro e s hs
  exact hm e s (by rwa [← h])

theorem fresh (value : Entity → Bytes) : Sound t (Client.fresh value : Client F) := by
  intro e s hs
  simp [Client.fresh, standing] at hs

theorem startAt {e : Entity} (hm : Sound t m) (hp : (t.params? e).isSome)
    (ho : t.isObservable e = true) : Sound t (m.startAt t e) := by
  intro b s hs
  by_cases hb : b = e
  · subst hb
    by_cases he : b.baseType = .resourceInstance
    · rw [startAt_resourceInstance _ _ he, Function.update_self] at hs
      obtain ⟨s', hs', -⟩ := Option.map_eq_some_iff.mp hs
      exact absurd he (hm b s' hs').baseType
    · rw [startAt_self _ _ he] at hs
      obtain rfl := Option.some.inj hs
      have hattr : ((m.standing b).getD {}).attributeState = 0 := by
        cases hst : m.standing b with
        | none => rfl
        | some s' => exact (hm b s' hst).attributes
      exact ⟨he, mem_tokenOrder t he hp, hattr, fun _ => b.inLevel_own _, fun _ => ho⟩
  · rcases m.startAt_other t hb with h | h <;> rw [h] at hs
    · exact hm b s hs
    · obtain ⟨s', hs', rfl⟩ := Option.map_eq_some_iff.mp hs
      exact (hm b s' hs').join e.ownLevel

theorem stopAt (hm : Sound t m) (e : Entity) : Sound t (m.stopAt t e) := by
  intro b s hs
  by_cases hb : b = e
  · rw [hb, stopAt_self] at hs
    contradiction
  · rcases m.stopAt_other t hb with h | ⟨hbelow, h⟩ <;> rw [h] at hs
    · exact hm b s hs
    · obtain ⟨s', hs', rfl⟩ := Option.map_eq_some_iff.mp hs
      exact (hm b s' hs').leave hbelow

theorem resetAt (hm : Sound t m) (e : Entity) : Sound t (m.resetAt t e) := by
  intro b s hs
  by_cases hb : b = e
  · subst hb
    obtain ⟨l, hl⟩ := m.resetAt_self t b
    rw [hl] at hs
    obtain ⟨s', hs', rfl⟩ := Option.map_eq_some_iff.mp hs
    have h := hm b s' hs'
    exact ⟨h.baseType, h.placed, rfl, fun hu => Bool.noConfusion hu, fun hu => Bool.noConfusion hu⟩
  · rcases m.resetAt_other t hb with h | ⟨hbelow, h⟩ <;> rw [h] at hs
    · exact hm b s hs
    · obtain ⟨s', hs', rfl⟩ := Option.map_eq_some_iff.mp hs
      exact (hm b s' hs').leave hbelow

theorem withToken (hm : Sound t m) (e : Entity) (request : GetRequest) :
    Sound t (m.withToken e request) := by
  unfold Client.withToken
  split
  · exact hm
  · intro b s hs
    rw [setObservationToken_standing] at hs
    by_cases hb : b = e
    · rw [hb, Function.update_self] at hs
      obtain ⟨s', hs', rfl⟩ := Option.map_eq_some_iff.mp hs
      have h := hm e s' hs'
      rw [hb]
      exact ⟨h.baseType, h.placed, h.attributes, h.level, h.observable⟩
    · rw [Function.update_of_ne hb] at hs
      exact hm b s hs

theorem get (hm : Sound t m) (request : GetRequest) : Sound t (m.get t request) := by
  rw [get_eq]
  cases hf : m.findResource t request.uriPath none with
  | none => exact hm
  | some e =>
    have hp : (t.params? e).isSome := params?_of_hasPath t (m.findResource_hasPath t hf)
    by_cases hacc : t.accepts e request = true
    · have ho : t.isObservable e = true := by
        obtain ⟨p, hp⟩ := Option.isSome_iff_exists.mp hp
        simp only [accepts, hp, Bool.and_eq_true, decide_eq_true_eq] at hacc
        rw [isObservable, hp]
        exact hacc.2.2.1
      simp only [if_pos hacc, answer]
      split_ifs
      · exact (hm.startAt hp ho).withToken e request
      · exact hm.withToken e request
      · exact hm.stopAt e
      · exact hm
    · simpa only [if_neg hacc] using hm

theorem reset (hm : Sound t m) (token : Option Bytes) : Sound t (m.reset t token) := by
  rw [reset_eq]
  cases m.findResource t [] token with
  | none => exact hm
  | some e => exact hm.resetAt e

theorem step (hm : Sound t m) (atof : Bytes → F) (ev : Event) :
    Sound t (Client.step t atof ev m) := by
  have hclear : Sound t { m with log := [] } := hm
  cases ev with
  | get request => exact hclear.get request
  | reset token => exact hclear.reset token
  | setValue e value copied put =>
    exact hclear.of_standing (Minor.setValue t atof put e value copied).standing
  | clearValue e put => exact hclear.of_standing (Minor.clearValue t atof put e).standing
  | putValue uriPath value copied put =>
    exact hclear.of_standing (Minor.putValue t atof put uriPath value copied).standing
  | publish i put => exact hclear.of_standing (Minor.createNsdlObjectStructure t put _).standing

end Sound
end Client
end MbedClient.Observe
