import MbedClient.Observe.Sound

/-! A RESET ends the observation that carries its token, unless the token is still stored where an
earlier observation was ended by a RESET. -/
namespace MbedClient.Observe
open Report (CFloat)

/-- What is kept of an observation: its report handler, its token and whether its own level is
set. -/
structure Held (F : Type*) [CFloat F] where
  handler : Report.M2MReportHandler F
  token : Bytes
  level : Bool

/-- The observations that are left when the one with a token ends. -/
def withoutToken {F : Type*} [CFloat F] (token : Bytes) (held : Entity → Option (Held F)) :
    Entity → Option (Held F) := fun e => (held e).filter fun h => h.token != token

namespace Client
variable {F : Type*} [CFloat F] (m : Client F) (t : ObjectList)
open ObjectList

def token (e : Entity) : Bytes :=
  match m.reportHandler e with
  | none => []
  | some h => h.token

def observations (e : Entity) : Option (Held F) :=
  match m.reportHandler e with
  | none => none
  | some h =>
    if h.isUnderObservation then
      some ⟨h.toM2MReportHandler, h.token, e.inLevel h.observationLevel⟩
    else none

/-- The observations carry tokens, each its own. -/
def Distinct : Prop := ∀ e ∈ t.tokenOrder, m.isUnderObservation e = true →
  m.token e ≠ [] ∧ ∀ b ∈ t.tokenOrder, m.isUnderObservation b = true → m.token b = m.token e → b = e

instance : Decidable (m.Distinct t) :=
  inferInstanceAs (Decidable (∀ e ∈ t.tokenOrder, _ → _ ∧ ∀ b ∈ t.tokenOrder, _ → _ → b = e))

/-- No entity that comes before an observed one stores its token without being observed. -/
def NoLeftover (token : Bytes) : Prop := ∀ e ∈ t.tokenOrder, m.isUnderObservation e = true →
  m.storesToken token e = true → ∀ b ∈ t.tokenOrder, b.Before e → m.storesToken token b = true →
    m.isUnderObservation b = true

theorem storesToken_iff (token : Bytes) (e : Entity) :
    m.storesToken token e = true ↔ token ≠ [] ∧ m.token e = token := by
  unfold storesToken Client.token
  cases m.reportHandler e with
  | none => simp [eq_comm]
  | some h =>
    simp only [Bool.and_eq_true, Bool.not_eq_true', List.isEmpty_eq_false_iff, beq_iff_eq]
    constructor
    · rintro ⟨hne, rfl⟩
      exact ⟨hne, rfl⟩
    · rintro ⟨hne, rfl⟩
      exact ⟨hne, rfl⟩

theorem observations_eq_some {e : Entity} {x : Held F} (h : m.observations e = some x) :
    m.isUnderObservation e = true ∧ x.token = m.token e := by
  unfold observations at h
  unfold isUnderObservation token
  cases hr : m.reportHandler e with
  | none => simp [hr] at h
  | some r =>
    simp only [hr] at h
    split_ifs at h with hu
    obtain rfl := Option.some.inj h
    exact ⟨hu, rfl⟩

theorem observations_isSome {e : Entity} :
    (m.observations e).isSome = m.isUnderObservation e := by
  unfold observations isUnderObservation
  cases m.reportHandler e with
  | none => rfl
  | some r => cases hu : r.isUnderObservation <;> simp [hu]

theorem resetAt_observations_self (e : Entity) : (m.resetAt t e).observations e = none := by
  rw [← Option.not_isSome_iff_eq_none, observations_isSome, isUnderObservation_eq]
  obtain ⟨l, hl⟩ := m.resetAt_self t e
  rw [hl]
  cases m.standing e <;> simp

/-- A RESET only touches the levels of the others. -/
theorem resetAt_reportHandler {e b : Entity} (hb : b ≠ e) :
    (m.resetAt t e).reportHandler b = m.reportHandler b ∨ (∃ j s, b.path = e.path ++ j :: s) ∧
      (m.resetAt t e).reportHandler b = (m.reportHandler b).map fun h =>
        { h with observationLevel := h.observationLevel.minus e.ownLevel } := by
  have hset (m : Client F) : (m.setUnderObservation e false true).reportHandler b =
      m.reportHandler b := by
    by_cases he : e.baseType = .resourceInstance <;> simp [setUnderObservation, he, hb]
  unfold resetAt
  split_ifs
  · exact Or.inl (hset m)
  · rw [hset, removeObservationLevel, foldl_removeOwnLevel_reportHandler]
    split_ifs with hmem
    · exact Or.inr ⟨mem_subtree_below t hmem hb, rfl⟩
    · exact Or.inl rfl

theorem resetAt_observations {e b : Entity} (hb : b ≠ e) (hs : Sound t m) :
    (m.resetAt t e).observations b = m.observations b := by
  unfold observations
  rcases m.resetAt_reportHandler t hb with h | ⟨⟨j, s, hj⟩, h⟩
  · rw [h]
  · rw [h]
    cases hr : m.reportHandler b with
    | none => rfl
    | some r =>
      have hbase : b.baseType ≠ .resourceInstance :=
        (hs b r.standing (by rw [standing, hr]; rfl)).baseType
      simp [Entity.inLevel_below hj hbase]

/-- The search ends at the first entity that stores the token. -/
theorem first_storing {token : Bytes} {f e : Entity}
    (hf : (tokenOrder t).find? (m.storesToken token) = some f) (he : e ∈ t.tokenOrder)
    (hs : m.storesToken token e = true) : f = e ∨ f.Before e := by
  obtain ⟨hpf, l₁, l₂, heq, hno⟩ := List.find?_eq_some_iff_append.mp hf
  have hsorted := tokenOrder_sorted t
  rw [heq] at he hsorted
  rcases List.mem_append.mp he with he | he
  · exact absurd hs (by simpa using hno e he)
  · rcases List.mem_cons.mp he with rfl | he
    · exact Or.inl rfl
    · exact Or.inr (List.rel_of_pairwise_cons (List.pairwise_append.mp hsorted).2.1 he)

theorem mem_tokenOrder_of_sound (hs : Sound t m) {e : Entity}
    (hu : m.isUnderObservation e = true) : e ∈ t.tokenOrder := by
  unfold isUnderObservation at hu
  cases hr : m.reportHandler e with
  | none => simp [hr] at hu
  | some r => exact (hs e r.standing (by rw [standing, hr]; rfl)).placed

/-- Where the search ends at an observed entity, that observation goes and no other. -/
theorem resetAt_observations_eq {token : Bytes} {f : Entity} (hs : Sound t m)
    (hd : m.Distinct t) (hf : (tokenOrder t).find? (m.storesToken token) = some f)
    (hu : ∀ e, m.isUnderObservation e = true → m.token e = token →
      m.isUnderObservation f = true) :
    (m.resetAt t f).observations = withoutToken token m.observations := by
  have hft := ((m.storesToken_iff token f).mp (List.find?_some hf)).2
  funext e
  unfold withoutToken
  by_cases hef : e = f
  · subst hef
    rw [resetAt_observations_self]
    cases ho : m.observations e with
    | none => rfl
    | some x => simp [Option.filter, (m.observations_eq_some ho).2, hft]
  · rw [resetAt_observations _ _ hef hs]
    cases ho : m.observations e with
    | none => rfl
    | some x =>
      obtain ⟨hue, htok⟩ := m.observations_eq_some ho
      have hne : m.token e ≠ token := by
        intro heq
        have hfe :=
          (hd e (m.mem_tokenOrder_of_sound t hs hue) hue).2 f (List.mem_of_find?_eq_some hf)
          (hu e hue heq) (by rw [hft, heq])
        exact hef hfe.symm
      simp [Option.filter, htok, hne]

theorem withoutToken_eq_self {token : Bytes}
    (h : ∀ e, m.isUnderObservation e = true → m.token e ≠ token) :
    withoutToken token m.observations = m.observations := by
  funext e
  unfold withoutToken
  cases ho : m.observations e with
  | none => rfl
  | some x =>
    obtain ⟨hu, htok⟩ := m.observations_eq_some ho
    simp [Option.filter, htok, h e hu]

/-- A RESET ends the observation with its token and no other, exactly if no leftover of the token
comes first. -/
theorem reset_iff (hs : Sound t m) (hd : m.Distinct t) (token : Option Bytes) :
    (m.reset t token).observations = withoutToken (token.getD []) m.observations ↔
      m.NoLeftover t (token.getD []) := by
  by_cases ht : token.getD [] = []
  · rw [reset_eq, findResource_nil _ _ ht, ht]
    have hne : ∀ e, m.isUnderObservation e = true → m.token e ≠ [] := fun e hu =>
      (hd e (m.mem_tokenOrder_of_sound t hs hu) hu).1
    refine iff_of_true (m.withoutToken_eq_self hne).symm fun e _ _ hst => ?_
    exact absurd rfl ((m.storesToken_iff [] e).mp hst).1
  obtain ⟨token, rfl⟩ : ∃ b, token = some b := by
    cases token with
    | none => exact absurd rfl ht
    | some b => exact ⟨b, rfl⟩
  simp only [Option.getD_some] at ht ⊢
  rw [reset_eq, findResource_token _ _ _ ht]
  cases hf : (tokenOrder t).find? (m.storesToken token) with
  | none =>
    have hno := List.find?_eq_none.mp hf
    have hne : ∀ e, m.isUnderObservation e = true → m.token e ≠ token := fun e hu heq =>
      hno e (m.mem_tokenOrder_of_sound t hs hu) ((m.storesToken_iff token e).mpr ⟨ht, heq⟩)
    refine iff_of_true (m.withoutToken_eq_self hne).symm fun e he _ hst => ?_
    exact absurd hst (hno e he)
  | some f =>
    have hfs := List.find?_some hf
    constructor
    · intro h e he hu hst b hb hbe hbs
      -- if `b` is not observed, then the search ended before `e`, which is still observed
      by_contra hnb
      have hfe : f ≠ e := by
        rintro rfl
        rcases m.first_storing t hf hb hbs with h | h
        · exact hbe.ne h.symm
        · exact h.asymm hbe
      have hleft : (m.resetAt t f).observations e = m.observations e :=
        m.resetAt_observations t hfe.symm hs
      have hheld : (m.observations e).isSome := by rwa [observations_isSome]
      obtain ⟨x, hx⟩ := Option.isSome_iff_exists.mp hheld
      have hgone : withoutToken token m.observations e = none := by
        simp [withoutToken, hx, Option.filter, (m.observations_eq_some hx).2,
          ((m.storesToken_iff token e).mp hst).2]
      rw [h, hgone, hx] at hleft
      contradiction
    · intro h
      refine m.resetAt_observations_eq t hs hd hf fun e hu heq => ?_
      have he := m.mem_tokenOrder_of_sound t hs hu
      have hst := (m.storesToken_iff token e).mpr ⟨ht, heq⟩
      rcases m.first_storing t hf he hst with rfl | hbefore
      · exact hu
      · exact h e he hu hst f (List.mem_of_find?_eq_some hf) hbefore hfs

section Run
variable (atof : Bytes → F) (l : List Event) (value : Entity → Bytes)

def ResetRight (ev : Event) (m : Client F) : Prop := ∀ token, ev = .reset token →
  (Client.step t atof ev m).observations = withoutToken (token.getD []) m.observations

def ResetFirst (ev : Event) (m : Client F) : Prop := ∀ token, ev = .reset token →
  m.NoLeftover t (token.getD [])

/-- In a run whose observations carry distinct tokens, every RESET ends the observation with its
token and no other exactly if it never meets a leftover of the token first. -/
theorem resets_iff
    (hd : Trace.Always (Client.step t atof) (Distinct · t) l (fresh value)) :
    Trace.Along (Client.step t atof) (ResetRight t atof) l (fresh value) ↔
      Trace.Along (Client.step t atof) (ResetFirst t) l (fresh value) := by
  refine Trace.along_congr (I := Sound t) (fun ev m hm => hm.step atof ev)
    (fun ev m hm hdm => forall₂_congr fun token htok => ?_) (Sound.fresh value) hd
  subst htok
  exact reset_iff { m with log := [] } t hm hdm token

end Run

/-- A token is used again after a RESET ended its first observation. -/
def reused : List Event :=
  [.get (.served [51] 0 [1]), .reset (some [1]), .get (.served [51, 47, 48, 47, 57] 0 [1]),
    .reset (some [1])]

theorem resets_iff_reused :
    Trace.Along (Client.step device atoll) (ResetRight device atoll) reused
        (fresh fun _ => []) ↔
      Trace.Along (Client.step device atoll) (ResetFirst device) reused
        (fresh fun _ => []) :=
  resets_iff device atoll reused (fun _ => []) (by decide +kernel)

/-- The second RESET finds the object that is no longer observed. -/
theorem reset_leaves_reused :
    let m : Client Int := Trace.fold (Client.step device atoll) reused (fresh fun _ => [])
    Trace.Always (Client.step device atoll) (Distinct · device) reused
        (fresh fun _ => [] : Client Int) ∧
      m.isUnderObservation (.resource 0 0 1) = true ∧ m.token (.resource 0 0 1) = [1] ∧
      ¬Trace.Along (Client.step device atoll) (ResetRight device atoll) reused
        (fresh fun _ => [] : Client Int) := by
  refine ⟨by decide +kernel, by decide +kernel, by decide +kernel, fun h => ?_⟩
  have hlast := congrArg Option.isSome (congrFun (h.2.2.2.1 _ rfl) (.resource 0 0 1))
  revert hlast
  decide +kernel

end Client
end MbedClient.Observe
