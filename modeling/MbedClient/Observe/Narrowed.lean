import MbedClient.Observe.Delivery
import MbedClient.Observe.Reset
import MbedClient.Observe.Change

/-! Which values of the observe option act on an observation. The handlers compare an octet of the
option, so the option 256 still stores a token, and 257 still ends an observation. -/
namespace MbedClient.Observe
open Report (CFloat)

/-- The octet of the option that is compared. -/
theorem octet_toNat (observe : Int32) :
    (observe.toUInt32.toUInt8.toNat : Int) = observe.toInt % 256 := by
  have hint : observe.toInt = (observe.toUInt32.toNat : Int).bmod (2 ^ 32) :=
    BitVec.toInt_eq_toNat_bmod observe.toBitVec
  have hlt := observe.toUInt32.toNat_lt
  rw [hint, UInt32.toNat_toUInt8, Int.bmod_def]
  omega

theorem octet_eq_zero (observe : Int32) :
    observe.toUInt32.toUInt8 = startObservation ↔ observe.toInt % 256 = 0 := by
  rw [← octet_toNat, ← UInt8.toNat_inj]
  exact Int.natCast_eq_zero.symm

theorem octet_eq_one (observe : Int32) :
    observe.toUInt32.toUInt8 = stopObservation ↔ observe.toInt % 256 = 1 := by
  rw [← octet_toNat, ← UInt8.toNat_inj]
  exact Nat.cast_eq_one.symm

/-- Where the end of the observation of an entity takes its level away. -/
def ObjectList.below (t : ObjectList) (e : Entity) : List Entity :=
  match e with
  | .object .. | .objectInstance .. => t.subtree e
  | _ => if t.supportsMultipleInstances e then t.children e else []

namespace Client
variable {F : Type*} [CFloat F] (m : Client F) (t : ObjectList)
open ObjectList

section Property
variable (e : Entity) (request : GetRequest)

/-- An observation starts and a token is stored only if the option is 0, an observation ends only if
it is 1, and otherwise everything that is known of observations is as it was. -/
structure OnlyZeroAndOneAct : Prop where
  starts : request.observe ≠ 0 → ∀ b,
    ((m.handleGetRequest t e request).1.isUnderObservation b = true →
      m.isUnderObservation b = true) ∧
    ((m.handleGetRequest t e request).1.token b = m.token b ∨
      (m.handleGetRequest t e request).1.token b = [])
  ends : request.observe ≠ 1 → ∀ b, m.isUnderObservation b = true →
    (m.handleGetRequest t e request).1.isUnderObservation b = true
  others : request.observe ≠ 0 → request.observe ≠ 1 →
    (m.handleGetRequest t e request).1.reportHandler = m.reportHandler ∧
      (m.handleGetRequest t e request).1.observationHandler = m.observationHandler

/-- The token of the request is the one that the entity has already, or is not stored. -/
def TokenKept : Prop := ∀ token h, request.token = some token → m.reportHandler e = some h →
  h.token = if request.tokenCopied then token else []

/-- The end of an observation finds nothing that it could take away. -/
structure NothingToEnd : Prop where
  reportHandler : m.reportHandler e = none
  observationHandler : m.observationHandler e.objectIndex = false
  levels : ∀ b ∈ t.below e, (m.observationLevel b).minus e.ownLevel = m.observationLevel b

/-- The option is 0 or 1, or does not look like one of them, or what it is taken for has no
effect; or the request does not get as far as the option. -/
def Unmistaken : Prop := t.accepts e request = true → request.observe = 0 ∨ request.observe = 1 ∨
  (request.observe.toInt % 256 = 0 → m.TokenKept e request) ∧
  (request.observe.toInt % 256 = 1 → m.NothingToEnd t e)

end Property

section Token
variable (e : Entity) (request : GetRequest)

theorem withToken_same_iff : (m.withToken e request).reportHandler = m.reportHandler ↔
    m.TokenKept e request := by
  unfold withToken TokenKept
  cases request.token with
  | none => simp
  | some token =>
    simp only [setObservationToken, setReportHandler_reportHandler, Function.update_eq_self_iff]
    cases m.reportHandler e with
    | none => simp
    | some h =>
      constructor
      · intro hsame token' h' htoken hh
        obtain rfl := Option.some.inj htoken
        obtain rfl := Option.some.inj hh
        exact (congrArg ReportHandler.token (Option.some.inj hsame)).symm
      · intro hkept
        have htoken := hkept token h rfl rfl
        rw [Option.map_some, ← htoken]

end Token

section Stop
variable (e : Entity)

/-- A report handler without a level that it had. -/
def lowered (l : Observation) (h : ReportHandler F) : ReportHandler F :=
  { h with observationLevel := h.observationLevel.minus l }

theorem setUnderObservation_cancel_reportHandler :
    (m.setUnderObservation e false false).reportHandler =
      Function.update m.reportHandler e none := by
  simp [setUnderObservation]

theorem stopAt_reportHandler (b : Entity) : (m.stopAt t e).reportHandler b =
    if b = e then none
    else if b ∈ t.below e then (m.reportHandler b).map (lowered e.ownLevel)
    else m.reportHandler b := by
  have hdown (es : List Entity) (m' : Client F)
      (h : m'.reportHandler = Function.update m.reportHandler e none) :
      (es.foldl (fun m x => m.removeOwnLevel e.ownLevel x) m').reportHandler b =
        if b = e then none
        else if b ∈ es then (m.reportHandler b).map (lowered e.ownLevel)
        else m.reportHandler b := by
    rw [foldl_removeOwnLevel_reportHandler, h, Function.update_apply]
    split_ifs <;> rfl
  have hcancel := m.setUnderObservation_cancel_reportHandler e
  have hown : ((m.setUnderObservation e false false).removeOwnLevel e.ownLevel e).reportHandler =
      Function.update m.reportHandler e none := by
    rw [removeOwnLevel, setReportHandler_reportHandler, hcancel]
    simp
  cases e with
  | object | objectInstance => exact hdown _ _ hcancel
  | resource i j k =>
    cases hm : t.supportsMultipleInstances (.resource i j k) with
    | true =>
      simp only [stopAt, below, hm, if_true]
      exact hdown _ _ hown
    | false =>
      simp only [stopAt, below, hm]
      exact hdown [] _ hown
  | resourceInstance => exact hdown [] _ hown

theorem map_lowered_eq_iff (l : Observation) (b : Entity) :
    (m.reportHandler b).map (lowered l) = m.reportHandler b ↔
      (m.observationLevel b).minus l = m.observationLevel b := by
  unfold observationLevel
  cases m.reportHandler b with
  | none => simp [Observation.minus, Observation.none]
  | some h =>
    constructor
    · intro hsame
      exact congrArg ReportHandler.observationLevel (Option.some.inj hsame)
    · intro hlevel
      simp only [Option.map_some, lowered, hlevel]

theorem stopAt_same_iff : ((m.stopAt t e).reportHandler = m.reportHandler ∧
    (m.stopAt t e).observationHandler = m.observationHandler) ↔ m.NothingToEnd t e := by
  rw [stopAt_observationHandler, Function.update_eq_self_iff]
  constructor
  · intro ⟨hsame, hoff⟩
    have hnone : m.reportHandler e = none := by
      rw [← hsame, stopAt_reportHandler, if_pos rfl]
    refine ⟨hnone, hoff.symm, fun b hb => (m.map_lowered_eq_iff e.ownLevel b).mp ?_⟩
    by_cases hbe : b = e
    · rw [hbe, hnone]
      rfl
    · have hb' := congrFun hsame b
      rwa [stopAt_reportHandler, if_neg hbe, if_pos hb] at hb'
  · intro h
    refine ⟨funext fun b => ?_, h.observationHandler.symm⟩
    rw [stopAt_reportHandler]
    split_ifs with hbe hb
    · rw [hbe, h.reportHandler]
    · exact (m.map_lowered_eq_iff e.ownLevel b).mpr (h.levels b hb)
    · rfl

end Stop

section Answer
variable {m t} {e : Entity} {request : GetRequest}

theorem startAt_isUnderObservation_mono {b : Entity} (h : m.isUnderObservation b = true) :
    (m.startAt t e).isUnderObservation b = true := by
  by_cases hb : b = e
  · subst hb
    rw [isUnderObservation_eq] at h ⊢
    by_cases hbase : b.baseType = .resourceInstance
    · rw [startAt_resourceInstance m t hbase, Function.update_self]
      cases hs : m.standing b with
      | none => simp [hs] at h
      | some s => rfl
    · rw [startAt_self m t hbase]
      rfl
  · rwa [startAt_isUnderObservation m t hb]

theorem token_eq (b : Entity) : m.token b = ((m.standing b).map (·.token)).getD [] := by
  unfold token standing
  cases m.reportHandler b <;> rfl

theorem stopAt_starts (b : Entity) : ((m.stopAt t e).isUnderObservation b = true →
      m.isUnderObservation b = true) ∧
    ((m.stopAt t e).token b = m.token b ∨ (m.stopAt t e).token b = []) := by
  by_cases hb : b = e
  · subst hb
    rw [isUnderObservation_eq, token_eq, stopAt_self]
    exact ⟨fun h => absurd h Bool.false_ne_true, .inr rfl⟩
  · rw [stopAt_isUnderObservation m t hb, token_eq, token_eq]
    refine ⟨id, .inl ?_⟩
    obtain h | ⟨-, h⟩ := m.stopAt_other t hb <;> rw [h]
    cases m.standing b <;> rfl

/-- An option that is neither 0 nor 1 may change nothing at all. -/
theorem onlyZeroAndOneAct_iff_same (h0 : request.observe ≠ 0) (h1 : request.observe ≠ 1) :
    m.OnlyZeroAndOneAct t e request ↔
      (m.handleGetRequest t e request).1.reportHandler = m.reportHandler ∧
        (m.handleGetRequest t e request).1.observationHandler = m.observationHandler := by
  constructor
  · intro h
    exact h.others h0 h1
  · intro ⟨hr, ho⟩
    have hunder (b : Entity) : (m.handleGetRequest t e request).1.isUnderObservation b =
        m.isUnderObservation b := by
      rw [isUnderObservation, isUnderObservation, hr]
    have htoken (b : Entity) : (m.handleGetRequest t e request).1.token b = m.token b := by
      rw [token, token, hr]
    refine ⟨fun _ b => ⟨fun h => ?_, .inl (htoken b)⟩, fun _ b h => ?_, fun _ _ => ⟨hr, ho⟩⟩
    · rwa [hunder] at h
    · rwa [hunder]

/-- An accepted request, by the octet of its option. -/
theorem answer_octet (h0 : request.observe ≠ 0) : m.answer t e request =
    if request.observe.toInt % 256 = 0 then m.withToken e request
    else if request.observe.toInt % 256 = 1 then m.stopAt t e
    else m := by
  rw [answer, if_neg h0]
  simp only [octet_eq_zero, octet_eq_one]

/-- Exactly a request whose option is not mistaken for another one acts as its option says. -/
theorem onlyZeroAndOneAct_iff (m : Client F) (t : ObjectList) (e : Entity) (request : GetRequest) :
    m.OnlyZeroAndOneAct t e request ↔ m.Unmistaken t e request := by
  have hfst := m.handleGetRequest_fst t e request
  cases hacc : t.accepts e request with
  | false =>
    rw [hacc, if_neg Bool.false_ne_true] at hfst
    refine iff_of_true ⟨?_, ?_, ?_⟩ fun h => absurd (hacc.symm.trans h) Bool.false_ne_true
    · intro _ b
      rw [hfst]
      exact ⟨id, .inl rfl⟩
    · intro _ b h
      rwa [hfst]
    · intro _ _
      rw [hfst]
      exact ⟨rfl, rfl⟩
  | true =>
    rw [hacc, if_pos rfl] at hfst
    by_cases h0 : request.observe = 0
    · refine iff_of_true ⟨fun h => absurd h0 h, fun _ b h => ?_, fun h => absurd h0 h⟩
        fun _ => .inl h0
      rw [hfst, answer, h0, if_pos (by decide), if_pos rfl, withToken_isUnderObservation]
      exact startAt_isUnderObservation_mono h
    by_cases h1 : request.observe = 1
    · refine iff_of_true ⟨fun _ b => ?_, fun h => absurd h1 h, fun _ h => absurd h1 h⟩
        fun _ => .inr (.inl h1)
      rw [hfst, answer_octet h0, h1, if_neg (by decide), if_pos (by decide)]
      exact stopAt_starts b
    -- the option is neither, but its octet may be
    rw [onlyZeroAndOneAct_iff_same h0 h1, hfst, answer_octet h0, Unmistaken, hacc]
    simp only [h0, h1, false_or, forall_true_left]
    by_cases hstart : request.observe.toInt % 256 = 0
    · rw [if_pos hstart, withToken_same_iff, withToken_observationHandler]
      simp [hstart]
    · rw [if_neg hstart]
      by_cases hstop : request.observe.toInt % 256 = 1
      · rw [if_pos hstop, stopAt_same_iff]
        simp [hstop]
      · rw [if_neg hstop]
        simp [hstart, hstop]

end Answer

/-- An observed object gets a new token by the option 256, and is no longer observed after 257. -/
theorem option_mistaken : device.isObservable (.object 0) = true ∧
    ¬watched.OnlyZeroAndOneAct device (.object 0) (.served [51] 256 [2]) ∧
    ¬watched.OnlyZeroAndOneAct device (.object 0) (.served [51] 257 [2]) := by
  refine ⟨rfl, fun h => ?_, fun h => ?_⟩
  · obtain hkept | hempty := (h.starts (by decide) (.object 0)).2
    · revert hkept
      decide +kernel
    · revert hempty
      decide +kernel
  · have hends := h.ends (by decide) (.object 0) (by decide +kernel)
    revert hends
    decide +kernel

end Client
end MbedClient.Observe
