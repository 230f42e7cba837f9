import MbedClient.Tlv.Passes

/-! The answer of an entry point that gets an object or an object instance: it tells whether the
checking pass found an error. -/
namespace MbedClient.Tlv
variable {tlv : Nat → UInt8} {size : Nat} {operation : Operation} {a b : Addressee} {env : Env}

theorem visits_verdict_grows {writes creates : Bool} (update : Bool) (hn : a.nested = true)
    (hk : a.SameKind b) (h : a.forest.Grows writes creates b.forest)
    (hc : creates = true → operation = .post) : ∀ v ∈ a.visits tlv size,
      objectVerdict tlv operation update true b.forest v =
        objectVerdict tlv operation update true a.forest v := by
  intro v hv
  cases a with
  | object obj =>
    obtain ⟨p, -, hp⟩ := List.mem_flatMap.mp hv
    exact objectVerdict_grows tlv size operation update h hc v hp
  | objectInstance oi =>
    cases b with
    | objectInstance oi' =>
      obtain ⟨v, hin, rfl⟩ := List.mem_map.mp hv
      obtain ⟨p, -, hp⟩ := (mem_resourceVisits tlv size).mp hin
      cases h with
      | cons h _ => exact resourceVerdict_grows tlv size operation update h hc v hp
    | object _ => exact hk.elim
    | resource _ => exact hk.elim
  | resource r => exact absurd hn Bool.false_ne_true

/-- The storing pass finds no error where the checking pass found none. -/
theorem store_none (hn : a.nested = true) (hk : a.SameKind b)
    (h : a.forest.Grows false (createsMembers operation a.nested) b.forest)
    (hv : a.verdict tlv size operation = .none) :
    (pass tlv size operation true (b, env)).1 = .none := by
  rw [(pass_run tlv size operation true b env).1, Addressee.visits_grows tlv size hk h,
    hk.nested, hn]
  rw [Addressee.verdict, hn] at hv
  unfold lastVerdict at hv ⊢
  cases hl : (a.visits tlv size).getLast? with
  | none => rfl
  | some v =>
    rw [hl] at hv
    have hpost : createsMembers operation a.nested = true → operation = .post := fun hc => by
      simpa [createsMembers, hn] using hc
    have hgrown := visits_verdict_grows true hn hk h hpost v (List.mem_of_getLast? hl)
    rw [Option.map_some, Option.getD_some, hgrown]
    exact objectVerdict_update tlv operation hv

theorem deserialize_none (tlv : Nat → UInt8) (size : Nat) (operation : Operation) (env : Env)
    (hn : a.nested = true) :
    (deserialize (some tlv) size operation a env).1 = .none ↔ a.Accepted tlv size operation := by
  by_cases h : a.Accepted tlv size operation
  · refine iff_of_true ?_ h
    rw [deserialize_accepted tlv size operation a env h]
    exact store_none hn (pass_kind tlv size operation false a _)
      (pass_grows tlv size operation false a _) h.2
  · refine iff_of_false (fun hc => ?_) h
    rcases deserialize_refused tlv size operation a env h with hr | ⟨hv, hr⟩
    · rw [hr] at hc
      exact absurd hc (by simp)
    · rw [hr] at hc
      exact hv hc

/-- A decoder writes values only if it finds no error. -/
theorem deserialize_outcome (tlv : Option (Nat → UInt8)) (size : Nat) (operation : Operation)
    (a : Addressee) (env : Env) (hn : a.nested = true) : a.forest.Grows
      (decide ((deserialize tlv size operation a env).1 = .none))
      (createsMembers operation a.nested)
      (deserialize tlv size operation a env).2.1.forest := by
  cases tlv with
  | none => cases a <;> exact .refl _
  | some tlv =>
    have hgrows := deserialize_grows tlv size operation a env
    cases hnone : decide ((deserialize (some tlv) size operation a env).1 = .none) with
    | true => exact hgrows
    | false =>
      have hrefused : ¬a.Accepted tlv size operation :=
        mt (deserialize_none tlv size operation env hn).mpr (of_decide_eq_false hnone)
      obtain hr | ⟨-, hr⟩ := deserialize_refused tlv size operation a env hrefused
      · rw [hr]
        exact .refl _
      · rw [hr]
        exact pass_grows tlv size operation false a _

/-- A decoder never takes an object instance away. -/
theorem deserialise_length (tlv : Nat → UInt8) (size : Nat) (operation : Operation)
    (obj : M2MObject) (env : Env) : obj.instances.length ≤
    (deserialiseObjectInstances (some tlv) size operation (obj, env)).2.1.instances.length :=
  Grown.length_le (deserialize_grows tlv size operation (.object obj) env)

end MbedClient.Tlv
