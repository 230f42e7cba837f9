import MbedClient.Stepping
import MbedClient.Vector.M2MVector

/-! All vectors of a program, through any sequence of constructions and method calls, against the
lists that they stand for. -/
namespace MbedClient
open M2MVector

/-- What is pushed: a value, or an element of a vector. The vectors go by their places. -/
inductive Pushed (α : Type) where
  | value (x : α)
  | element (v k : Nat)

inductive VectorMethod (α : Type) where
  | assign (rhs : Nat)
  | pushBack (x : Pushed α)
  | popBack
  | erase (position : Int32)
  | reserve (newCapacity : Int32)
  | clear
  | resize (newSize : Int32)

/-- A construction, or a method of the vector at a place. -/
inductive VectorOperation (α : Type) where
  | construct (initSize : Int32)
  | copyConstruct (rhs : Nat)
  | call (i : Nat) (m : VectorMethod α)

/-- The vectors and the arrays behind them. -/
structure Vectors (α : Type) where
  heap : ArrayHeap α
  vectors : List M2MVector

namespace Vectors
variable {α : Type}

section Code
variable (fresh : Nat → α) (s : Vectors α)

def reference : Pushed α → Option (Reference α)
  | .value x => some (.elsewhere x)
  | .element v k => s.vectors[v]?.map fun v => .element v.objectTemplate k

def called (i : Nat) (v : M2MVector) : VectorMethod α → Option (M2MVector × ArrayHeap α)
  | .assign rhs => do v.assign fresh s.heap (rhs = i) (← s.vectors[rhs]?)
  | .pushBack x => do v.pushBack fresh s.heap (← s.reference x)
  | .popBack => v.popBack.map (·, s.heap)
  | .erase position => v.erase s.heap position.toInt
  | .reserve newCapacity => v.reserve fresh s.heap newCapacity.toInt
  | .clear => some (v.clear, s.heap)
  | .resize newSize => v.resize fresh s.heap newSize.toInt

/-- A new vector goes behind the others. -/
def operate : VectorOperation α → Option (Vectors α)
  | .construct initSize => do
    let (v, heap) ← construct fresh s.heap initSize.toInt
    some ⟨heap, s.vectors ++ [v]⟩
  | .copyConstruct rhs => do
    let (v, heap) ← copyConstruct fresh s.heap (← s.vectors[rhs]?)
    some ⟨heap, s.vectors ++ [v]⟩
  | .call i m => do
    let (v, heap) ← s.called fresh i (← s.vectors[i]?) m
    some ⟨heap, s.vectors.set i v⟩

end Code

section Lists
variable (lists : List (List α))

def pushedList : Pushed α → List α
  | .value x => [x]
  | .element v k => (lists.getD v [])[k]?.toList

def calledList (list : List α) : VectorMethod α → List α
  | .assign rhs => lists.getD rhs []
  | .pushBack x => list ++ pushedList lists x
  | .popBack => list.dropLast
  | .erase position => list.eraseIdx position.toInt.toNat
  | .reserve _ => list
  | .clear => []
  | .resize newSize => list.take newSize.toInt.toNat

/-- What an operation makes of the lists. -/
def operateLists : VectorOperation α → List (List α)
  | .construct _ => lists ++ [[]]
  | .copyConstruct rhs => lists ++ [lists.getD rhs []]
  | .call i m => lists.set i (calledList lists (lists.getD i []) m)

end Lists

section Conditions
variable (s : Vectors α)

def CalledLegally (v : M2MVector) : VectorMethod α → Prop
  | .assign rhs => rhs < s.vectors.length
  | .pushBack (.element u k) => ∃ w, s.vectors[u]? = some w ∧ k < w.size
  | .popBack => 0 < v.size
  | .erase position => 0 ≤ position.toInt
  | .resize newSize => 0 ≤ newSize.toInt ∧ newSize.toInt ≤ v.size
  | _ => True

/-- What the caller is responsible for. -/
def Legal : VectorOperation α → Prop
  | .construct _ => True
  | .copyConstruct rhs => rhs < s.vectors.length
  | .call i m => ∃ v, s.vectors[i]? = some v ∧ s.CalledLegally v m

/-- What is pushed to a full vector is not an element of it, and twice the capacity is an `int`. -/
def CalledSoundly (i : Nat) (v : M2MVector) : VectorMethod α → Prop
  | .pushBack x => v.size = v.capacity → v.capacity < 2 ^ 30 ∧ ∀ k, x ≠ .element i k
  | _ => True

def Sound : VectorOperation α → Prop
  | .call i m => ∀ v ∈ s.vectors[i]?, CalledSoundly i v m
  | _ => True

structure Kept : Prop where
  valid : ∀ v ∈ s.vectors, v.Valid s.heap
  apart : ∀ (i j : Nat) (v w : M2MVector), s.vectors[i]? = some v → s.vectors[j]? = some w →
    v.objectTemplate = w.objectTemplate → i = j

def contents : List (List α) := s.vectors.map (·.content s.heap)

structure Refined (operation : VectorOperation α) (s s' : Vectors α) : Prop where
  kept : s'.Kept
  contents : s'.contents = operateLists s.contents operation

end Conditions

variable {fresh : Nat → α} {s : Vectors α} {v w : M2MVector} {i j : Nat}

theorem getElem?_contents (hv : s.vectors[i]? = some v) :
    s.contents[i]? = some (v.content s.heap) := by
  rw [contents, List.getElem?_map, hv]
  rfl

theorem getD_contents (hv : s.vectors[i]? = some v) : s.contents.getD i [] = v.content s.heap := by
  rw [List.getD_eq_getElem?_getD, getElem?_contents hv]
  rfl

theorem Kept.valid_at (hs : s.Kept) (hv : s.vectors[i]? = some v) : v.Valid s.heap :=
  hs.valid v (List.mem_of_getElem? hv)

/-- A vector that takes a place, new or with the array of the one there before, leaves the others
alone. -/
theorem Kept.placed (hs : s.Kept) {own : ArrayPointer} {list : List α} {heap : ArrayHeap α}
    {vectors : List M2MVector} (hleaves : Leaves own s.heap list v heap)
    (hown : ∀ j w, s.vectors[j]? = some w → j ≠ i → w.objectTemplate ≠ own)
    (hi : vectors[i]? = some v) (hother : ∀ j, j ≠ i → vectors[j]? = s.vectors[j]?) :
    Kept ⟨heap, vectors⟩ ∧
      ∀ j, (contents ⟨heap, vectors⟩)[j]? = if j = i then some list else s.contents[j]? := by
  have hframe {j : Nat} {w : M2MVector} (hj : j ≠ i) (hw : vectors[j]? = some w) :
      (w.Valid heap ∧ w.content heap = w.content s.heap) ∧ w.objectTemplate ≠ v.objectTemplate := by
    rw [hother j hj] at hw
    have hvalid := hs.valid_at hw
    obtain ⟨l, hl⟩ := hvalid.exists_cells
    have hne := hown j w hw hj
    exact ⟨hvalid.of_cells ((hleaves.others _ _ hne hl).trans hl.symm), hleaves.ne_place hne hl⟩
  refine ⟨⟨fun w hw => ?_, fun j k u w hu hw heq => ?_⟩, fun j => ?_⟩
  · obtain ⟨j, hj⟩ := List.getElem?_of_mem hw
    by_cases hji : j = i
    · subst hji
      cases hi.symm.trans hj
      exact hleaves.valid
    · exact (hframe hji hj).1.1
  · by_cases hji : j = i
    · by_cases hki : k = i
      · exact hji.trans hki.symm
      · subst hji
        cases hi.symm.trans hu
        exact absurd heq.symm (hframe hki hw).2
    · by_cases hki : k = i
      · subst hki
        cases hi.symm.trans hw
        exact absurd heq (hframe hji hu).2
      · exact hs.apart j k u w (hother j hji ▸ hu) (hother k hki ▸ hw) heq
  · by_cases hji : j = i
    · subst hji
      rw [if_pos rfl, getElem?_contents (s := ⟨heap, vectors⟩) hi, hleaves.content]
    · rw [if_neg hji, contents, contents, List.getElem?_map, List.getElem?_map, ← hother j hji]
      cases hw : vectors[j]? with
      | none => rfl
      | some w => exact congrArg some (hframe hji hw).1.2

section Methods

/-- A reference to what is pushed, and its value; it is to an element of the vector at a place
exactly if its array is. -/
theorem exists_reference (hs : s.Kept) (hv : s.vectors[i]? = some v) {x : Pushed α}
    (hlegal : s.CalledLegally v (.pushBack x)) :
    ∃ r a, s.reference x = some r ∧ deref s.heap r = some a ∧ pushedList s.contents x = [a] ∧
      ((∀ k, r ≠ .element v.objectTemplate k) ↔ ∀ k, x ≠ .element i k) := by
  cases x with
  | value a =>
    exact ⟨.elsewhere a, a, rfl, rfl, rfl, iff_of_true (fun _ => by simp) fun _ => by simp⟩
  | element u k =>
    obtain ⟨w, hw, hk⟩ := hlegal
    obtain ⟨rest, hcells, hsize, -⟩ := (hs.valid_at hw).cells_eq
    have hlt : k < (w.content s.heap).length := by omega
    refine ⟨.element w.objectTemplate k, (w.content s.heap)[k], ?_, ?_, ?_, ?_⟩
    · rw [reference, hw]
      rfl
    · rw [deref, ArrayHeap.get_of_lt hcells (by rw [List.length_append]; omega),
        List.getElem_append_left hlt]
    · rw [pushedList, getD_contents hw, List.getElem?_eq_getElem hlt]
      rfl
    · constructor
      · intro helse l hc
        cases hc
        cases hw.symm.trans hv
        exact helse k rfl
      · intro helse l hc
        have hui : u = i := hs.apart u i w v hw hv (Reference.element.inj hc).1
        exact helse k (hui ▸ rfl)

theorem called_yields (hs : s.Kept) (fresh : Nat → α) {m : VectorMethod α}
    (hv : s.vectors[i]? = some v)
    (hlegal : s.CalledLegally v m) (hsound : CalledSoundly i v m) :
    Yields v.objectTemplate s.heap (calledList s.contents (v.content s.heap) m)
      (s.called fresh i v m) := by
  have hvalid := hs.valid_at hv
  cases m with
  | assign rhs =>
    have hw := List.getElem?_eq_getElem hlegal
    rw [called, calledList, getD_contents hw, hw]
    by_cases hsame : rhs = i
    · subst hsame
      have hself : s.vectors[rhs] = v := Option.some.inj (hw.symm.trans hv)
      rw [decide_eq_true rfl, hself]
      exact ⟨v, s.heap, rfl, leaves_self hvalid⟩
    · rw [decide_eq_false hsame]
      exact assign_yields fresh (.inr hvalid) (hs.valid_at hw) fun hc =>
        hsame (hs.apart _ _ _ _ hw hv hc)
  | pushBack x =>
    obtain ⟨r, a, hr, ha, hpushed, helse⟩ := exists_reference hs hv hlegal
    rw [called, calledList, hr, hpushed]
    exact pushBack_yields hvalid fresh ha fun hfull => (hsound hfull).imp_right helse.mpr
  | popBack => exact popBack_yields hvalid hlegal
  | erase position => exact erase_yields hvalid hlegal
  | reserve newCapacity => exact reserve_yields hvalid fresh newCapacity.toInt_lt
  | clear => exact clear_yields hvalid
  | resize newSize => exact resize_yields hvalid fresh hlegal.1 hlegal.2

theorem called_eq_none (hs : s.Kept) (fresh : Nat → α) {m : VectorMethod α}
    (hv : s.vectors[i]? = some v)
    (hlegal : s.CalledLegally v m) (hbad : ¬ CalledSoundly i v m) :
    s.called fresh i v m = none := by
  cases m with
  | pushBack x =>
    obtain ⟨r, a, hr, -, -, helse⟩ := exists_reference hs hv hlegal
    rw [called, hr]
    obtain ⟨hfull, hbad⟩ := Classical.not_imp.mp hbad
    exact pushBack_eq_none (hs.valid_at hv) fresh hfull fun hc => hbad (hc.imp_right helse.mp)
  | _ => exact absurd trivial hbad

end Methods

section Operations

/-- A new vector. -/
theorem refined_append (hs : s.Kept) {list : List α} {heap : ArrayHeap α}
    (hleaves : Leaves none s.heap list v heap) :
    Kept ⟨heap, s.vectors ++ [v]⟩ ∧ contents ⟨heap, s.vectors ++ [v]⟩ = s.contents ++ [list] := by
  have hown (j : Nat) (w : M2MVector) (hw : s.vectors[j]? = some w) : w.objectTemplate ≠ none := by
    intro hc
    obtain ⟨l, hl⟩ := (hs.valid_at hw).exists_cells
    rw [hc] at hl
    cases hl
  have hself : (s.vectors ++ [v])[s.vectors.length]? = some v := by
    rw [List.getElem?_append_right le_rfl, Nat.sub_self]
    rfl
  have hother (j : Nat) (hj : j ≠ s.vectors.length) : (s.vectors ++ [v])[j]? = s.vectors[j]? := by
    rw [List.getElem?_append]
    split_ifs with hlt
    · rfl
    · rw [List.getElem?_eq_none (by rw [List.length_singleton]; omega),
        List.getElem?_eq_none (by omega)]
  obtain ⟨hkept, hcontents⟩ := hs.placed hleaves (fun j w hw _ => hown j w hw) hself hother
  refine ⟨hkept, List.ext_getElem? fun j => ?_⟩
  have hlen : s.contents.length = s.vectors.length := List.length_map _
  rw [hcontents, List.getElem?_append, hlen]
  obtain hless | hsame | hmore := Nat.lt_trichotomy j s.vectors.length
  · rw [if_neg hless.ne, if_pos hless]
  · rw [if_pos hsame, if_neg (Nat.not_lt.mpr hsame.ge), hsame, Nat.sub_self]
    rfl
  · rw [if_neg hmore.ne', if_neg hmore.not_gt, List.getElem?_eq_none (by omega),
      List.getElem?_eq_none (by rw [List.length_singleton]; omega)]

/-- A vector in the place of what it was before. -/
theorem refined_set (hs : s.Kept) {list : List α} {heap : ArrayHeap α} (hv : s.vectors[i]? = some v)
    (hleaves : Leaves v.objectTemplate s.heap list w heap) :
    Kept ⟨heap, s.vectors.set i w⟩ ∧ contents ⟨heap, s.vectors.set i w⟩ =
      s.contents.set i list := by
  obtain ⟨hlt, -⟩ := List.getElem?_eq_some_iff.mp hv
  have hother (j : Nat) (hj : j ≠ i) : (s.vectors.set i w)[j]? = s.vectors[j]? :=
    List.getElem?_set_ne (Ne.symm hj)
  obtain ⟨hkept, hcontents⟩ :=
    hs.placed hleaves (fun j u hu hj hc => hj (hs.apart j i u v hu hv hc))
    (List.getElem?_set_self hlt) hother
  refine ⟨hkept, List.ext_getElem? fun j => ?_⟩
  have hlen : s.contents.length = s.vectors.length := List.length_map _
  rw [hcontents, List.getElem?_set, hlen, if_pos hlt]
  exact if_congr eq_comm rfl rfl

/-- One operation. -/
theorem operate_refined_iff (hs : s.Kept) (fresh : Nat → α) {operation : VectorOperation α}
    (hlegal : s.Legal operation) :
    (∃ s', s.operate fresh operation = some s' ∧ Refined operation s s') ↔ s.Sound operation := by
  cases operation with
  | construct initSize =>
    obtain ⟨v, heap, hv, hleaves⟩ := construct_yields fresh s.heap initSize.toInt_lt
    obtain ⟨hkept, hcontents⟩ := refined_append hs hleaves
    refine iff_of_true ⟨_, ?_, hkept, hcontents⟩ trivial
    simp only [operate, hv, Option.bind_eq_bind, Option.bind_some]
  | copyConstruct rhs =>
    have hw := List.getElem?_eq_getElem hlegal
    obtain ⟨v, heap, hv, hleaves⟩ := copyConstruct_yields fresh (hs.valid_at hw)
    rw [← getD_contents hw] at hleaves
    obtain ⟨hkept, hcontents⟩ := refined_append hs hleaves
    refine iff_of_true ⟨_, ?_, hkept, hcontents⟩ trivial
    simp only [operate, hw, hv, Option.bind_eq_bind, Option.bind_some]
  | call i m =>
    obtain ⟨v, hv, hlegal⟩ := hlegal
    have hsound : s.Sound (.call i m) ↔ CalledSoundly i v m := by
      simp [Sound, hv]
    rw [hsound]
    constructor
    · intro ⟨s', hs', _⟩
      by_contra hbad
      rw [operate, hv, Option.bind_eq_bind, Option.bind_some,
        called_eq_none hs fresh hv hlegal hbad] at hs'
      cases hs'
    · intro hgood
      obtain ⟨w, heap, hw, hleaves⟩ := called_yields hs fresh hv hlegal hgood
      rw [← getD_contents hv] at hleaves
      obtain ⟨hkept, hcontents⟩ := refined_set hs hv hleaves
      refine ⟨_, ?_, hkept, hcontents⟩
      simp only [operate, hv, hw, Option.bind_eq_bind, Option.bind_some]

end Operations

section Runs

/-- The next operation of a run, with what the elements of a new array are. -/
def step (event : (Nat → α) × VectorOperation α) (s : Vectors α) : Option (Vectors α) :=
  s.operate event.1 event.2

def empty : Vectors α := ⟨⟨[]⟩, []⟩

/-- From the first operation on, every vector has its array and holds what the lists say, up to the
last one. -/
def RunRefined (events : List ((Nat → α) × VectorOperation α)) : Prop :=
  Stepping.Follows step (fun event => Refined event.2) events empty ∧
    ∃ s, Stepping.run step events empty = some s ∧
      s.contents = events.foldl (fun lists event => operateLists lists event.2) []

/-- A condition on the operations of a run, each with the vectors that it finds. -/
def Throughout (ok : Vectors α → VectorOperation α → Prop)
    (events : List ((Nat → α) × VectorOperation α)) :
    Prop :=
  Stepping.Admitted step (fun event s => ok s event.2) events empty

theorem empty_kept : (empty : Vectors α).Kept :=
  ⟨List.forall_mem_nil _, fun _ _ _ _ h => by cases h⟩

/-- Every run of constructions and method calls. -/
theorem vectorsRefined_iff {events : List ((Nat → α) × VectorOperation α)}
    (hlegal : Throughout Legal events) :
    RunRefined events ↔ Throughout Sound events := by
  have hfollows := Stepping.follows_iff_admitted (I := Kept) (s := empty)
    (fun event _ hs hevent => operate_refined_iff hs event.1 hevent)
    (fun _ _ _ _ hrefined => hrefined.kept) empty_kept hlegal
  constructor
  · intro ⟨hrun, _⟩
    exact hfollows.mp hrun
  · intro hsound
    have hrun := hfollows.mpr hsound
    exact ⟨hrun, hrun.exists_run fun _ _ _ hrefined => hrefined.contents⟩

/-- The first element of a full vector is pushed to it. -/
theorem first_pushed :
    Throughout Legal [(fun _ => 0, .construct 1), (fun _ => 0, .call 0 (.pushBack (.value 7))),
        (fun _ => 0, .call 0 (.pushBack (.element 0 0)))] ∧
      ¬ RunRefined [(fun _ => 0, .construct 1), (fun _ => 0, .call 0 (.pushBack (.value 7))),
        (fun _ => 0, .call 0 (.pushBack (.element 0 0)))] := by
  constructor
  · refine ⟨trivial, fun _ h₁ => ?_⟩
    cases h₁
    refine ⟨⟨_, rfl, trivial⟩, fun _ h₂ => ?_⟩
    cases h₂
    exact ⟨⟨_, rfl, _, rfl, by decide⟩, fun _ _ => trivial⟩
  · intro ⟨⟨_, h₁, _, _, h₂, _, _, h₃, _⟩, _⟩
    cases h₁
    cases h₂
    cases h₃

theorem vectorsRefined_copy :
    RunRefined [(fun _ => 0, .construct 1), (fun _ => 0, .call 0 (.pushBack (.value 7))),
    (fun _ => 0, .copyConstruct 0), (fun _ => 0, .call 0 (.erase 0))] := by
  refine (vectorsRefined_iff ?_).mpr ?_
  · refine ⟨trivial, fun _ h₁ => ?_⟩
    cases h₁
    refine ⟨⟨_, rfl, trivial⟩, fun _ h₂ => ?_⟩
    cases h₂
    refine ⟨Nat.zero_lt_succ _, fun _ h₃ => ?_⟩
    cases h₃
    exact ⟨⟨_, rfl, Int.le_refl 0⟩, fun _ _ => trivial⟩
  · refine ⟨trivial, fun _ h₁ => ?_⟩
    cases h₁
    refine ⟨fun _ hv hfull => ?_,
      fun _ _ => ⟨trivial, fun _ _ => ⟨fun _ _ => trivial, fun _ _ => trivial⟩⟩⟩
    cases hv
    cases hfull

end Runs

end Vectors
end MbedClient
