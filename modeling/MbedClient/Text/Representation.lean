import MbedClient.Stepping
import MbedClient.Text.Operations

/-! All strings of a program, through any sequence of constructions and method calls, against the
lists of bytes that they stand for. -/
namespace MbedClient

/-- How a new string is made; the strings there are go by their places. -/
inductive StringConstruction where
  | empty
  | chars (s : CharArray)
  | bytes (str : MemoryBlock UInt8) (n : UInt64)
  | copy (s : Nat)
  | substr (s : Nat) (pos length : UInt64)

/-- What a string is told to do. -/
inductive StringMethod where
  | assignChars (source : CharPointer)
  | assign (s : Nat)
  | addString (s : Nat)
  | addChars (source : CharPointer)
  | addChar (c : UInt8)
  | pushBack (c : UInt8)
  | append (str : Option CharArray) (n : UInt64)
  | appendRaw (str : Option (MemoryBlock UInt8)) (n : UInt64)
  | resize (n : UInt64)
  | resizeWith (n : UInt64) (c : UInt8)
  | clear

/-- A construction, or a method of the string at a place. -/
inductive StringOperation where
  | construct (c : StringConstruction)
  | call (i : Nat) (m : StringMethod)

namespace M2MString
variable {fresh : Nat → UInt8} {strings : List M2MString} {s t : M2MString} {i : Nat}

section Code
variable (fresh : Nat → UInt8) (strings : List M2MString)

def made : StringConstruction → Option (M2MString × Heap)
  | .empty => empty fresh allGranted
  | .chars s => ofChars fresh s.memory allGranted
  | .bytes str n => ofBytes fresh str n allGranted
  | .copy s => do (← strings[s]?).copyConstruct fresh allGranted
  | .substr s pos length => do (← strings[s]?).substr fresh pos length allGranted

def called (i : Nat) (t : M2MString) : StringMethod → Option (M2MString × Heap)
  | .assignChars source => t.assign fresh source allGranted
  | .assign s => do (← strings[s]?).assignTo fresh (if s = i then .itself else .other t) allGranted
  | .addString s => do
    let s' ← strings[s]?
    t.addString fresh (if s = i then .itself else .other s') allGranted
  | .addChars source => t.addChars fresh source allGranted
  | .addChar c => t.addChar fresh c allGranted
  | .pushBack c => t.pushBack fresh c allGranted
  | .append str n => t.append fresh str n allGranted
  | .appendRaw str n => t.appendRaw fresh str n allGranted
  | .resize n => t.resize fresh n allGranted
  | .resizeWith n c => t.resizeWith fresh n c allGranted
  | .clear => t.clear.map (·, allGranted)

/-- A new string goes behind the others. -/
def operate : StringOperation → Option (List M2MString)
  | .construct c => (made fresh strings c).map fun (s, _) => strings ++ [s]
  | .call i m => do
    let (s, _) ← called fresh strings i (← strings[i]?) m
    some (strings.set i s)

end Code

section Lists
variable (texts : List Bytes)

def madeText : StringConstruction → Bytes
  | .empty => []
  | .chars s => s.text
  | .bytes str n => str.cells.take n.toNat
  | .copy s => texts.getD s []
  | .substr s pos length => ((texts.getD s []).drop pos.toNat).take length.toNat

def calledText (text : Bytes) : StringMethod → Bytes
  | .assignChars source => charsAt text source
  | .assign s => texts.getD s []
  | .addString s => text ++ texts.getD s []
  | .addChars source => text ++ charsAt text source
  | .addChar c | .pushBack c => text ++ [c]
  | .append str n => text ++ appended str n
  | .appendRaw str n => text ++ appendedRaw str n
  | .resize n => resized text n 0
  | .resizeWith n c => resized text n c
  | .clear => []

/-- What an operation makes of the lists of bytes. -/
def operateText : StringOperation → List Bytes
  | .construct c => texts ++ [madeText texts c]
  | .call i m => texts.set i (calledText texts (texts.getD i []) m)

end Lists

section Conditions
variable (strings : List M2MString)

/-- The string that is copied is there, and so are the bytes. -/
def MadeLegally : StringConstruction → Prop
  | .bytes str n => n.toNat ≤ str.cells.length
  | .copy s | .substr s _ _ => s < strings.length
  | _ => True

def CalledLegally (t : M2MString) : StringMethod → Prop
  | .assignChars source | .addChars source => t.Pointed source
  | .assign s | .addString s => s < strings.length
  | .appendRaw str n => ∀ b ∈ str, n.toNat ≤ b.cells.length
  | _ => True

/-- What the caller is responsible for. -/
def Legal : StringOperation → Prop
  | .construct c => MadeLegally strings c
  | .call i m => ∃ t, strings[i]? = some t ∧ CalledLegally strings t m

/-- The memory for the NUL of `n` bytes can be asked for. -/
def MadeSoundly : StringConstruction → Prop
  | .bytes _ n => n + 1 ≠ 0
  | _ => True

/-- A string that is assigned to another one has no NUL in it, and whatever makes a string longer
leaves it a size. -/
def CalledSoundly (i : Nat) (t : M2MString) : StringMethod → Prop
  | .assignChars source => source = .own 0 → 0 ∉ t.content
  | .assign s => s = i ∨ ∀ u ∈ strings[s]?, 0 ∉ u.content
  | .addString s => ∀ u ∈ strings[s]?, t.Room u.size.toNat
  | .addChars source => t.Room (charsAt t.content source).length
  | .addChar _ | .pushBack _ => t.Grows
  | .append str n => t.Room (appended str n).length
  | .appendRaw str n => t.Room (appendedRaw str n).length
  | .resize n | .resizeWith n _ => n + 1 ≠ 0
  | .clear => True

def Sound : StringOperation → Prop
  | .construct c => MadeSoundly c
  | .call i m => ∀ t ∈ strings[i]?, CalledSoundly strings i t m

def AllValid : Prop := ∀ s ∈ strings, s.Valid

def contents : List Bytes := strings.map content

structure Refined (operation : StringOperation) (strings strings' : List M2MString) : Prop where
  valid : AllValid strings'
  contents : contents strings' = operateText (contents strings) operation

end Conditions

theorem getD_contents (hs : strings[i]? = some s) : (contents strings).getD i [] = s.content := by
  rw [contents, List.getD_eq_getElem?_getD, List.getElem?_map, hs]
  rfl

theorem AllValid.of_getElem? (h : AllValid strings) (hs : strings[i]? = some s) : s.Valid :=
  h s (List.mem_of_getElem? hs)

theorem made_yields_iff (h : AllValid strings) (fresh : Nat → UInt8) {c : StringConstruction}
    (hlegal : MadeLegally strings c) :
    Yields (made fresh strings c) (madeText (contents strings) c) ↔ MadeSoundly c := by
  cases c with
  | empty => exact iff_of_true (empty_yields fresh) trivial
  | chars s => exact iff_of_true (ofChars_yields fresh s.terminated s.bounded) trivial
  | bytes str n => exact ofBytes_yields_iff fresh hlegal
  | copy j =>
    have hs := List.getElem?_eq_getElem hlegal
    rw [made, madeText, getD_contents hs, hs]
    exact iff_of_true (copyConstruct_yields (h.of_getElem? hs) fresh) trivial
  | substr j pos length =>
    have hs := List.getElem?_eq_getElem hlegal
    rw [made, madeText, getD_contents hs, hs]
    exact iff_of_true (substr_yields (h.of_getElem? hs) fresh pos length) trivial

theorem called_yields_iff (h : AllValid strings) (fresh : Nat → UInt8) {m : StringMethod}
    (ht : strings[i]? = some t) (hlegal : CalledLegally strings t m) :
    Yields (called fresh strings i t m) (calledText (contents strings) t.content m) ↔
      CalledSoundly strings i t m := by
  have hvalid := h.of_getElem? ht
  cases m with
  | assignChars source => exact assign_yields_iff hvalid fresh hlegal
  | assign j =>
    have hs := List.getElem?_eq_getElem hlegal
    rw [called, calledText, CalledSoundly, getD_contents hs, hs]
    refine (assignTo_yields_iff (h.of_getElem? hs) fresh _).trans (or_congr ?_ ?_)
    · split_ifs with hself <;> simp [hself]
    · simp
  | addString j =>
    have hs := List.getElem?_eq_getElem hlegal
    rw [called, calledText, CalledSoundly, getD_contents hs, hs]
    by_cases hself : j = i
    · subst hself
      have hself : strings[j] = t := Option.some.inj (hs.symm.trans ht)
      simpa [hself] using addItself_yields_iff hvalid fresh
    · simpa [hself] using addString_yields_iff hvalid fresh (h.of_getElem? hs)
  | addChars source => exact addChars_yields_iff hvalid fresh hlegal
  | addChar c => exact pushBack_yields_iff hvalid fresh c
  | pushBack c => exact pushBack_yields_iff hvalid fresh c
  | append str n => exact append_yields_iff hvalid fresh str n
  | appendRaw str n => exact appendRaw_yields_iff hvalid fresh hlegal
  | resize n => exact resizeWith_yields_iff hvalid fresh n 0
  | resizeWith n c => exact resizeWith_yields_iff hvalid fresh n c
  | clear => exact iff_of_true (clear_yields hvalid) trivial

/-- One operation. -/
theorem operate_refined_iff (h : AllValid strings) (fresh : Nat → UInt8)
    {operation : StringOperation}
    (hlegal : Legal strings operation) :
    (∃ strings', operate fresh strings operation = some strings' ∧
      Refined operation strings strings') ↔
      Sound strings operation := by
  cases operation with
  | construct c =>
    refine Iff.trans ?_ (made_yields_iff h fresh hlegal)
    constructor
    · intro ⟨strings', hs', hrefined⟩
      obtain ⟨⟨s, k⟩, hs, rfl⟩ := Option.map_eq_some_iff.mp hs'
      have hcontents := hrefined.contents
      rw [contents, List.map_append] at hcontents
      exact ⟨s, k, hs, hrefined.valid s (by simp),
        (List.cons.inj (List.append_cancel_left hcontents)).1⟩
    · intro ⟨s, k, hs, hvalid, hcontent⟩
      refine ⟨strings ++ [s], by simp only [operate, hs, Option.map_some], ⟨?_, ?_⟩⟩
      · intro u hu
        obtain hu | hu := List.mem_append.mp hu
        · exact h u hu
        · exact List.mem_singleton.mp hu ▸ hvalid
      · rw [contents, List.map_append, operateText, ← hcontent]
        rfl
  | call i m =>
    obtain ⟨t, ht, hlegal⟩ := hlegal
    have htext : (contents strings).getD i [] = t.content := getD_contents ht
    obtain ⟨hlt, -⟩ := List.getElem?_eq_some_iff.mp ht
    have hsound : Sound strings (.call i m) ↔ CalledSoundly strings i t m := by
      simp [Sound, ht]
    refine Iff.trans ?_ ((called_yields_iff h fresh ht hlegal).trans hsound.symm)
    constructor
    · intro ⟨strings', hs', hrefined⟩
      simp only [operate, ht, Option.bind_eq_bind, Option.bind_some] at hs'
      obtain ⟨⟨s, k⟩, hs, hset⟩ := Option.bind_eq_some_iff.mp hs'
      cases hset
      have hcontents := hrefined.contents
      rw [operateText, htext] at hcontents
      have hcontent : content s = calledText (contents strings) t.content m := by
        have hat := congrArg (·[i]?) hcontents
        simpa [contents, hlt] using hat
      exact ⟨s, k, hs, hrefined.valid s (List.mem_set hlt s), hcontent⟩
    · intro ⟨s, k, hs, hvalid, hcontent⟩
      refine ⟨strings.set i s, ?_, ⟨?_, ?_⟩⟩
      · simp only [operate, ht, hs, Option.bind_eq_bind, Option.bind_some]
      · intro u hu
        obtain hu | rfl := List.mem_or_eq_of_mem_set hu
        · exact h u hu
        · exact hvalid
      · rw [contents, List.map_set, operateText, htext, ← hcontent]
        rfl

section Runs

/-- The next operation of a run, with what new memory happens to hold. -/
def step (event : (Nat → UInt8) × StringOperation) (strings : List M2MString) :
    Option (List M2MString) :=
  operate event.1 strings event.2

/-- From the first operation on, every string is valid and holds what the lists of bytes say, up to
the last one. -/
def RunRefined (events : List ((Nat → UInt8) × StringOperation)) : Prop :=
  Stepping.Follows step (fun event => Refined event.2) events [] ∧
    ∃ strings, Stepping.run step events [] = some strings ∧
      contents strings = events.foldl (fun texts event => operateText texts event.2) []

/-- A condition on the operations of a run, each with the strings that it finds. -/
def Throughout (ok : List M2MString → StringOperation → Prop)
    (events : List ((Nat → UInt8) × StringOperation)) : Prop :=
  Stepping.Admitted step (fun event strings => ok strings event.2) events []

/-- Every run of constructions and method calls. -/
theorem stringsRefined_iff {events : List ((Nat → UInt8) × StringOperation)}
    (hlegal : Throughout Legal events) :
    RunRefined events ↔ Throughout Sound events := by
  have hnone : AllValid [] := List.forall_mem_nil _
  have hfollows := Stepping.follows_iff_admitted (I := AllValid) (s := [])
    (fun event _ hstrings hevent => operate_refined_iff hstrings event.1 hevent)
    (fun _ _ _ _ hrefined => hrefined.valid) hnone hlegal
  constructor
  · intro ⟨hrun, _⟩
    exact hfollows.mp hrun
  · intro hsound
    have hrun := hfollows.mpr hsound
    exact ⟨hrun, hrun.exists_run fun _ _ _ hrefined => hrefined.contents⟩

/-- A string with a NUL in it is assigned to another one; and a string is to be as long as a size
can be. -/
theorem nul_assigned_size_wrapped :
    (Throughout Legal [(fun _ => 0, .construct .empty),
        (fun _ => 0, .call 0 (.appendRaw (some ⟨[0x61, 0, 0x62], []⟩) 3)),
        (fun _ => 0, .construct .empty), (fun _ => 0, .call 1 (.assign 0))] ∧
      ¬ RunRefined [(fun _ => 0, .construct .empty),
        (fun _ => 0, .call 0 (.appendRaw (some ⟨[0x61, 0, 0x62], []⟩) 3)),
        (fun _ => 0, .construct .empty), (fun _ => 0, .call 1 (.assign 0))]) ∧
    (Throughout Legal [(fun _ => 0, .construct .empty), (fun _ => 0, .call 0 (.resize (-1)))] ∧
      ¬ RunRefined [(fun _ => 0, .construct .empty), (fun _ => 0, .call 0 (.resize (-1)))]) := by
  refine ⟨⟨?_, ?_⟩, ?_, ?_⟩
  · refine ⟨trivial, fun _ h₁ => ?_⟩
    cases h₁
    refine ⟨⟨_, rfl, fun _ hb => ?_⟩, fun _ h₂ => ?_⟩
    · cases hb
      decide
    cases h₂
    refine ⟨trivial, fun _ h₃ => ?_⟩
    cases h₃
    exact ⟨⟨_, rfl, Nat.zero_lt_succ _⟩, fun _ _ => trivial⟩
  · intro ⟨⟨_, h₁, _, _, h₂, _, _, h₃, _, _, h₄, hrefined, _⟩, _⟩
    cases h₁
    cases h₂
    cases h₃
    cases h₄
    cases hrefined.contents
  · refine ⟨trivial, fun _ h₁ => ?_⟩
    cases h₁
    exact ⟨⟨_, rfl, trivial⟩, fun _ _ => trivial⟩
  · intro ⟨⟨_, h₁, hrefined, _, h₂, hrefined', _⟩, _⟩
    cases h₁
    have hlegal : Legal [⟨⟨[0], [(0, 1)]⟩, 1, 0⟩] (.call 0 (.resize (-1))) := ⟨_, rfl, trivial⟩
    have hsound := (operate_refined_iff hrefined.valid _ hlegal).mp ⟨_, h₂, hrefined'⟩
    exact hsound _ rfl rfl

theorem stringsRefined_aa :
    RunRefined [(fun _ => 0, .construct .empty), (fun _ => 0, .call 0 (.pushBack 0x61)),
    (fun _ => 0, .call 0 (.addString 0))] := by
  refine (stringsRefined_iff ?_).mpr ?_
  · refine ⟨trivial, fun _ h₁ => ?_⟩
    cases h₁
    refine ⟨⟨_, rfl, trivial⟩, fun _ h₂ => ?_⟩
    cases h₂
    exact ⟨⟨_, rfl, Nat.zero_lt_succ _⟩, fun _ _ => trivial⟩
  · refine ⟨trivial, fun _ h₁ => ?_⟩
    cases h₁
    refine ⟨fun _ ht _ => ?_, fun _ h₂ => ?_⟩
    · cases ht
      decide
    cases h₂
    refine ⟨fun _ ht _ hu => ?_, fun _ _ => trivial⟩
    cases ht
    cases hu
    change 1 + 1 + 1 < 2 ^ 64
    decide

end Runs

end M2MString
end MbedClient
