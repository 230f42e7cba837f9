import MbedClient.Paths

/-! The overloads of `M2MBase::build_path`: one estimate of the space, then appends whose answers
nobody looks at. -/
namespace MbedClient

namespace StringBuffer
variable {size : Nat}

/-- All parts one after the other, and what each `append` has answered. -/
def appendAll (b : StringBuffer size) : List Bytes → List Bool × StringBuffer size
  | [] => ([], b)
  | part :: parts =>
    let (appended, b) := b.append part
    let (rest, b) := b.appendAll parts
    (appended :: rest, b)

theorem append_fits (b : StringBuffer size) (part : Bytes)
    (h : b.text.length + part.length < size) :
    (b.append part).1 = true ∧ (b.append part).2.text = b.text ++ part := by
  have hspace : b.ensureSpace (part.length + 1) = true := by
    apply decide_eq_true
    omega
  rw [append, dif_pos hspace]
  exact ⟨rfl, rfl⟩

theorem appendAll_fits (b : StringBuffer size) (parts : List Bytes)
    (h : b.text.length + parts.flatten.length < size) :
    (∀ appended ∈ (b.appendAll parts).1, appended = true) ∧
      (b.appendAll parts).2.text = b.text ++ parts.flatten := by
  induction parts generalizing b with
  | nil => simp [appendAll]
  | cons part parts ih =>
    rw [List.flatten_cons, List.length_append] at h
    obtain ⟨hpart, htext⟩ := b.append_fits part (by omega)
    obtain ⟨hrest, hall⟩ := ih (b.append part).2 (by rw [htext, List.length_append]; omega)
    constructor
    · intro appended hmem
      obtain rfl | hmem := List.mem_cons.mp hmem
      · exact hpart
      · exact hrest appended hmem
    · rw [appendAll, hall, htext, List.flatten_cons, List.append_assoc]

/-- The body of an overload. What its appends have answered is a ghost. -/
structure Built (size : Nat) where
  returned : Bool
  appended : List Bool
  buffer : StringBuffer size

def build (b : StringBuffer size) (requiredSize : Nat) (parts : List Bytes) : Built size :=
  if b.ensureSpace requiredSize then
    let (appended, buffer) := b.appendAll parts
    { returned := true, appended, buffer }
  else { returned := false, appended := [], buffer := b }

end StringBuffer

def maxInstanceSize : Nat := 5

def maxPathSize : Nat := maxNameSize * 2 + maxInstanceSize * 2 + 3 + 1
def maxPathSize2 : Nat := maxNameSize * 2 + maxInstanceSize + 2 + 1
def maxPathSize3 : Nat := maxNameSize + maxInstanceSize * 2 + 2 + 1
def maxPathSize4 : Nat := maxNameSize + maxInstanceSize + 1 + 1

def intPart (i : UInt16) : Bytes := itoaC (Int64.ofNat i.toNat)

section Overloads
open StringBuffer

/-- `build_path(StringBuffer<MAX_PATH_SIZE> &buffer, s1, i1, s2, i2)` -/
def buildPath (buffer : StringBuffer maxPathSize) (s1 : Bytes) (i1 : UInt16) (s2 : Bytes)
    (i2 : UInt16) : Built maxPathSize :=
  buffer.build (s1.length + s2.length + maxInstanceSize * 2 + 3 + 1)
    [s1, [slash], intPart i1, [slash], s2, [slash], intPart i2]

/-- `build_path(StringBuffer<MAX_PATH_SIZE_2> &buffer, s1, i1, s2)` -/
def buildPath2 (buffer : StringBuffer maxPathSize2) (s1 : Bytes) (i1 : UInt16) (s2 : Bytes) :
    Built maxPathSize2 :=
  buffer.build (s1.length + s2.length + maxInstanceSize + 2 + 1)
    [s1, [slash], intPart i1, [slash], s2]

/-- `build_path(StringBuffer<MAX_PATH_SIZE_3> &buffer, s1, i1, i2)` -/
def buildPath3 (buffer : StringBuffer maxPathSize3) (s1 : Bytes) (i1 i2 : UInt16) :
    Built maxPathSize3 :=
  buffer.build (s1.length + maxInstanceSize * 2 + 2 + 1)
    [s1, [slash], intPart i1, [slash], intPart i2]

/-- `build_path(StringBuffer<MAX_PATH_SIZE_4> &buffer, s1, i1)` -/
def buildPath4 (buffer : StringBuffer maxPathSize4) (s1 : Bytes) (i1 : UInt16) :
    Built maxPathSize4 :=
  buffer.build (s1.length + maxInstanceSize + 1 + 1) [s1, [slash], intPart i1]

end Overloads

section Spec
variable {size : Nat}

/-- From an empty buffer an overload makes the path of `parts`, without an append that is refused,
or leaves it empty; it does the former whenever `names` are valid. -/
structure BuildsPath (overload : StringBuffer size → StringBuffer.Built size)
    (names parts : List Bytes) : Prop where
  path : ∀ b, b.text = [] → (overload b).returned = true →
    (overload b).buffer.text = joinPath parts ∧
      ∀ appended ∈ (overload b).appended, appended = true
  refused : ∀ b, b.text = [] → (overload b).returned = false → (overload b).buffer = b
  accepted : ∀ b, b.text = [] → (∀ name ∈ names, name.length ≤ maxNameSize) →
    (overload b).returned = true

/-- It is enough that the estimate has room for the path and its NUL, and the array for the estimate
of valid names. -/
theorem build_buildsPath {requiredSize : Nat} {pieces names parts : List Bytes}
    (hjoin : pieces.flatten = joinPath parts) (hpath : pieces.flatten.length < requiredSize)
    (hfits : (∀ name ∈ names, name.length ≤ maxNameSize) → requiredSize ≤ size) :
    BuildsPath (fun b : StringBuffer size => b.build requiredSize pieces) names parts := by
  have hspace : ∀ b : StringBuffer size, b.text = [] →
      (b.ensureSpace requiredSize = true ↔ requiredSize ≤ size) := by
    intro b hb
    rw [StringBuffer.ensureSpace, hb, decide_eq_true_eq]
    rfl
  constructor
  · intro b hb h
    have hs : b.ensureSpace requiredSize = true := by
      by_contra hs
      rw [StringBuffer.build, if_neg hs] at h
      cases h
    have hle := (hspace b hb).mp hs
    obtain ⟨hall, htext⟩ := b.appendAll_fits pieces
      (by rw [hb, List.length_nil, Nat.zero_add]; exact hpath.trans_le hle)
    rw [hb, List.nil_append, hjoin] at htext
    rw [StringBuffer.build, if_pos hs]
    exact ⟨htext, hall⟩
  · intro b _ h
    by_cases hs : b.ensureSpace requiredSize = true
    · rw [StringBuffer.build, if_pos hs] at h
      cases h
    · rw [StringBuffer.build, if_neg hs]
  · intro b hb hnames
    rw [StringBuffer.build, if_pos ((hspace b hb).mpr (hfits hnames))]

theorem intPart_eq (i : UInt16) : intPart i = idText i := itoaC_ofNat i

theorem length_intPart_le (i : UInt16) : (intPart i).length ≤ maxInstanceSize := by
  rw [intPart_eq]
  exact length_idText_le i

theorem buildPath_buildsPath (s1 s2 : Bytes) (i1 i2 : UInt16) :
    BuildsPath (buildPath · s1 i1 s2 i2) [s1, s2] [s1, idText i1, s2, idText i2] := by
  apply build_buildsPath
  · simp [joinPath, List.intercalate, intPart_eq]
  · have h1 := length_intPart_le i1
    have h2 := length_intPart_le i2
    simp
    omega
  · intro hnames
    simp [maxPathSize] at hnames ⊢
    omega

theorem buildPath2_buildsPath (s1 s2 : Bytes) (i1 : UInt16) :
    BuildsPath (buildPath2 · s1 i1 s2) [s1, s2] [s1, idText i1, s2] := by
  apply build_buildsPath
  · simp [joinPath, List.intercalate, intPart_eq]
  · have h1 := length_intPart_le i1
    simp
    omega
  · intro hnames
    simp [maxPathSize2] at hnames ⊢
    omega

theorem buildPath3_buildsPath (s1 : Bytes) (i1 i2 : UInt16) :
    BuildsPath (buildPath3 · s1 i1 i2) [s1] [s1, idText i1, idText i2] := by
  apply build_buildsPath
  · simp [joinPath, List.intercalate, intPart_eq]
  · have h1 := length_intPart_le i1
    have h2 := length_intPart_le i2
    simp
    omega
  · intro hnames
    simp [maxPathSize3] at hnames ⊢
    omega

theorem buildPath4_buildsPath (s1 : Bytes) (i1 : UInt16) :
    BuildsPath (buildPath4 · s1 i1) [s1] [s1, idText i1] := by
  apply build_buildsPath
  · simp [joinPath, List.intercalate, intPart_eq]
  · have h1 := length_intPart_le i1
    simp
    omega
  · intro hnames
    simp [maxPathSize4] at hnames ⊢
    omega

/-- All four overloads, whatever the names and ids are. -/
theorem buildPath_spec (s1 s2 : Bytes) (i1 i2 : UInt16) :
    BuildsPath (buildPath · s1 i1 s2 i2) [s1, s2] [s1, idText i1, s2, idText i2] ∧
    BuildsPath (buildPath2 · s1 i1 s2) [s1, s2] [s1, idText i1, s2] ∧
    BuildsPath (buildPath3 · s1 i1 i2) [s1] [s1, idText i1, idText i2] ∧
    BuildsPath (buildPath4 · s1 i1) [s1] [s1, idText i1] :=
  ⟨buildPath_buildsPath s1 s2 i1 i2, buildPath2_buildsPath s1 s2 i1,
    buildPath3_buildsPath s1 i1 i2, buildPath4_buildsPath s1 i1⟩

end Spec
end MbedClient
