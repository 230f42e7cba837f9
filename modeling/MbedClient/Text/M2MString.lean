import Mathlib.Data.UInt
import MbedClient.MemoryBlock
import MbedClient.ObjectTree

/-! The class `m2m::String`. A method has no result where it accesses memory that it does not own,
or the NULL of an allocation that has failed. -/
namespace MbedClient

/-- `allocated` is what the class takes the size of its memory for. -/
structure M2MString where
  p : MemoryBlock UInt8
  allocated : UInt64
  size : UInt64

/-- What a `const char *` points to: the string's own memory, or another one. -/
inductive CharPointer where
  | own (offset : Nat)
  | other (memory : Bytes)

/-- The left side of `t = s`: the string `s` itself, or another one. -/
inductive LeftSide where
  | itself
  | other (t : M2MString)

/-- The memory of a C string, from its first character on. -/
structure CharArray where
  memory : Bytes
  terminated : 0 ∈ memory
  bounded : memory.length < 2 ^ 64

def CharArray.text (a : CharArray) : Bytes := a.memory.takeWhile (· != 0)

/-- Nothing if there is no NUL. -/
def strlen (memory : Bytes) : Option Nat := memory.findIdx? (· == 0)

/-- The difference of the first characters that differ, among the first `n` and up to a NUL; nothing
if the memory of one of the texts ends before. -/
def strncmp : Bytes → Bytes → Nat → Option Int
  | _, _, 0 => some 0
  | a :: s, b :: t, n + 1 =>
    if a ≠ b then some ((a.toNat : Int) - b.toNat)
    else if a = 0 then some 0
    else strncmp s t n
  | _, _, _ + 1 => none

namespace M2MString
variable (s : M2MString)

/-- What every method of the class takes for granted. -/
structure Valid : Prop where
  allocated : s.p.cells.length = s.allocated.toNat
  fits : s.size.toNat < s.allocated.toNat
  terminated : s.p.cells[s.size.toNat]? = some 0

def content : Bytes := s.p.cells.take s.size.toNat

section Memory
variable (fresh : Nat → UInt8)

/-- `new_realloc`: the old memory stays if there is no new one. -/
def newRealloc (n : UInt64) (h : Heap) : M2MString × Heap :=
  if n > 0 then
    let (granted, h) := h.malloc
    (if granted then { s with p := s.p.realloc fresh n.toNat } else s, h)
  else (s, h)

def reserve (n : UInt64) (h : Heap) : M2MString × Heap :=
  if n ≥ s.allocated then
    let (s, h) := s.newRealloc fresh (n + 1) h
    ({ s with allocated := n + 1 }, h)
  else (s, h)

/-- `resize(n, c)` -/
def resizeWith (n : UInt64) (c : UInt8) (h : Heap) : Option (M2MString × Heap) := do
  if n < s.size then
    let p ← s.p.write n.toNat [0]
    some ({ s with p, size := n }, h)
  else if n > s.size then
    let (s, h) := s.reserve fresh n h
    let p ← s.p.write s.size.toNat (List.replicate (n.toNat - s.size.toNat) c)
    let p ← p.write n.toNat [0]
    some ({ s with p, size := n }, h)
  else some (s, h)

def resize (n : UInt64) (h : Heap) : Option (M2MString × Heap) := s.resizeWith fresh n 0 h

/-- `append_raw`, with bytes that are not its own -/
def appendRaw (str : Option (MemoryBlock UInt8)) (n : UInt64) (h : Heap) :
    Option (M2MString × Heap) :=
  match str with
  | some str =>
    if n > 0 then do
      let newlen := s.size + n
      let (s, h) := s.reserve fresh newlen h
      let (data, _) ← str.read 0 n.toNat
      let p ← s.p.write s.size.toNat data
      let p ← p.write newlen.toNat [0]
      some ({ s with p, size := newlen }, h)
    else some (s, h)
  | none => some (s, h)

/-- `String(const String& s)` -/
def copyConstruct (h : Heap) : Option (M2MString × Heap) := do
  let (granted, h) := h.malloc
  if granted then
    let (data, _) ← s.p.read 0 (s.size + 1).toNat
    let p ← (MemoryBlock.new fresh (s.size + 1).toNat).write 0 data
    some (⟨p, s.size + 1, s.size⟩, h)
  else none

/-- `String()` -/
def empty (h : Heap) : Option (M2MString × Heap) := do
  let (granted, h) := h.malloc
  if granted then
    let p ← (MemoryBlock.new fresh 1).write 0 [0]
    some (⟨p, 1, 0⟩, h)
  else none

def pointedTo : CharPointer → Bytes
  | .own offset => s.p.cells.drop offset
  | .other memory => memory

/-- `operator=(const char* s)` -/
def assign (source : CharPointer) (h : Heap) : Option (M2MString × Heap) :=
  match source with
  | .own 0 => some (s, h)
  | source => do
    let len ← strlen (s.pointedTo source)
    let (granted, h) := h.malloc
    if granted then
      let copy ← (MemoryBlock.new fresh (len + 1)).write 0 ((s.pointedTo source).take (len + 1))
      some (⟨copy, UInt64.ofNat (len + 1), UInt64.ofNat len⟩, h)
    else none

/-- `t.operator=(const String& s)` -/
def assignTo : LeftSide → Heap → Option (M2MString × Heap)
  | .itself, h => s.assign fresh (.own 0) h
  | .other t, h => t.assign fresh (.other s.p.cells) h

def erase (pos len : UInt64) (h : Heap) : Option (M2MString × Heap) :=
  if len > 0 then
    if pos < s.size then do
      let s2 := s.size
      let remain := s2 - pos - len
      let p ← if remain > 0 then s.p.move pos.toNat (pos.toNat + len.toNat) remain.toNat
        else some s.p
      { s with p }.resize fresh (pos + remain) h
    else some (s, h)
  else some (s, h)

end Memory

/-- What both overloads of `compare` do with the text of their argument and its size. -/
def compareText (pos len : UInt64) (str : Bytes) (osize : UInt64) : Option Int :=
  if pos ≤ s.size then do
    let len := if len > s.size - pos then s.size - pos else len
    let len2 := min len osize
    let r ← strncmp (s.p.cells.drop pos.toNat) str len2.toNat
    some (if r = 0 then if len < osize then -1 else if len = osize then 0 else 1 else r)
  else some (-1)

/-- `compare(pos, len, const String& str)` -/
def compare (pos len : UInt64) (str : M2MString) : Option Int :=
  s.compareText pos len str.p.cells str.size

/-- `compare(pos, len, const char* str)` -/
def compareChars (pos len : UInt64) (str : CharArray) : Option Int := do
  let osize ← strlen str.memory
  s.compareText pos len str.memory (UInt64.ofNat osize)

section Valid
variable {s}

/-- The memory of a string: its content, a NUL, and the rest. -/
theorem Valid.cells_eq (hs : s.Valid) : ∃ rest, s.p.cells = s.content ++ 0 :: rest ∧
    s.content.length = s.size.toNat := by
  have hfits := hs.fits
  rw [← hs.allocated] at hfits
  obtain ⟨hlt, hzero⟩ := List.getElem?_eq_some_iff.mp hs.terminated
  refine ⟨s.p.cells.drop (s.size.toNat + 1), ?_, List.length_take_of_le hfits.le⟩
  rw [← hzero, content, ← List.drop_eq_getElem_cons hlt, List.take_append_drop]

theorem valid_of_cells {p : MemoryBlock UInt8} {allocated size : UInt64} {text rest : Bytes}
    (hcells : p.cells = text ++ 0 :: rest) (hallocated : p.cells.length = allocated.toNat)
    (hsize : text.length = size.toNat) :
    (M2MString.mk p allocated size).Valid ∧ (M2MString.mk p allocated size).content = text := by
  have hlen := congrArg List.length hcells
  rw [List.length_append, List.length_cons] at hlen
  have hfits : size.toNat < allocated.toNat := by omega
  refine ⟨⟨hallocated, hfits, ?_⟩, ?_⟩
  · rw [hcells, ← hsize, List.getElem?_append_right le_rfl, Nat.sub_self]
    rfl
  · rw [content, hcells, ← hsize, List.take_left]

/-- A NUL behind the first `n` bytes of the memory makes a string of them. -/
theorem exists_terminated {p : MemoryBlock UInt8} {allocated n : UInt64}
    (hallocated : p.cells.length = allocated.toNat) (hn : n.toNat < allocated.toNat) :
    ∃ q, p.write n.toNat [0] = some q ∧ (M2MString.mk q allocated n).Valid ∧
      (M2MString.mk q allocated n).content = p.cells.take n.toNat ∧
        MemoryBlock.Within (n.toNat + 1) p q := by
  have hroom : n.toNat + [(0 : UInt8)].length ≤ p.cells.length := by
    rw [hallocated]
    exact hn
  obtain ⟨q, hq⟩ := MemoryBlock.exists_write hroom
  obtain ⟨-, hcells, hwithin⟩ := MemoryBlock.write_eq_some hq
  rw [List.append_assoc, List.singleton_append] at hcells
  obtain ⟨hvalid, hcontent⟩ :=
    valid_of_cells hcells ((MemoryBlock.length_write hq).trans hallocated)
    (List.length_take_of_le (hallocated ▸ hn.le))
  exact ⟨q, hq, hvalid, hcontent, hwithin _ le_rfl⟩

theorem Valid.size_succ (hs : s.Valid) : (s.size + 1).toNat = s.size.toNat + 1 := by
  have hfits := hs.fits
  have hlt := s.allocated.toNat_lt
  rw [UInt64.toNat_add, UInt64.toNat_one]
  omega

theorem strlen_append {text : Bytes} (h : 0 ∉ text) (rest : Bytes) :
    strlen (text ++ 0 :: rest) = some text.length := by
  induction text with
  | nil => simp [strlen, List.findIdx?_cons]
  | cons c text ih =>
    have ih := ih (List.not_mem_of_not_mem_cons h)
    rw [strlen] at ih ⊢
    have hne : (c == 0) = false := beq_eq_false_iff_ne.mpr (List.ne_of_not_mem_cons h).symm
    rw [List.cons_append, List.findIdx?_cons, hne, ih]
    rfl

/-- Memory with a NUL starts with a C string. -/
theorem exists_text {memory : Bytes} (h : 0 ∈ memory) :
    ∃ rest, memory = memory.takeWhile (· != 0) ++ 0 :: rest := by
  induction memory with
  | nil => exact absurd h List.not_mem_nil
  | cons c memory ih =>
    by_cases hc : c = 0
    · exact ⟨memory, by simp [hc]⟩
    · obtain ⟨rest, hrest⟩ := ih ((List.mem_cons.mp h).resolve_left (Ne.symm hc))
      refine ⟨rest, ?_⟩
      rw [List.takeWhile_cons, if_pos (by simpa using hc), List.cons_append, ← hrest]

theorem notMem_takeWhile (memory : Bytes) : 0 ∉ memory.takeWhile (· != 0) := by
  intro h
  simpa using List.mem_takeWhile_imp h

/-- A C string, its length, and the bytes of it with its NUL. -/
theorem cString_spec {memory : Bytes} (h : 0 ∈ memory) :
    strlen memory = some (memory.takeWhile (· != 0)).length ∧
      memory.take ((memory.takeWhile (· != 0)).length + 1) = memory.takeWhile (· != 0) ++ [0] ∧
      (memory.takeWhile (· != 0)).length + 1 ≤ memory.length := by
  obtain ⟨rest, hrest⟩ := exists_text h
  have hclean := notMem_takeWhile memory
  generalize memory.takeWhile (· != 0) = text at hrest hclean ⊢
  rw [hrest, strlen_append hclean, List.take_length_add_append, List.length_append,
    List.length_cons]
  exact ⟨rfl, rfl, by omega⟩

end Valid

end M2MString
end MbedClient
