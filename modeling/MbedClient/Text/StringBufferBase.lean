import MbedClient.BuildPath
import MbedClient.Stepping
import MbedClient.Text.M2MString

/-! `StringBufferBase` with the array of a `StringBuffer<SIZE>`: all forms of `append`, byte by
byte. -/
namespace MbedClient

/-- Where a call takes its bytes from: the array itself, or somewhere else. -/
inductive Source (α : Type*) where
  | own (offset : Nat)
  | other (memory : α)

/-- The calls of `append` and `append_int`. Memory outside the array goes on from where a pointer
points to. -/
inductive AppendCall where
  | char (data : UInt8)
  | string (data : Source CharArray)
  | data (data : Source (Nat → UInt8)) (dataLen : UInt64)
  | int (data : UInt16)

structure StringBufferBase where
  buff : MemoryBlock UInt8
  currSize : UInt64

/-- What a call leaves: its answer and the buffer. -/
structure Appended where
  answer : Bool
  buffer : StringBufferBase

namespace StringBufferBase
variable (b : StringBufferBase) (maxSize : UInt64)

def new (fresh : Nat → UInt8) (size : UInt64) : Option StringBufferBase := do
  let buff ← (MemoryBlock.new fresh size.toNat).write 0 [0]
  some ⟨buff, 0⟩

def ensureSpace (requiredSize : UInt64) : Bool :=
  let spaceLeft := maxSize - b.currSize
  decide (requiredSize ≤ spaceLeft)

/-- `memcpy` to the array, which is undefined for bytes of the array that it writes as well -/
def memcpy (target : Nat) : Source (Nat → UInt8) → Nat → Option (MemoryBlock UInt8)
  | .own offset, n =>
    if offset + n ≤ target ∨ target + n ≤ offset then b.buff.move target offset n else none
  | .other memory, n => b.buff.write target ((List.range n).map memory)

def asserted : Option Appended := if b.currSize < maxSize then some ⟨true, b⟩ else none

/-- `append(char *buff, size_t max_size, char data)` -/
def appendChar (data : UInt8) : Option Appended :=
  if b.ensureSpace maxSize (1 + 1) then do
    let buff ← b.buff.write b.currSize.toNat [data]
    let currSize := b.currSize + 1
    let buff ← buff.write currSize.toNat [0]
    asserted ⟨buff, currSize⟩ maxSize
  else some ⟨false, b⟩

/-- `strlen(data)`; nothing if the array ends before a NUL. -/
def lengthOf : Source CharArray → Option Nat
  | .own offset => strlen (b.buff.cells.drop offset)
  | .other data => strlen data.memory

/-- The bytes that a pointer to a C string points to. -/
def charsOf : Source CharArray → Source (Nat → UInt8)
  | .own offset => .own offset
  | .other data => .other fun i => data.memory.getD i 0

/-- `append(char *buff, size_t max_size, const char *data)` -/
def appendString (data : Source CharArray) : Option Appended := do
  let stringLen ← b.lengthOf data
  if b.ensureSpace maxSize (UInt64.ofNat stringLen + 1) then do
    let buff ← b.memcpy b.currSize.toNat (charsOf data) (stringLen + 1)
    asserted ⟨buff, b.currSize + UInt64.ofNat stringLen⟩ maxSize
  else some ⟨false, b⟩

/-- `append(char *buff, size_t max_size, const char *data, size_t data_len)` -/
def appendData (data : Source (Nat → UInt8)) (dataLen : UInt64) : Option Appended :=
  if dataLen > 0 then
    if b.ensureSpace maxSize (dataLen + 1) then do
      let buff ← b.memcpy b.currSize.toNat data dataLen.toNat
      let currSize := b.currSize + dataLen
      let buff ← buff.write currSize.toNat [0]
      asserted ⟨buff, currSize⟩ maxSize
    else some ⟨false, b⟩
  else some ⟨true, b⟩

/-- `append_int`, by way of `conv_buff` -/
def appendInt (data : UInt16) : Option Appended :=
  let convBuff := itoaC (Int64.ofNat data.toNat)
  b.appendData maxSize (.other fun i => convBuff.getD i 0) (UInt64.ofNat convBuff.length)

def append : AppendCall → Option Appended
  | .char data => b.appendChar maxSize data
  | .string data => b.appendString maxSize data
  | .data data dataLen => b.appendData maxSize data dataLen
  | .int data => b.appendInt maxSize data

/-- What a buffer of `size` bytes keeps to. -/
structure Valid (size : UInt64) : Prop where
  array : b.buff.cells.length = size.toNat
  fits : b.currSize.toNat < size.toNat
  terminated : b.buff.cells[b.currSize.toNat]? = some 0

def content : Bytes := b.buff.cells.take b.currSize.toNat

def piece : AppendCall → Bytes
  | .char data => [data]
  | .string (.own offset) => (b.buff.cells.drop offset).takeWhile (· != 0)
  | .string (.other data) => data.text
  | .data (.own offset) dataLen => (b.buff.cells.drop offset).take dataLen.toNat
  | .data (.other memory) dataLen => (List.range dataLen.toNat).map memory
  | .int data => intPart data

/-- A call keeps the buffer valid, appends its piece if it says so, and changes nothing otherwise,
which happens only to a piece that does not fit with its NUL. -/
structure Appends (size : UInt64) (call : AppendCall) (b : StringBufferBase) (a : Appended) :
    Prop where
  valid : a.buffer.Valid size
  content : a.buffer.content = if a.answer then b.content ++ b.piece call else b.content
  refused : a.answer = false →
    a.buffer = b ∧ size.toNat < b.content.length + (b.piece call).length + 1

/-- What the caller of a call has to see to: a C string, and as many bytes as it says. -/
def Legal (size : UInt64) : AppendCall → Prop
  | .string (.own offset) => offset ≤ b.currSize.toNat
  | .data (.own offset) dataLen => offset + dataLen.toNat ≤ size.toNat
  | _ => True

/-- The piece of a call fits with its NUL. -/
def Fits (size : UInt64) (call : AppendCall) : Prop :=
  b.currSize.toNat + (b.piece call).length < size.toNat

/-- Bytes of the array itself do not overlap the place that they are copied to. -/
def Clear : Source (Nat → UInt8) → Nat → Prop
  | .own offset, n => offset + n ≤ b.currSize.toNat ∨ b.currSize.toNat + n ≤ offset
  | .other _, _ => True

/-- No length wraps when the NUL is added, and what fits does not overlap the place that it is
copied to. A string is copied with its NUL. -/
def Sound (size : UInt64) : AppendCall → Prop
  | .string data => b.Fits size (.string data) →
    b.Clear (charsOf data) ((b.piece (.string data)).length + 1)
  | .data data dataLen => dataLen + 1 ≠ 0 ∧
    (dataLen > 0 → b.Fits size (.data data dataLen) → b.Clear data dataLen.toNat)
  | _ => True

variable {b} {size : UInt64} {buff : MemoryBlock UInt8}

section Valid

theorem valid_iff : b.Valid size ↔ (M2MString.mk b.buff size b.currSize).Valid :=
  ⟨fun h => ⟨h.1, h.2, h.3⟩, fun h => ⟨h.1, h.2, h.3⟩⟩

theorem Valid.length_content (hb : b.Valid size) : b.content.length = b.currSize.toNat := by
  apply List.length_take_of_le
  rw [hb.array]
  exact hb.fits.le

theorem ensureSpace_iff (hb : b.Valid size) (n : UInt64) :
    b.ensureSpace size n = true ↔ b.currSize.toNat + n.toNat ≤ size.toNat := by
  have hfits := hb.fits
  have hsub := UInt64.toNat_sub_of_le _ _ (UInt64.le_of_lt (UInt64.lt_iff_toNat_lt.mpr hfits))
  rw [ensureSpace, decide_eq_true_eq, UInt64.le_iff_toNat_le, hsub]
  omega

theorem new_valid (fresh : Nat → UInt8) (hsize : 0 < size) :
    ∃ b, new fresh size = some b ∧ b.Valid size ∧ b.content = [] := by
  have hpos := UInt64.lt_iff_toNat_lt.mp hsize
  rw [UInt64.toNat_zero] at hpos
  obtain ⟨buff, hwrite, hvalid, hnil, -⟩ := M2MString.exists_terminated (n := 0)
    (MemoryBlock.length_new fresh size.toNat) hpos
  refine ⟨⟨buff, 0⟩, ?_, valid_iff.mpr hvalid, hnil⟩
  rw [UInt64.toNat_zero] at hwrite
  rw [new, hwrite]
  rfl

/-- The buffer after a piece and its NUL have been written to the place behind its content. -/
theorem appended_of_cells (hb : b.Valid size) {data rest : Bytes} {currSize : UInt64}
    (hcells : buff.cells = b.content ++ data ++ 0 :: rest)
    (hlen : buff.cells.length = b.buff.cells.length)
    (hsize : currSize.toNat = b.currSize.toNat + data.length) :
    asserted ⟨buff, currSize⟩ size = some ⟨true, ⟨buff, currSize⟩⟩ ∧ Valid ⟨buff, currSize⟩ size ∧
      content ⟨buff, currSize⟩ = b.content ++ data := by
  have hjoined : (b.content ++ data).length = currSize.toNat := by
    rw [List.length_append, hb.length_content, hsize]
  obtain ⟨hvalid, hcontent⟩ := M2MString.valid_of_cells hcells (hlen.trans hb.array) hjoined
  have hvalid : Valid ⟨buff, currSize⟩ size := valid_iff.mpr hvalid
  exact ⟨if_pos (UInt64.lt_iff_toNat_lt.mpr hvalid.fits), hvalid, hcontent⟩

/-- A call that is refused. -/
theorem appends_refused (hb : b.Valid size) {call : AppendCall} (hlarge : ¬ b.Fits size call) :
    Appends size call b ⟨false, b⟩ := by
  refine ⟨hb, rfl, fun _ => ⟨rfl, ?_⟩⟩
  rw [hb.length_content]
  exact Nat.lt_succ_of_le (Nat.not_lt.mp hlarge)

theorem appends_taken {call : AppendCall} {b' : StringBufferBase} (hb : b'.Valid size)
    (hcontent : b'.content = b.content ++ b.piece call) : Appends size call b ⟨true, b'⟩ :=
  ⟨hb, hcontent, fun h => by cases h⟩

end Valid

section Copies
variable {n : Nat}

def bytesOf (b : StringBufferBase) : Source (Nat → UInt8) → Nat → Bytes
  | .own offset, n => (b.buff.cells.drop offset).take n
  | .other memory, n => (List.range n).map memory

def Readable (b : StringBufferBase) : Source (Nat → UInt8) → Nat → Prop
  | .own offset, n => offset + n ≤ b.buff.cells.length
  | .other _, _ => True

theorem length_bytesOf {source : Source (Nat → UInt8)} (h : b.Readable source n) :
    (b.bytesOf source n).length = n := by
  cases source with
  | own offset =>
    rw [bytesOf, List.length_take, List.length_drop]
    exact Nat.min_eq_left (Nat.le_sub_of_add_le' h)
  | other memory => rw [bytesOf, List.length_map, List.length_range]

theorem exists_memcpy {source : Source (Nat → UInt8)} (h : b.Readable source n)
    (hclear : b.Clear source n)
    (hroom : b.currSize.toNat + n ≤ b.buff.cells.length) :
    ∃ p, b.memcpy b.currSize.toNat source n = some p ∧
      p.cells = b.content ++ b.bytesOf source n ++ b.buff.cells.drop (b.currSize.toNat + n) ∧
      p.cells.length = b.buff.cells.length := by
  cases source with
  | own offset =>
    obtain ⟨p, hp⟩ := MemoryBlock.exists_move h hroom
    obtain ⟨-, -, hcells, -⟩ := MemoryBlock.move_eq_some hp
    exact ⟨p, (if_pos hclear).trans hp, hcells, MemoryBlock.length_move hp⟩
  | other memory =>
    have hlen : ((List.range n).map memory).length = n := length_bytesOf h
    rw [← hlen] at hroom
    obtain ⟨p, hp⟩ := MemoryBlock.exists_write hroom
    obtain ⟨-, hcells, -⟩ := MemoryBlock.write_eq_some hp
    rw [hlen] at hcells
    exact ⟨p, hp, hcells, MemoryBlock.length_write hp⟩

theorem memcpy_clear {source : Source (Nat → UInt8)}
    (h : b.memcpy b.currSize.toNat source n = some buff) :
    b.Clear source n := by
  cases source with
  | own offset =>
    rw [memcpy] at h
    split_ifs at h with hclear
    exact hclear
  | other memory => trivial

theorem length_memcpy {source : Source (Nat → UInt8)}
    (h : b.memcpy b.currSize.toNat source n = some buff) :
    b.currSize.toNat + n ≤ b.buff.cells.length ∧ buff.cells.length = b.buff.cells.length := by
  cases source with
  | own offset =>
    rw [memcpy] at h
    split_ifs at h
    obtain ⟨-, hroom, -⟩ := MemoryBlock.move_eq_some h
    exact ⟨hroom, MemoryBlock.length_move h⟩
  | other memory =>
    obtain ⟨hroom, -, -⟩ := MemoryBlock.write_eq_some h
    rw [List.length_map, List.length_range] at hroom
    exact ⟨hroom, MemoryBlock.length_write h⟩

end Copies

section Calls

theorem appendChar_appends (hb : b.Valid size) (data : UInt8) :
    ∃ a, b.appendChar size data = some a ∧ Appends size (.char data) b a := by
  have hspace : b.ensureSpace size (1 + 1) = true ↔ b.Fits size (.char data) := ensureSpace_iff hb _
  by_cases hfits : b.Fits size (.char data)
  · have hroom : b.currSize.toNat + [data].length < b.buff.cells.length := by
      rw [hb.array]
      exact hfits
    obtain ⟨p, q, rest, hp, hq, hcells, hlen⟩ := MemoryBlock.exists_write_marked 0 hroom
    have hnext : (b.currSize + 1).toNat = b.currSize.toNat + [data].length := by
      have hlt := size.toNat_lt
      rw [hb.array] at hroom
      rw [UInt64.toNat_add, UInt64.toNat_one]
      exact Nat.mod_eq_of_lt (hroom.trans hlt)
    obtain ⟨hasserted, hvalid, hcontent⟩ := appended_of_cells hb hcells hlen hnext
    refine ⟨_, ?_, appends_taken hvalid hcontent⟩
    rw [← hnext] at hq
    simp only [appendChar, if_pos (hspace.mpr hfits), hp, hq, hasserted, Option.bind_eq_bind,
      Option.bind_some]
  · refine ⟨_, ?_, appends_refused hb hfits⟩
    rw [appendChar, if_neg (mt hspace.mp hfits)]

theorem piece_data (b : StringBufferBase) (data : Source (Nat → UInt8)) (dataLen : UInt64) :
    b.piece (.data data dataLen) = b.bytesOf data dataLen.toNat := by
  cases data <;> rfl

section Data
variable {data : Source (Nat → UInt8)} {dataLen : UInt64}

theorem readable_of_legal (hb : b.Valid size) (h : b.Legal size (.data data dataLen)) :
    b.Readable data dataLen.toNat := by
  cases data with
  | own offset =>
    rw [Readable, hb.array]
    exact h
  | other memory => trivial

theorem fits_data (hb : b.Valid size) (h : b.Legal size (.data data dataLen)) :
    b.Fits size (.data data dataLen) ↔ b.currSize.toNat + dataLen.toNat < size.toNat := by
  rw [Fits, piece_data, length_bytesOf (readable_of_legal hb h)]

/-- The bytes, and a NUL behind them. -/
theorem appendData_taken (hb : b.Valid size) (h : b.Legal size (.data data dataLen))
    (hsome : dataLen > 0)
    (hspace : b.ensureSpace size (dataLen + 1) = true) (hclear : b.Clear data dataLen.toNat)
    (hfits : b.currSize.toNat + dataLen.toNat < size.toNat) :
    ∃ a, b.appendData size data dataLen = some a ∧ Appends size (.data data dataLen) b a := by
  have hlen := length_bytesOf (readable_of_legal hb h)
  have hnext : (b.currSize + dataLen).toNat = b.currSize.toNat + dataLen.toNat := by
    rw [UInt64.toNat_add]
    exact Nat.mod_eq_of_lt (hfits.trans size.toNat_lt)
  have hroom := hfits
  rw [← hb.array] at hroom
  obtain ⟨p, hp, hcells, hlenp⟩ := exists_memcpy (readable_of_legal hb h) hclear hroom.le
  obtain ⟨q, hq⟩ : ∃ q, p.write (b.currSize + dataLen).toNat [0] = some q := by
    apply MemoryBlock.exists_write
    rw [hlenp, hnext]
    exact hroom
  obtain ⟨-, hcells', -⟩ := MemoryBlock.write_eq_some hq
  have hhead :
      (b.content ++ b.bytesOf data dataLen.toNat).length = (b.currSize + dataLen).toNat := by
    rw [List.length_append, hb.length_content, hlen, hnext]
  rw [hcells, ← hhead, List.take_left, List.append_assoc, List.singleton_append] at hcells'
  obtain ⟨hasserted, hvalid, hcontent⟩ := appended_of_cells hb hcells'
    ((MemoryBlock.length_write hq).trans hlenp) (by rw [hnext, hlen])
  refine ⟨_, ?_, appends_taken hvalid (hcontent.trans (by rw [piece_data]))⟩
  simp only [appendData, if_pos hsome, if_pos hspace, hp, hq, hasserted, Option.bind_eq_bind,
    Option.bind_some]

/-- Where the space is enough, the bytes are copied. -/
theorem appendData_copies {a : Appended} (hsome : dataLen > 0)
    (hspace : b.ensureSpace size (dataLen + 1) = true)
    (ha : b.appendData size data dataLen = some a) :
    b.Clear data dataLen.toNat ∧ b.currSize.toNat + dataLen.toNat ≤ b.buff.cells.length ∧
      (b.currSize + dataLen).toNat < b.buff.cells.length := by
  rw [appendData, if_pos hsome, if_pos hspace] at ha
  obtain ⟨p, hp, ha⟩ := Option.bind_eq_some_iff.mp ha
  obtain ⟨q, hq, -⟩ := Option.bind_eq_some_iff.mp ha
  obtain ⟨hroom, hlen⟩ := length_memcpy hp
  obtain ⟨hlast, -, -⟩ := MemoryBlock.write_eq_some hq
  exact ⟨memcpy_clear hp, hroom, hlen ▸ hlast⟩

theorem appendData_appends_iff (hb : b.Valid size) (h : b.Legal size (.data data dataLen)) :
    (∃ a, b.appendData size data dataLen = some a ∧ Appends size (.data data dataLen) b a) ↔
      b.Sound size (.data data dataLen) := by
  by_cases hsome : dataLen > 0
  · by_cases hwrap : dataLen + 1 = 0
    · have hmax : dataLen.toNat = 2 ^ 64 - 1 := by
        have hzero := congrArg UInt64.toNat hwrap
        have hlt := dataLen.toNat_lt
        rw [UInt64.toNat_add, UInt64.toNat_one, UInt64.toNat_zero] at hzero
        omega
      have hfits := hb.fits
      have hlt := size.toNat_lt
      have hspace : b.ensureSpace size (dataLen + 1) = true := by
        rw [ensureSpace_iff hb, hwrap, UInt64.toNat_zero]
        exact hfits.le
      refine iff_of_false ?_ fun hsound => hsound.1 hwrap
      intro ⟨a, ha, _⟩
      obtain ⟨-, hroom, hlast⟩ := appendData_copies hsome hspace ha
      rw [hb.array] at hroom hlast
      rw [UInt64.toNat_add] at hlast
      omega
    · have hsucc : (dataLen + 1).toNat = dataLen.toNat + 1 := by
        have hlt := dataLen.toNat_lt
        rw [← UInt64.toNat_inj, UInt64.toNat_add, UInt64.toNat_one, UInt64.toNat_zero] at hwrap
        rw [UInt64.toNat_add, UInt64.toNat_one]
        omega
      have hspace : b.ensureSpace size (dataLen + 1) = true ↔ b.Fits size (.data data dataLen) := by
        rw [ensureSpace_iff hb, hsucc, fits_data hb h]
        exact Iff.rfl
      by_cases hfits : b.Fits size (.data data dataLen)
      · constructor
        · intro ⟨a, ha, _⟩
          exact ⟨hwrap, fun _ _ => (appendData_copies hsome (hspace.mpr hfits) ha).1⟩
        · intro ⟨_, hclear⟩
          exact appendData_taken hb h hsome (hspace.mpr hfits) (hclear hsome hfits)
            ((fits_data hb h).mp hfits)
      · refine iff_of_true ⟨_, ?_, appends_refused hb hfits⟩ ⟨hwrap, fun _ hc => absurd hc hfits⟩
        rw [appendData, if_pos hsome, if_neg (mt hspace.mp hfits)]
  · obtain rfl : dataLen = 0 := UInt64.le_zero_iff.mp (UInt64.not_lt.mp hsome)
    have hnil : b.content = b.content ++ b.piece (.data data 0) := by
      have hlen : (b.piece (.data data 0)).length = 0 := by
        rw [piece_data, length_bytesOf (readable_of_legal hb h)]
        rfl
      rw [List.eq_nil_of_length_eq_zero hlen, List.append_nil]
    refine iff_of_true ⟨⟨true, b⟩, if_neg hsome, appends_taken hb hnil⟩ ?_
    exact ⟨by decide, fun hc => absurd hc hsome⟩

end Data

section String
variable {data : Source CharArray}

theorem range_getD {l : Bytes} {n : Nat} (h : n ≤ l.length) :
    (List.range n).map (fun i => l.getD i 0) = l.take n := by
  apply List.ext_getElem
  · rw [List.length_map, List.length_range, List.length_take_of_le h]
  · intro i hi _
    rw [List.length_map, List.length_range] at hi
    rw [List.getElem_map, List.getElem_range, List.getElem_take]
    exact (List.getElem_eq_getD 0).symm

/-- What `strlen` finds, and what is copied: the piece with its NUL. -/
theorem chars_of_legal (hb : b.Valid size) (h : b.Legal size (.string data)) :
    b.lengthOf data = some (b.piece (.string data)).length ∧
      b.bytesOf (charsOf data) ((b.piece (.string data)).length + 1) =
        b.piece (.string data) ++ [0] ∧
      b.Readable (charsOf data) ((b.piece (.string data)).length + 1) ∧
      (b.piece (.string data)).length + 1 < 2 ^ 64 := by
  cases data with
  | own offset =>
    have hmem : 0 ∈ b.buff.cells.drop offset := by
      have hnul : (b.buff.cells.drop offset)[b.currSize.toNat - offset]? = some 0 := by
        rw [List.getElem?_drop, Nat.add_sub_cancel' h]
        exact hb.terminated
      exact List.mem_of_getElem? hnul
    obtain ⟨hlength, hbytes, hroom⟩ := M2MString.cString_spec hmem
    have hlt := size.toNat_lt
    rw [List.length_drop, hb.array] at hroom
    refine ⟨hlength, hbytes, ?_, by rw [piece]; omega⟩
    rw [charsOf, Readable, hb.array, piece]
    omega
  | other data =>
    obtain ⟨hlength, hbytes, hroom⟩ := M2MString.cString_spec data.terminated
    refine ⟨hlength, ?_, trivial, Nat.lt_of_le_of_lt hroom data.bounded⟩
    exact (range_getD hroom).trans hbytes

theorem appendString_appends_iff (hb : b.Valid size) (h : b.Legal size (.string data)) :
    (∃ a, b.appendString size data = some a ∧ Appends size (.string data) b a) ↔
      b.Sound size (.string data) := by
  obtain ⟨hlength, hbytes, hreadable, hlt⟩ := chars_of_legal hb h
  have hof :
      (UInt64.ofNat (b.piece (.string data)).length).toNat = (b.piece (.string data)).length :=
    UInt64.toNat_ofNat_of_lt' (Nat.lt_of_succ_lt hlt)
  have hspace : b.ensureSpace size (UInt64.ofNat (b.piece (.string data)).length + 1) = true ↔
      b.Fits size (.string data) := by
    rw [ensureSpace_iff hb, UInt64.toNat_add, hof, UInt64.toNat_one, Nat.mod_eq_of_lt hlt]
    exact Iff.rfl
  by_cases hfits : b.Fits size (.string data)
  · constructor
    · intro ⟨a, ha, _⟩ _
      simp only [appendString, hlength, if_pos (hspace.mpr hfits), Option.bind_eq_bind,
        Option.bind_some] at ha
      obtain ⟨p, hp, -⟩ := Option.bind_eq_some_iff.mp ha
      exact memcpy_clear hp
    · intro hclear
      have hroom :
          b.currSize.toNat + ((b.piece (.string data)).length + 1) ≤ b.buff.cells.length := by
        rw [hb.array]
        exact hfits
      obtain ⟨p, hp, hcells, hlen⟩ := exists_memcpy hreadable (hclear hfits) hroom
      rw [hbytes, ← List.append_assoc, List.append_assoc, List.singleton_append] at hcells
      have hnext : (b.currSize + UInt64.ofNat (b.piece (.string data)).length).toNat =
          b.currSize.toNat + (b.piece (.string data)).length := by
        rw [UInt64.toNat_add, hof]
        exact Nat.mod_eq_of_lt (Nat.lt_trans hfits size.toNat_lt)
      obtain ⟨hasserted, hvalid, hcontent⟩ := appended_of_cells hb hcells hlen hnext
      refine ⟨_, ?_, appends_taken hvalid hcontent⟩
      simp only [appendString, hlength, if_pos (hspace.mpr hfits), hp, hasserted,
        Option.bind_eq_bind,
        Option.bind_some]
  · refine iff_of_true ⟨_, ?_, appends_refused hb hfits⟩ fun hc => absurd hc hfits
    simp only [appendString, hlength, if_neg (mt hspace.mp hfits), Option.bind_eq_bind,
      Option.bind_some]

end String

/-- The digits in `conv_buff`. -/
theorem appendInt_appends (hb : b.Valid size) (data : UInt16) :
    ∃ a, b.appendInt size data = some a ∧ Appends size (.int data) b a := by
  have hshort := length_intPart_le data
  rw [maxInstanceSize] at hshort
  have hof : (UInt64.ofNat (intPart data).length).toNat = (intPart data).length :=
    UInt64.toNat_ofNat_of_lt' (hshort.trans_lt (by decide))
  have hpiece : b.piece (.data (.other fun i => (intPart data).getD i 0)
      (UInt64.ofNat (intPart data).length)) = intPart data := by
    rw [piece, hof, range_getD le_rfl, List.take_length]
  have hwrap : UInt64.ofNat (intPart data).length + 1 ≠ 0 := by
    rw [Ne, ← UInt64.toNat_inj, UInt64.toNat_add, hof, UInt64.toNat_one, UInt64.toNat_zero]
    omega
  have hlegal : b.Legal size (.data (.other fun i => (intPart data).getD i 0)
      (UInt64.ofNat (intPart data).length)) := trivial
  obtain ⟨a, ha, hvalid, hcontent, hrefused⟩ :=
    (appendData_appends_iff hb hlegal).mpr ⟨hwrap, fun _ _ => trivial⟩
  rw [hpiece] at hcontent hrefused
  exact ⟨a, ha, hvalid, hcontent, hrefused⟩

/-- One call. -/
theorem append_appends_iff (hb : b.Valid size) {call : AppendCall} (h : b.Legal size call) :
    (∃ a, b.append size call = some a ∧ Appends size call b a) ↔ b.Sound size call := by
  cases call with
  | char data => exact iff_of_true (appendChar_appends hb data) trivial
  | string data => exact appendString_appends_iff hb h
  | data data dataLen => exact appendData_appends_iff hb h
  | int data => exact iff_of_true (appendInt_appends hb data) trivial

end Calls

section Abstraction

/-- What the array stands for. -/
def Valid.toStringBuffer (hb : b.Valid size) : StringBuffer size.toNat where
  text := b.content
  fits := by
    rw [hb.length_content]
    exact hb.fits

/-- A call does to the array what the buffer of `create_path` and `build_path` does to its text. -/
theorem append_refines (hb : b.Valid size) {call : AppendCall} (h : b.Legal size call)
    (hsound : b.Sound size call) : ∃ a, b.append size call = some a ∧
      ∃ ha : a.buffer.Valid size, (a.answer, ha.toStringBuffer) =
        hb.toStringBuffer.append (b.piece call) := by
  obtain ⟨⟨answer, b'⟩, ha, hvalid, hcontent, hrefused⟩ := (append_appends_iff hb h).mpr hsound
  refine ⟨_, ha, hvalid, ?_⟩
  have hspace : hb.toStringBuffer.ensureSpace ((b.piece call).length + 1) = true ↔
      b.content.length + (b.piece call).length < size.toNat := by
    have hfits := hb.fits
    rw [← hb.length_content] at hfits
    rw [StringBuffer.ensureSpace, decide_eq_true_eq]
    change _ ≤ _ - b.content.length ↔ _
    omega
  cases answer with
  | true =>
    have hfits := hvalid.fits
    rw [← hvalid.length_content, hcontent, if_pos rfl, List.length_append] at hfits
    rw [StringBuffer.append, dif_pos (hspace.mpr hfits)]
    simp only [Valid.toStringBuffer, hcontent, if_true]
  | false =>
    obtain ⟨rfl, hlarge⟩ := hrefused rfl
    rw [StringBuffer.append, dif_neg (mt hspace.mp (by omega))]

end Abstraction

section Runs

def step (size : UInt64) (call : AppendCall) (a : Appended) : Option Appended :=
  a.buffer.append size call

def accepted (size : UInt64) : List AppendCall → Appended → List Bytes
  | [], _ => []
  | call :: calls, a =>
    match step size call a with
    | none => []
    | some a' => if a'.answer then a.buffer.piece call :: accepted size calls a'
      else accepted size calls a'

/-- All calls on a new buffer do as they should, and what it holds in the end are the pieces that
have been accepted, one after the other. -/
def AppendsRun (fresh : Nat → UInt8) (size : UInt64) (calls : List AppendCall) : Prop :=
  ∃ b, new fresh size = some b ∧ b.Valid size ∧ b.content = [] ∧
    Stepping.Follows (step size) (fun call a => Appends size call a.buffer) calls ⟨true, b⟩ ∧
    ∃ a, Stepping.run (step size) calls ⟨true, b⟩ = some a ∧
      a.buffer.content = (accepted size calls ⟨true, b⟩).flatten

/-- A condition on the calls of a run, each with the buffer that it comes to. -/
def Throughout (ok : StringBufferBase → UInt64 → AppendCall → Prop) (fresh : Nat → UInt8)
    (size : UInt64)
    (calls : List AppendCall) : Prop :=
  ∀ b, new fresh size = some b →
    Stepping.Admitted (step size) (fun call a => ok a.buffer size call) calls ⟨true, b⟩

theorem run_accepted {calls : List AppendCall} {a : Appended}
    (h : Stepping.Follows (step size) (fun call a => Appends size call a.buffer) calls a) :
    ∃ a', Stepping.run (step size) calls a = some a' ∧
      a'.buffer.content = a.buffer.content ++ (accepted size calls a).flatten := by
  induction calls generalizing a with
  | nil => exact ⟨a, rfl, (List.append_nil _).symm⟩
  | cons call calls ih =>
    obtain ⟨a', ha', hright, hrest⟩ := h
    obtain ⟨a'', ha'', hcontent⟩ := ih hrest
    refine ⟨a'', ?_, ?_⟩
    · rw [Stepping.run, ha']
      exact ha''
    · simp only [accepted, ha']
      rw [hcontent, hright.content]
      cases a'.answer with
      | true => rw [if_pos rfl, if_pos rfl, List.flatten_cons, List.append_assoc]
      | false => rw [if_neg Bool.false_ne_true, if_neg Bool.false_ne_true]

/-- Every run of calls on a new buffer. -/
theorem appendsRun_iff (fresh : Nat → UInt8) (hsize : 0 < size) {calls : List AppendCall}
    (hlegal : Throughout Legal fresh size calls) :
    AppendsRun fresh size calls ↔ Throughout Sound fresh size calls := by
  obtain ⟨b, hnew, hvalid, hnil⟩ := new_valid fresh hsize
  have hfollows :
    Stepping.Follows (step size) (fun call a => Appends size call a.buffer) calls ⟨true, b⟩ ↔
      Stepping.Admitted (step size) (fun call a => a.buffer.Sound size call) calls ⟨true, b⟩ :=
    Stepping.follows_iff_admitted (I := fun a => a.buffer.Valid size)
      (fun call a ha hcall => append_appends_iff ha hcall) (fun _ _ _ _ hright => hright.valid)
        hvalid
      (hlegal b hnew)
  constructor
  · intro ⟨b', hnew', _, _, hrun, _⟩ c hc
    cases hnew.symm.trans hnew'
    cases hnew.symm.trans hc
    exact hfollows.mp hrun
  · intro hsound
    have hrun := hfollows.mpr (hsound b hnew)
    obtain ⟨a, ha, hcontent⟩ := run_accepted hrun
    rw [hnil, List.nil_append] at hcontent
    exact ⟨b, hnew, hvalid, hnil, hrun, a, ha, hcontent⟩

/-- A buffer is appended to itself; and a length is the largest of its type. -/
theorem append_itself :
    (Throughout Legal (fun _ => 0) 8 [.char 0x61, .string (.own 0)] ∧
      ¬ AppendsRun (fun _ => 0) 8 [.char 0x61, .string (.own 0)]) ∧
    (Throughout Legal (fun _ => 0) 8 [.data (.other fun _ => 0x61) (-1)] ∧
      ¬ AppendsRun (fun _ => 0) 8 [.data (.other fun _ => 0x61) (-1)]) := by
  refine ⟨⟨?_, ?_⟩, ⟨?_, ?_⟩⟩
  · intro b hb
    cases hb
    refine ⟨trivial, fun a ha => ?_⟩
    cases ha
    exact ⟨Nat.zero_le _, fun _ _ => trivial⟩
  · intro ⟨b, hb, _, _, ⟨a, ha, _, a', ha', _⟩, _⟩
    cases hb
    cases ha
    cases ha'
  · exact fun b _ => ⟨trivial, fun _ _ => trivial⟩
  · intro ⟨b, hb, hvalid, _, ⟨a, ha, happends, _⟩, _⟩
    have hlegal : b.Legal 8 (.data (.other fun _ => 0x61) (-1)) := trivial
    have hsound := (append_appends_iff hvalid hlegal).mp ⟨a, ha, happends⟩
    exact hsound.1 rfl

theorem appendsRun_a7 : AppendsRun (fun _ => 0) 8 [.char 0x61, .int 7] := by
  have hlegal : Throughout Legal (fun _ => 0) 8 [.char 0x61, .int 7] :=
    fun _ _ => ⟨trivial, fun _ _ => ⟨trivial, fun _ _ => trivial⟩⟩
  exact (appendsRun_iff (fun _ => 0) (by decide) hlegal).mpr
    fun _ _ => ⟨trivial, fun _ _ => ⟨trivial, fun _ _ => trivial⟩⟩

end Runs

end StringBufferBase
end MbedClient
