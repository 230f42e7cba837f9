import Mathlib.Data.List.Basic

/-! A block of memory with bounds: an access that leaves it has no result. The block remembers what
has been accessed. -/
namespace MbedClient

/-- `accesses` is a ghost: the ranges that have been read or written, each as its start and its
length. -/
structure MemoryBlock (α : Type*) where
  cells : List α
  accesses : List (Nat × Nat)

namespace MemoryBlock
variable {α : Type*}

def new (fresh : Nat → α) (n : Nat) : MemoryBlock α := ⟨(List.range n).map fresh, []⟩

def realloc (b : MemoryBlock α) (fresh : Nat → α) (n : Nat) : MemoryBlock α :=
  { b with cells := b.cells.take n ++ ((List.range n).drop b.cells.length).map fresh }

def read (b : MemoryBlock α) (start n : Nat) : Option (List α × MemoryBlock α) :=
  if start + n ≤ b.cells.length then
    some ((b.cells.drop start).take n, { b with accesses := (start, n) :: b.accesses })
  else none

def write (b : MemoryBlock α) (start : Nat) (data : List α) : Option (MemoryBlock α) :=
  if start + data.length ≤ b.cells.length then
    some { cells := b.cells.take start ++ data ++ b.cells.drop (start + data.length)
           accesses := (start, data.length) :: b.accesses }
  else none

def move (b : MemoryBlock α) (target start n : Nat) : Option (MemoryBlock α) := do
  let (data, b) ← b.read start n
  b.write target data

/-- What has been accessed on the way from `b` to `b'` lies below `limit`. -/
def Within (limit : Nat) (b b' : MemoryBlock α) : Prop :=
  ∀ r ∈ b'.accesses, r ∈ b.accesses ∨ r.1 + r.2 ≤ limit

variable {b b' b'' : MemoryBlock α} {limit start target n : Nat} {data : List α}

theorem Within.refl (limit : Nat) (b : MemoryBlock α) : Within limit b b := fun _ hr => .inl hr

theorem Within.mono {limit' : Nat} (h : Within limit b b') (hle : limit ≤ limit') :
    Within limit' b b' :=
  fun r hr => (h r hr).imp_right fun hlimit => Nat.le_trans hlimit hle

theorem Within.trans (h : Within limit b b') (h' : Within limit b' b'') : Within limit b b'' := by
  intro r hr
  obtain hr | hle := h' r hr
  · exact h r hr
  · exact .inr hle

theorem length_new (fresh : Nat → α) (n : Nat) : (new fresh n).cells.length = n := by
  simp [new]

theorem length_realloc (b : MemoryBlock α) (fresh : Nat → α) (n : Nat) :
    (b.realloc fresh n).cells.length = n := by
  simp only [realloc, List.length_append, List.length_take, List.length_map, List.length_drop,
    List.length_range]
  omega

/-- A block that grows keeps what it holds. -/
theorem take_realloc {k : Nat} (fresh : Nat → α) (hn : k ≤ n) (hk : k ≤ b.cells.length) :
    (b.realloc fresh n).cells.take k = b.cells.take k := by
  have hlen : k ≤ (b.cells.take n).length := by
    rw [List.length_take]
    exact Nat.le_min.mpr ⟨hn, hk⟩
  rw [realloc, List.take_append_of_le_length hlen, List.take_take, Nat.min_eq_left hn]

theorem read_eq_some (h : b.read start n = some (data, b')) : start + n ≤ b.cells.length ∧
    data = (b.cells.drop start).take n ∧ b'.cells = b.cells ∧
    ∀ limit, start + n ≤ limit → Within limit b b' := by
  unfold read at h
  split_ifs at h with hle
  obtain ⟨rfl, rfl⟩ := Prod.mk.inj (Option.some.inj h)
  refine ⟨hle, rfl, rfl, fun limit hlimit r hr => ?_⟩
  obtain rfl | hr := List.mem_cons.mp hr
  · exact .inr hlimit
  · exact .inl hr

theorem write_eq_some (h : b.write start data = some b') : start + data.length ≤ b.cells.length ∧
    b'.cells = b.cells.take start ++ data ++ b.cells.drop (start + data.length) ∧
    ∀ limit, start + data.length ≤ limit → Within limit b b' := by
  unfold write at h
  split_ifs at h with hle
  obtain rfl := Option.some.inj h
  refine ⟨hle, rfl, fun limit hlimit r hr => ?_⟩
  obtain rfl | hr := List.mem_cons.mp hr
  · exact .inr hlimit
  · exact .inl hr

theorem exists_write (h : start + data.length ≤ b.cells.length) :
    ∃ b', b.write start data = some b' :=
  ⟨_, if_pos h⟩

/-- A write keeps the size of the block. -/
theorem length_write (h : b.write start data = some b') : b'.cells.length = b.cells.length := by
  obtain ⟨hle, hcells, -⟩ := write_eq_some h
  rw [hcells, List.length_append, List.length_append, List.length_take, List.length_drop]
  omega

/-- Data and an end mark, written one after the other. -/
theorem exists_write_marked (mark : α) (h : start + data.length < b.cells.length) :
    ∃ b' b'' rest, b.write start data = some b' ∧ b'.write (start + data.length) [mark] = some b'' ∧
      b''.cells = b.cells.take start ++ data ++ mark :: rest ∧
      b''.cells.length = b.cells.length := by
  obtain ⟨b', hb'⟩ := exists_write (Nat.le_of_lt h)
  have hlen := length_write hb'
  obtain ⟨b'', hb''⟩ : ∃ b'', b'.write (start + data.length) [mark] = some b'' := by
    apply exists_write
    rw [hlen]
    exact h
  obtain ⟨-, hcells, -⟩ := write_eq_some hb'
  obtain ⟨-, hcells', -⟩ := write_eq_some hb''
  have hhead : (b.cells.take start ++ data).length = start + data.length := by
    rw [List.length_append, List.length_take_of_le (by omega)]
  rw [hcells, ← hhead, List.take_left, List.append_assoc, List.singleton_append] at hcells'
  exact ⟨b', b'', _, hb', hb'', hcells', (length_write hb'').trans hlen⟩

/-- Data and an end mark, written at once. -/
theorem exists_write_ended (mark : α) (h : start + data.length < b.cells.length) :
    ∃ b' rest, b.write start (data ++ [mark]) = some b' ∧
      b'.cells = b.cells.take start ++ data ++ mark :: rest ∧ b'.cells.length = b.cells.length := by
  have hlen : (data ++ [mark]).length = data.length + 1 := by simp
  have hfits : start + (data ++ [mark]).length ≤ b.cells.length := by omega
  obtain ⟨b', hb'⟩ := exists_write hfits
  obtain ⟨-, hcells, -⟩ := write_eq_some hb'
  rw [← List.append_assoc, List.append_assoc, List.singleton_append] at hcells
  exact ⟨b', _, hb', hcells, length_write hb'⟩

/-- What is written to all of a new block is what it holds. -/
theorem write_new (fresh : Nat → α) (data : List α) : ∃ b,
    (new fresh data.length).write 0 data = some b ∧ b.cells = data := by
  have hlen : 0 + data.length = (new fresh data.length).cells.length := by
    rw [length_new, Nat.zero_add]
  obtain ⟨b, hb⟩ := exists_write (Nat.le_of_eq hlen)
  refine ⟨b, hb, ?_⟩
  obtain ⟨-, hcells, -⟩ := write_eq_some hb
  rw [hcells, List.drop_of_length_le (Nat.le_of_eq hlen.symm), List.take_zero, List.nil_append,
    List.append_nil]

theorem move_eq_some (h : b.move target start n = some b') :
    start + n ≤ b.cells.length ∧ target + n ≤ b.cells.length ∧
    b'.cells = b.cells.take target ++ (b.cells.drop start).take n ++ b.cells.drop (target + n) ∧
    ∀ limit, start + n ≤ limit → target + n ≤ limit → Within limit b b' := by
  obtain ⟨⟨data, b₁⟩, hread, hwrite⟩ := Option.bind_eq_some_iff.mp h
  obtain ⟨hle, rfl, hcells, hread⟩ := read_eq_some hread
  obtain ⟨hle', hcells', hwrite⟩ := write_eq_some hwrite
  have hlen : ((b.cells.drop start).take n).length = n := by
    rw [List.length_take, List.length_drop]
    omega
  rw [hlen] at hle' hwrite hcells'
  rw [hcells] at hle' hcells'
  exact ⟨hle, hle', hcells', fun limit hs ht => (hread limit hs).trans (hwrite limit ht)⟩

theorem length_move (h : b.move target start n = some b') : b'.cells.length = b.cells.length := by
  obtain ⟨⟨data, b₁⟩, hread, hwrite⟩ := Option.bind_eq_some_iff.mp h
  obtain ⟨-, -, hcells, -⟩ := read_eq_some hread
  rw [length_write hwrite, hcells]

theorem exists_move (hs : start + n ≤ b.cells.length) (ht : target + n ≤ b.cells.length) :
    ∃ b', b.move target start n = some b' := by
  have hlen : ((b.cells.drop start).take n).length = n := by
    rw [List.length_take, List.length_drop]
    omega
  rw [move, read, if_pos hs]
  exact exists_write (by rwa [hlen])

end MemoryBlock
end MbedClient
