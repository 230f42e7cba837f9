import Mathlib.Algebra.Order.Group.Int
import MbedClient.ArrayHeap

/-! The class `m2m::Vector`. A method has no result where it accesses memory outside of an array, or
where an `int` overflows. -/
namespace MbedClient

/-- The array has `capacity` elements. -/
structure M2MVector where
  size : Int
  capacity : Int
  objectTemplate : ArrayPointer

/-- What a `const ObjectTemplate&` refers to: an element of an array, or something else. -/
inductive Reference (α : Type) where
  | element (p : ArrayPointer) (k : Int)
  | elsewhere (x : α)

/-- Nothing if an `int` cannot hold the number. -/
def int (n : Int) : Option Int := if -2 ^ 31 ≤ n ∧ n < 2 ^ 31 then some n else none

namespace M2MVector
variable {α : Type} (v : M2MVector) (fresh : Nat → α) (h : ArrayHeap α)

section Code

def minCapacity : Int := 1

/-- The value that a reference refers to. -/
def deref : Reference α → Option α
  | .element p k => h.get p k
  | .elsewhere x => some x

def newArray (n : Int) : Option (ArrayHeap α × ArrayPointer) :=
  if 0 ≤ n then some (h.new ((List.range n.toNat).map fresh)) else none

/-- `Vector(int init_size)` -/
def construct (initSize : Int) : Option (M2MVector × ArrayHeap α) := do
  let capacity := if initSize ≥ minCapacity then initSize else minCapacity
  let (h, p) ← newArray fresh h capacity
  some (⟨0, capacity, p⟩, h)

def assign (rhsIsThis : Bool) (rhs : M2MVector) : Option (M2MVector × ArrayHeap α) :=
  if rhsIsThis then some (v, h)
  else do
    let h ← h.delete v.objectTemplate
    let (h, p) ← newArray fresh h rhs.capacity
    let h ← h.copy rhs.objectTemplate p rhs.size.toNat 0 0
    some (⟨rhs.size, rhs.capacity, p⟩, h)

/-- `Vector(const Vector & rhs)`: the size and the capacity are not read before they are set -/
def copyConstruct (rhs : M2MVector) : Option (M2MVector × ArrayHeap α) :=
  (M2MVector.mk 0 0 none).assign fresh h false rhs

def reserve (newCapacity : Int) : Option (M2MVector × ArrayHeap α) :=
  if newCapacity < v.size then some (v, h)
  else do
    let oldArray := v.objectTemplate
    let (h, p) ← newArray fresh h newCapacity
    let h ← h.copy oldArray p v.size.toNat 0 0
    let h ← h.delete oldArray
    some (⟨v.size, newCapacity, p⟩, h)

def resize (newSize : Int) : Option (M2MVector × ArrayHeap α) := do
  let (v, h) ←
    if newSize > v.capacity then do v.reserve fresh h (← int (newSize * 2 + 1)) else some (v, h)
  some ({ v with size := newSize }, h)

def pushBack (x : Reference α) : Option (M2MVector × ArrayHeap α) := do
  let (v, h) ←
    if v.size = v.capacity then do v.reserve fresh h (← int (2 * v.capacity + 1)) else some (v, h)
  let h ← h.set v.objectTemplate v.size (← deref h x)
  some ({ v with size := ← int (v.size + 1) }, h)

def popBack : Option M2MVector := do
  some { v with size := ← int (v.size - 1) }

def clear : M2MVector := { v with size := 0 }

/-- The elements behind the position move up by one. -/
def erase (position : Int) : Option (M2MVector × ArrayHeap α) :=
  if position < v.size then do
    let h ← h.copy v.objectTemplate v.objectTemplate (v.size - 1 - position).toNat (position + 1)
      position
    some ({ v with size := ← int (v.size - 1) }, h)
  else some (v, h)

end Code

/-- What every method of the class takes for granted. -/
structure Valid : Prop where
  array : ∃ l, h.cells v.objectTemplate = some l ∧ (l.length : Int) = v.capacity
  nonneg : 0 ≤ v.size
  fits : v.size ≤ v.capacity
  bounded : v.capacity < 2 ^ 31

/-- The first `size()` elements. -/
def content : List α := ((h.cells v.objectTemplate).getD []).take v.size.toNat

/-- A vector `w` that comes from one with the array `own`: it has this content, in the same array or
in a new one, and every other array is as it was. -/
structure Leaves (own : ArrayPointer) (h : ArrayHeap α) (list : List α) (w : M2MVector)
    (k : ArrayHeap α) : Prop where
  valid : w.Valid k
  content : w.content k = list
  place : w.objectTemplate = own ∨ h.cells w.objectTemplate = none
  others : ∀ q l, q ≠ own → h.cells q = some l → k.cells q = some l

def Yields (own : ArrayPointer) (h : ArrayHeap α) (list : List α)
    (result : Option (M2MVector × ArrayHeap α)) : Prop :=
  ∃ w k, result = some (w, k) ∧ Leaves own h list w k

variable {v h} {w u : M2MVector} {k k' : ArrayHeap α} {own : ArrayPointer}
  {list list' rest : List α}

theorem int_of_lt {n : Int} (hlow : -2 ^ 31 ≤ n) (hn : n < 2 ^ 31) : int n = some n :=
  if_pos ⟨hlow, hn⟩

section Valid

/-- The array of a vector: its content, and the rest. -/
theorem Valid.cells_eq (hv : v.Valid h) :
    ∃ rest, h.cells v.objectTemplate = some (v.content h ++ rest) ∧
    ((v.content h).length : Int) = v.size ∧ ((v.content h ++ rest).length : Int) = v.capacity := by
  obtain ⟨⟨l, hl, hlen⟩, hnonneg, hfits, -⟩ := hv
  have hcontent : v.content h = l.take v.size.toNat := by
    rw [M2MVector.content, hl, Option.getD_some]
  refine ⟨l.drop v.size.toNat, ?_, ?_, ?_⟩
  · rw [hl, hcontent, List.take_append_drop]
  · rw [hcontent, List.length_take]
    omega
  · rw [hcontent, List.take_append_drop, hlen]

theorem valid_of_cells {size capacity : Int} {p : ArrayPointer}
    (hcells : h.cells p = some (list ++ rest))
    (hsize : (list.length : Int) = size) (hcapacity : ((list ++ rest).length : Int) = capacity)
    (hbounded : capacity < 2 ^ 31) :
    (M2MVector.mk size capacity p).Valid h ∧ (M2MVector.mk size capacity p).content h = list := by
  rw [List.length_append] at hcapacity
  refine ⟨⟨⟨_, hcells, ?_⟩, ?_, ?_, hbounded⟩, ?_⟩
  · rw [List.length_append]
    exact hcapacity
  · exact hsize ▸ Int.natCast_nonneg _
  · change size ≤ capacity
    omega
  · rw [content, hcells, ← hsize, Int.toNat_natCast, Option.getD_some, List.take_left]

/-- The vector goes with its array. -/
theorem Valid.of_cells (hv : v.Valid h)
    (hcells : k.cells v.objectTemplate = h.cells v.objectTemplate) :
    v.Valid k ∧ v.content k = v.content h := by
  refine ⟨⟨?_, hv.nonneg, hv.fits, hv.bounded⟩, ?_⟩
  · rw [hcells]
    exact hv.array
  · rw [content, content, hcells]

theorem Valid.exists_cells (hv : v.Valid h) : ∃ l, h.cells v.objectTemplate = some l := by
  obtain ⟨l, hl, -⟩ := hv.array
  exact ⟨l, hl⟩

theorem Leaves.ne_place (hleaves : Leaves own h list w k) {q : ArrayPointer} {l : List α}
    (hq : q ≠ own)
    (hl : h.cells q = some l) : q ≠ w.objectTemplate := by
  intro hc
  obtain hplace | hplace := hleaves.place
  · exact hq (hc.trans hplace)
  · cases hl.symm.trans (hc ▸ hplace)

/-- One thing after another. -/
theorem Leaves.trans (hfirst : Leaves own h list w k)
    (hnext : Leaves w.objectTemplate k list' u k') :
    Leaves own h list' u k' := by
  refine ⟨hnext.valid, hnext.content, ?_, ?_⟩
  · obtain hplace | hplace := hnext.place
    · rw [hplace]
      exact hfirst.place
    · by_cases hown : u.objectTemplate = own
      · exact .inl hown
      · right
        cases hl : h.cells u.objectTemplate with
        | none => rfl
        | some l => cases (hfirst.others _ _ hown hl).symm.trans hplace
  · intro q l hq hl
    exact hnext.others q l (hfirst.ne_place hq hl) (hfirst.others q l hq hl)

end Valid

section Arrays

theorem exists_newArray (fresh : Nat → α) (h : ArrayHeap α) {n : Int} (hn : 0 ≤ n) :
    ∃ k p l, newArray fresh h n = some (k, p) ∧ k.cells p = some l ∧ (l.length : Int) = n ∧
      h.cells p = none ∧ ∀ q l, h.cells q = some l → k.cells q = some l := by
  refine ⟨_, _, (List.range n.toNat).map fresh, if_pos hn, ArrayHeap.cells_new_self _, ?_,
    ArrayHeap.cells_new_none ((List.range n.toNat).map fresh), fun _ _ =>
      ArrayHeap.cells_new_of_some⟩
  rw [List.length_map, List.length_range, Int.toNat_of_nonneg hn]

/-- A new array that starts with the content of a vector. -/
theorem exists_copied (hv : v.Valid h) (fresh : Nat → α) {n : Int} (hn : v.size ≤ n) :
    ∃ k p k' rest, newArray fresh h n = some (k, p) ∧ k.copy v.objectTemplate p v.size.toNat 0 0 =
      some k' ∧
      k'.cells p = some (v.content h ++ rest) ∧ ((v.content h ++ rest).length : Int) = n ∧
      h.cells p = none ∧ ∀ q l, h.cells q = some l → k'.cells q = some l := by
  obtain ⟨k, p, dst, hnew, hdst, hlen, hnone, hkept⟩ := exists_newArray fresh h (hv.nonneg.trans hn)
  obtain ⟨src, hcells, hsize, hcapacity⟩ := hv.cells_eq
  have hcount : v.size.toNat = (v.content h).length := by omega
  have hcopy := ArrayHeap.copy_eq (i := 0) (j := 0) (n := v.size.toNat) (hkept _ _ hcells) hdst
    (by rw [List.length_append]; omega) (by omega) (fun _ => le_rfl)
  rw [List.take_zero, List.nil_append, List.drop_zero, Nat.zero_add, hcount,
    List.take_left] at hcopy
  rw [hcount]
  refine ⟨k, p, _, dst.drop (v.content h).length, hnew, hcopy, ArrayHeap.cells_put_self hdst, ?_,
    hnone, ?_⟩
  · rw [List.length_append, List.length_drop]
    omega
  · intro q l hl
    have hne : q ≠ p := by
      intro hc
      cases hl.symm.trans (hc ▸ hnone)
    exact (ArrayHeap.cells_put_of_ne hne).trans (hkept q l hl)

theorem construct_yields (fresh : Nat → α) (h : ArrayHeap α) {initSize : Int}
    (hlt : initSize < 2 ^ 31) :
    Yields none h [] (construct fresh h initSize) := by
  have hcapacity : 0 ≤ (if initSize ≥ minCapacity then initSize else minCapacity) ∧
      (if initSize ≥ minCapacity then initSize else minCapacity) < 2 ^ 31 := by
    rw [minCapacity]
    omega
  generalize hmax : (if initSize ≥ minCapacity then initSize else minCapacity) =
    capacity at hcapacity
  obtain ⟨k, p, l, hnew, hl, hlen, hnone, hkept⟩ := exists_newArray fresh h hcapacity.1
  have hempty : k.cells p = some ([] ++ l) := hl
  obtain ⟨hvalid, hcontent⟩ := valid_of_cells hempty rfl hlen hcapacity.2
  refine ⟨⟨0, capacity, p⟩, k, ?_, hvalid, hcontent, .inr hnone, fun q l _ => hkept q l⟩
  simp only [construct, hmax, hnew, Option.bind_eq_bind, Option.bind_some]

/-- The old array is gone. -/
theorem reserve_leaves (hv : v.Valid h) (fresh : Nat → α) {n : Int} (hn : v.size ≤ n)
    (hlt : n < 2 ^ 31) :
    ∃ w k, v.reserve fresh h n = some (w, k) ∧ Leaves v.objectTemplate h (v.content h) w k ∧
      w.size = v.size ∧ w.capacity = n ∧ k.cells v.objectTemplate = none := by
  obtain ⟨k, p, k', rest, hnew, hcopy, hcells, hlen, hnone, hkept⟩ := exists_copied hv fresh hn
  obtain ⟨-, -, hsize, -⟩ := hv.cells_eq
  obtain ⟨l, hl⟩ := hv.exists_cells
  have hne : p ≠ v.objectTemplate := by
    intro hc
    cases hl.symm.trans (hc ▸ hnone)
  have hdelete := ArrayHeap.delete_of_some (hkept _ _ hl)
  have hcells' : (k'.put v.objectTemplate none).cells p = some (v.content h ++ rest) :=
    (ArrayHeap.cells_put_of_ne hne).trans hcells
  obtain ⟨hvalid, hcontent⟩ := valid_of_cells hcells' hsize hlen hlt
  refine ⟨⟨v.size, n, p⟩, k'.put v.objectTemplate none, ?_, ⟨hvalid, hcontent, .inr hnone, ?_⟩,
    rfl, rfl,
    ArrayHeap.cells_put_self (hkept _ _ hl)⟩
  · simp only [reserve, if_neg (Int.not_lt.mpr hn), hnew, hcopy, hdelete, Option.bind_eq_bind,
      Option.bind_some]
  · intro q m hq hm
    exact (ArrayHeap.cells_put_of_ne hq).trans (hkept q m hm)

/-- The vector and its array stay as they are. -/
theorem leaves_self (hv : v.Valid h) : Leaves v.objectTemplate h (v.content h) v h :=
  ⟨hv, rfl, .inl rfl, fun _ _ _ hl => hl⟩

theorem reserve_yields (hv : v.Valid h) (fresh : Nat → α) {n : Int} (hlt : n < 2 ^ 31) :
    Yields v.objectTemplate h (v.content h) (v.reserve fresh h n) := by
  by_cases hn : v.size ≤ n
  · obtain ⟨w, k, hreserve, hleaves, -⟩ := reserve_leaves hv fresh hn hlt
    exact ⟨w, k, hreserve, hleaves⟩
  · exact ⟨v, h, if_pos (Int.not_le.mp hn), leaves_self hv⟩

/-- What is assigned to a vector with an array, or to one without any. -/
theorem assign_yields (fresh : Nat → α) (hv : v.objectTemplate = none ∨ v.Valid h) (hw : w.Valid h)
    (hne : w.objectTemplate ≠ v.objectTemplate) :
    Yields v.objectTemplate h (w.content h) (v.assign fresh h false w) := by
  have hdelete : h.delete v.objectTemplate = some (h.put v.objectTemplate none) := by
    obtain hnull | hv := hv
    · rw [ArrayHeap.delete, if_pos (.inl hnull)]
    · obtain ⟨l, hl⟩ := hv.exists_cells
      exact ArrayHeap.delete_of_some hl
  obtain ⟨hvalid, hcontent⟩ := hw.of_cells (ArrayHeap.cells_put_of_ne (m := none) hne)
  obtain ⟨k, p, k', rest, hnew, hcopy, hcells, hlen, hnone, hkept⟩ :=
    exists_copied hvalid fresh hw.fits
  rw [hcontent] at hcells hlen
  obtain ⟨-, -, hsize, -⟩ := hw.cells_eq
  obtain ⟨hvalid', hcontent'⟩ := valid_of_cells hcells hsize hlen hw.bounded
  refine ⟨⟨w.size, w.capacity, p⟩, k', ?_, hvalid', hcontent', ?_, ?_⟩
  · simp only [assign, Bool.false_eq_true, if_false, hdelete, hnew, hcopy, Option.bind_eq_bind,
      Option.bind_some]
  · by_cases hp : p = v.objectTemplate
    · exact .inl hp
    · exact .inr ((ArrayHeap.cells_put_of_ne hp).symm.trans hnone)
  · intro q l hq hl
    exact hkept q l ((ArrayHeap.cells_put_of_ne hq).trans hl)

theorem copyConstruct_yields (fresh : Nat → α) (hw : w.Valid h) :
    Yields none h (w.content h) (copyConstruct fresh h w) := by
  obtain ⟨l, hl⟩ := hw.exists_cells
  refine assign_yields (v := ⟨0, 0, none⟩) fresh (.inl rfl) hw fun hc => ?_
  rw [hc] at hl
  cases hl

end Arrays

section Elements

/-- An element behind the others, where there is room for it. -/
theorem exists_pushed (hv : v.Valid h) (x : α) (hroom : v.size < v.capacity) :
    ∃ k, h.set v.objectTemplate v.size x = some k ∧
      Leaves v.objectTemplate h (v.content h ++ [x]) { v with size := v.size + 1 } k := by
  obtain ⟨rest, hcells, hsize, hcapacity⟩ := hv.cells_eq
  cases rest with
  | nil =>
    rw [List.append_nil] at hcapacity
    omega
  | cons y rest =>
    have hset := ArrayHeap.set_of_lt (x := x) (i := (v.content h).length) hcells (by
      rw [List.length_append, List.length_cons]
      omega)
    rw [List.set_append_right _ _ le_rfl, Nat.sub_self, List.set_cons_zero, hsize] at hset
    have hcells' := ArrayHeap.cells_put_self (m := some (v.content h ++ [x] ++ rest)) hcells
    have hmore : ((v.content h ++ [x]).length : Int) = v.size + 1 := by
      rw [List.length_append, List.length_singleton]
      omega
    have hsame : ((v.content h ++ [x] ++ rest).length : Int) = v.capacity := by
      rw [← hcapacity]
      simp only [List.length_append, List.length_cons, List.length_nil]
      omega
    obtain ⟨hvalid, hcontent⟩ := valid_of_cells hcells' hmore hsame hv.bounded
    rw [List.append_assoc, List.singleton_append] at hvalid hcontent
    exact ⟨_, hset, hvalid, hcontent, .inl rfl,
      fun q l hq hl => (ArrayHeap.cells_put_of_ne hq).trans hl⟩

/-- When the array is full it is replaced, and the element is read only afterwards. -/
theorem pushBack_yields (hv : v.Valid h) (fresh : Nat → α) {x : Reference α} {a : α}
    (hx : deref h x = some a)
    (hfull : v.size = v.capacity → v.capacity < 2 ^ 30 ∧ ∀ k, x ≠ .element v.objectTemplate k) :
    Yields v.objectTemplate h (v.content h ++ [a]) (v.pushBack fresh h x) := by
  have hnonneg := hv.nonneg
  have hbounded := hv.bounded
  have hfits := hv.fits
  by_cases hend : v.size = v.capacity
  · obtain ⟨hsmall, helse⟩ := hfull hend
    obtain ⟨w, k, hreserve, hleaves, hsize, hcapacity, -⟩ :=
      reserve_leaves hv fresh (n := 2 * v.capacity + 1) (by omega) (by omega)
    have hx' : deref k x = some a := by
      cases x with
      | elsewhere y => exact hx
      | element p i =>
        have hp : p ≠ v.objectTemplate := fun hc => helse i (hc ▸ rfl)
        rw [deref, ArrayHeap.get] at hx ⊢
        obtain ⟨l, hl, hget⟩ := Option.bind_eq_some_iff.mp hx
        rw [hleaves.others p l hp hl]
        exact hget
    obtain ⟨k', hset, hpushed⟩ := exists_pushed hleaves.valid a (by omega)
    rw [hleaves.content] at hpushed
    have hgrown : int (2 * v.capacity + 1) = some (2 * v.capacity + 1) :=
      int_of_lt (by omega) (by omega)
    have hint : int (w.size + 1) = some (w.size + 1) := int_of_lt (by omega) (by omega)
    refine ⟨_, k', ?_, hleaves.trans hpushed⟩
    simp only [pushBack, if_pos hend, hgrown, hreserve, hx', hset, hint, Option.bind_eq_bind,
      Option.bind_some]
  · obtain ⟨k, hset, hpushed⟩ := exists_pushed hv a (by omega)
    have hint : int (v.size + 1) = some (v.size + 1) := int_of_lt (by omega) (by omega)
    refine ⟨_, k, ?_, hpushed⟩
    simp only [pushBack, if_neg hend, hx, hset, hint, Option.bind_eq_bind, Option.bind_some]

/-- Otherwise the capacity is too large to be doubled, or the element went with the old array. -/
theorem pushBack_eq_none (hv : v.Valid h) (fresh : Nat → α) {x : Reference α}
    (hend : v.size = v.capacity)
    (hbad : ¬ (v.capacity < 2 ^ 30 ∧ ∀ k, x ≠ .element v.objectTemplate k)) :
    v.pushBack fresh h x = none := by
  have hnonneg := hv.nonneg
  by_cases hsmall : v.capacity < 2 ^ 30
  · obtain ⟨i, hx⟩ : ∃ i, x = .element v.objectTemplate i := by
      by_contra hc
      exact hbad ⟨hsmall, fun k hk => hc ⟨k, hk⟩⟩
    obtain ⟨w, k, hreserve, -, -, -, hgone⟩ :=
      reserve_leaves hv fresh (n := 2 * v.capacity + 1) (by omega) (by omega)
    have hgrown : int (2 * v.capacity + 1) = some (2 * v.capacity + 1) :=
      int_of_lt (by omega) (by omega)
    simp only [pushBack, if_pos hend, hgrown, hreserve, hx, deref, ArrayHeap.get_of_none hgone,
      Option.bind_eq_bind, Option.bind_some, Option.bind_none]
  · have hover : int (2 * v.capacity + 1) = none := if_neg (by omega)
    simp only [pushBack, if_pos hend, hover, Option.bind_eq_bind, Option.bind_none]

/-- The first ones of its elements. -/
theorem leaves_take (hv : v.Valid h) {n : Int} (hnonneg : 0 ≤ n) (hn : n ≤ v.size) :
    Leaves v.objectTemplate h ((v.content h).take n.toNat) { v with size := n } h := by
  have hfits := hv.fits
  refine ⟨⟨hv.array, hnonneg, ?_, hv.bounded⟩, ?_, .inl rfl, fun _ _ _ hl => hl⟩
  · change n ≤ v.capacity
    omega
  · simp only [content, List.take_take]
    rw [Nat.min_eq_left (by omega)]

theorem popBack_yields (hv : v.Valid h) (hpos : 0 < v.size) :
    Yields v.objectTemplate h (v.content h).dropLast (v.popBack.map (·, h)) := by
  have hfits := hv.fits
  have hbounded := hv.bounded
  obtain ⟨-, -, hsize, -⟩ := hv.cells_eq
  have hleaves := leaves_take hv (n := v.size - 1) (by omega) (by omega)
  have hlast : (v.content h).take (v.size - 1).toNat = (v.content h).dropLast := by
    rw [List.dropLast_eq_take]
    congr 1
    omega
  rw [hlast] at hleaves
  refine ⟨_, h, ?_, hleaves⟩
  rw [popBack, int_of_lt (by omega) (by omega)]
  rfl

theorem clear_yields (hv : v.Valid h) : Yields v.objectTemplate h [] (some (v.clear, h)) :=
  ⟨_, h, rfl, leaves_take hv le_rfl hv.nonneg⟩

theorem resize_yields (hv : v.Valid h) (fresh : Nat → α) {n : Int} (hnonneg : 0 ≤ n)
    (hn : n ≤ v.size) :
    Yields v.objectTemplate h ((v.content h).take n.toNat) (v.resize fresh h n) := by
  have hfits := hv.fits
  refine ⟨_, h, ?_, leaves_take hv hnonneg hn⟩
  simp only [resize, if_neg (show ¬ n > v.capacity by omega), Option.bind_eq_bind, Option.bind_some]

theorem erase_yields (hv : v.Valid h) {position : Int} (hnonneg : 0 ≤ position) :
    Yields v.objectTemplate h ((v.content h).eraseIdx position.toNat) (v.erase h position) := by
  obtain ⟨rest, hcells, hsize, hcapacity⟩ := hv.cells_eq
  have hbounded := hv.bounded
  have hfits := hv.fits
  obtain ⟨i, rfl⟩ := Int.eq_ofNat_of_zero_le hnonneg
  rw [Int.toNat_natCast]
  by_cases hlt : (i : Int) < v.size
  · obtain ⟨n, hn⟩ : ∃ n : Nat, v.size - 1 - i = n := Int.eq_ofNat_of_zero_le (by omega)
    have hlen : (v.content h).length = i + 1 + n := by omega
    have hroom : i + 1 + n ≤ (v.content h ++ rest).length := by
      rw [List.length_append]
      omega
    have hcopy := ArrayHeap.copy_eq (i := i + 1) (j := i) (n := n) hcells hcells hroom (by omega)
      (fun _ => Nat.le_succ i)
    -- the elements before the position, those behind it, and the last one once more
    have hmoved : (v.content h ++ rest).take i ++ ((v.content h ++ rest).drop (i + 1)).take n =
        (v.content h).eraseIdx i := by
      rw [List.eraseIdx_eq_take_drop_succ, List.take_append_of_le_length (by omega),
        List.drop_append_of_le_length (by omega), List.take_left' (by rw [List.length_drop]; omega)]
    rw [hmoved] at hcopy
    have hfewer : (((v.content h).eraseIdx i).length : Int) = v.size - 1 := by
      rw [List.length_eraseIdx_of_lt (by omega)]
      omega
    have hsame : (((v.content h).eraseIdx i ++ (v.content h ++ rest).drop (i + n)).length : Int) =
        v.capacity := by
      rw [List.length_append, List.length_drop]
      omega
    have hcells' := ArrayHeap.cells_put_self hcells
      (m := some ((v.content h).eraseIdx i ++ (v.content h ++ rest).drop (i + n)))
    obtain ⟨hvalid, hcontent⟩ := valid_of_cells hcells' hfewer hsame hbounded
    have hint : int (v.size - 1) = some (v.size - 1) := int_of_lt (by omega) (by omega)
    rw [Int.natCast_succ] at hcopy
    refine ⟨_, _, ?_, hvalid, hcontent, .inl rfl,
      fun q l hq hl => (ArrayHeap.cells_put_of_ne hq).trans hl⟩
    simp only [erase, if_pos hlt, hn, Int.toNat_natCast, hcopy, hint, Option.bind_eq_bind,
      Option.bind_some]
  · have hle : (v.content h).length ≤ i := by omega
    rw [List.eraseIdx_of_length_le hle]
    exact ⟨v, h, if_neg hlt, leaves_self hv⟩

end Elements

end M2MVector
end MbedClient
