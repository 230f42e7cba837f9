import MbedClient.Nsdl.Blockwise

/-! Which PUTs of a run are shown to the application as they are. -/
namespace MbedClient.Nsdl

namespace OptionsList
variable (options : OptionsList)

/-- The upper 20 bits of the block option. -/
def blockNumber : Int := options.block1.toInt / 16

/-- The bit that says that more blocks follow. -/
def More : Prop := options.block1.toInt / 8 % 2 = 1

instance : Decidable options.More := inferInstanceAs (Decidable (_ = _))

end OptionsList

/-- The size1 options since the last transfer has ended: that of the current transfer, and one
behind it that is from a PUT without blocks or from a transfer that has been given up. -/
structure Sizes where
  announced : Option UInt32
  leftOver : Option UInt32

namespace Sizes
variable (s : Sizes)

def total : UInt32 := (s.leftOver.or s.announced).getD 0

@[simp] theorem total_none : (Sizes.mk none none).total = 0 := rfl

/-- When a message is there. Block 0 starts a transfer. -/
def received (options : OptionsList) : Sizes :=
  if options.block1 = -1 then
    if options.useSize1 then { s with leftOver := some options.size1 } else s
  else if options.useSize1 then ⟨some options.size1, none⟩
  else if options.blockNumber = 0 then ⟨none, s.leftOver.or s.announced⟩
  else s

/-- When it has been handled. A transfer ends with its last block, or when it is too large. -/
def next (maxSize : UInt32) (header : CoapHeader) : Sizes :=
  match header.options with
  | none => s
  | some options =>
    let s := s.received options
    if options.block1 ≠ -1 ∧ (¬ options.More ∨ s.total > maxSize) then ⟨none, none⟩
    else s

end Sizes

def sizes (maxSize : UInt32) (puts : List Put) : Sizes :=
  puts.foldl (fun s put => s.next maxSize put.header) ⟨none, none⟩

namespace M2MBlockMessage
variable {maxSize : UInt32} {m m' : M2MBlockMessage} {s : Sizes} {put : Put}

/-- What the object says of itself is so of the message. -/
structure Shows (m : M2MBlockMessage) (header : CoapHeader) (options : OptionsList)
    (announced : Option UInt32) : Prop where
  blockNumber : (m.blockNumber.toNat : Int) = options.blockNumber
  isLastBlock : m.isLastBlock = true ↔ ¬ options.More
  blockData : header.payloadLen > 0 → m.blockData = some header.payload
  blockDataLen : m.blockDataLen = header.payloadLen
  totalMessageSize : m.totalMessageSize = announced.getD 0

/-- The PUT is handled, and what the callback is shown without an error is the message. -/
def Faithful (maxSize : UInt32) (m : M2MBlockMessage) (s : Sizes) (put : Put) : Prop :=
  ∃ shown m', m.incoming maxSize put = some (shown, m') ∧
    ∀ b ∈ shown, b.entityTooLarge = false → ∀ options ∈ put.header.options,
      b.Shows put.header options (s.received options).announced

def FaithfulRun (maxSize : UInt32) (puts : List Put) : Prop :=
  ∀ before put after, puts = before ++ put :: after →
    ∃ m, run maxSize new before = some m ∧ Faithful maxSize m (sizes maxSize before) put

/-- The payload can be copied if there is one; the number fits into 16 bits; and no other size than
the announced one is left over. -/
def Fits (maxSize : UInt32) (s : Sizes) (put : Put) : Prop :=
  ∀ options ∈ put.header.options, (s.received options).total ≤ maxSize →
    (put.header.payloadLen > 0 → put.heap.malloc.1 = true → put.header.payloadPtr.isSome) ∧
    (options.block1 ≠ -1 →
      options.blockNumber < 2 ^ 16 ∧
      (put.header.payloadLen > 0 → put.heap.malloc.1 = true) ∧
      ∀ size ∈ (s.received options).leftOver, size = (s.received options).announced.getD 0)

theorem toNat_of_nonneg {b : Int32} (h : 0 ≤ b.toInt) :
    (b.toBitVec.toNat : Int) = b.toInt ∧ b.toBitVec.msb = false := by
  have hmsb : b.toBitVec.msb = false := by
    rw [BitVec.msb_eq_false_iff_two_mul_lt]
    have hcond := BitVec.toInt_eq_toNat_cond b.toBitVec
    have hint : 0 ≤ b.toBitVec.toInt := h
    have hlt := b.toBitVec.isLt
    split_ifs at hcond <;> omega
  exact ⟨(BitVec.toInt_eq_toNat_of_msb hmsb).symm, hmsb⟩

/-- The number has 20 bits and its field has 16. -/
theorem number_toNat {b : Int32} (h : 0 ≤ b.toInt) :
    ((b >>> 4).toUInt32.toUInt16.toNat : Int) = b.toInt / 16 % 2 ^ 16 := by
  obtain ⟨hnat, hmsb⟩ := toNat_of_nonneg h
  have hshift : (b >>> 4).toBitVec = b.toBitVec >>> 4 := by
    rw [Int32.toBitVec_shiftRight]
    exact BitVec.sshiftRight_eq_of_msb_false hmsb
  have hnarrow : (b >>> 4).toUInt32.toUInt16.toNat = (b >>> 4).toBitVec.toNat % 2 ^ 16 :=
    UInt32.toNat_toUInt16 _
  rw [hnarrow, hshift, BitVec.toNat_ushiftRight, Nat.shiftRight_eq_div_pow, ← hnat]
  omega

theorem lastBlock_iff {options : OptionsList} (h : 0 ≤ options.block1.toInt) :
    options.block1 &&& 0x08 = 0 ↔ ¬ options.More := by
  obtain ⟨hnat, -⟩ := toNat_of_nonneg h
  have hbit : (Int32.toBitVec 8).toNat = 2 ^ 3 := rfl
  rw [OptionsList.More, ← hnat, ← Int32.toBitVec_inj, Int32.toBitVec_and, ← BitVec.toNat_inj,
    BitVec.toNat_and, hbit, Nat.and_two_pow, Nat.testBit_eq_decide_div_mod_eq]
  by_cases hmore : options.block1.toBitVec.toNat / 2 ^ 3 % 2 = 1
  · simp only [hmore, decide_true]
    exact iff_of_false (by decide) (by omega)
  · simp only [hmore, decide_false]
    exact iff_of_true rfl (by omega)

/-- The object stores the total. -/
theorem received_total (s : Sizes) (options : OptionsList) :
    (s.received options).total = if options.useSize1 then options.size1 else s.total := by
  rw [Sizes.received]
  split_ifs <;> simp [Sizes.total]

theorem total_eq_announced (s : Sizes) : s.total = s.announced.getD 0 ↔
    ∀ size ∈ s.leftOver, size = s.announced.getD 0 := by
  rw [Sizes.total]
  cases s.leftOver <;> simp

section Step
variable (hstored : m.totalMessageSize = s.total) {options : OptionsList}
  (hoptions : put.header.options = some options)

include hstored

theorem copied_flags {x : M2MBlockMessage} {k : Heap}
    (hcopy : (m.described options).copyPayload put.header put.heap = some (x, k)) :
    x.totalMessageSize = (s.received options).total ∧ x.entityTooLarge = false ∧
      x.isBlockMessage = (options.block1 != -1) ∧
      (options.block1 ≠ -1 → x.isLastBlock = (options.block1 &&& 0x08 == 0)) := by
  obtain ⟨hflags, -⟩ := copyPayload_eq hcopy
  rw [hflags, received_total, ← hstored]
  exact ⟨rfl, rfl, rfl, fun hblock => if_pos (bne_iff_ne.mpr hblock)⟩

/-- A block message whose payload has been copied, or could not be copied. -/
theorem shows_iff {x : M2MBlockMessage} {k : Heap} (hblock : options.block1 ≠ -1)
    (hnumber : 0 ≤ options.block1.toInt ∧ options.block1.toInt < 2 ^ 24)
    (hcopy : (m.described options).copyPayload put.header put.heap = some (x, k)) :
    x.Shows put.header options (s.received options).announced ↔
      options.blockNumber < 2 ^ 16 ∧ (put.header.payloadLen > 0 → put.heap.malloc.1 = true) ∧
        ∀ size ∈ (s.received options).leftOver, size = (s.received options).announced.getD 0 := by
  obtain ⟨hcopied, hdata⟩ := copyPayload_eq hcopy
  obtain ⟨hsize, -, -, hlast⟩ := copied_flags hstored hcopy
  have hfield : (x.blockNumber.toNat : Int) = options.blockNumber ↔
      options.blockNumber < 2 ^ 16 := by
    have hx : x.blockNumber = (options.block1 >>> 4).toUInt32.toUInt16 := by rw [hcopied]; rfl
    rw [hx, number_toNat hnumber.1, OptionsList.blockNumber]
    omega
  rw [← total_eq_announced, ← hsize]
  constructor
  · intro hshows
    refine ⟨hfield.mp hshows.blockNumber, ?_, hshows.totalMessageSize⟩
    intro hsome
    exact (hdata hsome).mp (hshows.blockData hsome)
  · intro ⟨hnarrow, hgranted, htotal⟩
    refine ⟨hfield.mpr hnarrow, ?_, ?_, by rw [hcopied], htotal⟩
    · rw [hlast hblock, ← lastBlock_iff hnumber.1]
      exact beq_iff_eq
    · intro hsome
      exact (hdata hsome).mpr (hgranted hsome)

include hoptions

/-- A message that is too large is not shown without an error, and nothing is left of a block. -/
theorem incoming_large (hlarge : maxSize < (s.received options).total) : ∃ shown m',
    m.incoming maxSize put = some (shown, m') ∧ (∀ b ∈ shown, b.entityTooLarge = true) ∧
      m'.totalMessageSize = (s.next maxSize put.header).total := by
  have hset : m.setMessageInfo maxSize put.header put.heap = some ({ m with
      totalMessageSize := (s.received options).total
      entityTooLarge := true
      isBlockMessage := options.block1 != -1 }, put.heap) := by
    rw [received_total, ← hstored] at hlarge ⊢
    exact setMessageInfo_large hoptions hlarge
  rw [incoming, hset, Sizes.next, hoptions]
  by_cases hplain : options.block1 = -1
  · refine ⟨none, _, if_neg (by simp [hplain]), by simp, ?_⟩
    simp [hplain]
  · refine ⟨_, _, if_pos (bne_iff_ne.mpr hplain), ?_, ?_⟩
    · intro b hb
      cases hb
      rfl
    · cases m.isLastBlock <;> simp [hplain, hlarge, afterShown, clearValues]

theorem incoming_small (hsmall : (s.received options).total ≤ maxSize) :
    m.incoming maxSize put = ((m.described options).copyPayload put.header put.heap).map
      fun x => if options.block1 ≠ -1 then
        (some x.1, if options.block1 &&& 0x08 = 0 then x.1.clearValues else x.1)
          else (none, x.1) := by
  rw [received_total, ← hstored] at hsmall
  rw [incoming, setMessageInfo_small hoptions hsmall]
  cases hcopy : (m.described options).copyPayload put.header put.heap with
  | none => rfl
  | some x =>
    obtain ⟨x, k⟩ := x
    obtain ⟨-, hlarge, hmessage, hlast⟩ := copied_flags hstored hcopy
    by_cases hplain : options.block1 = -1
    · simp [hmessage, hplain]
    · by_cases hend : options.block1 &&& 0x08 = 0 <;>
        simp [hmessage, hplain, hlast hplain, hlarge, hend, afterShown, clearValues]

end Step

/-- One PUT. -/
theorem faithful_iff (hstored : m.totalMessageSize = s.total) :
    Faithful maxSize m s put ↔ Fits maxSize s put := by
  cases hoptions : put.header.options with
  | none =>
    have hin : m.incoming maxSize put = some (none, { m with isBlockMessage := false }) := by
      rw [incoming, setMessageInfo, hoptions]
      rfl
    exact iff_of_true ⟨_, _, hin, by simp⟩ (by simp [Fits, hoptions])
  | some options =>
    by_cases hlarge : maxSize < (s.received options).total
    · obtain ⟨shown, m', hin, hrefused, -⟩ := incoming_large hstored hoptions hlarge
      refine iff_of_true ⟨shown, m', hin, ?_⟩ ?_
      · intro b hb hfalse
        rw [hrefused b hb] at hfalse
        cases hfalse
      · intro o ho hle
        cases hoptions.symm.trans ho
        exact absurd hlarge (UInt32.not_lt.mpr hle)
    · have hsmall := UInt32.not_lt.mp hlarge
      have hin := incoming_small hstored hoptions hsmall
      constructor
      · intro hfaithful o ho _
        obtain ⟨shown, m', hrun, hshows⟩ := hfaithful
        cases hoptions.symm.trans ho
        obtain ⟨⟨x, k⟩, hcopy, hx⟩ := Option.map_eq_some_iff.mp (hin.symm.trans hrun)
        refine ⟨copyPayload_runs.mp ⟨x, k, hcopy⟩, fun hblock => ?_⟩
        rw [if_pos hblock] at hx
        obtain ⟨rfl, -⟩ := Prod.mk.inj hx
        obtain ⟨-, hnone, -, -⟩ := copied_flags hstored hcopy
        have hnumber := (put.block1 options hoptions).resolve_left hblock
        exact (shows_iff hstored hblock hnumber hcopy).mp (hshows x rfl hnone options hoptions)
      · intro hfits
        obtain ⟨hcopies, hfits⟩ := hfits options hoptions hsmall
        obtain ⟨x, k, hcopy⟩ := copyPayload_runs.mpr hcopies
        rw [hcopy, Option.map_some] at hin
        by_cases hblock : options.block1 ≠ -1
        · rw [if_pos hblock] at hin
          refine ⟨_, _, hin, ?_⟩
          intro b hb _ o ho
          cases hb
          cases hoptions.symm.trans ho
          have hnumber := (put.block1 options hoptions).resolve_left hblock
          exact (shows_iff hstored hblock hnumber hcopy).mpr (hfits hblock)
        · rw [if_neg hblock] at hin
          refine ⟨_, _, hin, ?_⟩
          intro b hb
          cases hb

theorem incoming_total (hstored : m.totalMessageSize = s.total) {shown : Option M2MBlockMessage}
    (hin : m.incoming maxSize put = some (shown, m')) :
    m'.totalMessageSize = (s.next maxSize put.header).total := by
  cases hoptions : put.header.options with
  | none =>
    rw [incoming, setMessageInfo, hoptions] at hin
    cases hin
    rw [Sizes.next, hoptions]
    exact hstored
  | some options =>
    by_cases hlarge : maxSize < (s.received options).total
    · obtain ⟨shown', m'', hin', -, htotal⟩ := incoming_large hstored hoptions hlarge
      cases hin.symm.trans hin'
      exact htotal
    · rw [incoming_small hstored hoptions (UInt32.not_lt.mp hlarge)] at hin
      obtain ⟨⟨x, k⟩, hcopy, hin⟩ := Option.map_eq_some_iff.mp hin
      obtain ⟨hsize, -⟩ := copied_flags hstored hcopy
      rw [Sizes.next, hoptions]
      by_cases hblock : options.block1 ≠ -1
      · have hnumber := (put.block1 options hoptions).resolve_left hblock
        rw [if_pos hblock] at hin
        obtain ⟨-, rfl⟩ := Prod.mk.inj hin
        simp only [lastBlock_iff hnumber.1, gt_iff_lt, hlarge, or_false]
        by_cases hmore : options.More
        · simpa [hmore] using hsize
        · simp [hmore, hblock, clearValues]
      · rw [if_neg hblock] at hin
        obtain ⟨-, rfl⟩ := Prod.mk.inj hin
        simpa [hblock] using hsize

theorem run_append (maxSize : UInt32) (m : M2MBlockMessage) (puts : List Put) (put : Put) :
    run maxSize m (puts ++ [put]) =
      (run maxSize m puts).bind fun m => (m.incoming maxSize put).map Prod.snd := by
  induction puts generalizing m with
  | nil => simp [run, Option.map_eq_bind]
  | cons first puts ih =>
    rw [List.cons_append, run, run]
    cases m.incoming maxSize first with
    | none => rfl
    | some x => exact ih x.2

/-- The total of the object is that of the options so far. -/
theorem run_total {puts : List Put} (hrun : run maxSize new puts = some m) :
    m.totalMessageSize = (sizes maxSize puts).total := by
  induction puts using List.reverseRecOn generalizing m with
  | nil =>
    cases hrun
    rfl
  | append_singleton puts put ih =>
    rw [run_append] at hrun
    obtain ⟨m₁, hm₁, hrun⟩ := Option.bind_eq_some_iff.mp hrun
    obtain ⟨⟨shown, m₂⟩, hin, rfl⟩ := Option.map_eq_some_iff.mp hrun
    rw [sizes, List.foldl_append]
    exact incoming_total (ih hm₁) hin

theorem exists_run {puts : List Put} (hfits : ∀ before put after, puts = before ++ put :: after →
    Fits maxSize (sizes maxSize before) put) : ∃ m, run maxSize new puts = some m := by
  induction puts using List.reverseRecOn with
  | nil => exact ⟨new, rfl⟩
  | append_singleton puts put ih =>
    obtain ⟨m, hm⟩ := ih fun before p after hsplit =>
      hfits before p (after ++ [put]) (by rw [hsplit, List.append_assoc, List.cons_append])
    obtain ⟨shown, m', hin, -⟩ := (faithful_iff (run_total hm)).mpr (hfits puts put [] rfl)
    refine ⟨m', ?_⟩
    rw [run_append, hm, Option.bind_some, hin, Option.map_some]

/-- A run of PUTs, with blocks or without. -/
theorem faithfulRun_iff (maxSize : UInt32) (puts : List Put) :
    FaithfulRun maxSize puts ↔ ∀ before put after, puts = before ++ put :: after →
      Fits maxSize (sizes maxSize before) put := by
  constructor
  · intro hfaithful before put after hsplit
    obtain ⟨m, hm, hput⟩ := hfaithful before put after hsplit
    exact (faithful_iff (run_total hm)).mp hput
  · intro hfits before put after hsplit
    obtain ⟨m, hm⟩ : ∃ m, run maxSize new before = some m := by
      apply exists_run
      intro first p last hbefore
      apply hfits first p (last ++ put :: after)
      rw [hsplit, hbefore, List.append_assoc, List.cons_append]
    exact ⟨m, hm, (faithful_iff (run_total hm)).mpr (hfits before put after hsplit)⟩

def emptyPut (block1 : Int32) (useSize1 : Bool) (size1 : UInt32)
    (hblock : block1 = -1 ∨ 0 ≤ block1.toInt ∧ block1.toInt < 2 ^ 24) : Put where
  header := {
    msgType := .confirmable, msgCode := .requestPut, msgId := 0, token := [], uriPath := none
    contentFormat := none, payloadPtr := none, payloadLen := 0, coapStatus := .ok
    options := some {
      observe := -1, block1, useSize1, size1, uriQuery := none, maxAge := 0,
      locationPath := none } }
  heap := fun _ => true
  block1 := by
    intro o ho
    cases ho
    exact hblock

/-- Block 65536; and block 0 behind a PUT without blocks that says that it has 100 bytes. -/
theorem block_misread :
    ¬ FaithfulRun 65535 [emptyPut 0x100008 false 0 (by decide)] ∧
      ¬ FaithfulRun 65535
        [emptyPut (-1) true 100 (by decide), emptyPut 0x8 false 0 (by decide)] := by
  constructor
  · intro hrun
    obtain ⟨m, hm, shown, m', hin, hshows⟩ := hrun [] _ [] rfl
    cases hm
    cases hin
    have hnumber := (hshows _ rfl rfl _ rfl).blockNumber
    exact absurd hnumber (by decide)
  · intro hrun
    obtain ⟨m, hm, shown, m', hin, hshows⟩ := hrun [_] _ [] rfl
    cases hm
    cases hin
    have hsize := (hshows _ rfl rfl _ rfl).totalMessageSize
    exact absurd hsize (by decide)

end M2MBlockMessage
end MbedClient.Nsdl
