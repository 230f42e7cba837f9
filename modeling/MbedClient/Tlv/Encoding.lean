import MbedClient.Tlv.Serializer
import MbedClient.Tlv.Deserializer

/-! The records that the serializer writes, read back by the decoder's header. -/
namespace MbedClient.Tlv
variable {tlv : Nat → UInt8}

def record (type : UInt8) (id : UInt16) (value : Bytes) : Bytes :=
  tlvType type id (UInt32.ofNat value.length) :: (serializeId id ++
    serializeLength (UInt32.ofNat value.length)) ++ value

def headSize (id : UInt16) (length : Nat) : Nat :=
  1 + (if id < 256 then 1 else 2) +
    if length < 8 then 0 else if length < 256 then 1 else if length < 65536 then 2 else 3

/-- The type bits of the four kinds of records. -/
def IsType (type : UInt8) : Prop := type = typeResource ∨ type = typeMultipleResource ∨
  type = typeResourceInstance ∨ type = typeObjectInstance

/-- The fields of a type byte do not overlap. -/
theorem typeByte_fields (type : UInt8) (h : IsType type) :
    ∀ i ∈ [(0 : UInt8), id16],
      ∀ l ∈ [(0 : UInt8), 1, 2, 3, 4, 5, 6, 7, length8, length16, length24],
      (type + i + l) &&& 0xC0 = type ∧ (type + i + l) &&& id16 = i ∧
      (l < 8 → (type + i + l) &&& length24 = 0 ∧ (type + i + l) &&& 0x07 = l) ∧
      (8 ≤ l → (type + i + l) &&& length24 = l) := by
  rcases h with rfl | rfl | rfl | rfl <;> decide +kernel

/-! Bytes at an offset. -/
section Holds

def Holds (tlv : Nat → UInt8) (o : Nat) (bytes : Bytes) : Prop := slice tlv o bytes.length = bytes

theorem slice_succ (tlv : Nat → UInt8) (o n : Nat) :
    slice tlv o (n + 1) = tlv o :: slice tlv (o + 1) n := by
  simp only [slice, List.range_succ_eq_map, List.map_cons, List.map_map, Nat.add_zero]
  congr 1
  refine List.map_congr_left fun i _ => ?_
  simp only [Function.comp_apply]
  congr 1
  omega

theorem holds_nil (tlv : Nat → UInt8) (o : Nat) : Holds tlv o [] := rfl

theorem holds_cons {o : Nat} {b : UInt8} {bytes : Bytes} :
    Holds tlv o (b :: bytes) ↔ tlv o = b ∧ Holds tlv (o + 1) bytes := by
  rw [Holds, List.length_cons, slice_succ, List.cons.injEq]
  rfl

theorem holds_append {o : Nat} {p q : Bytes} :
    Holds tlv o (p ++ q) ↔ Holds tlv o p ∧ Holds tlv (o + p.length) q := by
  induction p generalizing o with
  | nil => simp [holds_nil]
  | cons b p ih =>
    rw [List.cons_append, holds_cons, holds_cons, ih, and_assoc, List.length_cons,
      show o + 1 + p.length = o + (p.length + 1) by omega]

theorem holds_ofBytes (bytes : Bytes) : Holds (ofBytes bytes) 0 bytes := by
  refine List.ext_getElem (length_slice _ _ _) fun i _ hi => ?_
  simp [slice, ofBytes, hi]

end Holds

/-! The head of a record. -/
section Head

theorem length_serializeId (id : UInt16) :
    (serializeId id).length = if id < 256 then 1 else 2 := by
  have h : id > 255 ↔ ¬id < 256 := by
    simp only [gt_iff_lt, UInt16.lt_iff_toNat_lt]
    simp
    omega
  by_cases hid : id < 256 <;> simp [serializeId, h, hid]

theorem length_serializeLength {n : Nat} (h : n < 2 ^ 32) :
    (serializeLength (UInt32.ofNat n)).length =
      if n < 8 then 0 else if n < 256 then 1 else if n < 65536 then 2 else 3 := by
  have hn : (UInt32.ofNat n).toNat = n := UInt32.toNat_ofNat_of_lt' h
  have hgt : ∀ m : UInt32, UInt32.ofNat n > m ↔ m.toNat < n := by
    intro m
    rw [gt_iff_lt, UInt32.lt_iff_toNat_lt, hn]
  simp only [serializeLength, hgt]
  simp
  split_ifs <;> first | rfl | omega

theorem length_record (type : UInt8) (id : UInt16) {value : Bytes} (h : value.length < 2 ^ 32) :
    (record type id value).length = headSize id value.length + value.length := by
  rw [record, List.length_append, List.length_cons, List.length_append, length_serializeId,
    length_serializeLength h, headSize]
  omega

def idCode (id : UInt16) : UInt8 := if id < 256 then 0 else id16

def lengthCode (n : Nat) : UInt8 :=
  if n < 8 then UInt8.ofNat n else if n < 256 then length8 else if n < 65536 then length16
  else length24

theorem tlvType_eq (type : UInt8) (id : UInt16) {n : Nat} (h : n < 2 ^ 32) :
    tlvType type id (UInt32.ofNat n) = type + idCode id + lengthCode n := by
  have hn : (UInt32.ofNat n).toNat = n := UInt32.toNat_ofNat_of_lt' h
  have hlt : ∀ m : UInt32, UInt32.ofNat n < m ↔ n < m.toNat := by
    intro m
    rw [UInt32.lt_iff_toNat_lt, hn]
  have hbyte : (UInt32.ofNat n).toUInt8 = UInt8.ofNat n := by
    rw [← UInt8.toNat_inj, UInt32.toNat_toUInt8, hn, UInt8.toNat_ofNat']
  simp only [tlvType, idCode, lengthCode, hlt, hbyte]
  rfl

theorem idCode_mem (id : UInt16) : idCode id ∈ [(0 : UInt8), id16] := by
  unfold idCode
  split_ifs <;> simp

theorem lengthCode_mem (n : Nat) : lengthCode n ∈
    [(0 : UInt8), 1, 2, 3, 4, 5, 6, 7, length8, length16, length24] := by
  unfold lengthCode
  split_ifs with h8
  · have hsmall : ∀ n : Fin 8, UInt8.ofNat n ∈ [(0 : UInt8), 1, 2, 3, 4, 5, 6, 7, length8, length16,
        length24] := by decide
    exact hsmall ⟨n, h8⟩
  · decide
  · decide
  · decide

/-- What the decoder gets from the type byte of a record. -/
structure TypeByte (b type : UInt8) (id : UInt16) (n : Nat) : Prop where
  type : b &&& 0xC0 = type
  idLength : b &&& id16 = idCode id
  short : n < 8 → b &&& length24 = 0 ∧ (b &&& 0x07).toNat = n
  long : 8 ≤ n → b &&& length24 = lengthCode n

theorem typeByte {type : UInt8} (ht : IsType type) (id : UInt16) {n : Nat} (h : n < 2 ^ 32) :
    TypeByte (tlvType type id (UInt32.ofNat n)) type id n := by
  obtain ⟨h0, h1, h2, h3⟩ := typeByte_fields type ht _ (idCode_mem id) _ (lengthCode_mem n)
  rw [tlvType_eq type id h]
  refine ⟨h0, h1, fun hn => ?_, fun hn => ?_⟩
  · have hcode : lengthCode n = UInt8.ofNat n := if_pos hn
    have hnat : (UInt8.ofNat n).toNat = n := by
      rw [UInt8.toNat_ofNat']
      omega
    have hlt : lengthCode n < 8 := by
      rw [hcode, UInt8.lt_iff_toNat_lt, hnat]
      exact hn
    obtain ⟨hl, hv⟩ := h2 hlt
    exact ⟨hl, by rw [hv, hcode, hnat]⟩
  · refine h3 ?_
    unfold lengthCode
    rw [if_neg (by omega)]
    split_ifs <;> decide

theorem holds_singleton {o : Nat} {b : UInt8} : Holds tlv o [b] ↔ tlv o = b := by
  simp [holds_cons, holds_nil]

/-- The id in its one or two bytes. -/
theorem read_id {o : Nat} {id : UInt16} (h : Holds tlv o (serializeId id)) :
    (if id16 = idCode id then ((tlv o).toUInt16 <<< 8) + (tlv (o + 1)).toUInt16
      else (tlv o).toUInt16) = id := by
  have hmask : ∀ k : Nat, k &&& 255 = k % 256 := fun k => Nat.and_two_pow_sub_one_eq_mod k 8
  by_cases hid : id < 256
  · have hne : ¬id16 = idCode id := by
      rw [idCode, if_pos hid]
      decide
    have hle : ¬id > 255 := by
      rw [gt_iff_lt, UInt16.lt_iff_toNat_lt]
      rw [UInt16.lt_iff_toNat_lt] at hid
      simp at hid ⊢
      omega
    rw [serializeId, if_neg hle, holds_singleton] at h
    rw [if_neg hne, h, ← UInt16.toNat_inj]
    rw [UInt16.lt_iff_toNat_lt] at hid
    simp [hmask] at hid ⊢
    omega
  · have heq : id16 = idCode id := by
      rw [idCode, if_neg hid]
    have hgt : id > 255 := by
      rw [gt_iff_lt, UInt16.lt_iff_toNat_lt]
      rw [UInt16.lt_iff_toNat_lt] at hid
      simp at hid ⊢
      omega
    rw [serializeId, if_pos hgt, holds_cons, holds_singleton] at h
    have hlt := id.toNat_lt
    rw [if_pos heq, h.1, h.2, ← UInt16.toNat_inj]
    have hhigh : (id.toNat &&& 65280) >>> 8 = id.toNat / 256 := by
      rw [Nat.shiftRight_and_distrib, Nat.shiftRight_eq_div_pow,
        show 65280 >>> 8 = 2 ^ 8 - 1 by rfl, Nat.and_two_pow_sub_one_eq_mod]
      omega
    simp [hmask, hhigh, Nat.shiftLeft_eq]
    omega

theorem recLength_eq (o : Nat) : recLength tlv o =
    if tlv o &&& length24 > length16 ∧ tlv o &&& length24 > length8 ∧ tlv o &&& length24 > 0 then
      (((tlv (o + 1 + TypeIdLength.idSize (tlv o &&& id16))).toNat <<< 8) +
        (tlv (o + 1 + TypeIdLength.idSize (tlv o &&& id16) + 1)).toNat) <<< 8 +
        (tlv (o + 1 + TypeIdLength.idSize (tlv o &&& id16) + 2)).toNat
    else if tlv o &&& length24 > length8 ∧ tlv o &&& length24 > 0 then
      ((tlv (o + 1 + TypeIdLength.idSize (tlv o &&& id16))).toNat <<< 8) +
        (tlv (o + 1 + TypeIdLength.idSize (tlv o &&& id16) + 1)).toNat
    else if tlv o &&& length24 > 0 then
      (tlv (o + 1 + TypeIdLength.idSize (tlv o &&& id16))).toNat
    else if 0 = tlv o &&& length24 then (tlv o &&& 0x07).toNat else 0 := by
  rw [recLength, header_eq, TypeIdLength.deserialiseLength_length, TypeIdLength.deserialiseID_spec]

/-- The length in its bytes, or in the type byte. -/
theorem read_length {o n : Nat} {type : UInt8} {id : UInt16} (hb : TypeByte (tlv o) type id n)
    (hn : n < 2 ^ 24) (h : Holds tlv (o + 1 + TypeIdLength.idSize (tlv o &&& id16))
      (serializeLength (UInt32.ofNat n))) : recLength tlv o = n := by
  have hnat : (UInt32.ofNat n).toNat = n :=
    UInt32.toNat_ofNat_of_lt' (hn.trans (by decide : 2 ^ 24 < UInt32.size))
  have hgt : ∀ m : UInt32, UInt32.ofNat n > m ↔ m.toNat < n := by
    intro m
    rw [gt_iff_lt, UInt32.lt_iff_toNat_lt, hnat]
  have hlow : ∀ k : Nat, k &&& 255 = k % 256 := fun k => Nat.and_two_pow_sub_one_eq_mod k 8
  have hmiddle : (n &&& 65280) >>> 8 = n / 256 % 256 := by
    rw [Nat.shiftRight_and_distrib, Nat.shiftRight_eq_div_pow, show 65280 >>> 8 = 2 ^ 8 - 1 by rfl,
      Nat.and_two_pow_sub_one_eq_mod]
  have hhigh : (n &&& 16711680) >>> 16 = n / 65536 % 256 := by
    rw [Nat.shiftRight_and_distrib, Nat.shiftRight_eq_div_pow,
      show 16711680 >>> 16 = 2 ^ 8 - 1 by rfl, Nat.and_two_pow_sub_one_eq_mod]
  rw [recLength_eq]
  simp only [serializeLength, hgt] at h
  rcases lt_or_ge n 8 with h8 | h8
  · obtain ⟨hl, hv⟩ := hb.short h8
    rw [hl, if_neg (by decide), if_neg (by decide), if_neg (by decide), if_pos rfl, hv]
  · rw [hb.long h8]
    rcases lt_or_ge n 256 with h256 | h256
    · have hcode : lengthCode n = length8 := by
        rw [lengthCode, if_neg (by omega), if_pos h256]
      rw [if_neg (by simp; omega), if_neg (by simp; omega), if_pos (by simp; omega),
        holds_singleton] at h
      rw [hcode, if_neg (by decide), if_neg (by decide), if_pos (by decide), h]
      simp [hlow]
      omega
    · rcases lt_or_ge n 65536 with h64k | h64k
      · have hcode : lengthCode n = length16 := by
          rw [lengthCode, if_neg (by omega), if_neg (by omega), if_pos h64k]
        rw [if_neg (by simp; omega), if_pos (by simp; omega), holds_cons, holds_singleton] at h
        rw [hcode, if_neg (by decide), if_pos (by decide), h.1, h.2]
        simp [hnat, hlow, hmiddle, Nat.shiftLeft_eq]
        omega
      · have hcode : lengthCode n = length24 := by
          rw [lengthCode, if_neg (by omega), if_neg (by omega), if_neg (by omega)]
        rw [if_pos (by simp; omega), holds_cons, holds_cons, holds_singleton] at h
        rw [hcode, if_pos (by decide), h.1, h.2.1,
          show ∀ p : Nat, p + 2 = p + 1 + 1 by omega, h.2.2]
        simp [hnat, hlow, hmiddle, hhigh, Nat.shiftLeft_eq]
        omega

/-- A record of less than 2^24 bytes, as the decoder reads it. -/
structure Reads (tlv : Nat → UInt8) (o : Nat) (type : UInt8) (id : UInt16) (value : Bytes) :
    Prop where
  recType : recType tlv o = type
  recId : recId tlv o = id
  content : recContent tlv o = o + headSize id value.length
  next : recNext tlv o = o + headSize id value.length + value.length
  value_eq : recValue tlv o = value

theorem holds_record {o : Nat} {type : UInt8} {id : UInt16} {value : Bytes} (ht : IsType type)
    (hn : value.length < 2 ^ 24) (h : Holds tlv o (record type id value)) :
    Reads tlv o type id value := by
  have h32 : value.length < 2 ^ 32 := by omega
  have hrec : record type id value = tlvType type id (UInt32.ofNat value.length) ::
      (serializeId id ++ (serializeLength (UInt32.ofNat value.length) ++ value)) := by
    simp [record]
  rw [hrec, holds_cons, holds_append, holds_append] at h
  obtain ⟨hbyte, hid, hlength, hvalue⟩ := h
  have hb : TypeByte (tlv o) type id value.length := hbyte ▸ typeByte ht id h32
  have hids : TypeIdLength.idSize (tlv o &&& id16) = (serializeId id).length := by
    rw [hb.idLength, length_serializeId, TypeIdLength.idSize, idCode]
    split_ifs <;> simp_all [id16]
  have hlengths : TypeIdLength.lengthSize (tlv o &&& length24) =
      (serializeLength (UInt32.ofNat value.length)).length := by
    rw [length_serializeLength h32]
    rcases lt_or_ge value.length 8 with h8 | h8
    · rw [(hb.short h8).1, if_pos h8]
      rfl
    · rw [hb.long h8, lengthCode, if_neg (by omega : ¬value.length < 8),
        if_neg (by omega : ¬value.length < 8)]
      split_ifs <;> rfl
  have hlen : recLength tlv o = value.length := read_length hb hn (hids ▸ hlength)
  have hcontent : recContent tlv o = o + headSize id value.length := by
    rw [recContent_eq, hids, hlengths, length_serializeId, length_serializeLength h32, headSize]
    omega
  refine ⟨?_, ?_, hcontent, by rw [recNext, hcontent, hlen], ?_⟩
  · rw [recType_eq, hb.type]
  · rw [recId_eq, hb.idLength]
    exact read_id hid
  · have hstart : recContent tlv o = o + 1 + (serializeId id).length +
        (serializeLength (UInt32.ofNat value.length)).length := by
      rw [recContent_eq, hids, hlengths]
    rw [recValue, hlen, hstart]
    exact hvalue

/-- No record has a shorter head than the one that is written. -/
theorem headSize_le (tlv : Nat → UInt8) (o : Nat) :
    o + headSize (recId tlv o) (recLength tlv o) ≤ recContent tlv o := by
  have hid : (if recId tlv o < 256 then 1 else 2) ≤ TypeIdLength.idSize (tlv o &&& id16) := by
    rw [recId_eq, TypeIdLength.idSize]
    by_cases h : id16 = tlv o &&& id16
    · rw [if_pos h, if_pos h]
      split_ifs <;> omega
    · have hsmall : (tlv (o + 1)).toUInt16 < 256 := by
        rw [UInt16.lt_iff_toNat_lt, UInt8.toNat_toUInt16]
        exact UInt8.toNat_lt _
      rw [if_neg h, if_neg h, if_pos hsmall]
  have hlength : (if recLength tlv o < 8 then 0 else if recLength tlv o < 256 then 1
      else if recLength tlv o < 65536 then 2 else 3) ≤
      TypeIdLength.lengthSize (tlv o &&& length24) := by
    have h7 : (tlv o &&& 0x07).toNat < 8 := by
      rw [UInt8.toNat_and]
      exact Nat.lt_succ_of_le Nat.and_le_right
    have hb : ∀ i, (tlv i).toNat < 256 := fun i => UInt8.toNat_lt _
    have h0 := hb (o + 1 + TypeIdLength.idSize (tlv o &&& id16))
    have h1 := hb (o + 1 + TypeIdLength.idSize (tlv o &&& id16) + 1)
    have hcodes : ∀ n : Fin 256, UInt8.ofFin n &&& length24 = 0 ∨
        UInt8.ofFin n &&& length24 = length8 ∨ UInt8.ofFin n &&& length24 = length16 ∨
        UInt8.ofFin n &&& length24 = length24 := by decide +kernel
    have hrec : recLength tlv o = _ := recLength_eq o
    simp only [Nat.shiftLeft_eq] at hrec
    rcases hcodes (tlv o).toFin with h | h | h | h <;>
      rw [show tlv o &&& length24 = _ from h] at hrec ⊢
    · rw [if_neg (by decide), if_neg (by decide), if_neg (by decide), if_pos rfl] at hrec
      rw [hrec, if_pos h7]
      exact Nat.zero_le _
    · rw [if_neg (by decide), if_neg (by decide), if_pos (by decide)] at hrec
      rw [show TypeIdLength.lengthSize length8 = 1 by rfl]
      split_ifs <;> omega
    · rw [if_neg (by decide), if_pos (by decide)] at hrec
      rw [show TypeIdLength.lengthSize length16 = 2 by rfl]
      split_ifs <;> omega
    · rw [show TypeIdLength.lengthSize length24 = 3 by rfl]
      split_ifs <;> omega
  rw [recContent_eq, headSize]
  omega

end Head

end MbedClient.Tlv
