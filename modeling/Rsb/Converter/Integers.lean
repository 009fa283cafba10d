import Mathlib.Algebra.Group.Int.Defs
import Rsb.Converter.Payloads

/-!
The two loops of `IntegerConverter.h` with the conversions that the compiler inserts:
operands narrower than an `int` are promoted to it, and what an assignment or a cast
truncates. Numbers are in two's complement and `>>` keeps the sign, so that the loops
agree with those of `integerConverter`, whatever the size of an `int` is.
-/

namespace Rsb.Payloads

open Library Transport.Socket

namespace IntegerType

variable {T U : IntegerType}

/-- Integral promotion, where an `int` has `intSize` bytes. -/
def promoted (intSize : ℕ) (T : IntegerType) : IntegerType :=
  if T.size < intSize then ⟨intSize, true⟩ else T

def unsignedChar : IntegerType := ⟨1, false⟩

/-- `(U) number`. -/
def convert (T U : IntegerType) (number : T.Value) : U.Value :=
  if T.signed then number.signExtend (8 * U.size) else number.setWidth (8 * U.size)

/-- `(unsigned char) (*number >> (i * 8ull))`. -/
def serializeByte (intSize : ℕ) (number : T.Value) (i : ℕ) : UInt8 :=
  let P := promoted intSize T
  ⟨convert P unsignedChar (shiftRight (convert T P number) (i * 8))⟩

/-- `*number |= ((T) ((unsigned char) wire[i]) << (i * 8ull))`. -/
def deserializeByte (intSize : ℕ) (number : T.Value) (i : ℕ) (c : UInt8) : T.Value :=
  let P := promoted intSize T
  convert P T
    (convert T P number ||| convert T P (convert unsignedChar T c.toBitVec) <<< (i * 8))

/-- The number itself. -/
def value (number : T.Value) : ℤ :=
  if T.signed then number.toInt else number.toNat

theorem size_le_promoted (intSize : ℕ) (T : IntegerType) : T.size ≤ (promoted intSize T).size := by
  rw [promoted]
  split_ifs with h
  · exact h.le
  · exact le_rfl

/-- A conversion keeps the bits that both types have. -/
theorem getLsbD_convert (number : T.Value) {k : ℕ} (hT : k < 8 * T.size) (hU : k < 8 * U.size) :
    (convert T U number).getLsbD k = number.getLsbD k := by
  rw [convert]
  split_ifs
  · rw [BitVec.getLsbD_signExtend, decide_eq_true hU, Bool.true_and, if_pos hT]
  · rw [BitVec.getLsbD_setWidth, decide_eq_true hU, Bool.true_and]

/-- The promotion is not seen in the byte that is written. -/
theorem serializeByte_eq_byte (intSize : ℕ) (number : T.Value) {i : ℕ} (hi : i < T.size) :
    serializeByte intSize number i = byte number i := by
  have hsize := size_le_promoted intSize T
  have hchar : unsignedChar.size = 1 := rfl
  apply UInt8.toBitVec_inj.mp
  apply BitVec.eq_of_getLsbD_eq
  intro k hk
  have hnumber : i * 8 + k < 8 * T.size := by omega
  have hindex : 8 * i + k = i * 8 + k := by omega
  calc
    (serializeByte intSize number i).toBitVec.getLsbD k =
        (shiftRight (convert T (promoted intSize T) number) (i * 8)).getLsbD k :=
      getLsbD_convert _ (by omega) (by omega)
    _ = (convert T (promoted intSize T) number).getLsbD (i * 8 + k) :=
      getLsbD_shiftRight _ (by omega)
    _ = number.getLsbD (i * 8 + k) := getLsbD_convert _ hnumber (by omega)
    _ = (byte number i).toBitVec.getLsbD k := by
      rw [getLsbD_byte number hi hk, hindex]

/-- The promotion is not seen in the number that a byte is added to. -/
theorem deserializeByte_eq_addByte (intSize : ℕ) (number : T.Value) (i : ℕ) (c : UInt8) :
    deserializeByte intSize number i c = addByte number i c := by
  have hsize := size_le_promoted intSize T
  have hchar : convert unsignedChar T c.toBitVec = c.toBitVec.setWidth (8 * T.size) := rfl
  apply BitVec.eq_of_getLsbD_eq
  intro k hk
  have hpromoted : k < 8 * (promoted intSize T).size := by omega
  rw [deserializeByte, addByte, hchar, getLsbD_convert _ hpromoted hk, BitVec.getLsbD_or,
    getLsbD_convert number hk hpromoted, BitVec.getLsbD_or, BitVec.getLsbD_shiftLeft,
    BitVec.getLsbD_shiftLeft, decide_eq_true hk, decide_eq_true hpromoted]
  by_cases hbelow : k < i * 8
  · simp only [hbelow, decide_true, Bool.not_true, Bool.and_false, Bool.false_and]
  · rw [getLsbD_convert _ (by omega) (by omega)]

/-- What is written is a byte of the number in two's complement. -/
theorem toBitVec_byte (number : T.Value) {i : ℕ} (hi : i < T.size) :
    (byte number i).toBitVec = number.extractLsb' (8 * i) 8 := by
  apply BitVec.eq_of_getLsbD_eq
  intro k hk
  rw [getLsbD_byte number hi hk, BitVec.getLsbD_extractLsb', decide_eq_true hk, Bool.true_and]

theorem value_shiftRight (number : T.Value) (n : ℕ) :
    value (shiftRight number n) = value number / 2 ^ n := by
  simp only [value, shiftRight]
  split_ifs
  · rw [BitVec.toInt_sshiftRight, Int.shiftRight_eq_div_pow, Int.natCast_pow]
    rfl
  · rw [BitVec.toNat_ushiftRight, Nat.shiftRight_eq_div_pow, Int.natCast_ediv, Int.natCast_pow]
    rfl

theorem toNat_setWidth_eq_emod (number : T.Value) (h : 0 < T.size) :
    ((number.setWidth 8).toNat : ℤ) = value number % 256 := by
  have hdvd : (256 : ℤ) ∣ ((2 ^ (8 * T.size) : ℕ) : ℤ) :=
    Int.natCast_dvd_natCast.mpr (Nat.pow_dvd_pow 2 (by omega : 8 ≤ 8 * T.size))
  rw [BitVec.toNat_setWidth, value]
  split_ifs
  · rw [BitVec.toInt_eq_toNat_bmod, ← Int.emod_emod_of_dvd _ hdvd, Int.bmod_emod,
      Int.emod_emod_of_dvd _ hdvd]
    rfl
  · rfl

/-- The bytes are the digits of the number to the base 256. -/
theorem toNat_byte (number : T.Value) {i : ℕ} (hi : i < T.size) :
    ((byte number i).toNat : ℤ) = value number / 256 ^ i % 256 := by
  have hpow : (2 : ℤ) ^ (i * 8) = 256 ^ i := by
    rw [Nat.mul_comm, Int.pow_mul]
    rfl
  calc
    ((byte number i).toNat : ℤ) = value (shiftRight number (i * 8)) % 256 :=
      toNat_setWidth_eq_emod _ (by omega)
    _ = value number / 256 ^ i % 256 := by rw [value_shiftRight, hpow]

end IntegerType

open IntegerType

/-- `IntegerConverter`, where an `int` has `intSize` bytes. -/
def promotingConverter (intSize : ℕ) (T : IntegerType) (dataType wireSchema : Bytes) :
    Converter T.Value where
  serialize data := do
    let number ← deref data.2
    return (wireSchema, (List.range T.size).map (serializeByte intSize number))
  deserialize _ wire := do
    let number ← loop wire 0 (deserializeByte intSize) T.size
    return (dataType, some number)

theorem promotingConverter_eq (intSize : ℕ) (T : IntegerType) (dataType wireSchema : Bytes) :
    promotingConverter intSize T dataType wireSchema = integerConverter T dataType wireSchema := by
  have hbytes : ∀ number : T.Value, (List.range T.size).map (serializeByte intSize number) =
      (List.range T.size).map (byte number) := fun number =>
    List.map_congr_left fun i hi => serializeByte_eq_byte intSize number (List.mem_range.mp hi)
  have hround : deserializeByte (T := T) intSize = addByte := by
    funext number i c
    exact deserializeByte_eq_addByte intSize number i c
  simp only [promotingConverter, integerConverter, hbytes, hround]

/-- Writing a number that was read gives the bytes it was read from. -/
theorem byte_loop {T : IntegerType} {wire : Bytes} (hwire : wire.length = T.size) :
    ∃ number : T.Value, loop wire 0 addByte T.size = .ok number ∧
      (List.range T.size).map (byte number) = wire := by
  obtain ⟨number, hnumber, hbits⟩ := loop_addByte (T := T) hwire.ge
  refine ⟨number, hnumber, List.ext_getElem (by simp [hwire]) fun i _ hi => ?_⟩
  rw [List.getElem_map, List.getElem_range]
  apply UInt8.toBitVec_inj.mp
  apply BitVec.eq_of_getLsbD_eq
  intro k hk
  have hj : 8 * i + k < 8 * T.size := by omega
  have hdiv : (8 * i + k) / 8 = i := by omega
  have hmod : (8 * i + k) % 8 = k := by omega
  rw [getLsbD_byte number (by omega) hk, hbits _ hj, hdiv, hmod, List.getD_eq_getElem?_getD,
    List.getElem?_eq_getElem hi]
  simp only [hj, decide_true, Bool.true_and, Option.getD_some]

/-- The two directions of the converter. -/
theorem integers_coded (intSize : ℕ) (T : IntegerType) (dataType wireSchema : Bytes) :
    let c := promotingConverter intSize T dataType wireSchema
    (∀ number : T.Value, ∃ wire, c.serialize (dataType, some number) = .ok (wireSchema, wire) ∧
      wire.length = T.size ∧
      (∀ i, i < T.size → ∃ b, wire[i]? = some b ∧
        b.toBitVec = number.extractLsb' (8 * i) 8 ∧
        (b.toNat : ℤ) = value number / 256 ^ i % 256) ∧
      c.deserialize wireSchema wire = .ok (dataType, some number)) ∧
    ∀ wire, wire.length = T.size → ∃ number : T.Value,
      c.deserialize wireSchema wire = .ok (dataType, some number) ∧
      c.serialize (dataType, some number) = .ok (wireSchema, wire) := by
  intro c
  have hc : c = integerConverter T dataType wireSchema := promotingConverter_eq _ _ _ _
  rw [hc]
  constructor
  · intro number
    refine ⟨(List.range T.size).map (byte number), rfl, by simp, fun i hi => ?_, ?_⟩
    · refine ⟨byte number i, ?_, toBitVec_byte number hi, toNat_byte number hi⟩
      rw [List.getElem?_map, List.getElem?_range hi, Option.map_some]
    · simp only [integerConverter, loop_byte]
      rfl
  · intro wire hwire
    obtain ⟨number, hread, hwrite⟩ := byte_loop hwire
    refine ⟨number, ?_, ?_⟩
    · simp only [integerConverter, hread]
      rfl
    · rw [← hwrite]
      rfl

end Rsb.Payloads
