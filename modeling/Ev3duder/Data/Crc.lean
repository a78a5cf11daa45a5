import Ev3duder.Data.Bytes

namespace Ev3duder.Data.Crc

/-! Cyclic redundancy checks with a reflected register, bit by bit, and what makes the table method right:
shifting is linear, so the eight shifts of a byte depend on the low byte of the register only. -/

variable {width : Nat}

def shift (poly register : BitVec width) : BitVec width :=
  if register.getLsbD 0 then (register >>> 1) ^^^ poly else register >>> 1

def shifts (poly : BitVec width) : Nat → BitVec width → BitVec width
  | 0, register => register
  | count + 1, register => shifts poly count (shift poly register)

def byteStep (poly register : BitVec width) (byte : UInt8) : BitVec width :=
  shifts poly 8 (register ^^^ byte.toBitVec.setWidth width)

def bytesStep (poly register : BitVec width) (bytes : Bytes) : BitVec width :=
  bytes.foldl (byteStep poly) register

/-- The check value with an all-ones initial register and an all-ones final inversion. -/
def checksum (poly : BitVec width) (bytes : Bytes) : BitVec width :=
  ~~~ bytesStep poly (BitVec.allOnes width) bytes

variable {poly : BitVec width}

theorem shift_xor (left right : BitVec width) :
    shift poly (left ^^^ right) = shift poly left ^^^ shift poly right := by
  apply BitVec.eq_of_getLsbD_eq
  intro index bound
  simp only [shift, BitVec.getLsbD_xor, BitVec.ushiftRight_xor_distrib]
  cases left.getLsbD 0 <;> cases right.getLsbD 0 <;>
    simp only [Bool.false_eq_true, bne_self_eq_false, Bool.bne_false, Bool.bne_true, Bool.not_false,
      ↓reduceIte, BitVec.getLsbD_xor] <;>
    cases (left >>> 1).getLsbD index <;> cases (right >>> 1).getLsbD index <;> cases poly.getLsbD index <;> rfl

theorem shifts_xor (count : Nat) (left right : BitVec width) :
    shifts poly count (left ^^^ right) = shifts poly count left ^^^ shifts poly count right := by
  induction count generalizing left right with
  | zero => rfl
  | succ count ih => simp only [shifts, shift_xor, ih]

theorem shifts_of_low_zero {count : Nat} {register : BitVec width}
    (zero : ∀ index, index < count → register.getLsbD index = false) :
    shifts poly count register = register >>> count := by
  induction count generalizing register with
  | zero => simp [shifts]
  | succ count ih =>
      have first : shift poly register = register >>> 1 := by
        rw [shift, zero 0 (by omega)]
        simp
      have later : ∀ index, index < count → (register >>> 1).getLsbD index = false := by
        intro index bound
        rw [BitVec.getLsbD_ushiftRight]
        exact zero (1 + index) (by omega)
      rw [shifts, first, ih later, ← BitVec.shiftRight_add, Nat.add_comm 1 count]

/-- The shifts of a byte act on the low byte only; the rest of the register moves down unchanged. -/
theorem shifts_split (count : Nat) (register : BitVec width) :
    shifts poly count register =
      shifts poly count ((register.setWidth count).setWidth width) ^^^ (register >>> count) := by
  have split : register = (register.setWidth count).setWidth width ^^^
      (register ^^^ (register.setWidth count).setWidth width) := by
    rw [BitVec.xor_comm register, ← BitVec.xor_assoc, BitVec.xor_self, BitVec.zero_xor]
  have low : ∀ index, index < count →
      (register ^^^ (register.setWidth count).setWidth width).getLsbD index = false := by
    intro index bound
    rw [BitVec.getLsbD_xor, BitVec.getLsbD_setWidth, BitVec.getLsbD_setWidth]
    by_cases inside : index < width
    · simp [inside, bound]
    · simp [BitVec.getLsbD_of_ge register index (by omega), inside]
  have high : (register ^^^ (register.setWidth count).setWidth width) >>> count = register >>> count := by
    apply BitVec.eq_of_getLsbD_eq
    intro index bound
    simp [BitVec.getLsbD_ushiftRight]
  calc shifts poly count register
    _ = shifts poly count ((register.setWidth count).setWidth width ^^^
          (register ^^^ (register.setWidth count).setWidth width)) := by rw [← split]
    _ = _ := by rw [shifts_xor, shifts_of_low_zero low, high]

/-- Looking the low byte up in a table of eight shifts does the work of the eight shifts. -/
theorem table_step {table : BitVec 8 → BitVec width}
    (entries : ∀ index, table index = shifts poly 8 (index.setWidth width)) (register : BitVec width)
    (byte : UInt8) :
    table ((register ^^^ byte.toBitVec.setWidth width).setWidth 8) ^^^
        ((register ^^^ byte.toBitVec.setWidth width) >>> 8) = byteStep poly register byte := by
  rw [entries, byteStep, ← shifts_split]

theorem byte_shifted_out (register : BitVec width) (byte : UInt8) :
    (register ^^^ byte.toBitVec.setWidth width) >>> 8 = register >>> 8 := by
  apply BitVec.eq_of_getLsbD_eq
  intro index bound
  simp [BitVec.getLsbD_ushiftRight]

end Ev3duder.Data.Crc
