import Ev3duder.Data.Crc

namespace Ev3duder.Data.Crc

/-! Errors that a cyclic redundancy check cannot miss.

The register takes one bit at a time.  A difference that enters it within no more bits than it has never cancels out, if
the polynomial has its last bit, and further bits do not cancel it either.
-/

variable {width : Nat} {poly : BitVec width}

def bitStep (poly register : BitVec width) (bit : Bool) : BitVec width :=
  shift poly (register ^^^ (BitVec.ofBool bit).setWidth width)

/-- The bits of a byte, the lowest first. -/
def byteBits (byte : UInt8) : List Bool := (List.range 8).map byte.toBitVec.getLsbD

def bits (bytes : Bytes) : List Bool := bytes.flatMap byteBits

/-- Nothing is set from bit `count` on. -/
def Below (count : Nat) (register : BitVec width) : Prop := ∀ index, count ≤ index → register.getLsbD index = false

theorem ofBool_getLsbD (bit : Bool) (index : Nat) :
    ((BitVec.ofBool bit).setWidth width).getLsbD index = (decide (index = 0 ∧ 0 < width) && bit) := by
  rw [BitVec.getLsbD_setWidth, BitVec.getLsbD_ofBool]
  by_cases low : index = 0
  · simp [low]
  · simp [low]

/-- A step that leaves nothing from a bit on left nothing behind it before, and the bit that came in was the lowest. -/
theorem below_bitStep {register : BitVec width} {bit : Bool} {count : Nat} (top : poly.getLsbD (width - 1) = true)
    (room : count < width) (below : Below count (bitStep poly register bit)) :
    Below (count + 1) register ∧ register.getLsbD 0 = bit := by
  have positive : 0 < width := Nat.lt_of_le_of_lt (Nat.zero_le count) room
  unfold bitStep at below
  have entered (index : Nat) : (register ^^^ (BitVec.ofBool bit).setWidth width).getLsbD index =
      (register.getLsbD index ^^ (decide (index = 0) && bit)) := by
    rw [BitVec.getLsbD_xor, ofBool_getLsbD]
    simp [positive]
  have low : (register ^^^ (BitVec.ofBool bit).setWidth width).getLsbD 0 = false := by
    cases set : (register ^^^ (BitVec.ofBool bit).setWidth width).getLsbD 0 with
    | false => rfl
    | true =>
        have last := below (width - 1) (by omega)
        rw [shift, set, if_pos rfl, BitVec.getLsbD_xor, BitVec.getLsbD_ushiftRight, top,
          BitVec.getLsbD_of_ge _ _ (by omega)] at last
        cases last
  constructor
  · intro index behind
    have moved := below (index - 1) (by omega)
    rw [shift, low, if_neg (by decide), BitVec.getLsbD_ushiftRight, Nat.add_sub_cancel' (by omega), entered] at moved
    simpa [show index ≠ 0 by omega] using moved
  · rw [entered] at low
    simpa using low

theorem below_bitSteps {register : BitVec width} {count : Nat} (top : poly.getLsbD (width - 1) = true)
    (stream : List Bool) (room : count + stream.length ≤ width)
    (below : Below count (stream.foldl (bitStep poly) register)) : Below (count + stream.length) register := by
  induction stream generalizing register with
  | nil => exact below
  | cons bit stream ih =>
      have later := ih (by simp only [List.length_cons] at room; omega) below
      rw [List.length_cons] at room ⊢
      exact (below_bitStep top (by omega) later).1

theorem below_zero {register : BitVec width} (below : Below 0 register) : register = 0 := by
  apply BitVec.eq_of_getLsbD_eq
  intro index _
  rw [below index (Nat.zero_le index)]
  simp

theorem bitStep_none : bitStep poly 0 false = 0 := by
  simp [bitStep, shift]

/-- One bit that enters an empty register leaves the polynomial. -/
theorem bitStep_one (positive : 0 < width) : bitStep poly 0 true = poly := by
  have low : ((BitVec.ofBool true).setWidth width).getLsbD 0 = true := by simp [positive]
  have gone : ((BitVec.ofBool true).setWidth width) >>> 1 = (0 : BitVec width) := by
    apply BitVec.eq_of_getLsbD_eq
    intro index _
    simp [BitVec.getLsbD_ushiftRight]
  have entered : (0 : BitVec width) ^^^ (BitVec.ofBool true).setWidth width =
      (BitVec.ofBool true).setWidth width := BitVec.zero_xor
  rw [bitStep, entered, shift, low, if_pos rfl, gone]
  exact BitVec.zero_xor

/-- No more bits than the register has, and one of them set: they leave something in an empty register. -/
theorem bitSteps_zero {stream : List Bool} (top : poly.getLsbD (width - 1) = true) (short : stream.length ≤ width)
    (none : stream.foldl (bitStep poly) 0 = 0) : ∀ bit ∈ stream, bit = false := by
  induction stream with
  | nil => nofun
  | cons bit stream ih =>
      rw [List.length_cons] at short
      cases bit with
      | false =>
          rw [List.foldl_cons, bitStep_none] at none
          intro other member
          rcases List.mem_cons.mp member with rfl | member
          · rfl
          · exact ih (by omega) none other member
      | true =>
          rw [List.foldl_cons, bitStep_one (by omega)] at none
          have empty : Below 0 (stream.foldl (bitStep poly) poly) := by
            rw [none]
            exact fun index _ => by simp
          have last := below_bitSteps top stream (by omega) empty (width - 1) (by omega)
          rw [top] at last
          nomatch last

/-- What is in the register stays there while no bits come in. -/
theorem bitSteps_stays {register : BitVec width} {stream : List Bool} (positive : 0 < width)
    (top : poly.getLsbD (width - 1) = true) (quiet : ∀ bit ∈ stream, bit = false)
    (none : stream.foldl (bitStep poly) register = 0) : register = 0 := by
  induction stream generalizing register with
  | nil => exact none
  | cons bit stream ih =>
      have bitOff := quiet bit List.mem_cons_self
      have empty := ih (fun other member => quiet other (List.mem_cons_of_mem _ member)) none
      have below : Below 0 (bitStep poly register bit) := by
        rw [empty]
        exact fun index _ => by simp
      obtain ⟨rest, low⟩ := below_bitStep top positive below
      apply below_zero
      intro index _
      cases index with
      | zero => rw [low, bitOff]
      | succ index => exact rest (index + 1) (by omega)

theorem bitStep_xor (left right : BitVec width) (first second : Bool) :
    bitStep poly (left ^^^ right) (first ^^ second) = bitStep poly left first ^^^ bitStep poly right second := by
  have entered : (left ^^^ right) ^^^ (BitVec.ofBool (first ^^ second)).setWidth width =
      (left ^^^ (BitVec.ofBool first).setWidth width) ^^^ (right ^^^ (BitVec.ofBool second).setWidth width) := by
    apply BitVec.eq_of_getLsbD_eq
    intro index _
    simp only [BitVec.getLsbD_xor, ofBool_getLsbD]
    grind
  rw [bitStep, entered, shift_xor]
  rfl

theorem bitSteps_xor (left right : BitVec width) {first second : List Bool} (same : first.length = second.length) :
    (List.zipWith (· ^^ ·) first second).foldl (bitStep poly) (left ^^^ right) =
      first.foldl (bitStep poly) left ^^^ second.foldl (bitStep poly) right := by
  induction first generalizing left right second with
  | nil =>
      rw [List.eq_nil_of_length_eq_zero same.symm]
      rfl
  | cons one first ih =>
      match second, same with
      | other :: second, same =>
          rw [List.zipWith_cons_cons, List.foldl_cons, List.foldl_cons, List.foldl_cons, bitStep_xor]
          exact ih _ _ (Nat.succ.inj same)

theorem shifts_succ (count : Nat) (register : BitVec width) :
    shifts poly (count + 1) register = shift poly (shifts poly count register) := by
  induction count generalizing register with
  | zero => rfl
  | succ count ih =>
      calc shifts poly (count + 1 + 1) register
        _ = shifts poly (count + 1) (shift poly register) := rfl
        _ = shift poly (shifts poly count (shift poly register)) := ih _

/-- The first bits of a byte, one at a time, and the others of it at once: the others come later. -/
theorem bitSteps_shifts (register : BitVec width) (byte : UInt8) {count : Nat} (wide : 8 ≤ width) (some : count ≤ 8) :
    ((List.range count).map byte.toBitVec.getLsbD).foldl (bitStep poly) register ^^^
        (byte.toBitVec.setWidth width >>> count) =
      shifts poly count (register ^^^ byte.toBitVec.setWidth width) := by
  induction count with
  | zero => rfl
  | succ count ih =>
      rw [shifts_succ, ← ih (by omega), List.range_succ, List.map_append, List.foldl_append]
      simp only [List.map_cons, List.map_nil, List.foldl_cons, List.foldl_nil]
      generalize (List.map byte.toBitVec.getLsbD (List.range count)).foldl (bitStep poly) register = taken
      have next : byte.toBitVec.setWidth width >>> count =
          (BitVec.ofBool (byte.toBitVec.getLsbD count)).setWidth width ^^^
            ((byte.toBitVec.setWidth width >>> (count + 1)) <<< 1) := by
        apply BitVec.eq_of_getLsbD_eq
        intro index bound
        rw [BitVec.getLsbD_xor, ofBool_getLsbD, BitVec.getLsbD_shiftLeft, BitVec.getLsbD_ushiftRight,
          BitVec.getLsbD_setWidth, BitVec.getLsbD_ushiftRight, BitVec.getLsbD_setWidth]
        cases index with
        | zero => simp [show count < width by omega, show 0 < width by omega]
        | succ index =>
            rw [show count + (index + 1) = count + 1 + (index + 1 - 1) by omega]
            simp [bound]
      have linear : shift poly ((byte.toBitVec.setWidth width >>> (count + 1)) <<< 1) =
          byte.toBitVec.setWidth width >>> (count + 1) := by
        have even : ((byte.toBitVec.setWidth width >>> (count + 1)) <<< 1).getLsbD 0 = false := by simp
        rw [shift, even, if_neg (by decide)]
        apply BitVec.eq_of_getLsbD_eq
        intro index bound
        rw [BitVec.getLsbD_ushiftRight, BitVec.getLsbD_shiftLeft, BitVec.getLsbD_ushiftRight,
          BitVec.getLsbD_ushiftRight]
        by_cases inside : 1 + index < width
        · simp [inside]
        · have beyond : byte.toBitVec.getLsbD (count + 1 + index) = false := BitVec.getLsbD_of_ge _ _ (by omega)
          simp [inside, beyond]
      rw [next, ← BitVec.xor_assoc, shift_xor, linear]
      rfl

theorem byteStep_bits (register : BitVec width) (byte : UInt8) (wide : 8 ≤ width) :
    byteStep poly register byte = (byteBits byte).foldl (bitStep poly) register := by
  have gone : byte.toBitVec.setWidth width >>> 8 = (0 : BitVec width) := by
    apply BitVec.eq_of_getLsbD_eq
    intro index _
    simp [BitVec.getLsbD_ushiftRight]
  have all : (byteBits byte).foldl (bitStep poly) register ^^^ byte.toBitVec.setWidth width >>> 8 =
      byteStep poly register byte := bitSteps_shifts register byte wide (Nat.le_refl 8)
  rw [← all, gone]
  exact BitVec.xor_zero

theorem bytesStep_bits (register : BitVec width) (bytes : Bytes) (wide : 8 ≤ width) :
    bytesStep poly register bytes = (bits bytes).foldl (bitStep poly) register := by
  induction bytes generalizing register with
  | nil => rfl
  | cons byte bytes ih =>
      calc bytesStep poly register (byte :: bytes)
        _ = bytesStep poly (byteStep poly register byte) bytes := rfl
        _ = (byteBits byte ++ bits bytes).foldl (bitStep poly) register := by
          rw [ih, byteStep_bits register byte wide, List.foldl_append]
        _ = (bits (byte :: bytes)).foldl (bitStep poly) register := rfl

theorem byteBits_injective {first second : UInt8} (same : byteBits first = byteBits second) : first = second := by
  apply UInt8.toBitVec_inj.mp
  apply BitVec.eq_of_getLsbD_eq
  intro index bound
  have at_index := congrArg (fun list : List Bool => list[index]?) same
  simpa [byteBits, bound] using at_index

theorem bits_injective {first second : Bytes} (same : bits first = bits second) : first = second := by
  induction first generalizing second with
  | nil =>
      cases second with
      | nil => rfl
      | cons other second => nomatch same
  | cons one first ih =>
      cases second with
      | nil => nomatch same
      | cons other second =>
          have split : byteBits one ++ bits first = byteBits other ++ bits second := same
          obtain ⟨head, tail⟩ := List.append_inj split (by simp [byteBits])
          rw [byteBits_injective head, ih tail]

/-- Two texts of the same bits but for a stretch of at most `span` of them. -/
structure Burst (span : Nat) (first second : Bytes) : Prop where
  differs : first ≠ second
  within : ∃ front one other rest, bits first = front ++ one ++ rest ∧ bits second = front ++ other ++ rest ∧
    one.length = other.length ∧ one.length ≤ span

theorem zipWith_xor_self (stream : List Bool) : ∀ bit ∈ List.zipWith (· ^^ ·) stream stream, bit = false := by
  simp

theorem eq_of_zipWith_xor {first second : List Bool} (same : first.length = second.length)
    (none : ∀ bit ∈ List.zipWith (· ^^ ·) first second, bit = false) : first = second := by
  induction first generalizing second with
  | nil => exact (List.eq_nil_of_length_eq_zero same.symm).symm
  | cons one first ih =>
      match second, same with
      | other :: second, same =>
          rw [List.zipWith_cons_cons, List.forall_mem_cons] at none
          rw [ih (Nat.succ.inj same) none.2, bne_eq_false_iff_eq.mp none.1]

/-- A burst no longer than the register changes the check value. -/
theorem checksum_burst {first second : Bytes} (wide : 8 ≤ width) (top : poly.getLsbD (width - 1) = true)
    (burst : Burst width first second) : checksum poly first ≠ checksum poly second := by
  intro equal
  obtain ⟨front, one, other, rest, first_eq, second_eq, same, short⟩ := burst.within
  have registers : bytesStep poly (BitVec.allOnes width) first = bytesStep poly (BitVec.allOnes width) second :=
    BitVec.not_inj.mp equal
  rw [bytesStep_bits _ _ wide, bytesStep_bits _ _ wide, first_eq, second_eq] at registers
  simp only [List.foldl_append] at registers
  generalize front.foldl (bitStep poly) (BitVec.allOnes width) = start at registers
  have apart : (List.zipWith (· ^^ ·) rest rest).foldl (bitStep poly)
      ((List.zipWith (· ^^ ·) one other).foldl (bitStep poly) 0) = 0 := by
    have started : (0 : BitVec width) = start ^^^ start := BitVec.xor_self.symm
    rw [started, bitSteps_xor start start same, bitSteps_xor _ _ rfl, registers, BitVec.xor_self, BitVec.xor_self]
  have entered := bitSteps_stays (by omega) top (zipWith_xor_self rest) apart
  have none := bitSteps_zero top (by rw [List.length_zipWith]; omega) entered
  apply burst.differs
  apply bits_injective
  rw [first_eq, second_eq, eq_of_zipWith_xor same none]

end Ev3duder.Data.Crc
