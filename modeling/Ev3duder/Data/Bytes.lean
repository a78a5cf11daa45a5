import Mathlib.Algebra.Group.Int.Defs
import Mathlib.Algebra.Ring.Nat

namespace Ev3duder.Data

/-! Byte strings: little-endian numbers, flat memory, and cutting a sequence into blocks. -/

abbrev Bytes := List UInt8

def leBytes : Nat → Nat → Bytes
  | 0, _ => []
  | width + 1, value => UInt8.ofNat value :: leBytes width (value / 256)

def leValue : Bytes → Nat
  | [] => 0
  | byte :: rest => byte.toNat + 256 * leValue rest

@[simp] theorem leBytes_length (width value : Nat) : (leBytes width value).length = width := by
  induction width generalizing value with
  | zero => rfl
  | succ width ih => simp [leBytes, ih]

theorem leValue_leBytes (width value : Nat) :
    leValue (leBytes width value) = value % 256 ^ width := by
  induction width generalizing value with
  | zero => simp [leBytes, leValue, Nat.mod_one]
  | succ width ih =>
      simp only [leBytes, leValue, ih, UInt8.toNat_ofNat', Nat.reducePow]
      rw [Nat.pow_succ, Nat.mul_comm (256 ^ width) 256, Nat.mod_mul]

theorem leValue_leBytes_of_lt {width value : Nat} (bound : value < 256 ^ width) :
    leValue (leBytes width value) = value := by
  rw [leValue_leBytes, Nat.mod_eq_of_lt bound]

theorem leValue_lt (bytes : Bytes) : leValue bytes < 256 ^ bytes.length := by
  induction bytes with
  | nil => simp [leValue]
  | cons byte rest ih =>
      have byteBound := UInt8.toNat_lt byte
      simp only [leValue, List.length_cons, Nat.pow_succ]
      omega

theorem leBytes_leValue (bytes : Bytes) : leBytes bytes.length (leValue bytes) = bytes := by
  induction bytes with
  | nil => rfl
  | cons byte rest ih =>
      have byteBound := UInt8.toNat_lt byte
      have quotient : (byte.toNat + 256 * leValue rest) / 256 = leValue rest := by omega
      have digit : UInt8.ofNat (byte.toNat + 256 * leValue rest) = byte := by
        apply UInt8.toNat_inj.mp
        rw [UInt8.toNat_ofNat']
        omega
      simp only [List.length_cons, leBytes, leValue, quotient, ih, digit]

theorem toNat_ofInt {value : Nat} (small : value < 4294967296) : (UInt32.ofInt value).toNat = value := by
  rw [UInt32.ofInt, UInt32.toNat_ofNat']
  omega

theorem ofInt_natCast (value : Nat) : UInt32.ofInt value = UInt32.ofNat value := by
  have low : (value : Int) % 2 ^ 32 = ((value % 2 ^ 32 : Nat) : Int) := by omega
  rw [UInt32.ofInt, low, Int.toNat_natCast, UInt32.ofNat_mod_size]

theorem signed_ofInt {value : Int} (low : -1 ≤ value) (high : value < 2147483648) :
    (UInt32.ofInt value).toInt32.toInt = value := by
  have bits : (UInt32.ofInt value).toInt32.toInt = (UInt32.ofInt value).toBitVec.toInt := rfl
  rw [bits, BitVec.toInt_eq_toNat_cond, UInt32.toNat_toBitVec, UInt32.ofInt, UInt32.toNat_ofNat']
  omega

theorem signed_eq {value : UInt32} (small : value.toNat < 2147483648) : value.toInt32.toInt = value.toNat := by
  have bits : value.toInt32.toInt = value.toBitVec.toInt := rfl
  rw [bits, BitVec.toInt_eq_toNat_cond, UInt32.toNat_toBitVec]
  omega

/-- A buffer is known by its start only: an access past its end reads whatever lies there. -/
abbrev Memory := Nat → UInt8

/-- Bytes delivered to the start of the buffer; what lies behind them stays. -/
def Memory.store (memory : Memory) (bytes : Bytes) : Memory :=
  fun index => bytes[index]?.getD (memory index)

def Memory.load (memory : Memory) (offset count : Nat) : Bytes :=
  (List.range count).map fun index => memory (offset + index)

@[simp] theorem Memory.load_length (memory : Memory) (offset count : Nat) :
    (memory.load offset count).length = count := by
  simp [Memory.load]

theorem Memory.load_add (memory : Memory) (offset first second : Nat) :
    memory.load offset (first + second) = memory.load offset first ++ memory.load (offset + first) second := by
  simp only [Memory.load, List.range_add, List.map_append, List.map_map, Function.comp_def, Nat.add_assoc]

theorem Memory.load_succ (memory : Memory) (offset count : Nat) :
    memory.load offset (count + 1) = memory offset :: memory.load (offset + 1) count := by
  rw [Nat.add_comm count, Memory.load_add]
  simp [Memory.load]

theorem Memory.load_store {memory : Memory} {bytes : Bytes} {offset count : Nat}
    (within : offset + count ≤ bytes.length) :
    (memory.store bytes).load offset count = (bytes.drop offset).take count := by
  apply List.ext_getElem?
  intro index
  by_cases bound : index < count
  · have inside : offset + index < bytes.length := by omega
    simp [Memory.load, Memory.store, bound, inside]
  · have outside : ¬ index < ((bytes.drop offset).take count).length := by
      simp only [List.length_take]
      omega
    rw [List.getElem?_eq_none (by simp only [Memory.load_length]; omega),
      List.getElem?_eq_none (by omega)]

def Memory.storeAt (memory : Memory) (offset : Nat) (bytes : Bytes) : Memory :=
  fun index => if offset ≤ index then bytes[index - offset]?.getD (memory index) else memory index

@[simp] theorem Memory.storeAt_nil (memory : Memory) (offset : Nat) : memory.storeAt offset [] = memory := by
  funext index
  simp [Memory.storeAt]

theorem Memory.storeAt_before {memory : Memory} {offset index : Nat} (bytes : Bytes) (before : index < offset) :
    memory.storeAt offset bytes index = memory index := by
  rw [Memory.storeAt, if_neg (by omega)]

theorem Memory.storeAt_after {memory : Memory} {offset index : Nat} {bytes : Bytes}
    (behind : offset + bytes.length ≤ index) : memory.storeAt offset bytes index = memory index := by
  rw [Memory.storeAt, if_pos (by omega), List.getElem?_eq_none (by omega), Option.getD_none]

theorem Memory.storeAt_load {memory : Memory} {offset : Nat} {bytes : Bytes} :
    (memory.storeAt offset bytes).load offset bytes.length = bytes := by
  apply List.ext_getElem?
  intro index
  by_cases inside : index < bytes.length
  · simp [Memory.load, Memory.storeAt, inside]
  · rw [List.getElem?_eq_none (by simp only [Memory.load_length]; omega), List.getElem?_eq_none (by omega)]

theorem Memory.storeAt_cons (memory : Memory) (offset : Nat) (byte : UInt8) (bytes : Bytes) :
    (memory.storeAt offset [byte]).storeAt (offset + 1) bytes = memory.storeAt offset (byte :: bytes) := by
  funext index
  rcases Nat.lt_trichotomy index offset with before | here | behind
  · simp only [storeAt_before _ before, storeAt_before _ (Nat.lt_succ_of_lt before)]
  · subst here
    rw [storeAt_before _ (Nat.lt_succ_self _)]
    simp [Memory.storeAt]
  · obtain ⟨distance, rfl⟩ := Nat.exists_eq_add_of_lt behind
    have within : offset + 1 ≤ offset + distance + 1 := by omega
    have first : offset ≤ offset + distance + 1 := by omega
    have shifted : offset + distance + 1 - (offset + 1) = distance := by omega
    have whole : offset + distance + 1 - offset = distance + 1 := by omega
    simp [Memory.storeAt, within, first, shifted, whole]

/-- Bytes stored right behind others that are already there. -/
theorem Memory.storeAt_behind {memory : Memory} {offset : Nat} {front : Bytes}
    (loaded : memory.load offset front.length = front) (bytes : Bytes) :
    (memory.storeAt (offset + front.length) bytes).load offset (front ++ bytes).length = front ++ bytes := by
  have kept : (memory.storeAt (offset + front.length) bytes).load offset front.length = front := by
    refine Eq.trans ?_ loaded
    apply List.map_congr_left
    intro index member
    exact Memory.storeAt_before bytes (by have bound := List.mem_range.mp member; omega)
  rw [List.length_append, Memory.load_add, kept, Memory.storeAt_load]

/-- The C string at `start`, in memory that is known to end within `room` bytes. -/
def Memory.cstring (memory : Memory) (start : Nat) : Nat → Bytes
  | 0 => []
  | room + 1 => if memory start = 0 then [] else memory start :: memory.cstring (start + 1) room

theorem Memory.cstring_begins {memory : Memory} {start room : Nat} {bytes : Bytes}
    (loaded : memory.load start bytes.length = bytes) (noNul : 0 ∉ bytes) (fits : bytes.length ≤ room) :
    bytes <+: memory.cstring start room := by
  induction bytes generalizing start room with
  | nil => exact List.nil_prefix
  | cons byte rest ih =>
      rw [List.length_cons, Memory.load_succ, List.cons.injEq] at loaded
      obtain ⟨here, later⟩ := loaded
      simp only [List.mem_cons, not_or] at noNul
      cases room with
      | zero => simp at fits
      | succ room =>
          rw [Memory.cstring, here, if_neg fun zero => noNul.1 zero.symm]
          exact (List.prefix_cons_inj _).mpr (ih later noNul.2 (Nat.le_of_succ_le_succ fits))

/-- A NUL ends the string before it. -/
theorem Memory.cstring_ends {memory : Memory} {start index : Nat} (zero : memory index = 0) (behind : start ≤ index)
    (room : Nat) : (memory.cstring start room).length ≤ index - start := by
  induction room generalizing start with
  | zero => exact Nat.zero_le _
  | succ room ih =>
      rw [Memory.cstring]
      split
      · exact Nat.zero_le _
      · rename_i here
        have before : start ≠ index := fun same => here (same ▸ zero)
        have later := @ih (start + 1) (by omega)
        rw [List.length_cons]
        omega

theorem tail_getD {α : Type} (items : List α) (index : Nat) (default : α) :
    items.tail.getD index default = items.getD (index + 1) default := by
  cases items <;> rfl

section Chunks

variable {α : Type}

/-- `items` cut into blocks of `size`, the last one possibly shorter. -/
def chunks (size : Nat) (items : List α) : List (List α) :=
  if size = 0 ∨ items = [] then []
  else items.take size :: chunks size (items.drop size)
termination_by items.length
decreasing_by
  rename_i more
  have nonempty : 0 < items.length := List.length_pos_iff.mpr fun empty => more (Or.inr empty)
  have positive : size ≠ 0 := fun zero => more (Or.inl zero)
  simp only [List.length_drop]
  omega

variable {size : Nat} {items : List α}

@[simp] theorem chunks_nil (size : Nat) : chunks size ([] : List α) = [] := by
  rw [chunks]
  simp

theorem chunks_cons (positive : 0 < size) (nonempty : items ≠ []) :
    chunks size items = items.take size :: chunks size (items.drop size) := by
  rw [chunks, if_neg]
  simp only [not_or]
  exact ⟨by omega, nonempty⟩

theorem chunks_cons_min (positive : 0 < size) (nonempty : items ≠ []) :
    chunks size items =
      items.take (min items.length size) :: chunks size (items.drop (min items.length size)) := by
  rw [chunks_cons positive nonempty]
  by_cases full : size ≤ items.length
  · rw [Nat.min_eq_right full]
  · have short : min items.length size = items.length := Nat.min_eq_left (by omega)
    rw [short, List.take_length, List.drop_length, List.take_of_length_le (by omega), List.drop_of_length_le (by omega)]

/-- Induction that follows the cutting: the empty sequence, and a block in front of a shorter rest. -/
theorem chunks_induction {motive : List α → Prop} (positive : 0 < size) (empty : motive [])
    (block : ∀ items, items ≠ [] → motive (items.drop size) → motive items) (items : List α) :
    motive items := by
  generalize bound : items.length = count
  induction count using Nat.strongRecOn generalizing items with
  | ind count ih =>
    by_cases nonempty : items = []
    · exact nonempty ▸ empty
    · have shorter : (items.drop size).length < count := by
        have := List.length_pos_iff.mpr nonempty
        simp only [List.length_drop]
        omega
      exact block items nonempty (ih _ shorter _ rfl)

theorem chunks_flatten (positive : 0 < size) (items : List α) :
    (chunks size items).flatten = items := by
  induction items using chunks_induction positive with
  | empty => simp
  | block items nonempty ih =>
      rw [chunks_cons positive nonempty, List.flatten_cons, ih, List.take_append_drop]

theorem chunks_length (positive : 0 < size) (items : List α) :
    (chunks size items).length = (items.length + size - 1) / size := by
  induction items using chunks_induction positive with
  | empty => simp only [chunks_nil, List.length_nil, Nat.zero_add]; exact (Nat.div_eq_of_lt (by omega)).symm
  | block items nonempty ih =>
      have itemsPositive := List.length_pos_iff.mpr nonempty
      rw [chunks_cons positive nonempty, List.length_cons, ih, List.length_drop]
      by_cases short : items.length ≤ size
      · have left : (items.length - size + size - 1) / size = 0 := Nat.div_eq_of_lt (by omega)
        have right : (items.length + size - 1) / size = 1 :=
          Nat.div_eq_of_lt_le (by omega) (by omega)
        rw [left, right]
      · have step : items.length + size - 1 = (items.length - size + size - 1) + size := by omega
        rw [step, Nat.add_div_right _ positive]

theorem chunks_append {block : List α} (nonempty : block ≠ []) (bound : block.length ≤ size)
    (full : block.length = size ∨ items = []) :
    chunks size (block ++ items) = block :: chunks size items := by
  have positive : 0 < size := Nat.lt_of_lt_of_le (List.length_pos_iff.mpr nonempty) bound
  rw [chunks_cons positive (by simp [nonempty])]
  rcases full with full | rfl
  · rw [← full, List.take_left, List.drop_left]
  · rw [List.append_nil, List.take_of_length_le bound, List.drop_of_length_le bound]

theorem chunks_block_length (positive : 0 < size) {block : List α} (member : block ∈ chunks size items) :
    0 < block.length ∧ block.length ≤ size := by
  induction items using chunks_induction positive with
  | empty => simp at member
  | block items nonempty ih =>
      rw [chunks_cons positive nonempty, List.mem_cons] at member
      rcases member with rfl | member
      · have itemsPositive := List.length_pos_iff.mpr nonempty
        simp only [List.length_take]
        omega
      · exact ih member

end Chunks

/-- The first `length` bytes of `content`, zeros where it has none. -/
def padded (length : Nat) (content : Bytes) : Bytes :=
  content.take length ++ List.replicate (length - content.length) 0

@[simp] theorem padded_length (length : Nat) (content : Bytes) : (padded length content).length = length := by
  simp only [padded, List.length_append, List.length_take, List.length_replicate]
  omega

theorem padded_short {length : Nat} {content : Bytes} (short : content.length ≤ length) :
    padded length content = content ++ List.replicate (length - content.length) 0 := by
  rw [padded, List.take_of_length_le short]

theorem padded_full {length : Nat} {content : Bytes} (full : content.length = length) :
    padded length content = content := by
  rw [padded_short (Nat.le_of_eq full), full, Nat.sub_self, List.replicate_zero, List.append_nil]

theorem padded_take (length : Nat) (content : Bytes) : padded length (content.take length) = padded length content := by
  rw [padded, padded, List.take_take, Nat.min_self, List.length_take]
  congr 2
  omega

theorem padded_nil (length : Nat) : padded length [] = List.replicate length 0 := by
  simp [padded]

theorem padded_getElem? (length : Nat) (content : Bytes) (index : Nat) :
    (padded length content)[index]? = if index < length then some (content[index]?.getD 0) else none := by
  rw [padded, List.getElem?_append, List.length_take, List.getElem?_replicate]
  by_cases inside : index < min length content.length
  · rw [if_pos inside, List.getElem?_take, if_pos (by omega), if_pos (by omega),
      List.getElem?_eq_getElem (by omega)]
    rfl
  · rw [if_neg inside]
    by_cases bound : index < length
    · rw [if_pos bound, if_pos (by omega), List.getElem?_eq_none (by omega)]
      rfl
    · rw [if_neg bound, if_neg (by omega)]

theorem padded_split {count length : Nat} (bound : count ≤ length) (content : Bytes) :
    padded length content = padded count content ++ padded (length - count) (content.drop count) := by
  apply List.ext_getElem?
  intro index
  rw [List.getElem?_append, padded_length]
  simp only [padded_getElem?, List.getElem?_drop]
  by_cases early : index < count
  · rw [if_pos early, if_pos early, if_pos (by omega)]
  · have shifted : count + (index - count) = index := by omega
    rw [if_neg early, shifted]
    by_cases inside : index < length
    · rw [if_pos inside, if_pos (by omega)]
    · rw [if_neg inside, if_neg (by omega)]

/-- `strstr(bytes, text) != NULL`, for the bytes of a C string. -/
def strstr : Bytes → Bytes → Bool
  | [], text => text.isEmpty
  | byte :: rest, text => text.isPrefixOf (byte :: rest) || strstr rest text

theorem strstr_iff (bytes text : Bytes) : strstr bytes text = true ↔ text <:+: bytes := by
  induction bytes with
  | nil => simp [strstr]
  | cons byte rest ih =>
      rw [strstr, Bool.or_eq_true, List.isPrefixOf_iff_prefix, ih, List.infix_cons_iff]

structure CString where
  bytes : Bytes
  noNul : 0 ∉ bytes
deriving DecidableEq, Repr

/-- The C string that starts at the front of a byte array: everything before the first NUL. -/
def cstr (memory : Bytes) : CString where
  bytes := memory.takeWhile (· ≠ 0)
  noNul := by
    intro member
    have kept := List.all_eq_true.mp List.all_takeWhile 0 member
    simp at kept

theorem cstr_terminated (name : CString) (rest : Bytes) : cstr (name.bytes ++ 0 :: rest) = name := by
  have all : ∀ byte ∈ name.bytes, decide (byte ≠ 0) = true := by
    intro byte member
    rw [decide_eq_true_iff]
    rintro rfl
    exact name.noNul member
  have cut : (name.bytes ++ 0 :: rest).takeWhile (· ≠ 0) = name.bytes := by
    rw [List.takeWhile_append_of_pos all]
    simp
  cases name
  simp only [cstr, CString.mk.injEq]
  exact cut

/-- Where the bytes go on behind a C string, they do so with the NUL that ends it. -/
theorem cstr_split {memory : Bytes} (inside : (cstr memory).bytes.length < memory.length) :
    memory = (cstr memory).bytes ++ (0 :: memory.drop ((cstr memory).bytes.length + 1)) := by
  induction memory with
  | nil => nomatch inside
  | cons byte memory ih =>
      by_cases zero : byte = 0
      · have empty : (cstr (byte :: memory)).bytes = [] := by simp [cstr, zero]
        rw [empty, zero]
        rfl
      · have longer : (cstr (byte :: memory)).bytes = byte :: (cstr memory).bytes := by simp [cstr, zero]
        rw [longer] at inside ⊢
        rw [List.cons_append, List.length_cons, List.drop_succ_cons, ← ih (Nat.lt_of_succ_lt_succ inside)]

theorem Memory.cstring_congr {first second : Memory} {start : Nat}
    (same : ∀ index, start ≤ index → first index = second index) (room : Nat) :
    first.cstring start room = second.cstring start room := by
  induction room generalizing start with
  | zero => rfl
  | succ room ih =>
      rw [Memory.cstring, Memory.cstring, same start (Nat.le_refl start),
        ih fun index behind => same index (Nat.le_of_succ_le behind)]

/-- The string at bytes that were just stored ends with them, or goes on with what lay behind them before. -/
theorem Memory.cstring_storeAt (memory : Memory) (offset : Nat) {bytes : Bytes} {room : Nat}
    (fits : bytes.length ≤ room) : (memory.storeAt offset bytes).cstring offset room =
      if 0 ∈ bytes then (cstr bytes).bytes
      else bytes ++ memory.cstring (offset + bytes.length) (room - bytes.length) := by
  induction bytes generalizing memory offset room with
  | nil => simp
  | cons byte rest ih =>
      obtain ⟨room, rfl⟩ : ∃ less, room = less + 1 := ⟨room - 1, by simp only [List.length_cons] at fits; omega⟩
      have here : memory.storeAt offset (byte :: rest) offset = byte := by simp [Memory.storeAt]
      rw [Memory.cstring, here]
      by_cases zero : byte = 0
      · simp [zero, cstr]
      · have longer : (cstr (byte :: rest)).bytes = byte :: (cstr rest).bytes := by simp [cstr, zero]
        have kept := @Memory.cstring_congr _ _ (offset + 1 + rest.length)
          (fun index behind => @storeAt_after memory offset index [byte] (by simp only [List.length_singleton]; omega))
          (room - rest.length)
        have ends : 0 ∈ byte :: rest ↔ 0 ∈ rest := by simp [Ne.symm zero]
        rw [if_neg zero, ← storeAt_cons, ih _ _ (Nat.le_of_succ_le_succ fits), kept, longer]
        simp only [ends, List.length_cons, Nat.succ_sub_succ, List.cons_append, Nat.add_assoc, Nat.add_comm 1]
        split <;> rfl

instance : Append CString where
  append front back := ⟨front.bytes ++ back.bytes, by simp [front.noNul, back.noNul]⟩

@[simp] theorem CString.append_bytes (front back : CString) : (front ++ back).bytes = front.bytes ++ back.bytes := rfl

@[ext] theorem CString.ext {first second : CString} (same : first.bytes = second.bytes) : first = second := by
  cases first
  cases second
  simpa using same

def CString.take (name : CString) (count : Nat) : CString where
  bytes := name.bytes.take count
  noNul := fun member => name.noNul (List.mem_of_mem_take member)

def CString.drop (name : CString) (count : Nat) : CString where
  bytes := name.bytes.drop count
  noNul := fun member => name.noNul (List.mem_of_mem_drop member)

@[simp] theorem CString.take_bytes (name : CString) (count : Nat) : (name.take count).bytes = name.bytes.take count :=
  rfl

@[simp] theorem CString.drop_bytes (name : CString) (count : Nat) : (name.drop count).bytes = name.bytes.drop count :=
  rfl

end Ev3duder.Data
