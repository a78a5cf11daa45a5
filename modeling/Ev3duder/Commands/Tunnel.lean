import Ev3duder.Commands.Vm

namespace Ev3duder

open Data

/-! # `tunnel_mode`

Lines in hexadecimal come in on `stdin`, and each of them goes out as one packet.
-/

def isGraph (byte : UInt8) : Bool := 33 ≤ byte ∧ byte ≤ 126

def hex2nib (hex : UInt8) : Int :=
  if 97 ≤ hex ∧ hex ≤ 102 then hex.toNat - 97 + 0x0a
  else if 65 ≤ hex ∧ hex ≤ 70 then hex.toNat - 65 + 0x0a
  else if 48 ≤ hex ∧ hex ≤ 57 then hex.toNat - 48
  else if isSpace hex || !isGraph hex then -1
  else 0

def binbufSize : Nat := 1280
def hexbufSize : Nat := 2560

/-- The characters that `fgets` takes when there is room for so many of them, and what it leaves. -/
def fgetsTake : Nat → Bytes → Bytes × Bytes
  | 0, input => ([], input)
  | _ + 1, [] => ([], [])
  | room + 1, char :: input =>
      if char = 10 then ([10], input)
      else
        let (line, left) := fgetsTake room input
        (char :: line, left)

/-- `fgets(s, size, stdin)`: the line that a NUL is put behind, and the rest; nothing at the end of the input. -/
def fgets (size : Nat) (input : Bytes) : Option (Bytes × Bytes) :=
  if input = [] then none
  else
    let (line, left) := fgetsTake (size - 1) input
    some (line, left)

/-- The first loop over the line, which counts the characters that stand for the length. -/
def prefixLoop (prefixLen : Nat) : Bytes → Nat
  | [] => prefixLen
  | hex :: hp =>
      if hex = 0 then prefixLen
      else if hex2nib hex = -1 then prefixLoop prefixLen hp
      else if hex2nib hex = 0 ∧ hex ≠ 48 then
        if prefixLen + 1 = 4 then prefixLen + 1 else prefixLoop (prefixLen + 1) hp
      else prefixLen

/-- What the second loop carries: the buffer with the pointer into it, the pending nibble, and where it stored. -/
structure Decoding where
  binbuf : Memory
  bp : Nat
  byte : UInt8
  nibble : Nat
  stores : List Nat

def Decoding.put (state : Decoding) (tmp : Int) : Decoding :=
  if state.nibble = 1 then
    { state with
      binbuf := state.binbuf.storeAt state.bp [state.byte + UInt8.ofInt tmp]
      bp := state.bp + 1
      nibble := 0
      stores := state.stores ++ [state.bp] }
  else { state with byte := UInt8.ofInt tmp <<< 4, nibble := 1 }

def decodeLoop (state : Decoding) : Bytes → Decoding
  | [] => state
  | hex :: hp =>
      if hex = 0 then state
      else if hex2nib hex = -1 then decodeLoop state hp
      else decodeLoop (state.put (hex2nib hex)) hp

/-- What one pass gives to `ev3_write`, the indices it stored to, and the buffer that the next pass finds. -/
structure Submission where
  packet : Bytes
  stores : List Nat
  binbuf : Memory

def submit (binbuf : Memory) (hexbuf : Bytes) : Submission :=
  let prefixLen := prefixLoop 0 hexbuf
  let decoded := decodeLoop ⟨binbuf, 1, 0, 0, []⟩ hexbuf
  let len := decoded.bp + 1
  if prefixLen = 4 then
    let binbuf := decoded.binbuf.storeAt 1 (leBytes 2 (len - 2))
    ⟨binbuf.load 0 (len - 1), decoded.stores ++ [1, 2], binbuf⟩
  else ⟨decoded.binbuf.load 0 (len - 1), decoded.stores, decoded.binbuf⟩

theorem fgetsTake_split (room : Nat) (input : Bytes) :
    (fgetsTake room input).1 ++ (fgetsTake room input).2 = input := by
  induction room generalizing input with
  | zero => rfl
  | succ room ih =>
      cases input with
      | nil => rfl
      | cons char input =>
          rw [fgetsTake]
          split
          · simp [*]
          · simp [ih input]

theorem fgets_shorter {size : Nat} {input line left : Bytes} (room : 1 < size)
    (got : fgets size input = some (line, left)) : left.length < input.length := by
  rw [fgets] at got
  split at got
  · cases got
  · rename_i nonempty
    cases got
    obtain ⟨char, input, rfl⟩ := List.exists_cons_of_ne_nil nonempty
    obtain ⟨more, enough⟩ : ∃ more, size - 1 = more + 1 := ⟨size - 2, by omega⟩
    have whole := congrArg List.length (fgetsTake_split more input)
    rw [List.length_append] at whole
    rw [enough, fgetsTake]
    split <;> simp only [List.length_cons] <;> omega

def tunnelLoop (binbuf : Memory) (input : Bytes) : List Submission :=
  match _ : fgets hexbufSize input with
  | none => []
  | some (line, left) =>
      let submission := submit binbuf (line ++ [0])
      submission :: tunnelLoop submission.binbuf left
termination_by input.length
decreasing_by exact fgets_shorter (show 1 < hexbufSize by decide) ‹_›

/-- `binbuf` lies on the stack; whether `ev3_write` succeeded makes no difference to what comes next. -/
def tunnelMode (stack : Memory) (input : Bytes) : List Submission × Err :=
  (tunnelLoop (stack.storeAt 0 [0]) input, .unk)

/-- The characters that stand for nothing. -/
def isSkipped (byte : UInt8) : Bool := isSpace byte || !isGraph byte

def counted (text : Bytes) : Bytes := text.filter (!isSkipped ·)

def digitValue (byte : UInt8) : Nat := (hexDigit byte).getD 0

def digitPairs : List Nat → Bytes
  | high :: low :: digits => UInt8.ofNat (16 * high + low) :: digitPairs digits
  | _ => []

def textPairs (text : Bytes) : Bytes := digitPairs ((counted text).map digitValue)

/-- The first four characters that stand for anything are no digits. -/
def LengthLeftOut (text : Bytes) : Prop :=
  4 ≤ (counted text).length ∧ ∀ byte ∈ (counted text).take 4, hexDigit byte = none

instance (text : Bytes) : Decidable (LengthLeftOut text) :=
  @instDecidableAnd _ _ inferInstance (List.decidableBAll (hexDigit · = none) ((counted text).take 4))

theorem digitPairs_length (digits : List Nat) : (digitPairs digits).length = digits.length / 2 := by
  fun_induction digitPairs digits with
  | case1 high low digits ih =>
      simp only [List.length_cons, ih]
      omega
  | case2 digits short =>
      match digits with
      | [] | [_] => simp
      | high :: low :: digits => exact absurd rfl (short high low digits)

theorem isSkipped_iff (byte : UInt8) : isSkipped byte = true ↔ byte.toNat < 33 ∨ 126 < byte.toNat := by
  simp only [isSkipped, isSpace, isGraph, Bool.or_eq_true, Bool.not_eq_true', decide_eq_true_eq,
    decide_eq_false_iff_not, UInt8.le_iff_toNat_le, ← UInt8.toNat_inj, UInt8.reduceToNat]
  omega

/-- Every character counts with the value of its digit, a missing one as zero. -/
theorem hex2nib_eq (hex : UInt8) : hex2nib hex = if isSkipped hex then -1 else (digitValue hex : Int) := by
  have skipped := isSkipped_iff hex
  simp only [isSkipped] at skipped
  simp only [hex2nib, isSkipped, digitValue, hexDigit, UInt8.le_iff_toNat_le, UInt8.reduceToNat]
  rcases lower : (isSpace hex || !isGraph hex) with _ | _
  · grind
  · grind

theorem digitValue_small (byte : UInt8) : digitValue byte < 16 := by
  simp only [digitValue, hexDigit, UInt8.le_iff_toNat_le, UInt8.reduceToNat]
  split
  · simp only [Option.getD_some]
    omega
  · split
    · simp only [Option.getD_some]
      omega
    · split <;> simp only [Option.getD_some, Option.getD_none] <;> omega

theorem standsForLength {hex : UInt8} (counts : isSkipped hex = false) :
    (hex2nib hex = 0 ∧ hex ≠ 48) ↔ hexDigit hex = none := by
  simp only [hex2nib_eq, counts, digitValue, hexDigit, UInt8.le_iff_toNat_le, UInt8.reduceToNat, ne_eq,
    ← UInt8.toNat_inj]
  grind

theorem cstr_cons (hex : UInt8) (hp : Bytes) :
    (cstr (hex :: hp)).bytes = if hex = 0 then [] else hex :: (cstr hp).bytes := by
  simp only [cstr, List.takeWhile_cons]
  grind

theorem prefixLoop_iff (hexbuf : Bytes) {prefixLen missing : Nat} (total : prefixLen + missing = 4)
    (more : 0 < missing) : prefixLoop prefixLen hexbuf = 4 ↔ missing ≤ (counted (cstr hexbuf).bytes).length ∧
      ∀ byte ∈ (counted (cstr hexbuf).bytes).take missing, hexDigit byte = none := by
  induction hexbuf generalizing prefixLen missing with
  | nil => simp [prefixLoop, cstr, counted]; omega
  | cons hex hp ih =>
      rw [prefixLoop, cstr_cons]
      split
      · simp [counted]
        omega
      · cases skipped : isSkipped hex with
        | true =>
            rw [if_pos (by simp [hex2nib_eq, skipped])]
            simpa [counted, skipped] using ih total more
        | false =>
            have counts : hex2nib hex ≠ -1 := by
              simp only [hex2nib_eq, skipped]
              simp
            have front : counted (hex :: (cstr hp).bytes) = hex :: counted (cstr hp).bytes := by simp [counted, skipped]
            obtain ⟨missing, rfl⟩ : ∃ fewer, missing = fewer + 1 := ⟨missing - 1, by omega⟩
            simp only [if_neg counts, standsForLength skipped, front, List.length_cons, List.take_succ_cons,
              List.forall_mem_cons]
            split
            · rename_i digitless
              rcases Nat.eq_zero_or_pos missing with rfl | more
              · rw [if_pos (by omega)]
                simp only [digitless, List.take_zero]
                simp [total]
              · rw [if_neg (by omega), ih (by omega) more]
                simp [digitless]
            · rename_i digit
              simp only [digit, false_and, and_false, iff_false]
              omega

theorem decodeLoop_eq (hexbuf : Bytes) (state : Decoding) : decodeLoop state hexbuf =
    ((counted (cstr hexbuf).bytes).map digitValue).foldl (fun state digit => state.put digit) state := by
  induction hexbuf generalizing state with
  | nil => rfl
  | cons hex hp ih =>
      rw [decodeLoop, cstr_cons]
      split
      · rfl
      · rw [hex2nib_eq]
        cases skipped : isSkipped hex with
        | true => simp [counted, skipped, ih]
        | false => simp [counted, skipped, ih]

theorem joined_nibbles : ∀ high < 16, ∀ low < 16,
    (UInt8.ofInt (high : Nat) <<< 4) + UInt8.ofInt (low : Nat) = UInt8.ofNat (16 * high + low) := by
  decide

/-- What the pairs of a run of digits leave behind. -/
theorem foldl_put {digits : List Nat} (small : ∀ digit ∈ digits, digit < 16) {state : Decoding}
    (even : state.nibble = 0) :
    let after := digits.foldl (fun state digit => state.put digit) state
    after.bp = state.bp + (digitPairs digits).length ∧
      after.binbuf = state.binbuf.storeAt state.bp (digitPairs digits) ∧
      after.stores = state.stores ++ List.range' state.bp (digitPairs digits).length := by
  fun_induction digitPairs digits generalizing state with
  | case1 high low digits ih =>
      simp only [List.forall_mem_cons] at small
      obtain ⟨highSmall, lowSmall, small⟩ := small
      have stored : (state.put high).put low =
          ⟨state.binbuf.storeAt state.bp [UInt8.ofNat (16 * high + low)], state.bp + 1,
            UInt8.ofInt high <<< 4, 0, state.stores ++ [state.bp]⟩ := by
        rw [← joined_nibbles high highSmall low lowSmall]
        simp [Decoding.put, even]
      obtain ⟨moved, held, listed⟩ := @ih small ((state.put high).put low) (by rw [stored])
      simp only [stored] at moved held listed
      simp only [List.foldl_cons, List.length_cons, stored, moved, held, listed]
      exact ⟨by omega, Memory.storeAt_cons .., by simp [List.range'_succ]⟩
  | case2 digits short =>
      match digits with
      | [] => simp
      | [high] => simp [Decoding.put, even]
      | high :: low :: digits => exact absurd rfl (short high low digits)

/-- The packet of a text. -/
def textPacket (text : Bytes) : Bytes :=
  if LengthLeftOut text then 0 :: (leBytes 2 (textPairs text).length ++ (textPairs text).drop 2)
  else 0 :: textPairs text

theorem textPairs_length (text : Bytes) : (textPairs text).length = (counted text).length / 2 := by
  rw [textPairs, digitPairs_length, List.length_map]

/-- A field stored over the first bytes of others. -/
theorem storeAt_front {memory : Memory} {offset : Nat} {front bytes : Bytes} (fits : front.length ≤ bytes.length) :
    ((memory.storeAt offset bytes).storeAt offset front).load offset bytes.length =
      front ++ bytes.drop front.length := by
  obtain ⟨more, whole⟩ := Nat.exists_eq_add_of_le fits
  have behind : ((memory.storeAt offset bytes).storeAt offset front).load (offset + front.length) more =
      (memory.storeAt offset bytes).load (offset + front.length) more :=
    List.map_congr_left fun index _ => Memory.storeAt_after (by omega)
  have held := @Memory.storeAt_load memory offset bytes
  rw [whole, Memory.load_add] at held
  have rest := congrArg (List.drop front.length) held
  rw [List.drop_left' (Memory.load_length ..)] at rest
  rw [whole, Memory.load_add, Memory.storeAt_load, behind, rest]

theorem load_hid {memory : Memory} (hid : memory 0 = 0) (count : Nat) :
    memory.load 0 (1 + count + 1 - 1) = 0 :: memory.load 1 count := by
  rw [Nat.add_sub_cancel, Nat.add_comm, Memory.load_succ, hid]

theorem textPairs_enough {text : Bytes} (left : LengthLeftOut text) : 2 ≤ (textPairs text).length := by
  have four := left.1
  rw [textPairs_length]
  omega

/-- What the second loop has done when it ends. -/
theorem decodeLoop_pairs (binbuf : Memory) (hexbuf : Bytes) :
    let decoded := decodeLoop ⟨binbuf, 1, 0, 0, []⟩ hexbuf
    decoded.bp = 1 + (textPairs (cstr hexbuf).bytes).length ∧
      decoded.binbuf = binbuf.storeAt 1 (textPairs (cstr hexbuf).bytes) ∧
      decoded.stores = List.range' 1 (textPairs (cstr hexbuf).bytes).length := by
  have small : ∀ digit ∈ (counted (cstr hexbuf).bytes).map digitValue, digit < 16 := by
    simpa using fun byte _ => digitValue_small byte
  have folded := @foldl_put _ small ⟨binbuf, 1, 0, 0, []⟩ rfl
  rw [← decodeLoop_eq] at folded
  exact folded

theorem submit_packet {binbuf : Memory} (hid : binbuf 0 = 0) (hexbuf : Bytes) :
    (submit binbuf hexbuf).packet = textPacket (cstr hexbuf).bytes ∧ (submit binbuf hexbuf).binbuf 0 = 0 := by
  obtain ⟨moved, held, -⟩ := decodeLoop_pairs binbuf hexbuf
  have leftOut := @prefixLoop_iff hexbuf 0 4 rfl (by decide)
  change _ ↔ LengthLeftOut _ at leftOut
  have first : (binbuf.storeAt 1 (textPairs (cstr hexbuf).bytes)) 0 = 0 :=
    (Memory.storeAt_before _ Nat.one_pos).trans hid
  simp only [submit, moved, held, leftOut, textPacket]
  split
  · rename_i left
    have field : 1 + (textPairs (cstr hexbuf).bytes).length + 1 - 2 = (textPairs (cstr hexbuf).bytes).length := by omega
    have front := @storeAt_front binbuf 1 (leBytes 2 (textPairs (cstr hexbuf).bytes).length)
      (textPairs (cstr hexbuf).bytes) (by simpa using textPairs_enough left)
    rw [leBytes_length] at front
    have begins := (Memory.storeAt_before (leBytes 2 (textPairs (cstr hexbuf).bytes).length) Nat.one_pos).trans first
    rw [field, load_hid begins, front]
    exact ⟨rfl, begins⟩
  · rw [load_hid first, Memory.storeAt_load]
    exact ⟨rfl, first⟩

/-- The longest line leaves no byte of the buffer over, and none of its stores is anywhere else. -/
theorem submit_stores (binbuf : Memory) {hexbuf : Bytes} (short : (cstr hexbuf).bytes.length < hexbufSize) :
    ∀ index ∈ (submit binbuf hexbuf).stores, 1 ≤ index ∧ index < binbufSize := by
  obtain ⟨-, -, listed⟩ := decodeLoop_pairs binbuf hexbuf
  have fits : (textPairs (cstr hexbuf).bytes).length < binbufSize := by
    have fewer : (counted (cstr hexbuf).bytes).length ≤ (cstr hexbuf).bytes.length := List.length_filter_le _ _
    have limits : hexbufSize = 2 * binbufSize := rfl
    rw [textPairs_length]
    omega
  have decoded : ∀ index ∈ List.range' 1 (textPairs (cstr hexbuf).bytes).length, 1 ≤ index ∧ index < binbufSize := by
    intro index member
    have bounds := List.mem_range'_1.mp member
    omega
  have field : 2 < binbufSize := by decide
  simp only [submit]
  split
  · simp only [listed, List.forall_mem_append]
    refine ⟨decoded, fun index member => ?_⟩
    simp only [List.mem_cons, List.not_mem_nil, or_false] at member
    omega
  · rw [listed]
    exact decoded

/-- What `fgets` makes of the input, call after call. -/
def inputLines (input : Bytes) : List Bytes :=
  match _ : fgets hexbufSize input with
  | none => []
  | some (line, left) => line :: inputLines left
termination_by input.length
decreasing_by exact fgets_shorter (show 1 < hexbufSize by decide) ‹_›

/-- A line, and what follows it. -/
inductive IsLine : Bytes → Bytes → Prop where
  | ends (after : Bytes) : IsLine [10] after
  | last {char : UInt8} (plain : char ≠ 10) : IsLine [char] []
  | more {char : UInt8} {line after : Bytes} (plain : char ≠ 10) (rest : IsLine line after) :
      IsLine (char :: line) after

theorem isLine_ended {body : Bytes} (plain : 10 ∉ body) (after : Bytes) : IsLine (body ++ [10]) after := by
  induction body with
  | nil => exact .ends after
  | cons char body ih =>
      rw [List.mem_cons, not_or] at plain
      exact .more (Ne.symm plain.1) (ih plain.2)

/-- Where a line begins. -/
def AtLine (before : Bytes) : Prop := before = [] ∨ before.getLast? = some 10

theorem inputLines_some {input line left : Bytes} (got : fgets hexbufSize input = some (line, left)) :
    inputLines input = line :: inputLines left := by
  rw [inputLines]
  split <;> simp_all

theorem fgetsTake_nil (room : Nat) : fgetsTake room [] = ([], []) := by
  cases room <;> rfl

theorem fgetsTake_append (room : Nat) {input : Bytes} (newline : 10 ∈ input) (rest : Bytes) :
    fgetsTake room (input ++ rest) = ((fgetsTake room input).1, (fgetsTake room input).2 ++ rest) := by
  induction room generalizing input with
  | zero => rfl
  | succ room ih =>
      obtain ⟨char, input, rfl⟩ := List.exists_cons_of_ne_nil (List.ne_nil_of_mem newline)
      rw [List.cons_append, fgetsTake, fgetsTake]
      split
      · rfl
      · rename_i plain
        rw [ih (List.mem_of_ne_of_mem (Ne.symm plain) newline)]

theorem fgetsTake_line {line after : Bytes} (isLine : IsLine line after) {room : Nat} (fits : line.length ≤ room) :
    fgetsTake room (line ++ after) = (line, after) := by
  induction isLine generalizing room with
  | ends after =>
      cases room with
      | zero => cases fits
      | succ room => rfl
  | last plain =>
      cases room with
      | zero => cases fits
      | succ room => simp [fgetsTake, plain, fgetsTake_nil]
  | more plain rest ih =>
      cases room with
      | zero => cases fits
      | succ room => simp [fgetsTake, plain, ih (Nat.le_of_succ_le_succ fits)]

/-- However long a line is, the first piece of it holds nothing else. -/
theorem fgetsTake_within {line after : Bytes} (isLine : IsLine line after) (room : Nat) :
    (fgetsTake room (line ++ after)).1 <+: line := by
  induction isLine generalizing room with
  | ends after =>
      cases room with
      | zero => exact List.nil_prefix
      | succ room => exact List.prefix_rfl
  | last plain =>
      cases room with
      | zero => exact List.nil_prefix
      | succ room => simp [fgetsTake, plain, fgetsTake_nil]
  | more plain rest ih =>
      cases room with
      | zero => exact List.nil_prefix
      | succ room =>
          simp only [List.cons_append, fgetsTake, if_neg plain]
          exact (List.prefix_cons_inj _).mpr (ih room)

theorem IsLine.nonempty {line after : Bytes} (isLine : IsLine line after) : line ≠ [] := by
  cases isLine <;> exact List.cons_ne_nil _ _

theorem fgets_line {size : Nat} {line after : Bytes} (isLine : IsLine line after) (short : line.length < size) :
    fgets size (line ++ after) = some (line, after) := by
  rw [fgets, if_neg (List.append_ne_nil_of_left_ne_nil isLine.nonempty after),
    fgetsTake_line isLine (Nat.le_sub_one_of_lt short)]

theorem fgets_append {size : Nat} {before line left : Bytes} (atLine : AtLine before)
    (got : fgets size before = some (line, left)) (rest : Bytes) :
    fgets size (before ++ rest) = some (line, left ++ rest) ∧ AtLine left := by
  rw [fgets] at got
  split at got
  · cases got
  · rename_i some
    cases got
    have newline := atLine.resolve_left some
    constructor
    · rw [fgets, if_neg (List.append_ne_nil_of_left_ne_nil some rest),
        fgetsTake_append _ (List.mem_of_getLast? newline)]
    · rw [← fgetsTake_split (size - 1) before, List.getLast?_append] at newline
      cases last : (fgetsTake (size - 1) before).2.getLast? with
      | none => exact Or.inl (List.getLast?_eq_none_iff.mp last)
      | some char => exact Or.inr (by simpa [last] using newline)

theorem inputLines_append {before : Bytes} (atLine : AtLine before) (rest : Bytes) :
    inputLines (before ++ rest) = inputLines before ++ inputLines rest := by
  fun_induction inputLines before with
  | case1 before none =>
      rw [fgets] at none
      split at none
      · subst before
        rfl
      · cases none
  | case2 before line left got ih =>
      obtain ⟨further, atLeft⟩ := fgets_append atLine got rest
      rw [inputLines_some further, ih atLeft, List.cons_append]

theorem cstr_nul (line : Bytes) : cstr (line ++ [0]) = cstr line := by
  rw [CString.mk.injEq]
  induction line with
  | nil => simp [cstr]
  | cons char line ih => rw [List.cons_append, cstr_cons, cstr_cons, ih]

theorem fgetsTake_length (room : Nat) (input : Bytes) : (fgetsTake room input).1.length ≤ room := by
  induction room generalizing input with
  | zero => exact Nat.le_refl 0
  | succ room ih =>
      cases input with
      | nil => exact Nat.zero_le _
      | cons char input =>
          rw [fgetsTake]
          split
          · simp
          · simp [ih input]

/-- Every pass hands over the packet of its piece. -/
theorem tunnelLoop_packets {binbuf : Memory} (hid : binbuf 0 = 0) (input : Bytes) :
    (tunnelLoop binbuf input).map Submission.packet =
      (inputLines input).map fun piece => textPacket (cstr piece).bytes := by
  fun_induction tunnelLoop binbuf input with
  | case1 binbuf input none =>
      rw [inputLines]
      split <;> simp_all
  | case2 binbuf input line left got submission ih =>
      obtain ⟨packet, kept⟩ := submit_packet hid (line ++ [0])
      rw [inputLines_some got, List.map_cons, List.map_cons, ih kept, packet, cstr_nul]

theorem tunnelLoop_stores (binbuf : Memory) (input : Bytes) :
    ∀ submission ∈ tunnelLoop binbuf input, ∀ index ∈ submission.stores, 1 ≤ index ∧ index < binbufSize := by
  fun_induction tunnelLoop binbuf input with
  | case1 binbuf input none => simp
  | case2 binbuf input line left got submission ih =>
      have short : (cstr (line ++ [0])).bytes.length < hexbufSize := by
        rw [fgets] at got
        split at got
        · cases got
        · cases got
          have room := fgetsTake_length (hexbufSize - 1) input
          have within : (cstr (fgetsTake (hexbufSize - 1) input).1).bytes.length ≤ _ :=
            (List.takeWhile_sublist _).length_le
          have positive : 0 < hexbufSize := by decide
          rw [cstr_nul]
          omega
      rw [List.forall_mem_cons]
      exact ⟨submit_stores binbuf short, ih⟩

def packets (submissions : List Submission) : List Bytes := submissions.map Submission.packet

section Lines

variable (stack : Memory) {before line after : Bytes}

theorem stack_hid : (stack.storeAt 0 [0]) 0 = 0 := rfl

theorem tunnelMode_append (atLine : AtLine before) (rest : Bytes) :
    packets (tunnelMode stack (before ++ rest)).1 =
      packets (tunnelMode stack before).1 ++ packets (tunnelMode stack rest).1 := by
  simp only [packets, tunnelMode, tunnelLoop_packets (stack_hid stack), inputLines_append atLine, List.map_append]

theorem tunnelMode_cons {piece left : Bytes} (got : fgets hexbufSize line = some (piece, left)) :
    packets (tunnelMode stack line).1 = textPacket (cstr piece).bytes :: packets (tunnelMode stack left).1 := by
  simp only [packets, tunnelMode, tunnelLoop_packets (stack_hid stack), inputLines_some got, List.map_cons]

theorem tunnelMode_nil : packets (tunnelMode stack []).1 = [] := by
  simp [packets, tunnelMode, tunnelLoop, fgets]

/-- A line goes out as one packet: a zero byte and its digits in pairs. -/
def SendsLine (before line after : Bytes) : Prop :=
  packets (tunnelMode stack (before ++ (line ++ after))).1 =
      packets (tunnelMode stack before).1 ++ (0 :: textPairs line) :: packets (tunnelMode stack after).1 ∧
    ∀ submission ∈ (tunnelMode stack (before ++ (line ++ after))).1, ∀ index ∈ submission.stores,
      1 ≤ index ∧ index ≤ 1279

/-- What follows the first NUL of a line adds no pair of digits. -/
def NulAddsNoPair (line : Bytes) : Prop := (counted line).length / 2 = (counted (cstr line).bytes).length / 2

theorem digitPairs_append {front behind : List Nat} (short : (front ++ behind).length / 2 = front.length / 2) :
    digitPairs (front ++ behind) = digitPairs front := by
  fun_induction digitPairs front with
  | case1 high low digits ih =>
      simp only [List.cons_append, List.length_cons] at short
      rw [List.cons_append, List.cons_append, digitPairs, ih (by omega)]
  | case2 front fewer =>
      match front with
      | [] =>
          match behind with
          | [] | [_] => rfl
          | _ :: _ :: _ =>
              simp only [List.nil_append, List.length_cons, List.length_nil] at short
              omega
      | [_] =>
          match behind with
          | [] => rfl
          | _ :: _ =>
              simp only [List.cons_append, List.nil_append, List.length_cons, List.length_nil] at short
              omega
      | high :: low :: digits => exact absurd rfl (fewer high low digits)

theorem textPairs_front {front text : Bytes} (within : front <+: text)
    (short : (counted text).length / 2 = (counted front).length / 2) : textPairs text = textPairs front := by
  obtain ⟨behind, whole⟩ : counted front <+: counted text := within.filter _
  rw [textPairs, textPairs, ← whole, List.map_append]
  refine digitPairs_append ?_
  rw [← List.map_append, List.length_map, List.length_map, whole, short]

/-- What is left out at the front of a text is left out of the whole. -/
theorem LengthLeftOut.longer {front text : Bytes} (left : LengthLeftOut front) (within : front <+: text) :
    LengthLeftOut text := by
  obtain ⟨behind, whole⟩ : counted front <+: counted text := within.filter _
  have cut : (counted text).take 4 = (counted front).take 4 := by
    rw [← whole, List.take_append_of_le_length left.1]
  refine ⟨?_, cut ▸ left.2⟩
  rw [← whole, List.length_append]
  exact Nat.le_add_right_of_le left.1

/-- A line that fits goes out as its digits in pairs exactly if no pair is lost behind a NUL. -/
theorem tunnelMode_line_iff (atLine : AtLine before) (isLine : IsLine line after) (short : line.length ≤ 2559)
    (plain : ¬ LengthLeftOut line) : SendsLine stack before line after ↔ NulAddsNoPair line := by
  have within : (cstr line).bytes <+: line := List.takeWhile_prefix _
  have plainText : ¬ LengthLeftOut (cstr line).bytes := fun left => plain (left.longer within)
  have sent : packets (tunnelMode stack (before ++ (line ++ after))).1 =
      packets (tunnelMode stack before).1 ++
        (0 :: textPairs (cstr line).bytes) :: packets (tunnelMode stack after).1 := by
    rw [tunnelMode_append stack atLine, tunnelMode_cons stack (fgets_line isLine (Nat.lt_succ_of_le short)), textPacket,
      if_neg plainText]
  rw [SendsLine, sent]
  constructor
  · rintro ⟨same, _⟩
    obtain ⟨pairs, _⟩ := List.cons.inj (List.append_cancel_left same)
    have lengths := congrArg List.length (List.cons.inj pairs).2
    rw [textPairs_length, textPairs_length] at lengths
    exact lengths.symm
  · intro noPair
    refine ⟨by rw [textPairs_front within noPair], ?_⟩
    exact fun submission member index stored =>
      (tunnelLoop_stores _ _ submission member index stored).imp_right Nat.le_of_lt_succ

end Lines

/-- The line is `12`, a NUL and a `3`. -/
theorem tunnelMode_line_iff_unpaired : SendsLine (fun _ => 0) [] [49, 50, 0, 51, 10] [] := by
  have isLine : IsLine [49, 50, 0, 51, 10] [] := @isLine_ended [49, 50, 0, 51] (by decide) []
  have noPair : NulAddsNoPair [49, 50, 0, 51, 10] := by
    unfold NulAddsNoPair
    decide
  exact (tunnelMode_line_iff (fun _ => 0) (Or.inl rfl) isLine (by decide) (by decide)).mpr noPair

/-- A NUL is not passed over: it ends the line, which is `12`, a NUL and `34` here. -/
theorem tunnelMode_stops : let line : Bytes := [49, 50, 0, 51, 52, 10]
    IsLine line [] ∧ line.length ≤ 2559 ∧ ¬ LengthLeftOut line ∧
      packets (tunnelMode (fun _ => 0) line).1 = [[0, 0x12]] ∧ 0 :: textPairs line = [0, 0x12, 0x34] ∧
      ¬ SendsLine (fun _ => 0) [] line [] := by
  have isLine : IsLine [49, 50, 0, 51, 52, 10] [] := @isLine_ended [49, 50, 0, 51, 52] (by decide) []
  have got := fgets_line isLine (show _ < hexbufSize by decide)
  have sent : packets (tunnelMode (fun _ => 0) [49, 50, 0, 51, 52, 10]).1 = [[0, 0x12]] := by
    rw [← List.append_nil [49, 50, 0, 51, 52, 10], tunnelMode_cons _ got, tunnelMode_nil]
    decide
  refine ⟨isLine, by decide, by decide, sent, by decide, ?_⟩
  rintro ⟨same, _⟩
  rw [List.append_nil, List.nil_append, sent, tunnelMode_nil] at same
  exact absurd same (by decide)

theorem textPacket_field {text : Bytes} (left : LengthLeftOut text) :
    (textPacket text).length = (textPairs text).length + 1 ∧
      ((textPacket text).drop 1).take 2 = leBytes 2 (textPairs text).length := by
  have enough := textPairs_enough left
  rw [textPacket, if_pos left]
  constructor
  · simp
    omega
  · rw [List.drop_succ_cons, List.drop_zero, List.take_left' (leBytes_length 2 _)]

theorem textPacket_misses {text : Bytes} (left : LengthLeftOut text) (small : (textPairs text).length < 65536) :
    ((textPacket text).drop 1).take 2 ≠ leBytes 2 ((textPacket text).length - 3) := by
  obtain ⟨size, field⟩ := textPacket_field left
  have enough := textPairs_enough left
  intro same
  have values := congrArg leValue (field.symm.trans same)
  rw [leValue_leBytes_of_lt small, leValue_leBytes_of_lt (by omega)] at values
  omega

/-- What is read of a text from its front counts as it does in the whole. -/
theorem counted_front {front text : Bytes} (within : front <+: text) (left : LengthLeftOut text)
    (enough : 4 ≤ (counted front).length) : LengthLeftOut front := by
  obtain ⟨behind, whole⟩ : counted front <+: counted text := within.filter _
  have cut : (counted text).take 4 = (counted front).take 4 := by
    rw [← whole, List.take_append_of_le_length enough]
  exact ⟨enough, cut ▸ left.2⟩

section Placeholder

variable (stack : Memory) {before line after : Bytes}

/-- The first packet of a line says how many bytes follow the field that says it. -/
def FillsLength (before line after : Bytes) : Prop :=
  ∃ packet rest, packets (tunnelMode stack (before ++ (line ++ after))).1 =
      packets (tunnelMode stack before).1 ++ packet :: rest ∧
    3 ≤ packet.length ∧ (packet.drop 1).take 2 = leBytes 2 (packet.length - 3)

/-- The count that is filled in is too large by two, however long the line is. -/
theorem tunnelMode_length_never (atLine : AtLine before) (isLine : IsLine line after) (left : LengthLeftOut line) :
    ¬ FillsLength stack before line after := by
  intro fills
  obtain ⟨packet, rest, sent, long, field⟩ := fills
  obtain ⟨piece, room, got, within⟩ : ∃ piece left, fgets hexbufSize (line ++ after) = some (piece, left) ∧
      piece <+: line ∧ piece.length ≤ 2559 := by
    rw [fgets, if_neg (List.append_ne_nil_of_left_ne_nil isLine.nonempty after)]
    exact ⟨_, _, rfl, fgetsTake_within isLine _, fgetsTake_length 2559 _⟩
  rw [tunnelMode_append stack atLine, tunnelMode_cons stack got] at sent
  obtain ⟨rfl, -⟩ := List.cons.inj (List.append_cancel_left sent)
  have front : (cstr piece).bytes <+: line := (List.takeWhile_prefix _).trans within.1
  have size := textPairs_length (cstr piece).bytes
  by_cases enough : 4 ≤ (counted (cstr piece).bytes).length
  · have fewer : (counted (cstr piece).bytes).length ≤ (cstr piece).bytes.length := List.length_filter_le _ _
    have shorter : (cstr piece).bytes.length ≤ piece.length := (List.takeWhile_sublist _).length_le
    have small : (textPairs (cstr piece).bytes).length < 65536 := by omega
    exact textPacket_misses (counted_front front left enough) small field
  · rw [textPacket, if_neg fun leftOut => enough leftOut.1, List.length_cons] at long
    omega

end Placeholder

theorem tunnelMode_length_line : ¬ FillsLength (fun _ => 0) [] (ascii "xxxx\n") [] :=
  tunnelMode_length_never _ (Or.inl rfl) (@isLine_ended (ascii "xxxx") (by decide) []) (by decide)

/-- `xxxx0102` goes out with four in the field, and two bytes follow it. -/
theorem tunnelMode_length_four : LengthLeftOut (ascii "xxxx0102\n") ∧
    packets (tunnelMode (fun _ => 0) (ascii "xxxx0102\n")).1 = [[0, 4, 0, 1, 2]] ∧
    ¬ FillsLength (fun _ => 0) [] (ascii "xxxx0102\n") [] := by
  have got := fgets_line (@isLine_ended (ascii "xxxx0102") (by decide) []) (show _ < hexbufSize by decide)
  rw [List.append_nil] at got
  have sent : packets (tunnelMode (fun _ => 0) (ascii "xxxx0102\n")).1 = [[0, 4, 0, 1, 2]] := by
    refine (tunnelMode_cons _ got).trans ?_
    rw [tunnelMode_nil]
    decide
  refine ⟨by decide, sent, ?_⟩
  intro fills
  obtain ⟨packet, rest, here, -, field⟩ := fills
  rw [List.nil_append, List.append_nil, sent, tunnelMode_nil] at here
  obtain ⟨rfl, -⟩ := List.cons.inj here
  exact absurd field (by decide)

end Ev3duder
