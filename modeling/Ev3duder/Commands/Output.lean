import Ev3duder.Commands.Paths

namespace Ev3duder

open Data

/-! # What `run` prints of a program's output -/

def hexChar (digit : Nat) : UInt8 := if digit < 10 then UInt8.ofNat (48 + digit) else UInt8.ofNat (87 + digit)

/-- The last `width` hexadecimal digits of a number. -/
def hexValues : Nat → Nat → List Nat
  | 0, _ => []
  | width + 1, value => hexValues width (value / 16) ++ [value % 16]

/-- `"\t%08x\n"`. -/
def outputHeader (length : Nat) : Bytes := 9 :: ((hexValues 8 length).map hexChar ++ [10])

theorem hexDigit_hexChar : ∀ digit, digit < 16 → hexDigit (hexChar digit) = some digit := by decide

theorem hexChar_plain : ∀ digit, digit < 16 → hexChar digit ∉ [0, 43, 45, 88, 120] := by decide

theorem isSpace_hexChar : ∀ digit, digit < 16 → isSpace (hexChar digit) = false := by decide

theorem hexValues_length (width value : Nat) : (hexValues width value).length = width := by
  induction width generalizing value with
  | zero => rfl
  | succ width ih => rw [hexValues, List.length_append, ih, List.length_singleton]

theorem hexValues_small {width value digit : Nat} (member : digit ∈ hexValues width value) : digit < 16 := by
  induction width generalizing value with
  | zero => cases member
  | succ width ih =>
      rcases List.mem_append.mp member with member | member
      · exact ih member
      · rw [List.mem_singleton.mp member]
        exact Nat.mod_lt _ (by decide)

theorem hexValues_value (width value : Nat) :
    (hexValues width value).foldl (fun value digit => 16 * value + digit) 0 = value % 16 ^ width := by
  induction width generalizing value with
  | zero => rw [Nat.pow_zero, Nat.mod_one]; rfl
  | succ width ih =>
      rw [hexValues, List.foldl_append, ih, List.foldl_cons, List.foldl_nil, Nat.pow_succ, Nat.mul_comm (16 ^ width),
        Nat.mod_mul]
      omega

theorem hexDigits_values {digits : List Nat} (small : ∀ digit ∈ digits, digit < 16) :
    hexDigits (digits.map hexChar) = digits := by
  induction digits with
  | nil => rfl
  | cons digit digits ih =>
      rw [List.map_cons, hexDigits, hexDigit_hexChar digit (small digit List.mem_cons_self)]
      simp only
      rw [ih fun other member => small other (List.mem_cons_of_mem _ member)]

theorem hexPrefix_plain {first second : UInt8} (rest : Bytes) (lower : second ≠ 120) (upper : second ≠ 88) :
    hexPrefix (first :: second :: rest) = first :: second :: rest := by
  unfold hexPrefix
  split
  · rename_i same
    exact absurd (List.cons.inj (List.cons.inj same).2).1 lower
  · rename_i same
    exact absurd (List.cons.inj (List.cons.inj same).2).1 upper
  · rfl

theorem outputHeader_length (length : Nat) : (outputHeader length).length = 10 := by
  rw [outputHeader, List.length_cons, List.length_append, List.length_map, hexValues_length]
  rfl

theorem outputHeader_noNul (length : Nat) : 0 ∉ outputHeader length := by
  intro member
  rcases List.mem_cons.mp member with same | member
  · exact absurd same (by decide)
  · rcases List.mem_append.mp member with member | member
    · obtain ⟨digit, inside, same⟩ := List.mem_map.mp member
      exact hexChar_plain digit (hexValues_small inside) (same ▸ List.mem_cons_self)
    · exact absurd (List.mem_singleton.mp member) (by decide)

/-- `sscanf` reads the length back. -/
theorem scanHex_header {length : Nat} (small : length < 2 ^ 32) (rest : Bytes) :
    scanHex (outputHeader length ++ rest) = .value (UInt32.ofNat length) := by
  have count := hexValues_length 8 length
  have digits : ∀ digit ∈ hexValues 8 length, digit < 16 := fun _ member => hexValues_small member
  have value := hexValues_value 8 length
  rw [Nat.mod_eq_of_lt (by omega)] at value
  rw [outputHeader]
  generalize hexValues 8 length = values at count digits value
  match values, count with
  | first :: second :: others, count =>
      have plain := hexChar_plain first (digits first List.mem_cons_self)
      have next := hexChar_plain second (digits second (List.mem_cons_of_mem _ List.mem_cons_self))
      simp only [List.mem_cons, not_or] at plain next
      have space := isSpace_hexChar first (digits first List.mem_cons_self)
      have skipped : (9 :: ((first :: second :: others).map hexChar ++ [10]) ++ rest).dropWhile isSpace =
          (first :: second :: others).map hexChar ++ ([10] ++ rest) := by
        rw [List.cons_append, List.dropWhile_cons_of_pos (by decide), List.append_assoc, List.map_cons,
          List.cons_append, List.dropWhile_cons_of_neg (by simp [space])]
      have field : ((first :: second :: others).map hexChar ++ ([10] ++ rest)).take 8 =
          hexChar first :: hexChar second :: others.map hexChar :=
        List.take_left' (by rw [List.length_map, count])
      have parsed : hexDigits (hexChar first :: hexChar second :: others.map hexChar) = first :: second :: others :=
        hexDigits_values digits
      rw [scanHex, skipped, field]
      simp only
      rw [hexSign_plain _ plain.2.1 plain.2.2.1]
      simp only
      rw [hexPrefix_plain _ next.2.2.2.2.1 next.2.2.2.1, parsed]
      simp only
      rw [value]
      rfl

/-- A report of 1024 bytes with one block in front. -/
structure OutputReport where
  block : Bytes
  filler : Bytes
  size : block.length + filler.length = 1024

def OutputReport.result (report : OutputReport) : ReadResult := .received (report.block ++ report.filler)

section Reports

variable {reply : Reply} {session : Session} {text : Bytes} {report : OutputReport} {reports : List OutputReport}

theorem OutputReport.length (report : OutputReport) : (report.block ++ report.filler).length = 1024 := by
  rw [List.length_append, report.size]

theorem OutputReport.positive (report : OutputReport) : 0 < report.result.res := by
  show (0 : Int) < ((report.block ++ report.filler).length : Int)
  rw [report.length]
  decide

theorem OutputReport.load (report : OutputReport) (reply : Reply) {offset count : Nat}
    (within : offset + count ≤ 1024) :
    (reply.receive report.result).memory.load offset count =
      ((report.block ++ report.filler).drop offset).take count :=
  Memory.load_store (by rw [← report.length] at within; exact within)

theorem takeWhile_noNul {bytes : Bytes} (noNul : 0 ∉ bytes) (rest : Bytes) :
    (bytes ++ rest).takeWhile (· ≠ 0) = bytes ++ rest.takeWhile (· ≠ 0) := by
  apply List.takeWhile_append_of_pos
  intro byte member
  exact decide_eq_true fun zero => noNul (zero ▸ member)

theorem blockPrecision_eq (len : UInt32) : blockPrecision len = min 1000 len.toNat := by
  have thousand : (1000 : UInt32).toNat = 1000 := rfl
  unfold blockPrecision
  split
  · rename_i more
    rw [UInt32.lt_iff_toNat_lt] at more
    omega
  · rename_i less
    rw [UInt32.lt_iff_toNat_lt] at less
    omega

theorem runOutput_ends (len : UInt32) (ended : session.reads = []) :
    (runOutput reply len session).2.output = session.output := by
  have silent : session.readResult = .received [] := by rw [Session.readResult, ended]; rfl
  have never : ¬ 0 < session.readResult.res := by rw [silent]; decide
  have timedOut : ¬ session.readResult.res ≠ 0 := by rw [silent]; decide
  rw [runOutput]
  simp only
  rw [dif_neg never, if_neg timedOut]
  rfl

theorem runOutput_report {rest : List ReadResult} (len : UInt32) (reads : session.reads = report.result :: rest) :
    ∃ after, runOutput reply len session = runOutput (reply.receive report.result) (len - 1000) after ∧
      after.reads = rest ∧ after.output = session.output ++
        ((reply.receive report.result).memory.load 0 (blockPrecision len)).takeWhile (· ≠ 0) := by
  have brought : session.readResult = report.result := by rw [Session.readResult, reads]; rfl
  have positive : 0 < session.readResult.res := brought ▸ report.positive
  refine ⟨(printString (reply.receive report.result) 0 (blockPrecision len)
    (session.afterRead runReplySize 100)).2, ?_, ?_, rfl⟩
  · rw [runOutput]
    simp only
    rw [dif_pos positive, brought]
  · show session.reads.tail = rest
    rw [reads]
    rfl

/-- The blocks after the first one are printed as they are, as long as `len` counts what is missing. -/
theorem runOutput_prints (len : UInt32) (blocks : reports.map OutputReport.block = chunks 1000 text) (noNul : 0 ∉ text)
    (counted : text ≠ [] → len.toNat = text.length) (reads : session.reads = reports.map OutputReport.result) :
    (runOutput reply len session).2.output = session.output ++ text := by
  induction reports generalizing text reply len session with
  | nil =>
      have empty : text = [] := by
        apply Classical.byContradiction
        intro nonempty
        rw [chunks_cons (by decide) nonempty] at blocks
        cases blocks
      rw [runOutput_ends len reads, empty, List.append_nil]
  | cons report reports ih =>
      have nonempty : text ≠ [] := by
        intro empty
        rw [empty, chunks_nil] at blocks
        cases blocks
      rw [chunks_cons (by decide) nonempty, List.map_cons, List.cons.injEq] at blocks
      obtain ⟨block, others⟩ := blocks
      obtain ⟨after, run, later, printed⟩ := @runOutput_report reply session report _ len reads
      have exact_block : ((reply.receive report.result).memory.load 0 (blockPrecision len)).takeWhile (· ≠ 0) =
          text.take 1000 := by
        have size : blockPrecision len = report.block.length := by
          rw [blockPrecision_eq, counted nonempty, block, List.length_take]
        have small : 0 + report.block.length ≤ 1024 := by
          have sizes := report.size
          omega
        rw [size, report.load reply small, List.drop_zero, List.take_left, block]
        have clean : 0 ∉ text.take 1000 := fun member => noNul (List.mem_of_mem_take member)
        have whole := takeWhile_noNul clean []
        rwa [List.append_nil, List.takeWhile_nil, List.append_nil] at whole
      have missing : text.drop 1000 ≠ [] → (len - 1000).toNat = (text.drop 1000).length := by
        intro more
        have long : 1000 < text.length := by
          apply Classical.byContradiction
          intro short
          exact more (List.drop_of_length_le (Nat.not_lt.mp short))
        have total := counted nonempty
        have least : (1000 : UInt32) ≤ len := by
          rw [UInt32.le_iff_toNat_le, total]
          exact Nat.le_of_lt long
        rw [UInt32.toNat_sub_of_le _ _ least, total, List.length_drop]
        rfl
      have clean : 0 ∉ text.drop 1000 := fun member => noNul (List.mem_of_mem_drop member)
      rw [run, ih (len - 1000) others clean missing later, printed, exact_block, List.append_assoc,
        List.take_append_drop]

end Reports

section First

variable {output : Bytes} {first : OutputReport} {rest : List OutputReport}

theorem first_blocks
    (blocks : (first :: rest).map OutputReport.block = chunks 1000 (outputHeader output.length ++ output)) :
    first.block = outputHeader output.length ++ output.take 990 ∧
      rest.map OutputReport.block = chunks 1000 (output.drop 990) := by
  have header := outputHeader_length output.length
  have nonempty : outputHeader output.length ++ output ≠ [] := by
    intro empty
    rw [(List.append_eq_nil_iff.mp empty).1] at header
    cases header
  rw [chunks_cons (by decide) nonempty, List.map_cons, List.cons.injEq, List.take_append, List.drop_append, header,
    List.take_of_length_le (by omega), List.drop_of_length_le (by omega), List.nil_append] at blocks
  exact blocks

/-- What is printed of the first report: `len` counts the header, but printing begins behind it. -/
def firstPrinted (output : Bytes) (first : OutputReport) : Bytes :=
  ((output.take 990 ++ first.filler).take (min 1000 ((output.length + 10) % 2 ^ 32))).takeWhile (· ≠ 0)

theorem runReply_prints (reply : Reply) (stack : Memory) (session : Session) (noNul : 0 ∉ output)
    (small : output.length < 2 ^ 32)
    (blocks : (first :: rest).map OutputReport.block = chunks 1000 (outputHeader output.length ++ output))
    (reads : session.reads = rest.map OutputReport.result) :
    (runReply .usb (reply.receive first.result) stack session).2.output =
      session.output ++ (firstPrinted output first ++ output.drop 990) := by
  obtain ⟨block, others⟩ := first_blocks blocks
  have header := outputHeader_length output.length
  have scanned : scanHex (((reply.receive first.result).memory.load 0 1024).takeWhile (· ≠ 0)) =
      .value (UInt32.ofNat output.length) := by
    rw [first.load reply (by decide), List.drop_zero, List.take_of_length_le (Nat.le_of_eq first.length), block,
      List.append_assoc, takeWhile_noNul (outputHeader_noNul _)]
    exact scanHex_header small _
  have len : (UInt32.ofNat output.length + 10).toNat = (output.length + 10) % 2 ^ 32 := by
    rw [UInt32.toNat_add, UInt32.toNat_ofNat', Nat.mod_eq_of_lt small]
    rfl
  have printed : ((reply.receive first.result).memory.load 10
      (blockPrecision (UInt32.ofNat output.length + 10))).takeWhile (· ≠ 0) = firstPrinted output first := by
    rw [first.load reply (by rw [blockPrecision_eq]; omega), blockPrecision_eq, len, block, List.append_assoc,
      List.drop_left' header]
    rfl
  have missing : output.drop 990 ≠ [] →
      (UInt32.ofNat output.length + 10 - 1000).toNat = (output.drop 990).length := by
    intro more
    have long : 990 < output.length := by
      apply Classical.byContradiction
      intro short
      exact more (List.drop_of_length_le (Nat.not_lt.mp short))
    have thousand : (1000 : UInt32).toNat = 1000 := rfl
    rw [UInt32.toNat_sub, len, thousand, List.length_drop]
    omega
  have clean : 0 ∉ output.drop 990 := fun member => noNul (List.mem_of_mem_drop member)
  have later := @runOutput_prints (reply.receive first.result)
    (printString (reply.receive first.result) 10 (blockPrecision (UInt32.ofNat output.length + 10)) session).2
    _ rest (UInt32.ofNat output.length + 10 - 1000) others clean missing reads
  rw [runReply, if_pos rfl, scanned]
  refine later.trans ?_
  rw [← printed, ← List.append_assoc]
  rfl

/-- The request is taken, and the reports are what comes back. -/
def outputSession (taken : Int) (writes : List Int) (reports : List OutputReport) (junk : Nat → Memory) (input : File) :
    Session where
  writes := taken :: writes
  reads := reports.map OutputReport.result
  junk
  input

theorem runAnswer_prints (reply : Reply) (lenStack : Memory) (milliseconds : Int) (session : Session)
    (noNul : 0 ∉ output) (small : output.length < 2 ^ 32)
    (blocks : (first :: rest).map OutputReport.block = chunks 1000 (outputHeader output.length ++ output))
    (reads : session.reads = (first :: rest).map OutputReport.result) :
    (runAnswer .usb reply lenStack milliseconds session).2.output =
      session.output ++ (firstPrinted output first ++ output.drop 990) := by
  obtain ⟨block, _⟩ := first_blocks blocks
  have brought : session.readResult = first.result := by rw [Session.readResult, reads]; rfl
  have asked : ev3ReadTimeout reply runReplySize milliseconds session =
      (some (first.result.res, reply.receive first.result), session.afterRead runReplySize milliseconds) := by
    rw [ev3ReadTimeout, brought]
  have looked : (reply.receive first.result).memory.load 0 vmReplySize ≠ executeFileReplySuccess := by
    intro same
    rw [first.load reply (by decide), List.drop_zero, block, outputHeader] at same
    exact absurd (List.cons.inj same).1 (by decide)
  have positive := first.positive
  have peeked : (reply.receive first.result).peek 0 vmReplySize (session.afterRead runReplySize milliseconds) =
      (some ((reply.receive first.result).memory.load 0 vmReplySize),
        { session.afterRead runReplySize milliseconds with
          peeks := session.peeks ++ [⟨0 + vmReplySize, (reply.receive first.result).got⟩] }) := rfl
  have goes : ¬ (first.result.res = 0 ∨
      (reply.receive first.result).memory.load 0 vmReplySize = executeFileReplySuccess) := by
    rintro (none | same)
    · omega
    · exact looked same
  rw [runAnswer, Proc.bind_returned asked]
  simp only
  rw [if_neg (by omega), Proc.bind_returned peeked, if_neg goes]
  refine runReply_prints reply lenStack _ noNul small blocks ?_
  show session.reads.tail = _
  rw [reads]
  rfl

theorem run_output {exec : CString} (milliseconds : UInt32)
    (fits : Packet.size VmCmd + (run1.length + (exec.bytes.length + 1) + run2.length) < 65535)
    (noNul : 0 ∉ output) (small : output.length < 2 ^ 32)
    (blocks : (first :: rest).map OutputReport.block = chunks 1000 (outputHeader output.length ++ output))
    {taken : Int} (written : 0 ≤ taken) (writes : List Int) (junk : Nat → Memory) (input : File) :
    (run .usb exec milliseconds (outputSession taken writes (first :: rest) junk input)).2.output =
      firstPrinted output first ++ output.drop 990 := by
  rw [run_begins .usb milliseconds _ fits, Proc.bind_returned (writePacket_run _ _)]
  have goes : ¬ (outputSession taken writes (first :: rest) junk input).afterMalloc.afterMalloc.writeResult < 0 :=
    Int.not_lt.mpr written
  rw [if_neg goes]
  exact runAnswer_prints _ _ _ _ noNul small blocks rfl

/-- The ten bytes behind the block are printed as well unless they begin with a NUL. -/
theorem firstPrinted_exact_iff (first : OutputReport) (noNul : 0 ∉ output) (small : output.length < 2 ^ 32)
    (block : first.block = outputHeader output.length ++ output.take 990) :
    firstPrinted output first = output.take 990 ↔ output.length + 10 < 2 ^ 32 ∧ first.filler.head? = some 0 := by
  have header := outputHeader_length output.length
  have front : (output.take 990).length = min 990 output.length := List.length_take
  by_cases wraps : output.length + 10 < 2 ^ 32
  · have size := first.size
    rw [block, List.length_append, header, front] at size
    have clean : 0 ∉ output.take 990 := fun member => noNul (List.mem_of_mem_take member)
    have behind : min 1000 ((output.length + 10) % 2 ^ 32) = (output.take 990).length + 10 := by
      rw [Nat.mod_eq_of_lt wraps, front]
      omega
    rw [firstPrinted, behind, List.take_length_add_append, takeWhile_noNul clean, and_iff_right wraps]
    cases filler : first.filler with
    | nil =>
        rw [filler] at size
        simp only [List.length_nil] at size
        omega
    | cons byte others =>
        rw [List.take_succ_cons, List.takeWhile_cons, List.head?_cons]
        by_cases zero : byte = 0
        · simp [zero]
        · simp [zero]
  · constructor
    · intro same
      have lengths := congrArg List.length same
      have most : (firstPrinted output first).length ≤ min 1000 ((output.length + 10) % 2 ^ 32) := by
        refine Nat.le_trans (List.takeWhile_prefix _).length_le ?_
        exact List.length_take_le _ _
      omega
    · intro parts
      exact absurd parts.1 wraps

/-- The output is printed exactly if `len` does not wrap and a NUL follows the first block. -/
theorem run_prints_iff {exec : CString} (milliseconds : UInt32)
    (fits : Packet.size VmCmd + (run1.length + (exec.bytes.length + 1) + run2.length) < 65535)
    (noNul : 0 ∉ output) (small : output.length < 2 ^ 32)
    (blocks : (first :: rest).map OutputReport.block = chunks 1000 (outputHeader output.length ++ output))
    {taken : Int} (written : 0 ≤ taken) (writes : List Int) (junk : Nat → Memory) (input : File) :
    (run .usb exec milliseconds (outputSession taken writes (first :: rest) junk input)).2.output = output ↔
      output.length + 10 < 2 ^ 32 ∧ first.filler.head? = some 0 := by
  rw [run_output milliseconds fits noNul small blocks written writes junk input,
    ← firstPrinted_exact_iff first noNul small (first_blocks blocks).1]
  constructor
  · intro same
    refine List.append_cancel_right (same.trans ?_)
    exact (List.take_append_drop 990 output).symm
  · intro same
    rw [same, List.take_append_drop]

end First

def greeting : Bytes := [0x68, 0x69, 0x0A]

def greetingReport (filler : UInt8) : OutputReport where
  block := outputHeader greeting.length ++ greeting
  filler := List.replicate 1011 filler
  size := by
    rw [List.length_append, outputHeader_length, List.length_replicate]
    rfl

theorem greeting_blocks (filler : UInt8) :
    [greetingReport filler].map OutputReport.block = chunks 1000 (outputHeader greeting.length ++ greeting) := by
  rw [chunks_cons (by decide) (by decide), List.take_of_length_le (by decide), List.drop_of_length_le (by decide),
    chunks_nil]
  rfl

theorem run_prints_greeting :
    (run .usb (cstr [0x61]) 0 (outputSession 27 [] [greetingReport 0] (fun _ _ => 0) { rest := [] })).2.output =
      greeting :=
  (run_prints_iff 0 (by decide) (by decide) (by decide) (greeting_blocks 0) (by decide) [] (fun _ _ => 0)
    { rest := [] }).mpr ⟨by decide, rfl⟩

/-- Ten bytes that belong to no block are printed, too. -/
theorem run_prints_filler :
    (run .usb (cstr [0x61]) 0 (outputSession 27 [] [greetingReport 0x78] (fun _ _ => 0) { rest := [] })).2.output ≠
      greeting := by
  rw [run_output 0 (by decide) (by decide) (by decide) (greeting_blocks 0x78) (by decide)]
  intro same
  have exact : firstPrinted greeting (greetingReport 0x78) = greeting.take 990 :=
    (List.append_nil _).symm.trans same
  have ended := ((firstPrinted_exact_iff (greetingReport 0x78) (by decide) (by decide) rfl).mp exact).2
  exact absurd ended (by decide)

end Ev3duder
