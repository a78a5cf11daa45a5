import Ev3duder.Commands.Bytecode
import Ev3duder.Transport.Discovery
import Ev3duder.Uf2.Pack

namespace Ev3duder

open Data

/-! # Numbers on the command line

`strtol` makes a `long` of a text, which is kept in an `int`.  A `long` has 64 bits here and an `int` has 32.
-/

/-- A number that no `long` holds becomes the one nearest to it. -/
def saturate (number : Int) : Int := max (-2 ^ 63) (min number (2 ^ 63 - 1))

/-- `strtol(text, &endptr, 10)`, and the text at `endptr`. -/
def strtol (text : Bytes) : Int × Bytes :=
  let (negative, digits) := hexSign (text.dropWhile isSpace)
  match readDigits 10 decimalDigit digits with
  | none => (0, text)
  | some (number, endptr) => (saturate (if negative then -(number : Int) else number), endptr)

/-- `start + 1` as an `int`.  Where there is no such `int` the language says nothing, so this may be the end of the
process or any value. -/
def successor (overflow : Option Int) (start : Int) : Command Int :=
  if start < 2 ^ 31 - 1 then return start + 1
  else
    match overflow with
    | none => Proc.crash
    | some other => return other

/-- `case ARG_closehnd`, on what follows the command. -/
def mainClosehnd (overflow : Option Int) : List CString → Command Err
  | [] => closehnd 0 256
  | [arg] =>
      if arg.bytes = ascii "all" then closehnd 0 256
      else do
        let (value, endptr) := strtol arg.bytes
        let start := int32 value
        let stop ← successor overflow start
        if endptr = arg.bytes ∨ 255 < start ∨ start < 0 then do
          fwrite (ascii "invalid handle <" ++ arg.bytes ++ ascii ">\n")
          return .arg
        else closehnd start stop
  | _ => Proc.crash

/-- The files that `main` can open: those to read with what is in them, and the names it can create a file under. -/
structure Files where
  stdin : File
  read : CString → Option File
  creates : CString → Bool

def openInput (files : Files) (name : CString) : Option File :=
  if name.bytes = ascii "-" then some files.stdin else files.read name

/-- What could not be created is left out: the test behind this `fopen` is about the other file. -/
def openOutput (files : Files) (name : CString) : VmOutput :=
  if name.bytes = ascii "-" then .stdout
  else if name.bytes = ascii "none" then .none
  else if files.creates name then .file
  else .none

/-- `case ARG_vmexec` from the files on. -/
def vmexecFiles (files : Files) (locals globals : Int) (infile outfile : CString) (parameter : Option CString) :
    Command Err :=
  match openInput files infile with
  | none => return .io
  | some input =>
      let out := openOutput files outfile
      match parameter with
      | none => do
          Proc.modify fun session : Session => { session with input }
          vmexec out locals globals true
      | some parameter =>
          if parameter.bytes = ascii "noreply" then do
            Proc.modify fun session : Session => { session with input }
            vmexec out locals globals false
          else return .arg

def vmexecCounts (files : Files) (locals globals infile outfile : CString) (parameter : Option CString) :
    Command Err :=
  if (strtol locals.bytes).2 = locals.bytes then return .arg
  else if (strtol globals.bytes).2 = globals.bytes then return .arg
  else
    vmexecFiles files (int32 (strtol locals.bytes).1) (int32 (strtol globals.bytes).1) infile outfile parameter

/-- `case ARG_vmexec`, on what follows the command. -/
def mainVmexec (files : Files) : List CString → Command Err
  | [locals, globals, infile, outfile] => vmexecCounts files locals globals infile outfile none
  | [locals, globals, infile, outfile, parameter] => vmexecCounts files locals globals infile outfile (some parameter)
  | _ => Proc.crash

inductive Sign where
  | none | plus | minus
deriving DecidableEq, Repr

def Sign.bytes : Sign → Bytes
  | .none => []
  | .plus => [43]
  | .minus => [45]

/-- An integer in decimal, of any length. -/
structure Decimal where
  sign : Sign
  digits : Bytes
  nonempty : digits ≠ []
  decimal : ∀ digit ∈ digits, 48 ≤ digit ∧ digit ≤ 57

namespace Decimal

variable (number : Decimal)

def magnitude : Nat := Nat.ofDigits 10 (number.digits.map fun digit => digit.toNat - 48).reverse

def value : Int := if number.sign = .minus then -(number.magnitude : Int) else number.magnitude

theorem noNul : 0 ∉ number.sign.bytes ++ number.digits := by
  intro member
  rcases List.mem_append.mp member with sign | digit
  · cases same : number.sign <;> simp [same, Sign.bytes] at sign
  · exact absurd (number.decimal 0 digit).1 (by decide)

def text : CString := ⟨number.sign.bytes ++ number.digits, number.noNul⟩

end Decimal

def closeHandlePacket (handle : UInt8) : Bytes := [0x00, 0x05, 0x00, 0x00, 0x00, 0x01, 0x98, handle]

/-- A handle is closed by its number, and nothing is closed for any other number. -/
structure ClosesByValue (overflow : Option Int) (number : Decimal) : Prop where
  inside : 0 ≤ number.value ∧ number.value ≤ 255 → ∀ session, ∃ err after events,
    mainClosehnd overflow [number.text] session = (some err, after) ∧ after.log = session.log ++ events ∧
      events.filterMap Event.written = [(closeHandlePacket (UInt8.ofInt number.value), 8)]
  outside : ¬ (0 ≤ number.value ∧ number.value ≤ 255) → ∀ session, ∃ after,
    mainClosehnd overflow [number.text] session = (some .arg, after) ∧ after.log = session.log

/-- The number is a handle, or beyond every `long`, or its last 32 bits are not those of a handle; where they are those
of the largest `int`, the process has to survive the overflow. -/
def HandleTold (overflow : Option Int) (value : Int) : Prop :=
  (0 ≤ value ∧ value ≤ 255) ∨ 2 ^ 63 ≤ value ∨
    (-2 ^ 63 ≤ value ∧ 255 < value % 2 ^ 32 ∧ (value % 2 ^ 32 = 2 ^ 31 - 1 → overflow ≠ none))

def Exceeds (useReply : Bool) (locals globals : Int) : Prop :=
  maxLocals < max locals 0 ∨ maxGlobals useReply < max globals 0

def noreply (useReply : Bool) : List CString := if useReply then [] else [⟨ascii "noreply", by decide⟩]

/-- The counts are taken for what they are: one that is too large is an error, once the bytecode could be opened, and
nothing is sent; else the command goes on with the counts, none of them below zero. -/
structure CountsByValue (useReply : Bool) (locals globals : Decimal) : Prop where
  exceeding : Exceeds useReply locals.value globals.value → ∀ files infile outfile session, ∃ err after,
    mainVmexec files ([locals.text, globals.text, infile, outfile] ++ noreply useReply) session = (some err, after) ∧
      after.log = session.log ∧ err = if (openInput files infile).isSome then .arg else .io
  within : ¬ Exceeds useReply locals.value globals.value → ∀ files infile outfile session,
    mainVmexec files ([locals.text, globals.text, infile, outfile] ++ noreply useReply) session =
      vmexecFiles files (max locals.value 0) (max globals.value 0) infile outfile (noreply useReply).head? session

/-- The `int` that is made of the number is beyond the limit. -/
def StaysAbove (limit value : Int) : Prop := -2 ^ 63 ≤ value ∧ value < 2 ^ 63 ∧ limit < value.bmod (2 ^ 32)

/-- The `int` that is made of a number within the limit says the same. -/
def StaysWithin (value : Int) : Prop := -2 ^ 31 ≤ value ∨ value < -2 ^ 63 ∨ value.bmod (2 ^ 32) ≤ 0

def CountsTold (useReply : Bool) (locals globals : Int) : Prop :=
  (Exceeds useReply locals globals → StaysAbove maxLocals locals ∨ StaysAbove (maxGlobals useReply) globals) ∧
    (¬ Exceeds useReply locals globals → StaysWithin locals ∧ StaysWithin globals)

/-- The `int` that a number becomes. -/
def narrowed (value : Int) : Int := int32 (saturate value)

theorem narrowed_low {value : Int} (low : value < -2 ^ 63) : narrowed value = 0 := by
  have least : saturate value = -2 ^ 63 := by
    rw [saturate]
    omega
  rw [narrowed, least]
  rfl

theorem narrowed_high {value : Int} (high : 2 ^ 63 ≤ value) : narrowed value = -1 := by
  have most : saturate value = 2 ^ 63 - 1 := by
    rw [saturate]
    omega
  rw [narrowed, most]
  rfl

theorem narrowed_long {value : Int} (low : -2 ^ 63 ≤ value) (high : value < 2 ^ 63) :
    narrowed value = value.bmod (2 ^ 32) := by
  have same : saturate value = value := by
    rw [saturate]
    omega
  rw [narrowed, same, int32]

theorem narrowed_int {value : Int} (low : -2 ^ 31 ≤ value) (high : value < 2 ^ 31) : narrowed value = value := by
  rw [narrowed_long (by omega) (by omega)]
  exact Int.bmod_eq_of_le (by omega) (by omega)

theorem bmod_word (value : Int) :
    value.bmod (2 ^ 32) = if value % 2 ^ 32 < 2 ^ 31 then value % 2 ^ 32 else value % 2 ^ 32 - 2 ^ 32 := by
  rw [Int.bmod]
  rfl

theorem decimalDigit_some {digit : UInt8} (decimal : 48 ≤ digit ∧ digit ≤ 57) :
    decimalDigit digit = some (digit.toNat - 48) := if_pos decimal

theorem not_isSpace_of_above {char : UInt8} (above : 32 < char) : isSpace char = false := by
  simp only [isSpace, decide_eq_false_iff_not, UInt8.lt_iff_toNat_lt, UInt8.le_iff_toNat_le, ← UInt8.toNat_inj] at *
  simp only [UInt8.toNat_ofNat] at *
  omega

theorem Decimal.readDigits_all (number : Decimal) :
    readDigits 10 decimalDigit number.digits = some (number.magnitude, []) := by
  have all : ∀ digit ∈ number.digits, (decimalDigit digit).isSome = true := by
    intro digit member
    rw [decimalDigit_some (number.decimal digit member)]
    rfl
  have values : number.digits.filterMap decimalDigit = number.digits.map fun digit => digit.toNat - 48 := by
    rw [List.filterMap_congr fun digit member => decimalDigit_some (number.decimal digit member)]
    exact congrFun List.filterMap_eq_map' number.digits
  have whole := @cut_where _ number.digits [] (fun digit => (decimalDigit digit).isSome) all
    fun _ starts => nomatch starts
  rw [List.append_nil] at whole
  rw [readDigits, whole.1, whole.2, if_neg number.nonempty, values, Decimal.magnitude]

/-- Nothing stands in front of the sign or the first digit, so all of the text is taken for the number. -/
theorem strtol_text (number : Decimal) :
    strtol number.text.bytes = (saturate number.value, []) ∧ number.text.bytes ≠ [] := by
  obtain ⟨first, rest, front⟩ := List.exists_cons_of_ne_nil number.nonempty
  have digit := number.decimal first (by simp [front])
  have read := number.readDigits_all
  have bytes : number.text.bytes = number.sign.bytes ++ number.digits := rfl
  have text : hexSign (number.text.bytes.dropWhile isSpace) = (decide (number.sign = .minus), number.digits) := by
    rw [bytes]
    cases sign : number.sign with
    | none =>
        have above : 32 < first := UInt8.lt_of_lt_of_le (by decide) digit.1
        have plus : first ≠ 43 := fun same => absurd digit.1 (by rw [same]; decide)
        have minus : first ≠ 45 := fun same => absurd digit.1 (by rw [same]; decide)
        rw [front, Sign.bytes, List.nil_append, List.dropWhile_cons_of_neg (by simp [not_isSpace_of_above above]),
          hexSign_plain rest plus minus]
        rfl
    | plus => rfl
    | minus => rfl
  refine ⟨?_, ?_⟩
  · rw [strtol, text]
    simp only [read, Decimal.value, decide_eq_true_eq]
  · simp [bytes, number.nonempty]

theorem successor_run (overflow : Option Int) {start : Int} (below : start < 2 ^ 31 - 1) (session : Session) :
    successor overflow start session = (some (start + 1), session) := by
  unfold successor
  rw [if_pos below]
  rfl

theorem closehndLoop_one (request : CloseHandle) (reply : Reply) (handle : Int) (count : Nat) (session : Session) :
    ∃ err after events, closehndLoop request reply (handle + 1) handle count session = (some err, after) ∧
      after.log = session.log ++ events ∧ events.filterMap Event.written =
        [(Packet.handed { request with handle := UInt8.ofInt handle },
          Packet.count { request with handle := UInt8.ofInt handle })] := by
  rw [closehndLoop, if_pos (by omega)]
  generalize { request with handle := UInt8.ofInt handle } = request
  have run := @exchange_run _ _ request "Unable to write CLOSE_HANDLE." "Unable to read CLOSE_HANDLE" reply
    closeHandleReplySize timeout session
  by_cases failed : session.writeResult < 0
  · rw [if_pos failed] at run
    exact ⟨.comm, _, [_], Proc.bind_returned run, Session.afterWrite_log .., rfl⟩
  · rw [if_neg failed] at run
    by_cases silent : session.readResult.res ≤ 0
    · rw [if_pos silent] at run
      exact ⟨.comm, _, _, Proc.bind_returned run, Session.afterExchange_log, rfl⟩
    · rw [if_neg silent] at run
      -- Behind the only handle the loop ends.
      have ends : Follows (fun _ => False) (closehndLoop request (reply.receive session.readResult) (handle + 1)
          (handle + 1) (count + 1)) := by
        rw [closehndLoop, if_neg (by omega)]
        exact follows_failWith _ _
      have marks := follows_bind (follows_quiet fun _ => ⟨_, _, rfl, rfl⟩ : Follows (fun _ => False)
        (reply.receive session.readResult).type) fun type =>
          follows_bind (follows_quiet fun _ => ⟨_, _, rfl, rfl⟩ : Follows (fun _ => False)
            (fwrite (if type = vmOk then ascii "*" else ascii "_"))) fun _ =>
              follows_bind (follows_quiet fun _ => ⟨_, _, rfl, rfl⟩ : Follows (fun _ => False)
                (fwrite (if (count + 1) % 16 = 0 then ascii "\n" else []))) fun _ => ends
      obtain ⟨err, after, rest, events, log, none⟩ :=
        marks (session.afterExchange request closeHandleReplySize timeout)
      have nothing : events = [] := List.eq_nil_iff_forall_not_mem.mpr none
      rw [nothing, List.append_nil, Session.afterExchange_log] at log
      exact ⟨err, after, _, (Proc.bind_returned run).trans rest, log, rfl⟩

theorem closehnd_one {handle : Int} (low : 0 ≤ handle) (high : handle ≤ 255) (session : Session) :
    ∃ err after events, closehnd handle (handle + 1) session = (some err, after) ∧
      after.log = session.log ++ events ∧
      events.filterMap Event.written = [(closeHandlePacket (UInt8.ofInt handle), 8)] := by
  have alloc : packetAlloc closeHandleInit 0 = some { closeHandleInit with packetLen := 5 } := rfl
  have bytes : Packet.handed ({ closeHandleInit with packetLen := 5, handle := UInt8.ofInt handle } : CloseHandle) =
      closeHandlePacket (UInt8.ofInt handle) := by
    simp [closeHandlePacket, Packet.handed, Packet.toBytes, Packet.count, Packet.tail, Packet.packetLen,
      Packet.hidLayer, closeHandleInit, prefixSize, CommandFields.tail, leBytes]
  unfold closehnd
  rw [alloc]
  simp only [if_neg (Int.not_lt.mpr low), if_neg (show ¬ 256 < handle + 1 by omega)]
  obtain ⟨err, after, events, run, log, packets⟩ := closehndLoop_one { closeHandleInit with packetLen := 5 }
    ⟨session.junk 0, 0⟩ handle 0 (fwrite (ascii "Handle map:\n") session.afterMalloc).2
  refine ⟨err, after, events, run, log, packets.trans ?_⟩
  rw [← bytes]
  rfl

theorem mainClosehnd_number (overflow : Option Int) (number : Decimal) (session : Session) :
    mainClosehnd overflow [number.text] session =
      (successor overflow (narrowed number.value) >>= fun stop =>
        if 255 < narrowed number.value ∨ narrowed number.value < 0 then do
          fwrite (ascii "invalid handle <" ++ number.text.bytes ++ ascii ">\n")
          return .arg
        else closehnd (narrowed number.value) stop) session := by
  have notAll : number.text.bytes ≠ ascii "all" := by
    intro same
    have letter : 97 ∈ number.sign.bytes ++ number.digits := by
      change 97 ∈ number.text.bytes
      rw [same]
      decide
    rcases List.mem_append.mp letter with sign | digit
    · cases kind : number.sign <;> simp [kind, Sign.bytes] at sign
    · exact absurd (number.decimal 97 digit).2 (by decide)
  obtain ⟨read, nonempty⟩ := strtol_text number
  rw [mainClosehnd, if_neg notAll, read]
  simp only [Ne.symm nonempty, false_or]
  rfl

theorem narrowed_lt (value : Int) : narrowed value < 2 ^ 31 := Int.bmod_lt (by decide)

theorem handleTold_iff (overflow : Option Int) (value : Int) :
    HandleTold overflow value ↔ (0 ≤ value ∧ value ≤ 255) ∨
      ((255 < narrowed value ∨ narrowed value < 0) ∧ (narrowed value = 2 ^ 31 - 1 → overflow ≠ none)) := by
  rw [HandleTold]
  by_cases low : value < -2 ^ 63
  · rw [narrowed_low low]
    omega
  · by_cases high : 2 ^ 63 ≤ value
    · rw [narrowed_high high]
      omega
    · rw [narrowed_long (by omega) (by omega), bmod_word]
      have positive : 0 ≤ value % 2 ^ 32 := Int.emod_nonneg _ (by decide)
      have below : value % 2 ^ 32 < 2 ^ 32 := Int.emod_lt_of_pos _ (by decide)
      generalize value % 2 ^ 32 = word at *
      split
      · grind
      · grind

theorem successor_survives {overflow : Option Int} {value : Int}
    (survives : narrowed value = 2 ^ 31 - 1 → overflow ≠ none) (session : Session) :
    ∃ stop, successor overflow (narrowed value) session = (some stop, session) := by
  have bound := narrowed_lt value
  by_cases below : narrowed value < 2 ^ 31 - 1
  · exact ⟨_, successor_run overflow below session⟩
  · obtain ⟨other, some⟩ := Option.ne_none_iff_exists'.mp (survives (by omega))
    refine ⟨other, ?_⟩
    unfold successor
    rw [if_neg below, some]
    rfl

/-- A number of which a handle is left closes that handle. -/
theorem mainClosehnd_closes (overflow : Option Int) (number : Decimal) (low : 0 ≤ narrowed number.value)
    (high : narrowed number.value ≤ 255) (session : Session) :
    ∃ err after events, mainClosehnd overflow [number.text] session = (some err, after) ∧
      after.log = session.log ++ events ∧
      events.filterMap Event.written = [(closeHandlePacket (UInt8.ofInt (narrowed number.value)), 8)] := by
  rw [mainClosehnd_number, Proc.bind_returned (successor_run overflow (by omega) session), if_neg (by omega)]
  exact closehnd_one low high session

theorem closesByValue_iff (overflow : Option Int) (number : Decimal) :
    ClosesByValue overflow number ↔ HandleTold overflow number.value := by
  rw [handleTold_iff]
  constructor
  · intro closes
    by_cases inside : 0 ≤ number.value ∧ number.value ≤ 255
    · exact .inl inside
    · obtain ⟨after, run, log⟩ := closes.outside inside { writes := [], reads := [] }
      refine .inr ⟨?_, ?_⟩
      · apply Classical.byContradiction
        intro handle
        obtain ⟨err, last, events, closed, grown, packets⟩ := mainClosehnd_closes overflow number (by omega) (by omega)
          { writes := [], reads := [] }
        cases run.symm.trans closed
        rw [log, List.self_eq_append_right] at grown
        rw [grown] at packets
        cases packets
      · intro largest dies
        rw [mainClosehnd_number] at run
        obtain ⟨stop, middle, next, rest⟩ := Proc.bind_inversion run
        unfold successor at next
        rw [if_neg (by omega), dies] at next
        cases next
  · intro told
    constructor
    · intro inside session
      have same := narrowed_int (show -2 ^ 31 ≤ number.value by omega) (by omega)
      rw [← same] at inside
      have closed := mainClosehnd_closes overflow number inside.1 inside.2 session
      rwa [same] at closed
    · intro outside session
      obtain ⟨refused, survives⟩ := told.resolve_left outside
      obtain ⟨stop, step⟩ := successor_survives survives session
      rw [mainClosehnd_number, Proc.bind_returned step, if_pos refused]
      exact ⟨_, rfl, rfl⟩

theorem not_exceeds {useReply : Bool} {locals globals : Int} :
    ¬ Exceeds useReply locals globals ↔
      max locals 0 ≤ 63 ∧ max globals 0 ≤ if useReply then 1019 else 1023 := by
  have few : maxLocals = 63 := rfl
  have small : maxGlobals useReply = if useReply then 1019 else 1023 := by cases useReply <;> rfl
  rw [Exceeds, few, small, not_or, Int.not_lt, Int.not_lt]

theorem staysAbove_iff {limit : Int} (positive : 0 ≤ limit) (value : Int) :
    StaysAbove limit value ↔ limit < max (narrowed value) 0 := by
  rw [StaysAbove]
  by_cases low : value < -2 ^ 63
  · rw [narrowed_low low]
    omega
  · by_cases high : 2 ^ 63 ≤ value
    · rw [narrowed_high high]
      omega
    · rw [narrowed_long (by omega) (by omega)]
      omega

theorem staysWithin_iff {value : Int} (small : value < 2 ^ 31) :
    StaysWithin value ↔ max (narrowed value) 0 = max value 0 := by
  rw [StaysWithin]
  by_cases low : value < -2 ^ 63
  · rw [narrowed_low low]
    omega
  · by_cases short : -2 ^ 31 ≤ value
    · rw [narrowed_int short small]
      omega
    · rw [narrowed_long (by omega) (by omega)]
      omega

theorem countsTold_iff (useReply : Bool) (locals globals : Int) :
    CountsTold useReply locals globals ↔
      (Exceeds useReply locals globals → Exceeds useReply (narrowed locals) (narrowed globals)) ∧
      (¬ Exceeds useReply locals globals →
        max (narrowed locals) 0 = max locals 0 ∧ max (narrowed globals) 0 = max globals 0) := by
  have limit : 0 ≤ maxGlobals useReply := by cases useReply <;> decide
  rw [CountsTold, staysAbove_iff (by decide), staysAbove_iff limit]
  refine and_congr Iff.rfl ⟨fun within fits => ?_, fun within fits => ?_⟩
  all_goals
    have bounds := not_exceeds.mp fits
    have kept := within fits
    have high : globals < 2 ^ 31 := by
      have small := bounds.2
      split at small <;> omega
  · rwa [staysWithin_iff (by omega), staysWithin_iff high] at kept
  · rwa [staysWithin_iff (by omega), staysWithin_iff high]

theorem vmexec_clamped (out : VmOutput) (locals globals : Int) (useReply : Bool) :
    vmexec out (max locals 0) (max globals 0) useReply = vmexec out locals globals useReply := by
  unfold vmexec
  simp only [clamped, max_assoc, max_self]

/-- What the command comes to, with the fifth argument or without. -/
theorem vmexecFiles_run (files : Files) (locals globals : Int) (infile outfile : CString) (useReply : Bool)
    (session : Session) :
    vmexecFiles files locals globals infile outfile (noreply useReply).head? session =
      match openInput files infile with
      | none => (some .io, session)
      | some input => vmexec (openOutput files outfile) locals globals useReply { session with input } := by
  unfold vmexecFiles
  cases openInput files infile with
  | none => rfl
  | some input => cases useReply <;> rfl

theorem mainVmexec_counts (files : Files) (locals globals : Decimal) (infile outfile : CString) (useReply : Bool)
    (session : Session) :
    mainVmexec files ([locals.text, globals.text, infile, outfile] ++ noreply useReply) session =
      vmexecFiles files (narrowed locals.value) (narrowed globals.value) infile outfile (noreply useReply).head?
        session := by
  obtain ⟨readLocals, someLocals⟩ := strtol_text locals
  obtain ⟨readGlobals, someGlobals⟩ := strtol_text globals
  have counts : ∀ parameter, vmexecCounts files locals.text globals.text infile outfile parameter =
      vmexecFiles files (narrowed locals.value) (narrowed globals.value) infile outfile parameter := by
    intro parameter
    rw [vmexecCounts, readLocals, readGlobals, if_neg (Ne.symm someLocals), if_neg (Ne.symm someGlobals)]
    rfl
  cases useReply with
  | true => exact congrFun (counts none) session
  | false => exact congrFun (counts _) session

/-- The packet tells the counts apart. -/
theorem vmEncodes_unique {code packet : Bytes} {locals globals otherLocals otherGlobals : Int} {useReply : Bool}
    {count : Nat} (encodes : VmEncodes code locals globals useReply packet count)
    (other : VmEncodes code otherLocals otherGlobals useReply packet count) :
    max locals 0 = max otherLocals 0 ∧ max globals 0 = max otherGlobals 0 := by
  obtain ⟨_, _, alloc, bytes, few, small⟩ := encodes
  obtain ⟨_, _, alloc', bytes', few', small'⟩ := other
  have words : leBytes 2 alloc.toNat = leBytes 2 alloc'.toNat := by
    have same := bytes.symm.trans bytes'
    rw [List.append_cancel_right_eq] at same
    exact List.append_cancel_left same
  have same : alloc = alloc' := by
    have values := congrArg leValue words
    rw [leValue_leBytes_of_lt alloc.toNat_lt, leValue_leBytes_of_lt alloc'.toNat_lt] at values
    exact UInt16.toNat_inj.mp values
  rw [same] at few small
  exact ⟨few.symm.trans few', small.symm.trans small'⟩

/-- A program of one byte, and nothing that takes the packet. -/
def oneByte : Session where
  writes := []
  reads := []
  input := { rest := [0x01] }

theorem vmexec_oneByte (out : VmOutput) {locals globals : Int} {useReply : Bool}
    (fits : ¬ Exceeds useReply locals globals) : ∃ packet count,
      (vmexec out locals globals useReply oneByte).2.log.filterMap Event.written = [(packet, count)] ∧
        VmEncodes [0x01] locals globals useReply packet count := by
  obtain ⟨few, small⟩ := not_exceeds.mp fits
  have most : max globals 0 ≤ 1023 := by split at small <;> omega
  rw [vmexec_limited out few small, Proc.bind_returned (freadToEnd_run rfl)]
  exact ⟨_, _, vmexecSend_writes out _ _ useReply (by decide) rfl, vmexecRequest_encodes (by decide) few most⟩

theorem vmexec_exceeds (out : VmOutput) {locals globals : Int} {useReply : Bool}
    (exceeds : Exceeds useReply locals globals) (session : Session) :
    vmexec out locals globals useReply session = (some .arg, session) :=
  vmexec_unlimited out fun limits => not_exceeds.mpr limits exceeds

/-- Nothing but the program can be opened. -/
def onlyProgram : Files where
  stdin := oneByte.input
  read := fun _ => none
  creates := fun _ => false

def dash : CString := ⟨ascii "-", by decide⟩

theorem vmexecFiles_program (locals globals : Int) (useReply : Bool) :
    vmexecFiles onlyProgram locals globals dash dash (noreply useReply).head? oneByte =
      vmexec .stdout locals globals useReply oneByte := by
  rw [vmexecFiles_run]
  rfl

theorem countsByValue_iff (useReply : Bool) (locals globals : Decimal) :
    CountsByValue useReply locals globals ↔ CountsTold useReply locals.value globals.value := by
  rw [countsTold_iff]
  constructor
  · intro byValue
    constructor
    · intro exceeds
      apply Classical.byContradiction
      intro fits
      obtain ⟨err, after, run, log, _⟩ := byValue.exceeding exceeds onlyProgram dash dash oneByte
      obtain ⟨packet, count, sent, _⟩ := vmexec_oneByte .stdout fits
      rw [mainVmexec_counts, vmexecFiles_program] at run
      rw [run, log] at sent
      cases sent
    · intro fits
      have run := byValue.within fits onlyProgram dash dash oneByte
      obtain ⟨packet, count, sent, encodes⟩ := vmexec_oneByte .stdout fits
      rw [mainVmexec_counts, vmexecFiles_program, vmexecFiles_program, vmexec_clamped] at run
      by_cases exceeds : Exceeds useReply (narrowed locals.value) (narrowed globals.value)
      · rw [← run, vmexec_exceeds .stdout exceeds] at sent
        cases sent
      · obtain ⟨packet', count', sent', encodes'⟩ := vmexec_oneByte .stdout exceeds
        rw [run, sent] at sent'
        cases sent'
        exact vmEncodes_unique encodes' encodes
  · intro ⟨exceeding, within⟩
    constructor
    · intro exceeds files infile outfile session
      rw [mainVmexec_counts, vmexecFiles_run]
      cases openInput files infile with
      | none => exact ⟨.io, session, rfl, rfl, rfl⟩
      | some input => exact ⟨.arg, _, vmexec_exceeds _ (exceeding exceeds) _, rfl, rfl⟩
    · intro fits files infile outfile session
      obtain ⟨few, small⟩ := within fits
      rw [mainVmexec_counts, vmexecFiles_run, vmexecFiles_run, ← few, ← small]
      simp only [vmexec_clamped]

/-- The numbers on the command line are taken by their value exactly where what is left of them in an `int` tells no
other number. -/
theorem numbers_by_value_iff (overflow : Option Int) (useReply : Bool) (handle locals globals : Decimal) :
    (ClosesByValue overflow handle ↔ HandleTold overflow handle.value) ∧
      (CountsByValue useReply locals globals ↔ CountsTold useReply locals.value globals.value) :=
  ⟨closesByValue_iff overflow handle, countsByValue_iff useReply locals globals⟩

/-- 2 to the 32nd, which closes handle 0 and counts for nothing. -/
def tooLarge : Decimal where
  sign := .none
  digits := [0x34, 0x32, 0x39, 0x34, 0x39, 0x36, 0x37, 0x32, 0x39, 0x36]
  nonempty := by simp
  decimal := by simp

theorem numbers_wrap : ¬ ClosesByValue (some 0) tooLarge ∧ ¬ CountsByValue true tooLarge tooLarge := by
  have value : tooLarge.value = 2 ^ 32 := by decide +kernel
  rw [closesByValue_iff, countsByValue_iff, value]
  constructor
  · intro told
    simp [HandleTold] at told
  · intro told
    have exceeds : Exceeds true (2 ^ 32) (2 ^ 32) := .inl (by decide)
    rcases told.1 exceeds with above | above
    · exact absurd above.2.2 (by decide)
    · exact absurd above.2.2 (by decide)

end Ev3duder
