import Ev3duder.Commands.Up
import Ev3duder.Commands.Vm
import Ev3duder.Firmware.Install

namespace Ev3duder

open Data

/-! # How far a reply is looked at, and how much of it was received

A command tests that something was received.  What it then looks at follows from the bytes it finds: the type of the
reply, and for a refusal the length that the reply states.
-/

/-- No byte was looked at that the read before it had not delivered. -/
def InBounds (session : Session) : Prop := ∀ peek ∈ session.peeks, peek.upto ≤ peek.got

/-- How many bytes of a reply a command looks at once it knows the type, by that type and by the length that the reply
states. -/
abbrev Needs := UInt8 → Nat → Nat

/-- The received bytes are as many as the command looks at, the type at index 4 to begin with. -/
def Fits (needs : Needs) (data : Bytes) : Prop :=
  5 ≤ data.length ∧ needs (data.getD 4 0) (leValue (data.take 2)) ≤ data.length

/-- Each reply of a run fits what is looked at when `left` exchanges are still to come; `goesOn` says of a type
whether they do. -/
def EachFits (needs : Nat → Needs) (goesOn : Nat → UInt8 → Bool) : Nat → List Int → List ReadResult → Prop
  | 0, _, _ => True
  | left + 1, writes, reads =>
      0 ≤ writes.headD (-1) → ∀ data, reads.headD (.received []) = .received data → data ≠ [] →
        Fits (needs left) data ∧
          (goesOn left (data.getD 4 0) = true → EachFits needs goesOn left writes.tail reads.tail)

/-- The same of a reply in its buffer, where anything may lie behind what was received. -/
def Seen (needs : Needs) (reply : Reply) : Prop :=
  5 ≤ reply.got ∧ needs (reply.memory 4) (leValue (reply.memory.load 0 2)) ≤ reply.got

theorem receive_type {data : Bytes} (reply : Reply) (long : 5 ≤ data.length) :
    (reply.receive (.received data)).memory 4 = data.getD 4 0 := by
  refine Reply.receive_delivered ?_
  have inside : 4 < data.length := by omega
  simp [ReadResult.stored, inside]

theorem receive_length {data : Bytes} (reply : Reply) (long : 5 ≤ data.length) :
    (reply.receive (.received data)).memory.load 0 2 = data.take 2 :=
  Memory.load_store (show 0 + 2 ≤ data.length by omega)

theorem seen_receive (needs : Needs) (reply : Reply) (data : Bytes) :
    Seen needs (reply.receive (.received data)) ↔ Fits needs data := by
  have got : (reply.receive (.received data)).got = data.length := rfl
  rw [Seen, Fits, got]
  refine and_congr_right fun long => ?_
  rw [receive_type reply long, receive_length reply long]

structure SameLooks (before after : Session) : Prop where
  peeks : after.peeks = before.peeks
  writes : after.writes = before.writes
  reads : after.reads = before.reads

def Silently {α : Type} (command : Command α) : Prop :=
  ∀ session, ∃ value after, command session = (some value, after) ∧ SameLooks session after

/-- The replies that a command looks at too far are those that do not fit. -/
def Looks {α : Type} (needs : Nat → Needs) (goesOn : Nat → UInt8 → Bool) (count : Nat) (command : Command α) : Prop :=
  ∀ session, InBounds (command session).2 ↔
    InBounds session ∧ EachFits needs goesOn count session.writes session.reads

section Rules

variable {α β τ : Type} [Packet τ] {needs : Nat → Needs} {goesOn : Nat → UInt8 → Bool} {count left : Nat}
  {session : Session}

theorem inBounds_same {before after : Session} (same : SameLooks before after) : InBounds after ↔ InBounds before := by
  rw [InBounds, same.peeks, InBounds]

theorem inBounds_peek (session : Session) (peek : Peek) :
    InBounds { session with peeks := session.peeks ++ [peek] } ↔ InBounds session ∧ peek.upto ≤ peek.got := by
  simp only [InBounds, List.mem_append, List.mem_singleton, or_imp, forall_and, forall_eq]

theorem looks_none {command : Command α} (silent : Silently command) : Looks needs goesOn 0 command := by
  intro session
  obtain ⟨value, after, run, same⟩ := silent session
  rw [run, inBounds_same same]
  exact (and_iff_left trivial).symm

theorem looks_silent {command : Command α} {next : α → Command β} (silent : Silently command)
    (looks : ∀ value, Looks needs goesOn count (next value)) : Looks needs goesOn count (command >>= next) := by
  intro session
  obtain ⟨value, after, run, same⟩ := silent session
  rw [Proc.bind_returned run, looks value after, inBounds_same same, same.writes, same.reads]

theorem looks_crash : Looks needs goesOn 0 (Proc.crash : Command α) := fun _ => (and_iff_left trivial).symm

theorem inBounds_then {command : Command α} {next : α → Command β} (silent : ∀ value, Silently (next value)) :
    InBounds ((command >>= next) session).2 ↔ InBounds (command session).2 := by
  rcases run : command session with ⟨_ | value, after⟩
  · rw [Proc.bind_died run]
  · obtain ⟨result, last, ends, same⟩ := silent value after
    rw [Proc.bind_returned run, ends]
    exact inBounds_same same

theorem looks_then {command : Command α} {next : α → Command β} (looks : Looks needs goesOn count command)
    (silent : ∀ value, Silently (next value)) : Looks needs goesOn count (command >>= next) :=
  fun session => (inBounds_then silent).trans (looks session)

theorem silently_return (value : α) : Silently (return value) := fun _ => ⟨_, _, rfl, rfl, rfl, rfl⟩

theorem silently_malloc : Silently malloc := fun _ => ⟨_, _, rfl, rfl, rfl, rfl⟩

theorem silently_fwrite (bytes : Bytes) : Silently (fwrite bytes) := fun _ => ⟨_, _, rfl, rfl, rfl, rfl⟩

theorem silently_failWith (message : String) (err : Err) : Silently (failWith message err) :=
  fun _ => ⟨_, _, rfl, rfl, rfl, rfl⟩

theorem answered_data {result : ReadResult} (read : 0 < result.res) : ∃ data, result = .received data ∧ data ≠ [] := by
  cases result with
  | failed => simp [ReadResult.res] at read
  | received data =>
      refine ⟨data, rfl, ?_⟩
      rintro rfl
      simp [ReadResult.res] at read

theorem exchange_unanswered (request : τ) (writeError : String) (reply : Reply) (size : Nat) (milliseconds : Int)
    (readError : String) (failed : ¬ (0 ≤ session.writeResult ∧ 0 < session.readResult.res)) :
    ∃ after, exchange request writeError reply size milliseconds readError session = (some (.error .comm), after) ∧
      after.peeks = session.peeks := by
  rw [exchange_run]
  split
  · exact ⟨_, rfl, rfl⟩
  · rw [if_pos (by omega)]
    exact ⟨_, rfl, rfl⟩

/-- An exchange and what is made of it: without an answer there is nothing to look at, and an answer is looked at as
far as `needs` says. -/
theorem looks_exchange {next : Except Err Reply → Command α} (request : τ) (writeError : String) (reply : Reply)
    (size : Nat) (milliseconds : Int) (readError : String) (fails : ∀ err, Silently (next (.error err)))
    (looks : ∀ data after, data ≠ [] →
      (InBounds (next (.ok (reply.receive (.received data))) after).2 ↔
        InBounds after ∧ Seen (needs left) (reply.receive (.received data)) ∧
          (goesOn left ((reply.receive (.received data)).memory 4) = true →
            EachFits needs goesOn left after.writes after.reads))) :
    Looks needs goesOn (left + 1)
      (exchange request writeError reply size milliseconds readError >>= next) := by
  intro session
  by_cases answered : 0 ≤ session.writeResult ∧ 0 < session.readResult.res
  · obtain ⟨written, read⟩ := answered
    obtain ⟨data, brought, more⟩ := answered_data read
    have same : InBounds (session.afterExchange request size milliseconds) ↔ InBounds session := Iff.rfl
    rw [Proc.bind_returned (exchange_answered session written read), brought, looks data _ more, same, seen_receive]
    refine and_congr_right fun _ => ⟨fun fits _ other received _ => ?_, fun fits => ?_⟩
    · cases brought.symm.trans received
      obtain ⟨long, later⟩ := fits
      rw [receive_type reply long.1] at later
      exact ⟨long, later⟩
    · obtain ⟨long, later⟩ := fits written data brought more
      rw [receive_type reply long.1]
      exact ⟨long, later⟩
  · obtain ⟨after, run, peeks⟩ := exchange_unanswered request writeError reply size milliseconds readError answered
    obtain ⟨value, last, ends, same⟩ := fails .comm after
    have kept : InBounds last ↔ InBounds session := by rw [inBounds_same same, InBounds, peeks, InBounds]
    rw [Proc.bind_returned run, ends, kept]
    refine (and_iff_left ?_).symm
    intro written data brought more
    have read : 0 < session.readResult.res := by
      have positive := List.length_pos_iff.mpr more
      have result : session.readResult = .received data := brought
      rw [result, ReadResult.res]
      omega
    exact absurd ⟨written, read⟩ answered

/-- The last exchange of a command. -/
theorem looks_single {next : Except Err Reply → Command α} (request : τ) (writeError : String) (reply : Reply)
    (size : Nat) (milliseconds : Int) (readError : String) (fails : ∀ err, Silently (next (.error err)))
    (looks : ∀ reply after, InBounds (next (.ok reply) after).2 ↔ InBounds after ∧ Seen (needs 0) reply) :
    Looks needs goesOn 1 (exchange request writeError reply size milliseconds readError >>= next) := by
  refine looks_exchange request writeError reply size milliseconds readError fails fun data after _ => ?_
  rw [looks]
  exact and_congr_right fun _ => (and_iff_left fun _ => trivial).symm

end Rules

section Judging

variable {α : Type} {reply : Reply} {session : Session}

theorem inBounds_type (next : UInt8 → Command α) :
    (reply.type >>= next) session =
      next (reply.memory 4) { session with peeks := session.peeks ++ [⟨5, reply.got⟩] } := rfl

/-- The length field of a reply is its value: it does not wrap. -/
theorem packetLen_toNat (reply : Reply) :
    (UInt16.ofNat (leValue (reply.memory.load 0 2))).toNat = leValue (reply.memory.load 0 2) := by
  have bound := leValue_lt (reply.memory.load 0 2)
  rw [Memory.load_length] at bound
  rw [UInt16.toNat_ofNat']
  omega

theorem inBounds_denied (more : Nat) (message : String) :
    InBounds (denied reply more message session).2 ↔
      InBounds session ∧ 7 ≤ reply.got ∧ leValue (reply.memory.load 0 2) + more ≤ reply.got := by
  have len := packetLen_toNat reply
  have run : (denied reply more message session).2.peeks = session.peeks ++ [⟨7, reply.got⟩] ++ [⟨2, reply.got⟩] ++
      [⟨0 + ((UInt16.ofNat (leValue (reply.memory.load 0 2))).toNat + more), reply.got⟩] := rfl
  rw [len] at run
  rw [InBounds, run]
  simp only [InBounds, List.mem_append, List.mem_singleton, or_imp, forall_and, forall_eq, Nat.zero_add]
  constructor
  · rintro ⟨⟨⟨before, ret⟩, _⟩, printed⟩
    exact ⟨before, ret, printed⟩
  · rintro ⟨before, ret, printed⟩
    exact ⟨⟨⟨before, ret⟩, by omega⟩, printed⟩

/-- A judgement looks at the type first, and further by what it finds. -/
theorem seen_type {needs : Needs} {next : UInt8 → Command α}
    (looks : ∀ after, InBounds (next (reply.memory 4) after).2 ↔
      InBounds after ∧ needs (reply.memory 4) (leValue (reply.memory.load 0 2)) ≤ reply.got) :
    InBounds ((reply.type >>= next) session).2 ↔ InBounds session ∧ Seen needs reply := by
  rw [inBounds_type, looks, inBounds_peek, Seen, and_assoc]

theorem looks_further {command : Command α} {further : Nat} (silent : Silently command) (nothing : further = 0)
    (after : Session) : InBounds (command after).2 ↔ InBounds after ∧ further ≤ reply.got := by
  obtain ⟨value, last, run, same⟩ := silent after
  rw [run, inBounds_same same, nothing]
  exact (and_iff_left (Nat.zero_le _)).symm

/-- Nothing but the type is looked at before the next exchange. -/
theorem looks_type {needs : Nat → Needs} {goesOn : Nat → UInt8 → Bool} {left : Nat} {next : UInt8 → Command α}
    (looks : Looks needs goesOn left (next (reply.memory 4)))
    (nothing : needs left (reply.memory 4) (leValue (reply.memory.load 0 2)) = 0)
    (goes : goesOn left (reply.memory 4) = true) :
    InBounds ((reply.type >>= next) session).2 ↔ InBounds session ∧ Seen (needs left) reply ∧
      (goesOn left (reply.memory 4) = true → EachFits needs goesOn left session.writes session.reads) := by
  rw [inBounds_type, looks, inBounds_peek, Seen, nothing, and_assoc]
  refine and_congr_right fun _ => ?_
  constructor
  · rintro ⟨long, later⟩
    exact ⟨⟨long, Nat.zero_le _⟩, fun _ => later⟩
  · rintro ⟨⟨long, _⟩, later⟩
    exact ⟨long, later goes⟩

theorem denied_further (more : Nat) (message : String) (after : Session) :
    InBounds (denied reply more message after).2 ↔
      InBounds after ∧ max 7 (leValue (reply.memory.load 0 2) + more) ≤ reply.got := by
  rw [inBounds_denied, Nat.max_le]

/-- A refusal costs the error code and `packetLen + more` bytes that are printed. -/
def refusalNeeds (more len : Nat) : Nat := max 7 (len + more)

def pathNeeds : Needs := fun type len => if type = vmError then refusalNeeds 0 len else 0

def bootloaderNeeds (more : Nat) : Needs := fun type len =>
  if type ≠ vmOk ∧ type ≠ vmSysRq then refusalNeeds more len else 0

/-- Where a request that only came back is told apart, it carries no data. -/
def answerNeeds (more fields : Nat) : Needs := fun type len =>
  if type = vmSysRq then 0 else if type ≠ vmOk then refusalNeeds more len else fields

theorem bootloaderReply_looks (more : Nat) (message : String) :
    InBounds (bootloaderReply reply more message session).2 ↔
      InBounds session ∧ Seen (bootloaderNeeds more) reply := by
  refine seen_type fun after => ?_
  by_cases refused : reply.memory 4 ≠ vmOk ∧ reply.memory 4 ≠ vmSysRq
  · rw [if_pos refused, bootloaderNeeds, if_pos refused]
    exact denied_further more message after
  · rw [if_neg refused, bootloaderNeeds, if_neg refused]
    exact looks_further (silently_return _) rfl after

theorem checksumReply_looks :
    InBounds (checksumReply reply session).2 ↔ InBounds session ∧ Seen (answerNeeds 2 11) reply := by
  refine seen_type fun after => ?_
  by_cases back : reply.memory 4 = vmSysRq
  · rw [if_pos back, answerNeeds, if_pos back]
    exact looks_further (silently_return _) rfl after
  · rw [if_neg back, answerNeeds, if_neg back]
    by_cases refused : reply.memory 4 ≠ vmOk
    · rw [if_pos refused, if_pos refused, inBounds_then fun _ => silently_return _]
      exact denied_further 2 _ after
    · rw [if_neg refused, if_neg refused, inBounds_then fun _ => silently_return _]
      exact inBounds_peek after ⟨11, reply.got⟩

end Judging

section Single

theorem pathCommand_looks (goesOn : Nat → UInt8 → Bool) (init : SystemCmd) (path : CString)
    (writeError readError deniedError success : String) :
    Looks (fun _ => pathNeeds) goesOn (if Packet.size SystemCmd + (path.bytes.length + 1) < 65535 then 1 else 0)
      (pathCommand init path writeError readError deniedError success) := by
  by_cases fits : Packet.size SystemCmd + (path.bytes.length + 1) < 65535
  · rw [pathCommand, packetAlloc, if_pos fits, if_pos fits]
    refine looks_silent silently_malloc fun stack => ?_
    refine looks_single _ _ _ _ _ _ (fun err => silently_return err) fun reply after => seen_type fun after => ?_
    by_cases refused : reply.memory 4 = vmError
    · rw [if_pos refused, pathNeeds, if_pos refused]
      exact denied_further 0 deniedError after
    · rw [if_neg refused, pathNeeds, if_neg refused]
      exact looks_further (silently_failWith _ _) rfl after
  · rw [pathCommand, packetAlloc, if_neg fits, if_neg fits]
    exact looks_crash

theorem bootloaderStep_looks {τ : Type} [Packet τ] (goesOn : Nat → UInt8 → Bool) (request : τ)
    (writeError readError deniedError : String) (milliseconds : Int) (more : Nat) :
    Looks (fun _ => bootloaderNeeds more) goesOn 1
      (bootloaderStep (some request) writeError readError deniedError milliseconds more) := by
  refine looks_silent silently_malloc fun heap => ?_
  refine looks_single _ _ _ _ _ _ (fun err => silently_return err) fun reply after => ?_
  exact bootloaderReply_looks more deniedError

theorem bootloaderExit_looks (goesOn : Nat → UInt8 → Bool) :
    Looks (fun _ => bootloaderNeeds 0) goesOn 1 bootloaderExit := by
  refine looks_then (bootloaderStep_looks goesOn _ _ _ _ _ _) fun err => ?_
  cases err with
  | unk => exact silently_failWith _ _
  | _ => exact silently_return _

theorem bootloaderChecksum_looks (goesOn : Nat → UInt8 → Bool) (offset length : Nat) :
    Looks (fun _ => answerNeeds 2 11) goesOn 1 (bootloaderChecksum offset length) := by
  refine looks_silent silently_malloc fun heap => ?_
  exact looks_single _ _ _ _ _ _ (fun err => silently_return _) fun reply after => checksumReply_looks

theorem bootloaderInfo_looks (goesOn : Nat → UInt8 → Bool) :
    Looks (fun _ => answerNeeds 0 15) goesOn 1 bootloaderInfo := by
  refine looks_silent silently_malloc fun heap => ?_
  refine looks_single _ _ _ _ _ _ (fun err => silently_return _) fun reply after => seen_type fun after => ?_
  by_cases back : reply.memory 4 = vmSysRq
  · rw [if_pos back, answerNeeds, if_pos back]
    exact looks_further (silently_return _) rfl after
  · rw [if_neg back, answerNeeds, if_neg back]
    by_cases refused : reply.memory 4 ≠ vmOk
    · rw [if_pos refused, if_pos refused]
      exact denied_further 0 _ after
    · rw [if_neg refused, if_neg refused]
      refine (inBounds_peek { after with peeks := after.peeks ++ [⟨11, reply.got⟩] } ⟨15, reply.got⟩).trans ?_
      rw [inBounds_peek, and_assoc]
      exact and_congr_right fun _ => ⟨And.right, fun most => ⟨Nat.le_trans (show 11 ≤ 15 by decide) most, most⟩⟩

end Single

section Loops

theorem closehndLoop_looks (request : CloseHandle) (reply : Reply) (stop hnd : Int) (count : Nat) :
    Looks (fun _ _ _ => 0) (fun _ _ => true) (stop - hnd).toNat (closehndLoop request reply stop hnd count) := by
  generalize left : (stop - hnd).toNat = remaining
  induction remaining generalizing request reply hnd count with
  | zero =>
      rw [closehndLoop, if_neg (by omega)]
      exact looks_none (silently_failWith _ _)
  | succ remaining ih =>
      rw [closehndLoop, if_pos (by omega)]
      refine looks_exchange _ _ _ _ _ _ (fun err => silently_return err) fun data after _ => ?_
      refine @looks_type _ _ after (fun _ _ _ => 0) (fun _ _ => true) remaining _ ?_ ?_ ?_
      · refine looks_silent (silently_fwrite _) fun _ => looks_silent (silently_fwrite _) fun _ => ?_
        exact ih _ _ _ _ (by omega)
      · rfl
      · rfl

theorem closehnd_looks (start stop : Int) :
    Looks (fun _ _ _ => 0) (fun _ _ => true)
      ((if 256 < stop then 256 else stop) - (if start < 0 then 0 else start)).toNat (closehnd start stop) := by
  refine looks_silent silently_malloc fun heap => looks_silent (silently_fwrite _) fun _ => ?_
  exact closehndLoop_looks _ _ _ _ _

/-- How many blocks so many bytes are sent in. -/
def sendBlocks (bytes : Nat) : Nat := (bytes + maxPayload - 1) / maxPayload

theorem sendBlocks_none : sendBlocks 0 = 0 := by decide

theorem sendBlocks_block {bytes : Nat} (more : 0 < bytes) :
    sendBlocks bytes = sendBlocks (bytes - if bytes ≤ maxPayload then bytes else maxPayload) + 1 := by
  have payload : maxPayload = 1018 := by decide
  simp only [sendBlocks, payload]
  split <;> omega

theorem silently_fillBlock (payload : Bytes) (thisBlock : Nat) (ended : Bool) :
    Silently (fillBlock payload thisBlock ended) := by
  intro session
  cases ended with
  | true => exact ⟨_, _, rfl, rfl, rfl, rfl⟩
  | false =>
      rw [fillBlock_reads]
      exact ⟨_, _, rfl, rfl, rfl, rfl⟩

def bootloaderAccepts (type : UInt8) : Bool := type = vmOk ∨ type = vmSysRq

theorem sendLoop_looks (total : Nat) (request : SystemCmd) (reply : Reply) (sent : Nat) (ended : Bool) (crc : UInt32) :
    Looks (fun _ => bootloaderNeeds 2) (fun _ => bootloaderAccepts) (sendBlocks (total - sent))
      (sendLoop total request reply sent ended crc) := by
  generalize left : total - sent = remaining
  induction remaining using Nat.strongRecOn generalizing request reply sent ended crc with
  | ind remaining ih =>
    rw [sendLoop]
    by_cases more : sent < total
    · rw [if_pos more, sendBlocks_block (by omega), left]
      refine looks_silent (silently_fillBlock _ _ _) fun filled => ?_
      refine looks_exchange _ _ _ _ _ _ (fun err => silently_return _) fun data after _ => ?_
      generalize reply.receive (.received data) = reply
      obtain ⟨err, last, run, link, _, means⟩ :=
        bootloaderReply_run reply 2 "`FW_DOWNLOAD_DATA` was denied." after
      have looks := @bootloaderReply_looks reply after 2 "`FW_DOWNLOAD_DATA` was denied."
      rw [run] at looks
      have accepts : bootloaderAccepts (reply.memory 4) = true ↔ err = .unk := by
        rw [means, bootloaderAccepts, decide_eq_true_iff]
      change InBounds ((bootloaderReply reply 2 "`FW_DOWNLOAD_DATA` was denied." >>= _) after).2 ↔ _
      rw [Proc.bind_returned run, accepts, ← and_assoc, ← looks]
      cases err with
      | unk =>
          have positive : 0 < maxPayload := by decide
          have shorter : total - (sent + if remaining ≤ maxPayload then remaining else maxPayload) =
              remaining - if remaining ≤ maxPayload then remaining else maxPayload := by
            split <;> omega
          refine (ih _ (by split <;> omega) _ _ _ _ _ shorter last).trans ?_
          rw [link.writes, link.reads]
          exact and_congr_right fun _ => ⟨fun later _ => later, fun later => later rfl⟩
      | _ => exact (and_iff_left fun same => absurd same (by decide)).symm
    · have none : remaining = 0 := by omega
      rw [if_neg more, none, sendBlocks_none]
      exact looks_none (silently_return _)

theorem bootloaderSend_looks (length : Nat) :
    Looks (fun _ => bootloaderNeeds 2) (fun _ => bootloaderAccepts) (sendBlocks length) (bootloaderSend length) := by
  refine looks_silent silently_malloc fun payload => looks_silent silently_malloc fun heap => ?_
  refine looks_then (sendLoop_looks length _ _ 0 _ _) fun result => ?_
  cases result with
  | error err => exact silently_return _
  | ok crc => exact silently_return _

end Loops

section Up

/-- The reply in hand while so many chunks are to be sent: the handle is taken from it, or it is the last one. -/
def chunkNeeds (left : Nat) : Needs := fun type len => if 0 < left then 8 else pathNeeds type len

def upNeeds (chunks left : Nat) : Needs := fun type len =>
  if left = chunks ∧ type = vmError then 7 else chunkNeeds left type len

/-- Only the first reply is asked whether the upload may go on. -/
def upGoesOn (chunks left : Nat) (type : UInt8) : Bool := ¬ (left = chunks ∧ type = vmError)

/-- What `upTransfer` makes of the loop. -/
def upVerdict : Except Err Reply → Command Err
  | .error err => return err
  | .ok bdrep => do
      let type ← bdrep.type
      if type = vmError then denied bdrep 0 "CONTINUE_DOWNLOAD was denied."
      else failWith "`upload` was successful." .unk

theorem seen_chunk {left : Nat} (more : 0 < left) (reply : Reply) : Seen (chunkNeeds left) reply ↔ 8 ≤ reply.got := by
  rw [Seen, chunkNeeds, if_pos more]
  omega

theorem upVerdict_looks (bdrep : Reply) (session : Session) :
    InBounds (upVerdict (.ok bdrep) session).2 ↔ InBounds session ∧ Seen (chunkNeeds 0) bdrep := by
  refine seen_type fun after => ?_
  rw [chunkNeeds, if_neg (Nat.lt_irrefl 0)]
  by_cases refused : bdrep.memory 4 = vmError
  · rw [if_pos refused, pathNeeds, if_pos refused]
    exact denied_further 0 _ after
  · rw [if_neg refused, pathNeeds, if_neg refused]
    exact looks_further (silently_failWith _ _) rfl after

theorem upLoop_looks {chunks left : Nat} (finalSz : Nat) (cd : ContinueDownload) (bdrep : Reply) {i : Nat}
    (remaining : chunks = i + left) (session : Session) :
    InBounds ((upLoop chunks finalSz cd bdrep i >>= upVerdict) session).2 ↔
      InBounds session ∧ Seen (chunkNeeds left) bdrep ∧
        EachFits (upNeeds chunks) (upGoesOn chunks) left session.writes session.reads := by
  induction left generalizing cd bdrep i session with
  | zero =>
      have finished : upLoop chunks finalSz cd bdrep i session = (some (.ok bdrep), session) :=
        upLoop_finished (by omega)
      rw [Proc.bind_returned finished, upVerdict_looks]
      exact and_congr_right fun _ => (and_iff_left trivial).symm
  | succ left ih =>
      have inside : i < chunks := by omega
      have later : left ≠ chunks := by omega
      generalize request_eq : session.upPacket chunks finalSz i cd bdrep = request
      have passing := Proc.bind_apply (upLoop chunks finalSz cd bdrep i) upVerdict session
      rw [upLoop_pass inside, ← Proc.bind_apply, bind_assoc, request_eq] at passing
      have looks : Looks (upNeeds chunks) (upGoesOn chunks) (left + 1)
          (exchange request "Unable to write CONTINUE_DOWNLOAD." bdrep beginDownloadReplySize timeout
              "Unable to read CONTINUE_DOWNLOAD" >>= fun step =>
            (match step with
            | .error err => return .error err
            | .ok bdrep' => upLoop chunks finalSz request bdrep' (i + 1)) >>= upVerdict) := by
        refine looks_exchange _ _ _ _ _ _ (fun err => silently_return _) fun data after _ => ?_
        have needs : upNeeds chunks left = chunkNeeds left := by
          funext type len
          rw [upNeeds, if_neg fun first => later first.1]
        have goes : ∀ type, upGoesOn chunks left type = true := fun type => decide_eq_true fun first => later first.1
        rw [needs]
        refine (ih request _ (by omega) after).trans (and_congr_right fun _ => and_congr_right fun _ => ?_)
        exact ⟨fun fits _ => fits, fun fits => fits (goes _)⟩
      have begun : InBounds (session.afterChunk bdrep (upRequest chunks finalSz i)) ↔
          InBounds session ∧ 8 ≤ bdrep.got := inBounds_peek session ⟨8, bdrep.got⟩
      rw [passing]
      refine (looks (session.afterChunk bdrep (upRequest chunks finalSz i))).trans ?_
      rw [begun, seen_chunk (Nat.succ_pos left), and_assoc]
      exact Iff.rfl

theorem upTransfer_looks (fsize : Nat) (bdrep : Reply) (session : Session) :
    InBounds (upTransfer fsize bdrep session).2 ↔
      InBounds session ∧ Seen (chunkNeeds (upChunks fsize)) bdrep ∧
        EachFits (upNeeds (upChunks fsize)) (upGoesOn (upChunks fsize)) (upChunks fsize) session.writes
          session.reads :=
  upLoop_looks _ _ bdrep (Nat.zero_add _).symm session.afterMalloc

/-- How many exchanges an upload makes when each is answered and the first one is not refused. -/
def upExchanges (dst : CString) (fsize : Nat) : Nat :=
  if fsize ≤ 0xFFFFFFFF ∧ Packet.size BeginDownload + (dst.bytes.length + 1) < 65535 then upChunks fsize + 1 else 0

/-- The first reply: a refusal ends the upload without a look at the rest of the reply. -/
theorem upOpened_looks (fsize : Nat) (reply : Reply) (session : Session) :
    InBounds ((reply.type >>= fun type =>
        if type = vmError then do
          let ret ← reply.ret
          setErrno ret.toNat
          failWith "BEGIN_DOWNLOAD was denied." .vm
        else upTransfer fsize reply) session).2 ↔
      InBounds session ∧ Seen (upNeeds (upChunks fsize) (upChunks fsize)) reply ∧
        (upGoesOn (upChunks fsize) (upChunks fsize) (reply.memory 4) = true →
          EachFits (upNeeds (upChunks fsize)) (upGoesOn (upChunks fsize)) (upChunks fsize) session.writes
            session.reads) := by
  rw [inBounds_type, Seen, upNeeds]
  by_cases refused : reply.memory 4 = vmError
  · have stops : ¬ upGoesOn (upChunks fsize) (upChunks fsize) (reply.memory 4) = true :=
      fun goes => of_decide_eq_true goes ⟨rfl, refused⟩
    rw [if_pos refused, if_pos ⟨rfl, refused⟩]
    refine (inBounds_peek { session with peeks := session.peeks ++ [⟨5, reply.got⟩] } ⟨7, reply.got⟩).trans ?_
    rw [inBounds_peek, and_assoc]
    exact and_congr_right fun _ => (and_iff_left fun goes => absurd goes stops).symm
  · have goes : upGoesOn (upChunks fsize) (upChunks fsize) (reply.memory 4) = true :=
      decide_eq_true fun both => refused both.2
    rw [if_neg refused, if_neg fun both => refused both.2, upTransfer_looks, inBounds_peek, Seen, and_assoc]
    refine and_congr_right fun _ => ?_
    constructor
    · rintro ⟨long, fits, later⟩
      exact ⟨fits, fun _ => later⟩
    · rintro ⟨fits, later⟩
      exact ⟨fits.1, fits, later goes⟩

theorem up_looks (dst : CString) (session : Session) :
    InBounds (up dst session).2 ↔
      InBounds session ∧ EachFits (upNeeds (upChunks session.input.rest.length))
        (upGoesOn (upChunks session.input.rest.length)) (upExchanges dst session.input.rest.length) session.writes
        session.reads := by
  have size : Proc.gets (fun session : Session => session.input.rest.length) session =
      (some session.input.rest.length, session) := rfl
  rw [up, Proc.bind_returned size]
  generalize session.input.rest.length = fsize
  by_cases large : 0xFFFFFFFF < fsize
  · rw [if_pos large, upExchanges, if_neg (by omega)]
    exact looks_none (silently_return _) session
  · rw [if_neg large, packetAlloc]
    by_cases fits : Packet.size BeginDownload + (dst.bytes.length + 1) < 65535
    · rw [if_pos fits, upExchanges, if_pos ⟨by omega, fits⟩]
      refine looks_silent silently_malloc (fun stack => ?_) session
      refine looks_exchange _ _ _ _ _ _ (fun err => silently_return err) fun data after _ => ?_
      exact upOpened_looks fsize _ after
    · rw [if_neg fits, upExchanges, if_neg fun both => fits both.2]
      exact looks_crash session

end Up

section Vmexec

/-- A failure is printed without its error code being looked at; a success is copied as far as globals were asked
for. -/
def vmNeeds (out : VmOutput) (globals : Nat) : Needs := fun type len =>
  if type ≠ vmDirectOk then len + 2 else if out ≠ .none then vmReplySize + globals else 0

theorem printed_further {reply : Reply} (err : UInt8) (after : Session) :
    InBounds ((do
        let len ← reply.packetLen
        reply.printBytes (len.toNat + 2)
        setErrno err.toNat
        failWith "`vmexec` failed." .vm : Command Err) after).2 ↔
      InBounds after ∧ leValue (reply.memory.load 0 2) + 2 ≤ reply.got := by
  have len := packetLen_toNat reply
  refine (inBounds_peek { after with peeks := after.peeks ++ [⟨2, reply.got⟩] }
    ⟨0 + ((UInt16.ofNat (leValue (reply.memory.load 0 2))).toNat + 2), reply.got⟩).trans ?_
  rw [inBounds_peek, len, and_assoc, Nat.zero_add]
  exact and_congr_right fun _ => ⟨And.right, fun printed => ⟨Nat.le_trans (Nat.le_add_left 2 _) printed, printed⟩⟩

/-- What `vmexecReply` makes of a reply. -/
def vmVerdict (out : VmOutput) (globals : Nat) (reply : Reply) : Command Err := do
  let replyType ← reply.type
  if replyType ≠ vmDirectOk then do
    let len ← reply.packetLen
    reply.printBytes (len.toNat + 2)
    setErrno replyType.toNat
    failWith "`vmexec` failed." .vm
  else do
    if out ≠ .none then do
      let bytes ← reply.peek vmReplySize globals
      fwrite bytes
    if out ≠ .stdout then setErrmsg "`vmexec` was successful."
    return .unk

theorem vmVerdict_looks (out : VmOutput) (globals : Nat) (reply : Reply) (session : Session) :
    InBounds (vmVerdict out globals reply session).2 ↔ InBounds session ∧ Seen (vmNeeds out globals) reply := by
  refine seen_type fun after => ?_
  by_cases failed : reply.memory 4 ≠ vmDirectOk
  · rw [if_pos failed, vmNeeds, if_pos failed]
    exact printed_further _ after
  · rw [if_neg failed, vmNeeds, if_neg failed]
    cases out with
    | none => exact (and_iff_left (Nat.zero_le reply.got)).symm
    | file => exact inBounds_peek after ⟨vmReplySize + globals, reply.got⟩
    | stdout => exact inBounds_peek after ⟨vmReplySize + globals, reply.got⟩

theorem vmexecReply_looks (out : VmOutput) (globals : Nat) (session : Session) :
    InBounds (vmexecReply out globals session).2 ↔ InBounds session ∧
      ∀ data, session.readResult = .received data → data ≠ [] → Fits (vmNeeds out globals) data := by
  have run : vmexecReply out globals session =
      (if session.readResult.res ≤ 0 then failWith "Unable to read VM_REPLY" .comm
        else vmVerdict out globals (Reply.receive ⟨session.junk 0, 0⟩ session.readResult))
        (session.afterMalloc.afterRead (vmReplySize + globals) timeout) := rfl
  rw [run]
  by_cases read : 0 < session.readResult.res
  · obtain ⟨data, brought, more⟩ := answered_data read
    rw [if_neg (by omega), vmVerdict_looks, brought, seen_receive]
    refine and_congr_right fun _ => ⟨fun fits other received _ => ?_, fun fits => fits data rfl more⟩
    cases received
    exact fits
  · rw [if_pos (by omega)]
    refine (and_iff_left fun data brought more => absurd ?_ read).symm
    have positive := List.length_pos_iff.mpr more
    rw [brought, ReadResult.res]
    omega

theorem vmexecSent_looks (packet : VmCmd) (out : VmOutput) (globals : Nat) (useReply : Bool) (session : Session) :
    InBounds ((writePacket packet >>= fun res =>
        if res < 0 then failWith "Unable to write VM_CMD." .comm
        else if ¬ useReply then failWith "`vmexec` was successful." .unk
        else vmexecReply out globals) session).2 ↔
      InBounds session ∧ EachFits (fun _ => vmNeeds out globals) (fun _ _ => true)
        (if useReply = true then 1 else 0) session.writes session.reads := by
  rw [Proc.bind_returned (writePacket_run packet session)]
  by_cases written : 0 ≤ session.writeResult
  · rw [if_neg (by omega)]
    cases useReply with
    | false => exact (and_iff_left trivial).symm
    | true =>
        refine (vmexecReply_looks out globals _).trans (and_congr_right fun _ => ?_)
        constructor
        · intro fits _ data received more
          exact ⟨fits data received more, fun _ => trivial⟩
        · intro fits data received more
          exact (fits written data received more).1
  · rw [if_pos (by omega)]
    refine (and_iff_left ?_).symm
    cases useReply with
    | false => trivial
    | true => exact fun began => absurd began written

theorem vmexecSend_looks (out : VmOutput) (locals globals : Int) (useReply : Bool) (code : Bytes) (eof : Bool)
    (session : Session) :
    InBounds (vmexecSend out locals globals useReply code eof session).2 ↔
      InBounds session ∧ EachFits (fun _ => vmNeeds out globals.toNat) (fun _ _ => true)
        (if eof = true ∧ code ≠ [] ∧ useReply = true then 1 else 0) session.writes session.reads := by
  unfold vmexecSend
  by_cases ends : eof = true
  · by_cases empty : code.length = 0
    · rw [if_neg (not_not.mpr ends), if_pos empty, if_neg fun all => all.2.1 (List.length_eq_zero_iff.mp empty)]
      exact looks_none (silently_return _) session
    · have asks : (eof = true ∧ code ≠ [] ∧ useReply = true) ↔ useReply = true :=
        ⟨fun all => all.2.2, fun used => ⟨ends, fun none => empty (List.length_eq_zero_iff.mpr none), used⟩⟩
      rw [if_neg (not_not.mpr ends), if_neg empty, if_congr asks rfl rfl]
      exact vmexecSent_looks _ out globals.toNat useReply session
  · rw [if_pos ends, if_neg fun all => ends all.1]
    exact looks_none (silently_return _) session

/-- Whether `vmexec` comes to the exchange: the counts of variables are possible, and the bytecode is there and not
too long. -/
def vmexecExchanges (locals globals : Int) (useReply : Bool) (input : File) : Nat :=
  if locals ≤ maxLocals ∧ globals ≤ maxGlobals useReply ∧
      (input.transfer maxBytecodes < maxBytecodes ∧ input.transfer maxBytecodes = input.rest.length) ∧
      input.rest ≠ [] ∧ useReply = true then 1
  else 0

theorem vmexec_looks (out : VmOutput) (locals globals : Int) (useReply : Bool) (session : Session) :
    InBounds (vmexec out locals globals useReply session).2 ↔
      InBounds session ∧ EachFits (fun _ => vmNeeds out globals.toNat) (fun _ _ => true)
        (vmexecExchanges locals globals useReply session.input) session.writes session.reads := by
  have limits : (locals ≤ maxLocals ∧ globals ≤ maxGlobals useReply) ↔
      max locals 0 ≤ 63 ∧ max globals 0 ≤ if useReply then 1019 else 1023 := by
    have most : maxLocals = 63 := rfl
    have limit : maxGlobals useReply = if useReply then 1019 else 1023 := by cases useReply <;> rfl
    rw [most, limit]
    split <;> omega
  by_cases limited : max locals 0 ≤ 63 ∧ max globals 0 ≤ if useReply then 1019 else 1023
  · have number : (max globals 0).toNat = globals.toNat := by omega
    have asks : vmexecExchanges locals globals useReply session.input =
        if decide (session.input.transfer maxBytecodes < maxBytecodes ∧
            session.input.transfer maxBytecodes = session.input.rest.length) = true ∧
          session.input.rest.take (session.input.transfer maxBytecodes) ≠ [] ∧ useReply = true then 1 else 0 := by
      obtain ⟨fewLocals, fewGlobals⟩ := limits.mpr limited
      refine if_congr ?_ rfl rfl
      rw [decide_eq_true_iff, and_iff_right fewLocals, and_iff_right fewGlobals]
      refine and_congr_right fun ends => ?_
      rw [ends.2, List.take_length]
    rw [vmexec_limited out limited.1 limited.2, Proc.bind_returned (freadToEnd_returned maxBytecodes session),
      vmexecSend_looks, asks, number]
    rfl
  · have none : vmexecExchanges locals globals useReply session.input = 0 :=
      if_neg fun all => limited (limits.mp ⟨all.1, all.2.1⟩)
    rw [vmexec_unlimited out limited, none]
    exact (and_iff_left trivial).symm

end Vmexec

/-- The commands that make something of a reply other than a stream of data. -/
inductive ReplyUser where
  | rm (path : CString)
  | mkdir (path : CString)
  | up (dst : CString)
  | vmexec (out : VmOutput) (locals globals : Int) (useReply : Bool)
  | closehnd (start stop : Int)
  | bootloaderErase
  | bootloaderStart (offset length : Nat)
  | bootloaderSend (length : Nat)
  | bootloaderChecksum (offset length : Nat)
  | bootloaderExit
  | bootloaderInfo

namespace ReplyUser

/-- What the command leaves. -/
def after (session : Session) : ReplyUser → Session
  | rm path => (Ev3duder.rm path session).2
  | mkdir path => (mkdir_ path session).2
  | up dst => (Ev3duder.up dst session).2
  | vmexec out locals globals useReply => (Ev3duder.vmexec out locals globals useReply session).2
  | closehnd start stop => (Ev3duder.closehnd start stop session).2
  | bootloaderErase => (Ev3duder.bootloaderErase session).2
  | bootloaderStart offset length => (Ev3duder.bootloaderStart offset length session).2
  | bootloaderSend length => (Ev3duder.bootloaderSend length session).2
  | bootloaderChecksum offset length => (Ev3duder.bootloaderChecksum offset length session).2
  | bootloaderExit => (Ev3duder.bootloaderExit session).2
  | bootloaderInfo => (Ev3duder.bootloaderInfo session).2

/-- How many exchanges it makes when nothing fails and nothing is refused. -/
def exchanges (session : Session) : ReplyUser → Nat
  | rm path => if Packet.size SystemCmd + (path.bytes.length + 1) < 65535 then 1 else 0
  | mkdir path => if Packet.size SystemCmd + (path.bytes.length + 1) < 65535 then 1 else 0
  | up dst => upExchanges dst session.input.rest.length
  | vmexec _ locals globals useReply => vmexecExchanges locals globals useReply session.input
  | closehnd start stop => ((if 256 < stop then 256 else stop) - (if start < 0 then 0 else start)).toNat
  | bootloaderSend length => sendBlocks length
  | _ => 1

def needs (session : Session) : ReplyUser → Nat → Needs
  | rm _ => fun _ => pathNeeds
  | mkdir _ => fun _ => pathNeeds
  | up _ => upNeeds (upChunks session.input.rest.length)
  | vmexec out _ globals _ => fun _ => vmNeeds out globals.toNat
  | closehnd _ _ => fun _ _ _ => 0
  | bootloaderErase => fun _ => bootloaderNeeds 2
  | bootloaderStart _ _ => fun _ => bootloaderNeeds 2
  | bootloaderSend _ => fun _ => bootloaderNeeds 2
  | bootloaderChecksum _ _ => fun _ => answerNeeds 2 11
  | bootloaderExit => fun _ => bootloaderNeeds 0
  | bootloaderInfo => fun _ => answerNeeds 0 15

def goesOn (session : Session) : ReplyUser → Nat → UInt8 → Bool
  | up _ => upGoesOn (upChunks session.input.rest.length)
  | bootloaderSend _ => fun _ => bootloaderAccepts
  | _ => fun _ _ => true

end ReplyUser

theorem replies_used_as_received_iff (user : ReplyUser) (session : Session) :
    InBounds (user.after session) ↔ InBounds session ∧
      EachFits (user.needs session) (user.goesOn session) (user.exchanges session) session.writes session.reads := by
  cases user with
  | rm path => exact pathCommand_looks _ _ _ _ _ _ _ session
  | mkdir path => exact pathCommand_looks _ _ _ _ _ _ _ session
  | up dst => exact up_looks dst session
  | vmexec out locals globals useReply => exact vmexec_looks out locals globals useReply session
  | closehnd start stop => exact closehnd_looks start stop session
  | bootloaderErase => exact bootloaderStep_looks _ _ _ _ _ _ _ session
  | bootloaderStart offset length => exact bootloaderStep_looks _ _ _ _ _ _ _ session
  | bootloaderSend length => exact bootloaderSend_looks length session
  | bootloaderChecksum offset length => exact bootloaderChecksum_looks _ offset length session
  | bootloaderExit => exact bootloaderExit_looks _ session
  | bootloaderInfo => exact bootloaderInfo_looks _ session

/-- The brick answers with one byte; the memory behind it is zero. -/
def shortAnswer : Session := { writes := [9], reads := [.received [3]] }

/-- The second answer is shorter than the first one, which is still in the buffer behind it. -/
def shorterAnswer : Session :=
  { writes := [11, 11], reads := [.received [6, 0, 0, 0, 3, 152, 0, 0], .received [6, 0]] }

theorem replies_used_beyond_received :
    (rm ⟨[97], by decide⟩ shortAnswer).1 = some .unk ∧
      (rm ⟨[97], by decide⟩ shortAnswer).2.errmsg = some "`DELETE_FILE` was successful." ∧
      (rm ⟨[97], by decide⟩ shortAnswer).2.peeks = [⟨5, 1⟩] ∧
      ¬ InBounds ((ReplyUser.rm ⟨[97], by decide⟩).after shortAnswer) ∧
      ¬ InBounds ((ReplyUser.closehnd 0 2).after shorterAnswer) := by
  have peeks : (rm ⟨[97], by decide⟩ shortAnswer).2.peeks = [⟨5, 1⟩] := by decide +kernel
  refine ⟨by decide +kernel, by decide +kernel, peeks, fun inBounds => ?_, fun inBounds => ?_⟩
  · have look := inBounds ⟨5, 1⟩ (by rw [ReplyUser.after, peeks]; exact List.mem_singleton_self _)
    exact absurd look (by decide)
  · have fits := ((closehnd_looks 0 2 shorterAnswer).mp inBounds).2
    have first := fits (by decide) _ rfl (by decide)
    have second := first.2 rfl (by decide) _ rfl (by decide)
    exact absurd second.1.1 (by decide)

end Ev3duder
