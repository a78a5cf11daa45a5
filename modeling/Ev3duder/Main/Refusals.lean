import Ev3duder.Commands.Framing
import Ev3duder.Data.Triples
import Ev3duder.Main.Usage

namespace Ev3duder

open Data

/-! # What the user is told of a refusal -/

/-- The last packet had `opcode` at `index`, and `reply` is the buffer after the reply to it, which arrived. -/
def Heard (index : Nat) (opcode : UInt8) (reply : Reply) (session : Session) : Prop :=
  ∃ early packet count res size milliseconds result old,
    session.log = early ++ [.write packet count res, .read size milliseconds result] ∧
      packet[index]? = some opcode ∧ 0 < result.res ∧ reply = Reply.receive old result

/-- How a command is refused: where a packet has its opcode, where the reply says why and the type that would have been
no refusal, and for each opcode what is printed. -/
structure Refusing where
  opcode : Nat
  place : Nat
  granted : UInt8
  denials : List (UInt8 × String)

/-- System commands have their opcode behind six bytes, and their replies the status. -/
def systemRefusing (denials : List (UInt8 × String)) : Refusing := ⟨6, 6, vmOk, denials⟩

/-- A refusal is the brick's: it is the last thing heard, `errno` is its byte at that place, and the message is the one
for the packet that was refused. -/
def Explains (refusing : Refusing) (err : Err) (session : Session) : Prop :=
  err = .vm → ∃ opcode message reply, (opcode, message) ∈ refusing.denials ∧
    Heard refusing.opcode opcode reply session ∧ reply.memory 4 ≠ refusing.granted ∧
    session.errno = (reply.memory refusing.place).toNat ∧ session.errmsg = some message

def Arrives (index : Nat) (opcode : UInt8) (step : Except Err Reply) (session : Session) : Prop :=
  match step with
  | .error err => err ≠ .vm
  | .ok reply => Heard index opcode reply session

/-- The packet as it is handed over has its opcode. -/
def AsksFor {τ : Type} [Packet τ] (opcode : UInt8) (request : τ) : Prop := (Packet.handed request)[6]? = some opcode

theorem asksFor_framed {τ : Type} [Packet τ] {request : τ} {opcode : UInt8}
    (long : 4 ≤ (Packet.packetLen request).toNat) (field : (Packet.toBytes request)[6]? = some opcode) :
    AsksFor opcode request := by
  have inside : 6 < Packet.count request := by
    rw [Packet.count, prefixSize]
    omega
  rw [AsksFor, List.getElem?_take_of_lt inside]
  exact field

section Rules

variable {refusing : Refusing} {denials : List (UInt8 × String)} {index : Nat} {opcode : UInt8} {reply : Reply}
  {before : Session → Prop}

theorem Explains.of_ne {err : Err} (other : err ≠ .vm) (session : Session) : Explains refusing err session :=
  fun same => absurd same other

theorem explains_return {err : Err} (other : err ≠ .vm) :
    Proc.Ensures before (return err : Command Err) (Explains refusing) :=
  Proc.ensures_pure fun session _ => .of_ne other session

theorem explains_failWith {message : String} {err : Err} (other : err ≠ .vm) :
    Proc.Ensures before (failWith message err) (Explains refusing) :=
  Proc.ensures_run (fun _ => rfl) fun _ _ => .of_ne other _

theorem ensures_transact {buf : Bytes} {count : Nat} (asked : (buf.take count)[index]? = some opcode)
    (writeError readError : String) (reply : Reply) (size : Nat) (milliseconds : Int) :
    Proc.Ensures before (transact buf count writeError reply size milliseconds readError) (Arrives index opcode) := by
  intro session _
  rw [Proc.Ends, transact_run]
  by_cases refused : session.writeResult < 0
  · rw [if_pos refused]
    exact (by decide : Err.comm ≠ .vm)
  · rw [if_neg refused]
    by_cases silent : session.readResult.res ≤ 0
    · rw [if_pos silent]
      exact (by decide : Err.comm ≠ .vm)
    · rw [if_neg silent]
      exact ⟨_, _, _, _, _, _, _, reply, Session.afterTransact_log, asked, Int.not_le.mp silent, rfl⟩

theorem ensures_exchange {τ : Type} [Packet τ] {request : τ} (asked : AsksFor opcode request)
    (writeError readError : String) (reply : Reply) (size : Nat) (milliseconds : Int) :
    Proc.Ensures before (exchange request writeError reply size milliseconds readError) (Arrives 6 opcode) :=
  ensures_transact asked _ _ _ _ _

theorem ensures_type : Proc.Ensures (Heard index opcode reply) reply.type
    fun type session => type = reply.memory 4 ∧ Heard index opcode reply session :=
  Proc.ensures_run reply.type_run fun _ heard => ⟨rfl, heard⟩

theorem explains_denied (more : Nat) {message : String} (listed : (opcode, message) ∈ denials)
    (refused : reply.memory 4 ≠ vmOk) :
    Proc.Ensures (Heard 6 opcode reply) (denied reply more message) (Explains (systemRefusing denials)) :=
  fun _ heard _ => ⟨opcode, message, reply, listed, heard, refused, rfl, rfl⟩

theorem explains_step {step : Except Err Reply} {next : Reply → Command Err}
    (goesOn : ∀ reply, Proc.Ensures (Heard index opcode reply) (next reply) (Explains refusing)) :
    Proc.Ensures (Arrives index opcode step) (match step with
      | .error err => return err
      | .ok reply => next reply) (Explains refusing) := by
  cases step with
  | error err => exact Proc.ensures_pure fun session other => .of_ne other session
  | ok reply => exact goesOn reply

/-- A verdict on the type of a reply: whatever is refused is not VM_OK. -/
theorem explains_type (refuses : UInt8 → Prop) [DecidablePred refuses] {more : Nat} {message : String}
    {rest : Command Err} (listed : (opcode, message) ∈ denials) (other : ∀ type, refuses type → type ≠ vmOk)
    (goesOn : Proc.Ensures (Heard 6 opcode reply) rest (Explains (systemRefusing denials))) :
    Proc.Ensures (Heard 6 opcode reply) (do
      let type ← reply.type
      if refuses type then denied reply more message else rest) (Explains (systemRefusing denials)) := by
  refine Proc.ensures_bind ensures_type fun type => ?_
  refine Proc.ensures_ite (fun refused => ?_) fun _ => goesOn.strengthen fun _ arrived => arrived.2
  rintro session ⟨rfl, heard⟩
  exact explains_denied more listed (other _ refused) session heard

theorem vmError_other (type : UInt8) (refused : type = vmError) : type ≠ vmOk := by
  rw [refused]
  decide

end Rules

theorem pathCommand_explains {init : SystemCmd} {denials : List (UInt8 × String)} (path : CString)
    (writeError readError success : String) {deniedError : String} (listed : (init.cmd, deniedError) ∈ denials) :
    Proc.Ensures (fun _ => True) (pathCommand init path writeError readError deniedError success)
      (Explains (systemRefusing denials)) := by
  unfold pathCommand
  cases alloc : packetAlloc init (path.bytes.length + 1) with
  | none => exact Proc.ensures_crash fun _ _ => trivial
  | some request =>
      obtain ⟨rfl, fits⟩ := packetAlloc_some alloc
      refine Proc.ensures_bind Proc.ensures_any fun stack => ?_
      refine Proc.ensures_bind (ensures_exchange (asksFor_framed ?_ rfl) _ _ _ _ _) fun step =>
        explains_step fun reply => ?_
      · refine Nat.le_trans ?_ (Nat.le_of_eq (allocated_length fits).symm)
        show 4 ≤ 7 + (path.bytes.length + 1) - 3
        omega
      · exact explains_type (· = vmError) listed vmError_other (explains_failWith nofun)

theorem continuingReply_explains (kind : Retrieval) {denials : List (UInt8 × String)} {opcode : UInt8} (reply : Reply)
    (listed : (opcode, "`" ++ kind.continuing ++ "` was denied.") ∈ denials) :
    Proc.Ensures (Heard 6 opcode reply) (continuingReply kind reply)
      fun step session => ∀ err, step = .error err → Explains (systemRefusing denials) err session := by
  unfold continuingReply
  refine Proc.ensures_bind ensures_type fun type => ?_
  refine Proc.ensures_ite (fun refused => ?_) fun _ => ?_
  · rintro session ⟨rfl, heard⟩ err ⟨⟩
    exact explains_denied _ listed (vmError_other _ refused) session heard
  · exact Proc.ensures_run (fun _ => rfl) fun _ _ => nofun

section Retrieve

variable {kind : Retrieval} {denials : List (UInt8 × String)} {later : UInt8}

theorem retrieveLoop_explains (asks : ∀ handle, ((kind.more handle).take kind.moreSize)[6]? = some later)
    (listed : (later, "`" ++ kind.continuing ++ "` was denied.") ∈ denials) (handle : UInt8) (reply : Reply)
    (readSoFar total : UInt32) :
    Proc.Ensures (fun _ => True) (retrieveLoop kind handle reply readSoFar total)
      (Explains (systemRefusing denials)) := by
  refine Proc.ensures_of_returned fun session err last _ ran => ?_
  generalize left : session.reads.length = size
  induction size using Nat.strongRecOn generalizing handle reply readSoFar session with
  | ind size ih =>
    by_cases below : readSoFar < total
    · have asking := @ensures_transact 6 later (fun _ => True) _ _ (asks handle) ("Unable to write " ++ kind.continuing)
        ("Unable to read " ++ kind.continuing ++ "_REPLY") reply kind.fileChunksz timeout
      rw [retrieveLoop, if_pos below] at ran
      split at ran
      · cases ran
      · rename_i failed after asked
        cases ran
        exact .of_ne (asking.returned trivial asked) _
      · rename_i got after asked
        have heard := asking.returned trivial asked
        split at ran
        · cases ran
        · rename_i used
          cases ran
          exact (continuingReply_explains kind got listed).returned heard used err rfl
        · rename_i used
          refine ih _ ?_ _ _ _ _ ran rfl
          rw [continuingReply_reads used, ← left]
          exact transact_reads asked
    · rw [retrieveLoop, if_neg below] at ran
      cases ran
      exact fun same => absurd same (by decide)

theorem retrieve_explains (asks : ∀ handle, ((kind.more handle).take kind.moreSize)[6]? = some later)
    (listedFirst : (kind.init.cmd, "`" ++ kind.opening ++ "` was denied.") ∈ denials)
    (listed : (later, "`" ++ kind.continuing ++ "` was denied.") ∈ denials) (path : CString) :
    Proc.Ensures (fun _ => True) (retrieve kind path) (Explains (systemRefusing denials)) := by
  unfold retrieve
  cases alloc : packetAlloc kind.init (path.bytes.length + 1) with
  | none => exact Proc.ensures_crash fun _ _ => trivial
  | some request =>
      obtain ⟨rfl, fits⟩ := packetAlloc_some alloc
      refine Proc.ensures_bind Proc.ensures_any fun stack => ?_
      refine Proc.ensures_bind (ensures_exchange (asksFor_framed ?_ rfl) _ _ _ _ _) fun step =>
        explains_step fun reply => ?_
      · refine Nat.le_trans ?_ (Nat.le_of_eq (allocated_length fits).symm)
        show 4 ≤ 9 + (path.bytes.length + 1) - 3
        omega
      · unfold openingReply
        refine explains_type (· = vmError) listedFirst vmError_other ?_
        unfold retrieveRest
        refine Proc.ensures_bind Proc.ensures_any fun packetLen => ?_
        refine Proc.ensures_bind Proc.ensures_any fun bytes => ?_
        refine Proc.ensures_bind Proc.ensures_any fun _ => ?_
        refine Proc.ensures_bind Proc.ensures_any fun total => ?_
        refine Proc.ensures_bind Proc.ensures_any fun handle => ?_
        exact retrieveLoop_explains asks listed handle reply _ total

end Retrieve

/-- Before the first chunk the reply to the opening is the last one, and it was no refusal. -/
def UpHeard (bdrep : Reply) (session : Session) : Prop :=
  (Heard 6 0x92 bdrep session ∧ bdrep.memory 4 ≠ vmError) ∨ Heard 6 0x93 bdrep session

theorem upLoop_explains {total finalSz : Nat} {cd : ContinueDownload} (bdrep : Reply) (i : Nat)
    (small : finalSz ≤ chunkSize) (cmd : cd.cmd = 0x93) (long : 4 ≤ cd.packetLen.toNat) :
    Proc.Ensures (UpHeard bdrep) (upLoop total finalSz cd bdrep i) fun step session =>
      match step with
      | .error err => err ≠ .vm
      | .ok reply => UpHeard reply session := by
  generalize left : total - i = size
  induction size generalizing cd bdrep i with
  | zero =>
      rw [upLoop, if_neg (by omega)]
      exact Proc.ensures_pure fun _ heard => heard
  | succ size ih =>
      rw [upLoop, if_pos (by omega)]
      refine Proc.ensures_bind Proc.ensures_any fun fileHandle => ?_
      refine Proc.ensures_bind Proc.ensures_any fun data => ?_
      have later : 4 ≤ (upPacket total finalSz i cd fileHandle data).packetLen.toNat := by
        show 4 ≤ (if i = total - 1 then UInt16.ofNat (8 + finalSz - 3) else cd.packetLen).toNat
        split
        · simp only [chunkSize] at small
          rw [UInt16.toNat_ofNat']
          omega
        · exact long
      have asked : AsksFor 0x93 (upPacket total finalSz i cd fileHandle data) := by
        refine asksFor_framed later ?_
        show some cd.cmd = _
        rw [cmd]
      refine Proc.ensures_bind (ensures_exchange asked _ _ _ _ _) fun step => ?_
      cases step with
      | error err => exact Proc.ensures_pure fun _ other => other
      | ok reply =>
          have same : (upPacket total finalSz i cd fileHandle data).cmd = 0x93 := cmd
          exact (ih reply (i + 1) same later (by omega)).strengthen fun _ heard => .inr heard

def upDenials : List (UInt8 × String) :=
  [(0x92, "BEGIN_DOWNLOAD was denied."), (0x93, "CONTINUE_DOWNLOAD was denied.")]

theorem upLast_explains (last : Reply) :
    Proc.Ensures (UpHeard last) (do
      let type ← last.type
      if type = vmError then denied last 0 "CONTINUE_DOWNLOAD was denied."
      else failWith "`upload` was successful." .unk) (Explains (systemRefusing upDenials)) := by
  have listed : ((0x93, "CONTINUE_DOWNLOAD was denied.") : UInt8 × String) ∈ upDenials := by simp [upDenials]
  rintro session (⟨first, accepted⟩ | later)
  · refine (Proc.ensures_bind ensures_type fun type => Proc.ensures_ite (fun refused => ?_)
      fun _ => explains_failWith (by decide)) session first
    rintro _ ⟨rfl, _⟩
    exact absurd refused accepted
  · exact explains_type (· = vmError) listed vmError_other (explains_failWith (by decide)) session later

theorem up_explains (dst : CString) : Proc.Ensures (fun _ => True) (up dst) (Explains (systemRefusing upDenials)) := by
  unfold up
  refine Proc.ensures_bind Proc.ensures_any fun fsize => ?_
  refine Proc.ensures_ite (fun _ => explains_return nofun) fun _ => ?_
  cases alloc : packetAlloc beginDownloadInit (dst.bytes.length + 1) with
  | none => exact Proc.ensures_crash fun _ _ => trivial
  | some bd =>
      obtain ⟨rfl, fits⟩ := packetAlloc_some alloc
      refine Proc.ensures_bind Proc.ensures_any fun stack => ?_
      refine Proc.ensures_bind (ensures_exchange (asksFor_framed ?_ rfl) _ _ _ _ _) fun step =>
        explains_step fun bdrep => ?_
      · refine Nat.le_trans ?_ (Nat.le_of_eq (allocated_length fits).symm)
        show 4 ≤ 11 + (dst.bytes.length + 1) - 3
        omega
      refine Proc.ensures_bind ensures_type fun type => Proc.ensures_ite (fun refused => ?_) fun accepted => ?_
      · rintro session ⟨rfl, heard⟩
        exact fun _ => ⟨0x92, _, bdrep, by simp [systemRefusing, upDenials], heard, vmError_other _ refused, rfl, rfl⟩
      · unfold upTransfer
        cases alloc : packetAlloc continueDownloadInit chunkSize with
        | none => exact Proc.ensures_crash fun _ _ => trivial
        | some cd =>
            obtain ⟨rfl, _⟩ := packetAlloc_some alloc
            have long : 4 ≤ (UInt16.ofNat (Packet.size ContinueDownload + chunkSize - prefixSize)).toNat := by decide
            have opened : Proc.Ensures (fun session => type = bdrep.memory 4 ∧ Heard 6 0x92 bdrep session) malloc
                fun _ => UpHeard bdrep := by
              refine Proc.ensures_run (fun _ => rfl) ?_
              rintro session ⟨rfl, heard⟩
              exact .inl ⟨heard, accepted⟩
            refine Proc.ensures_bind opened fun heap => ?_
            refine Proc.ensures_bind (upLoop_explains _ _ (finalChunkSz_small _) rfl long) fun step => ?_
            cases step with
            | error err => exact Proc.ensures_pure fun session other => .of_ne other session
            | ok last => exact upLast_explains last

section Never

variable {refusing : Refusing}

theorem ensures_unanswered {τ : Type} [Packet τ] (request : τ) (writeError : String) (reply : Reply) (size : Nat)
    (milliseconds : Int) (readError : String) :
    Proc.Ensures (fun _ => True) (exchange request writeError reply size milliseconds readError)
      fun step _ => ∀ err, step = .error err → err ≠ .vm := by
  intro session _
  rw [Proc.Ends, exchange_run]
  by_cases refused : session.writeResult < 0
  · rw [if_pos refused]
    exact fun err same => by cases same; decide
  · rw [if_neg refused]
    by_cases silent : session.readResult.res ≤ 0
    · rw [if_pos silent]
      exact fun err same => by cases same; decide
    · rw [if_neg silent]
      exact fun err same => by cases same

theorem closehndLoop_explains (request : CloseHandle) (reply : Reply) (stop hnd : Int) (count : Nat) :
    Proc.Ensures (fun _ => True) (closehndLoop request reply stop hnd count) (Explains refusing) := by
  generalize left : (stop - hnd).toNat = size
  induction size generalizing request reply hnd count with
  | zero =>
      rw [closehndLoop, if_neg (by omega)]
      exact explains_failWith (by decide)
  | succ size ih =>
      rw [closehndLoop, if_pos (by omega)]
      refine Proc.ensures_bind (ensures_unanswered _ _ _ _ _ _) fun step => ?_
      cases step with
      | error err => exact Proc.ensures_pure fun session other => .of_ne (other err rfl) session
      | ok reply =>
          refine Proc.ensures_bind Proc.ensures_any fun type => ?_
          refine Proc.ensures_bind Proc.ensures_any fun _ => ?_
          refine Proc.ensures_bind Proc.ensures_any fun _ => ?_
          exact ih _ reply (hnd + 1) (count + 1) (by omega)

theorem closehnd_explains (start stop : Int) :
    Proc.Ensures (fun _ => True) (closehnd start stop) (Explains refusing) := by
  unfold closehnd
  cases packetAlloc closeHandleInit 0 with
  | none => exact Proc.ensures_crash fun _ _ => trivial
  | some request =>
      refine Proc.ensures_bind Proc.ensures_any fun heap => ?_
      refine Proc.ensures_bind Proc.ensures_any fun _ => ?_
      exact closehndLoop_explains _ _ _ _ _

theorem info_explains (transport : Transport) (arg : Option String) :
    Proc.Ensures (fun _ => True) (info transport arg) (Explains refusing) := by
  cases arg with
  | some arg => exact Proc.ensures_ite (fun _ => explains_return nofun) fun _ => explains_return nofun
  | none =>
      refine Proc.ensures_bind Proc.ensures_any fun res => ?_
      exact Proc.ensures_ite (fun _ => explains_return nofun) fun _ => explains_failWith nofun

theorem runOutput_explains (reply : Reply) (len : UInt32) :
    Proc.Ensures (fun _ => True) (runOutput reply len) (Explains refusing) := by
  refine Proc.ensures_of_returned fun session err last _ ran => ?_
  generalize left : session.reads.length = size
  induction size using Nat.strongRecOn generalizing reply len session with
  | ind size ih =>
    rw [runOutput] at ran
    simp only at ran
    split at ran
    · rename_i positive
      exact ih _ (left ▸ Session.reads_shorter positive) _ _ _ ran rfl
    · split at ran
      · cases ran
        exact fun same => absurd same (by decide)
      · cases ran
        exact fun same => absurd same (by decide)

theorem run_explains (transport : Transport) (exec : CString) (milliseconds : UInt32) :
    Proc.Ensures (fun _ => True) (run transport exec milliseconds) (Explains refusing) := by
  unfold run
  cases packetAlloc executeFileInit (run1.length + (exec.bytes.length + 1) + run2.length) with
  | none => exact Proc.ensures_crash fun _ _ => trivial
  | some request =>
      refine Proc.ensures_bind Proc.ensures_any fun stack => ?_
      refine Proc.ensures_bind Proc.ensures_any fun lenStack => ?_
      refine Proc.ensures_bind Proc.ensures_any fun res => ?_
      refine Proc.ensures_ite (fun _ => explains_return nofun) fun _ => ?_
      refine Proc.ensures_bind Proc.ensures_any fun answer => ?_
      refine Proc.ensures_ite (fun _ => explains_return nofun) fun _ => ?_
      refine Proc.ensures_bind Proc.ensures_any fun packet => ?_
      refine Proc.ensures_ite (fun _ => explains_failWith nofun) fun _ => ?_
      unfold runReply
      refine Proc.ensures_ite (fun _ => ?_) fun _ => explains_failWith nofun
      split
      · exact explains_failWith nofun
      · exact Proc.ensures_bind Proc.ensures_any fun _ => runOutput_explains _ _

theorem bootloaderEnter_explains : Proc.Ensures (fun _ => True) bootloaderEnter (Explains refusing) := by
  unfold bootloaderEnter
  cases packetAlloc enterFwUpdateInit 0 with
  | none => exact Proc.ensures_crash fun _ _ => trivial
  | some request =>
      refine Proc.ensures_bind Proc.ensures_any fun res => ?_
      exact Proc.ensures_ite (fun _ => explains_failWith nofun) fun _ => explains_failWith nofun

end Never

section Bootloader

variable {denials : List (UInt8 × String)} {opcode : UInt8}

theorem bootloaderReply_explains (reply : Reply) (more : Nat) {deniedError : String}
    (listed : (opcode, deniedError) ∈ denials) :
    Proc.Ensures (Heard 6 opcode reply) (bootloaderReply reply more deniedError) (Explains (systemRefusing denials)) :=
  explains_type (fun type => type ≠ vmOk ∧ type ≠ vmSysRq) listed (fun _ refused => refused.1) (explains_return nofun)

theorem bootloaderStep_explains {τ : Type} [Packet τ] {request : Option τ}
    (asks : ∀ packet ∈ request, AsksFor opcode packet) (writeError readError : String) {deniedError : String}
    (listed : (opcode, deniedError) ∈ denials) (milliseconds : Int) (more : Nat) :
    Proc.Ensures (fun _ => True) (bootloaderStep request writeError readError deniedError milliseconds more)
      (Explains (systemRefusing denials)) := by
  unfold bootloaderStep
  cases request with
  | none => exact Proc.ensures_crash fun _ _ => trivial
  | some request =>
      refine Proc.ensures_bind Proc.ensures_any fun heap => ?_
      refine Proc.ensures_bind (ensures_exchange (asks request rfl) _ _ _ _ _) fun step => explains_step fun reply => ?_
      exact bootloaderReply_explains reply more listed

def infoDenials : List (UInt8 × String) := [(0xF6, "`FW_GETVERSION` was denied.")]

theorem bootloaderInfo_explains :
    Proc.Ensures (fun _ => True) bootloaderInfo (Explains (systemRefusing infoDenials)) := by
  unfold bootloaderInfo
  cases alloc : packetAlloc fwGetVersionInit 0 with
  | none => exact Proc.ensures_crash fun _ _ => trivial
  | some request =>
      cases alloc
      have asked : AsksFor 0xF6 _ := @asksFor_framed _ _ { fwGetVersionInit with packetLen := 4 } _ (by decide) rfl
      refine Proc.ensures_bind Proc.ensures_any fun heap => ?_
      refine Proc.ensures_bind (ensures_exchange asked _ _ _ _ _) fun step => explains_step fun reply => ?_
      refine Proc.ensures_bind ensures_type fun type => ?_
      refine Proc.ensures_ite (fun _ => explains_return nofun) fun _ => ?_
      refine Proc.ensures_ite (fun refused => ?_) fun _ => ?_
      · rintro session ⟨rfl, heard⟩
        exact explains_denied 0 (by simp [infoDenials]) refused session heard
      · refine Proc.ensures_bind Proc.ensures_any fun _ => ?_
        refine Proc.ensures_bind Proc.ensures_any fun _ => ?_
        exact explains_failWith nofun

/-- What goes on after a verdict goes on or passes the verdict on. -/
theorem explains_unless {next : Command Err} {err : Err}
    (goesOn : Proc.Ensures (fun _ => True) next (Explains (systemRefusing denials))) :
    Proc.Ensures (Explains (systemRefusing denials) err) (match err with
      | .unk => next
      | err => return err) (Explains (systemRefusing denials)) := by
  cases err with
  | unk => exact goesOn.strengthen fun _ _ => trivial
  | _ => exact Proc.ensures_pure fun _ explained => explained

theorem bootloaderExit_explains (listed : (0xF4, "`FW_STARTAPP` was denied.") ∈ denials) :
    Proc.Ensures (fun _ => True) bootloaderExit (Explains (systemRefusing denials)) := by
  refine Proc.ensures_bind (bootloaderStep_explains ?_ _ _ listed _ _)
    fun _ => explains_unless (explains_failWith nofun)
  rintro _ ⟨⟩
  exact asksFor_framed (by decide) rfl

theorem sendLoop_explains (listed : (0xF2, "`FW_DOWNLOAD_DATA` was denied.") ∈ denials) (total : Nat)
    {request : SystemCmd} (cmd : request.cmd = 0xF2) (reply : Reply) (sentSoFar : Nat) (fileEnded : Bool)
    (crc : UInt32) :
    Proc.Ensures (fun _ => True) (sendLoop total request reply sentSoFar fileEnded crc)
      fun step session => ∀ err, step = .error err → Explains (systemRefusing denials) err session := by
  generalize left : total - sentSoFar = size
  induction size using Nat.strongRecOn generalizing request reply sentSoFar fileEnded crc with
  | ind size ih =>
    rw [sendLoop]
    refine Proc.ensures_ite (fun more => ?_) fun _ => Proc.ensures_pure fun _ _ err failed => absurd failed (by simp)
    refine Proc.ensures_bind Proc.ensures_any fun filled => ?_
    have asked (thisBlock : Nat) (small : thisBlock ≤ maxPayload) (payload : Bytes) :
        AsksFor 0xF2 (withBlock request thisBlock payload) := by
      refine asksFor_framed ?_ ?_
      · show 4 ≤ (UInt16.ofNat (7 - 3 + thisBlock)).toNat
        have bound : maxPayload = 1018 := rfl
        rw [UInt16.toNat_ofNat']
        omega
      · show some request.cmd = _
        rw [cmd]
    have same (thisBlock : Nat) (payload : Bytes) : (withBlock request thisBlock payload).cmd = 0xF2 := cmd
    refine Proc.ensures_bind (ensures_exchange (asked _ ?_ _) _ _ _ _ _) fun step => ?_
    · split <;> omega
    cases step with
    | error err =>
        refine Proc.ensures_pure fun session other => ?_
        rintro _ ⟨⟩
        exact .of_ne other session
    | ok reply =>
        refine Proc.ensures_bind (bootloaderReply_explains reply _ listed) fun err => ?_
        cases err with
        | unk =>
            refine (ih _ ?_ (same _ _) reply _ _ _ rfl).strengthen fun _ _ => trivial
            have positive : 0 < maxPayload := by decide
            split <;> omega
        | _ =>
            refine Proc.ensures_pure fun session explained => ?_
            rintro _ ⟨⟩
            exact explained

theorem bootloaderSend_explains (listed : (0xF2, "`FW_DOWNLOAD_DATA` was denied.") ∈ denials) (length : Nat) :
    Proc.Ensures (fun _ => True) (bootloaderSend length) fun sent => Explains (systemRefusing denials) sent.1 := by
  unfold bootloaderSend
  cases alloc : packetAlloc fwDownloadDataInit maxPayload with
  | none => exact Proc.ensures_crash fun _ _ => trivial
  | some request =>
      cases alloc
      refine Proc.ensures_bind Proc.ensures_any fun payload => ?_
      refine Proc.ensures_bind Proc.ensures_any fun heap => ?_
      have sending := @sendLoop_explains denials listed length
      refine Proc.ensures_bind ((sending rfl _ _ _ _).strengthen fun _ _ => trivial) fun step => ?_
      cases step with
      | error err => exact Proc.ensures_pure fun session explained => explained err rfl
      | ok crc => exact Proc.ensures_pure fun _ _ same => nomatch same

theorem bootloaderChecksum_explains (listed : (0xF5, "`FW_GETCRC32` was denied.") ∈ denials) (offset length : Nat) :
    Proc.Ensures (fun _ => True) (bootloaderChecksum offset length)
      fun sum => Explains (systemRefusing denials) sum.1 := by
  unfold bootloaderChecksum
  cases alloc : packetAlloc fwGetCrc32Init 0 with
  | none => exact Proc.ensures_crash fun _ _ => trivial
  | some request =>
      obtain ⟨rfl, _⟩ := packetAlloc_some alloc
      have long : 4 ≤ (UInt16.ofNat (Packet.size FlashRegion + 0 - prefixSize)).toNat := by decide
      refine Proc.ensures_bind Proc.ensures_any fun heap => ?_
      refine Proc.ensures_bind (ensures_exchange (asksFor_framed long rfl) _ _ _ _ _) fun step => ?_
      cases step with
      | error err => exact Proc.ensures_pure fun session other => .of_ne other session
      | ok reply =>
          refine Proc.ensures_bind ensures_type fun type => ?_
          refine Proc.ensures_ite (fun _ => Proc.ensures_pure fun _ _ same => nomatch same) fun _ => ?_
          refine Proc.ensures_ite (fun refused => ?_) fun _ => ?_
          · rintro session ⟨rfl, heard⟩
            exact explains_denied 2 listed refused session heard
          · refine Proc.ensures_bind Proc.ensures_any fun crc => ?_
            exact Proc.ensures_pure fun _ _ same => nomatch same

def installDenials : List (UInt8 × String) :=
  [(0xF3, "`FW_ERASEFLASH` was denied."), (0xF1, "`FW_START_DOWNLOAD` was denied."),
    (0xF2, "`FW_DOWNLOAD_DATA` was denied."), (0xF5, "`FW_GETCRC32` was denied."),
    (0xF4, "`FW_STARTAPP` was denied.")]

theorem bootloaderVerify_explains (localCrc : UInt32) :
    Proc.Ensures (fun _ => True) (bootloaderVerify localCrc) (Explains (systemRefusing installDenials)) := by
  have exits := @bootloaderExit_explains installDenials (by simp [installDenials])
  have summed := @bootloaderChecksum_explains installDenials (by simp [installDenials]) flashStart flashSize
  refine Proc.ensures_bind summed fun sum => ?_
  obtain ⟨err, remoteCrc⟩ := sum
  cases err with
  | usbLoop => exact exits.strengthen fun _ _ => trivial
  | unk =>
      refine Proc.ensures_ite (fun _ => explains_return nofun) fun _ => ?_
      exact exits.strengthen fun _ _ => trivial
  | _ => exact Proc.ensures_pure fun _ explained => explained

theorem bootloaderInstall_explains :
    Proc.Ensures (fun _ => True) bootloaderInstall (Explains (systemRefusing installDenials)) := by
  have erases : ((0xF3, "`FW_ERASEFLASH` was denied.") : UInt8 × String) ∈ installDenials := by simp [installDenials]
  have starts : ((0xF1, "`FW_START_DOWNLOAD` was denied.") : UInt8 × String) ∈ installDenials := by
    simp [installDenials]
  refine Proc.ensures_bind (bootloaderStep_explains ?_ _ _ erases _ _) fun erased => explains_unless ?_
  · rintro _ ⟨⟩
    exact asksFor_framed (by decide) rfl
  refine Proc.ensures_bind (bootloaderStep_explains ?_ _ _ starts _ _) fun started => explains_unless ?_
  · rintro _ ⟨⟩
    exact asksFor_framed (by decide) rfl
  refine Proc.ensures_bind (@bootloaderSend_explains installDenials (by simp [installDenials]) flashSize) fun sent => ?_
  exact explains_unless (bootloaderVerify_explains sent.2)

end Bootloader

/-- Bytecode has its type where system commands have it, and `vmexec` takes the type of the reply for a status. -/
def directRefusing : Refusing := ⟨5, 4, vmDirectOk, [(0x00, "`vmexec` failed.")]⟩

/-- The last thing done was to write a packet that asks for a reply. -/
def Written (session : Session) : Prop :=
  ∃ early packet count res, session.log = early ++ [.write packet count res] ∧ packet[5]? = some 0

theorem vmexecReply_explains (out : VmOutput) (globals : Nat) :
    Proc.Ensures Written (vmexecReply out globals) (Explains directRefusing) := by
  have reading (reply : Reply) (size : Nat) (milliseconds : Int) :
      Proc.Ensures Written (ev3ReadTimeout reply size milliseconds)
        fun answer session => 0 < answer.1 → Heard 5 0x00 answer.2 session := by
    refine Proc.ensures_run (fun _ => rfl) ?_
    rintro session ⟨early, packet, count, res, log, asked⟩ arrived
    refine ⟨early, packet, count, res, size, milliseconds, session.readResult, reply, ?_, asked, arrived, rfl⟩
    show session.log ++ _ = _
    rw [log, List.append_assoc]
    rfl
  have quiet : Proc.Ensures Written malloc fun _ => Written := Proc.ensures_run (fun _ => rfl) fun _ written => written
  refine Proc.ensures_bind quiet fun heap => ?_
  refine Proc.ensures_bind (reading _ _ _) fun answer => ?_
  obtain ⟨res, reply⟩ := answer
  refine Proc.ensures_ite (fun _ => explains_failWith nofun) fun arrived => ?_
  refine Proc.ensures_bind (ensures_type.strengthen fun _ heard => heard (Int.not_le.mp arrived)) fun type => ?_
  refine Proc.ensures_ite (fun refused => ?_) fun _ => ?_
  · rintro session ⟨rfl, heard⟩
    exact fun _ => ⟨0x00, _, reply, List.mem_singleton_self _, heard, refused, rfl, rfl⟩
  · cases out <;> exact Proc.ensures_run (fun _ => rfl) fun _ _ same => nomatch same

theorem vmexecRequest_written (request : VmCmd) (code : Bytes) (locals globals : Int) {useReply : Bool} :
    Proc.Ensures (fun _ => code.length ≤ maxBytecodes)
      (writePacket (vmexecRequest request code locals globals useReply))
      fun _ session => useReply = true → Written session := by
  refine Proc.ensures_run (writePacket_run _) ?_
  rintro session short rfl
  refine ⟨session.log, _, _, _, session.afterWrite_log _ _, ?_⟩
  have bound : maxBytecodes = 1017 := rfl
  have count : Packet.count (vmexecRequest request code locals globals true) =
      (UInt16.ofNat (code.length + 8 - 3)).toNat + 3 := rfl
  rw [UInt16.toNat_ofNat'] at count
  rw [List.getElem?_take_of_lt (by omega)]
  rfl

theorem vmexec_explains (out : VmOutput) (locals globals : Int) (useReply : Bool) :
    Proc.Ensures (fun _ => True) (vmexec out locals globals useReply) (Explains directRefusing) := by
  refine Proc.ensures_ite (fun _ => explains_return (by decide)) fun _ => ?_
  refine Proc.ensures_ite (fun _ => explains_return (by decide)) fun _ => ?_
  cases alloc : packetAlloc executeFileInit maxBytecodes with
  | none => exact Proc.ensures_crash fun _ _ => trivial
  | some request =>
      have short : Proc.Ensures (fun _ => True) (freadToEnd maxBytecodes)
          fun input _ => input.1.length ≤ maxBytecodes := by
        refine Proc.ensures_run (freadToEnd_returned maxBytecodes) fun session _ => ?_
        have within : session.input.transfer maxBytecodes ≤ maxBytecodes := by
          simp only [File.transfer]
          omega
        rw [List.length_take]
        exact Nat.le_trans (Nat.min_le_left _ _) within
      refine Proc.ensures_bind short fun input => ?_
      refine Proc.ensures_ite (fun _ => explains_return (by decide)) fun _ => ?_
      refine Proc.ensures_ite (fun _ => explains_return (by decide)) fun _ => ?_
      refine Proc.ensures_bind (vmexecRequest_written _ _ _ _) fun res => ?_
      refine Proc.ensures_ite (fun _ => explains_failWith (by decide)) fun _ => ?_
      refine Proc.ensures_ite (fun _ => explains_failWith (by decide)) fun replied => ?_
      exact (vmexecReply_explains out _).strengthen fun _ written => written (by simpa using replied)

/-- What the brick may refuse of each command. -/
def Invocation.refusing : Invocation → Refusing
  | .up _ => systemRefusing upDenials
  | .dl _ => systemRefusing [(0x94, "`BEGIN_UPLOAD` was denied."), (0x95, "`CONTINUE_UPLOAD` was denied.")]
  | .ls _ => systemRefusing [(0x99, "`LIST_FILES` was denied."), (0x9A, "`CONTINUE_LIST_FILES` was denied.")]
  | .rm _ => systemRefusing [(0x9C, "`DELETE_FILE` was denied.")]
  | .mkdir_ _ => systemRefusing [(0x9B, "`CREATE_DIR` was denied.")]
  | .vmexec .. => directRefusing
  | .bootloaderInstall => systemRefusing installDenials
  | .bootloaderInfo => systemRefusing infoDenials
  | .bootloaderExit => systemRefusing [(0xF4, "`FW_STARTAPP` was denied.")]
  | .run .. | .closehnd .. | .info .. | .bootloaderEnter => systemRefusing []

theorem Invocation.explains (invocation : Invocation) :
    Proc.Ensures (fun _ => True) invocation.command (Explains invocation.refusing) := by
  cases invocation with
  | up dst => exact up_explains dst
  | dl path => exact @retrieve_explains dlRetrieval _ 0x95 (fun _ => rfl) (by decide) (by decide) path
  | ls path => exact @retrieve_explains lsRetrieval _ 0x9A (fun _ => rfl) (by decide) (by decide) path
  | rm path => exact pathCommand_explains path _ _ _ (List.mem_singleton_self _)
  | mkdir_ path => exact pathCommand_explains path _ _ _ (List.mem_singleton_self _)
  | run transport exec milliseconds => exact run_explains transport exec milliseconds
  | vmexec out locals globals useReply => exact vmexec_explains out locals globals useReply
  | closehnd start stop => exact closehnd_explains start stop
  | info transport arg => exact info_explains transport arg
  | bootloaderEnter => exact bootloaderEnter_explains
  | bootloaderInstall => exact bootloaderInstall_explains
  | bootloaderInfo => exact bootloaderInfo_explains
  | bootloaderExit => exact bootloaderExit_explains (List.mem_singleton_self _)

end Ev3duder
