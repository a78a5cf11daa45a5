import Ev3duder.Commands.Upload
import Ev3duder.Commands.Fetched
import Ev3duder.Commands.Vm
import Ev3duder.Data.Framing
import Ev3duder.Firmware.Safety

namespace Ev3duder

open Data

/-! # Every packet begins with its length -/

/-- A buffer of `count` bytes handed to `ev3_write`: a zero HID byte, then a frame. -/
def WellFramed (packet : Bytes) (count : Nat) : Prop :=
  packet.length = count ∧ packet[0]? = some 0 ∧ 3 ≤ count ∧ leValue ((packet.drop 1).take 2) = count - prefixSize

def Event.WellFramed : Event → Prop
  | .write packet count _ => Ev3duder.WellFramed packet count
  | .read .. => True

abbrev Frames : Session → Session → Prop := Session.Logs Event.WellFramed

section Frames

variable {α β : Type}

theorem frames_bind {first : Command α} {next : α → Command β} (head : Proc.Within Frames first)
    (tail : ∀ value, Proc.Within Frames (next value)) : Proc.Within Frames (first >>= next) := by
  have trans : ∀ first second third, Frames first second → Frames second third → Frames first third :=
    fun _ _ _ => Session.Logs.trans
  exact Proc.within_bind trans head tail

theorem frames_ite {condition : Prop} [Decidable condition] {yes no : Command α}
    (whenTrue : Proc.Within Frames yes) (whenFalse : Proc.Within Frames no) :
    Proc.Within Frames (if condition then yes else no) :=
  Proc.within_ite (fun _ => whenTrue) fun _ => whenFalse

theorem frames_quiet {command : Command α} (quiet : ∀ session, (command session).2.log = session.log) :
    Proc.Within Frames command :=
  fun session => Session.Logs.of_same_log (quiet session)

theorem frames_failWith (message : String) (err : Err) : Proc.Within Frames (failWith message err) :=
  frames_quiet fun _ => rfl

theorem frames_denied (reply : Reply) (more : Nat) (message : String) :
    Proc.Within Frames (denied reply more message) :=
  frames_quiet fun _ => rfl

theorem frames_write {buf : Bytes} {count : Nat} (framed : WellFramed (buf.take count) count) :
    Proc.Within Frames (ev3Write buf count) := by
  intro session
  exact Session.Logs.snoc (session.afterWrite_log buf count) framed

theorem frames_read (reply : Reply) (size : Nat) (milliseconds : Int) :
    Proc.Within Frames (ev3ReadTimeout reply size milliseconds) := by
  intro session
  have log : (session.afterRead size milliseconds).log =
      session.log ++ [.read size milliseconds session.readResult] := rfl
  exact Session.Logs.snoc log trivial

theorem logs_transact {property : Event → Prop} {buf : Bytes} {count size : Nat} {milliseconds : Int}
    (written : ∀ res, property (.write (buf.take count) count res))
    (read : ∀ result, property (.read size milliseconds result)) (writeError : String) (reply : Reply)
    (readError : String) :
    Proc.Within (Session.Logs property) (transact buf count writeError reply size milliseconds readError) := by
  intro session
  have both : Session.Logs property session (session.afterTransact buf count size milliseconds) := by
    refine ⟨_, Session.afterTransact_log, ?_⟩
    simp only [List.forall_mem_cons, List.not_mem_nil, false_implies, implies_true, and_true]
    exact ⟨written _, read _⟩
  rw [transact_run]
  split
  · exact Session.Logs.snoc (session.afterWrite_log buf count) (written _)
  · split
    · exact both
    · exact both

theorem frames_transact {buf : Bytes} {count : Nat} (framed : WellFramed (buf.take count) count)
    (writeError : String) (reply : Reply) (size : Nat) (milliseconds : Int) (readError : String) :
    Proc.Within Frames (transact buf count writeError reply size milliseconds readError) :=
  logs_transact (fun _ => framed) (fun _ => trivial) writeError reply readError

theorem wellFramed_packet {τ : Type} [Packet τ] {packet : τ} (hid : Packet.hidLayer packet = 0)
    (enough : (Packet.packetLen packet).toNat ≤ (Packet.tail packet).length) :
    WellFramed (Packet.handed packet) (Packet.count packet) := by
  have length : (Packet.toBytes packet).length = (Packet.tail packet).length + 3 := by
    simp only [Packet.toBytes, List.length_cons, List.length_append, leBytes_length]
    omega
  have field : ((Packet.handed packet).drop 1).take 2 =
      leBytes 2 (Packet.packetLen packet).toNat := rfl
  have bound := (Packet.packetLen packet).toNat_lt
  refine ⟨?_, ?_, Nat.le_add_left _ _, ?_⟩
  · rw [List.length_take, length, Packet.count, prefixSize]
    omega
  · change some (Packet.hidLayer packet) = some 0
    rw [hid]
  · rw [field, leValue_leBytes_of_lt (by omega), Packet.count, Nat.add_sub_cancel]

theorem frames_exchange {τ : Type} [Packet τ] {request : τ} (hid : Packet.hidLayer request = 0)
    (enough : (Packet.packetLen request).toNat ≤ (Packet.tail request).length) (writeError : String)
    (reply : Reply) (size : Nat) (milliseconds : Int) (readError : String) :
    Proc.Within Frames (exchange request writeError reply size milliseconds readError) :=
  frames_transact (wellFramed_packet hid enough) writeError reply size milliseconds readError

theorem packetAlloc_some {τ : Type} [Packet τ] {init request : τ} {extra : Nat}
    (alloc : packetAlloc init extra = some request) :
    request = Packet.setPacketLen init (UInt16.ofNat (Packet.size τ + extra - prefixSize)) ∧
      Packet.size τ + extra < 65535 := by
  unfold packetAlloc at alloc
  split at alloc
  · cases alloc
    exact ⟨rfl, ‹_›⟩
  · cases alloc

end Frames

theorem pathCommand_frames (init : SystemCmd) (hid : init.hidLayer = 0) (path : CString)
    (writeError readError deniedError success : String) :
    Proc.Within Frames (pathCommand init path writeError readError deniedError success) := by
  unfold pathCommand
  cases alloc : packetAlloc init (path.bytes.length + 1) with
  | none => exact frames_quiet fun _ => rfl
  | some request =>
      obtain ⟨rfl, fits⟩ := packetAlloc_some alloc
      refine frames_bind (frames_quiet fun _ => rfl) fun stack => ?_
      refine frames_bind (frames_exchange hid ?_ _ _ _ _ _) fun step => ?_
      · refine Nat.le_trans (Nat.le_of_eq (allocated_length fits)) ?_
        simp [Packet.tail, Packet.size, Packet.setPacketLen, CommandFields.tail]
        omega
      · cases step with
        | error err => exact frames_quiet fun _ => rfl
        | ok reply =>
            refine frames_bind (frames_quiet fun _ => rfl) fun type => ?_
            exact frames_ite (frames_denied _ _ _) (frames_failWith _ _)

theorem closehndLoop_frames {request : CloseHandle} (hid : request.hidLayer = 0) (len : request.packetLen = 5)
    (reply : Reply) (stop hnd : Int) (count : Nat) :
    Proc.Within Frames (closehndLoop request reply stop hnd count) := by
  generalize left : (stop - hnd).toNat = size
  induction size generalizing request reply hnd count with
  | zero =>
      rw [closehndLoop, if_neg (by omega)]
      exact frames_failWith _ _
  | succ size ih =>
      rw [closehndLoop, if_pos (by omega)]
      refine frames_bind (frames_exchange hid ?_ _ _ _ _ _) fun step => ?_
      · change request.packetLen.toNat ≤ 5
        rw [len]
        decide
      · cases step with
        | error err => exact frames_quiet fun _ => rfl
        | ok reply =>
            refine frames_bind (frames_quiet fun _ => rfl) fun type => ?_
            refine frames_bind (frames_quiet fun _ => rfl) fun _ => ?_
            refine frames_bind (frames_quiet fun _ => rfl) fun _ => ?_
            refine ih ?_ ?_ reply (hnd + 1) (count + 1) (by omega)
            · exact hid
            · exact len

theorem closehnd_frames (start stop : Int) : Proc.Within Frames (closehnd start stop) := by
  have alloc : packetAlloc closeHandleInit 0 = some { closeHandleInit with packetLen := 5 } := rfl
  unfold closehnd
  rw [alloc]
  refine frames_bind (frames_quiet fun _ => rfl) fun heap => ?_
  refine frames_bind (frames_quiet fun _ => rfl) fun _ => ?_
  exact closehndLoop_frames rfl rfl _ _ _ _

theorem info_frames (transport : Transport) (arg : Option String) : Proc.Within Frames (info transport arg) := by
  cases arg with
  | some arg => exact frames_ite (frames_quiet fun _ => rfl) (frames_quiet fun _ => rfl)
  | none =>
      refine frames_bind (frames_write (by unfold WellFramed; decide)) fun res => ?_
      exact frames_ite (frames_quiet fun _ => rfl) (frames_failWith _ _)

theorem runOutput_frames (reply : Reply) (len : UInt32) : Proc.Within Frames (runOutput reply len) := by
  intro session
  generalize left : session.reads.length = size
  induction size using Nat.strongRecOn generalizing reply len session with
  | ind size ih =>
    have here := frames_read reply runReplySize 100 session
    rw [runOutput]
    simp only
    split
    · rename_i positive
      refine Session.Logs.trans here ?_
      exact ih _ (left ▸ Session.reads_shorter positive) _ _ _ rfl
    · split
      · exact here
      · exact here

theorem runReply_frames (transport : Transport) (reply : Reply) (stack : Memory) :
    Proc.Within Frames (runReply transport reply stack) := by
  refine frames_ite ?_ (frames_failWith _ _)
  split
  · exact frames_failWith _ _
  · exact frames_bind (frames_quiet fun _ => rfl) fun _ => runOutput_frames _ _

theorem run_frames (transport : Transport) (exec : CString) (milliseconds : UInt32) :
    Proc.Within Frames (run transport exec milliseconds) := by
  unfold run
  cases alloc : packetAlloc executeFileInit (run1.length + (exec.bytes.length + 1) + run2.length) with
  | none => exact frames_quiet fun _ => rfl
  | some request =>
      obtain ⟨rfl, fits⟩ := packetAlloc_some alloc
      refine frames_bind (frames_quiet fun _ => rfl) fun stack => ?_
      refine frames_bind (frames_quiet fun _ => rfl) fun lenStack => ?_
      refine frames_bind (frames_write (wellFramed_packet rfl ?_)) fun res => ?_
      · refine Nat.le_trans (Nat.le_of_eq (allocated_length fits)) ?_
        simp [Packet.tail, Packet.size, Packet.setPacketLen]
        omega
      · refine frames_ite (frames_quiet fun _ => rfl) ?_
        refine frames_bind (frames_read _ _ _) fun answer => ?_
        refine frames_ite (frames_quiet fun _ => rfl) ?_
        refine frames_bind (frames_quiet fun _ => rfl) fun packet => ?_
        exact frames_ite (frames_failWith _ _) (runReply_frames _ _ _)

theorem vmexecReply_frames (out : VmOutput) (globals : Nat) : Proc.Within Frames (vmexecReply out globals) := by
  refine frames_bind (frames_quiet fun _ => rfl) fun heap => ?_
  refine frames_bind (frames_read _ _ _) fun answer => ?_
  refine frames_ite (frames_failWith _ _) ?_
  refine frames_bind (frames_quiet fun _ => rfl) fun replyType => ?_
  refine frames_ite (frames_quiet fun _ => rfl) ?_
  cases out <;> exact frames_quiet fun _ => rfl

theorem vmexec_frames (out : VmOutput) (locals globals : Int) (useReply : Bool) :
    Proc.Within Frames (vmexec out locals globals useReply) := by
  refine frames_ite (frames_quiet fun _ => rfl) (frames_ite (frames_quiet fun _ => rfl) ?_)
  cases alloc : packetAlloc executeFileInit maxBytecodes with
  | none => exact frames_quiet fun _ => rfl
  | some request =>
      obtain ⟨rfl, _⟩ := packetAlloc_some alloc
      refine frames_bind (frames_quiet fun _ => rfl) fun input => ?_
      refine frames_ite (frames_quiet fun _ => rfl) (frames_ite (frames_quiet fun _ => rfl) ?_)
      refine frames_bind (frames_write (wellFramed_packet rfl ?_)) fun res => ?_
      · change (UInt16.ofNat (input.1.length + 8 - 3)).toNat ≤ _
        rw [UInt16.toNat_ofNat']
        simp [Packet.tail, vmexecRequest]
        omega
      · refine frames_ite (frames_failWith _ _) (frames_ite (frames_failWith _ _) ?_)
        exact vmexecReply_frames _ _

theorem upPacket_enough (total i : Nat) {finalSz : Nat} {cd : ContinueDownload} (small : finalSz ≤ chunkSize)
    (len : cd.packetLen.toNat ≤ 1005) (chunk : 1000 ≤ cd.fileChunk.length) (fileHandle : UInt8) (data : Bytes) :
    (Packet.packetLen (upPacket total finalSz i cd fileHandle data)).toNat ≤ 1005 ∧
      1000 ≤ (upPacket total finalSz i cd fileHandle data).fileChunk.length := by
  have bound : finalSz ≤ 1000 := small
  constructor
  · change (if i = total - 1 then UInt16.ofNat (8 + finalSz - 3) else cd.packetLen).toNat ≤ 1005
    split
    · rw [UInt16.toNat_ofNat']
      omega
    · exact len
  · change 1000 ≤ (data ++ cd.fileChunk.drop data.length).length
    rw [List.length_append, List.length_drop]
    omega

theorem upLoop_frames {total finalSz : Nat} (small : finalSz ≤ chunkSize) {cd : ContinueDownload}
    (hid : cd.hidLayer = 0) (len : cd.packetLen.toNat ≤ 1005) (chunk : 1000 ≤ cd.fileChunk.length)
    (bdrep : Reply) (i : Nat) : Proc.Within Frames (upLoop total finalSz cd bdrep i) := by
  generalize left : total - i = size
  induction size generalizing cd bdrep i with
  | zero =>
      rw [upLoop, if_neg (by omega)]
      exact frames_quiet fun _ => rfl
  | succ size ih =>
      rw [upLoop, if_pos (by omega)]
      refine frames_bind (frames_quiet fun _ => rfl) fun fileHandle => ?_
      refine frames_bind (frames_quiet fun _ => rfl) fun data => ?_
      obtain ⟨lenNext, chunkNext⟩ := upPacket_enough total i small len chunk fileHandle data
      refine frames_bind (frames_exchange hid ?_ _ _ _ _ _) fun step => ?_
      · refine Nat.le_trans lenNext ?_
        simp only [Packet.tail, CommandFields.tail, List.length_append, List.length_cons, leBytes_length]
        omega
      · cases step with
        | error err => exact frames_quiet fun _ => rfl
        | ok reply =>
            refine ih ?_ ?_ ?_ reply (i + 1) (by omega)
            · exact hid
            · exact lenNext
            · exact chunkNext

theorem upTransfer_frames (fsize : Nat) (bdrep : Reply) : Proc.Within Frames (upTransfer fsize bdrep) := by
  have alloc : packetAlloc continueDownloadInit chunkSize =
      some { continueDownloadInit with packetLen := 1005 } := rfl
  unfold upTransfer
  rw [alloc]
  refine frames_bind (frames_quiet fun _ => rfl) fun heap => ?_
  refine frames_bind (upLoop_frames (finalChunkSz_small fsize) rfl ?_ ?_ _ _) fun step => ?_
  · exact Nat.le_of_eq rfl
  · simp only [Memory.load_length, chunkSize, Nat.le_refl]
  · cases step with
    | error err => exact frames_quiet fun _ => rfl
    | ok reply =>
        refine frames_bind (frames_quiet fun _ => rfl) fun type => ?_
        exact frames_ite (frames_denied _ _ _) (frames_failWith _ _)

theorem up_frames (dst : CString) : Proc.Within Frames (up dst) := by
  refine frames_bind (frames_quiet fun _ => rfl) fun fsize => ?_
  refine frames_ite (frames_quiet fun _ => rfl) ?_
  cases alloc : packetAlloc beginDownloadInit (dst.bytes.length + 1) with
  | none => exact frames_quiet fun _ => rfl
  | some request =>
      obtain ⟨rfl, fits⟩ := packetAlloc_some alloc
      refine frames_bind (frames_quiet fun _ => rfl) fun stack => ?_
      refine frames_bind (frames_exchange rfl ?_ _ _ _ _ _) fun step => ?_
      · refine Nat.le_trans (Nat.le_of_eq (allocated_length fits)) ?_
        simp [Packet.tail, Packet.size, Packet.setPacketLen, CommandFields.tail]
        omega
      · cases step with
        | error err => exact frames_quiet fun _ => rfl
        | ok reply =>
            refine frames_bind (frames_quiet fun _ => rfl) fun type => ?_
            exact frames_ite (frames_quiet fun _ => rfl) (upTransfer_frames _ _)

theorem wellFramed_whole {τ : Type} [Packet τ] {packet : τ} (hid : Packet.hidLayer packet = 0)
    (framed : (Packet.packetLen packet).toNat = (Packet.tail packet).length) :
    WellFramed (Packet.toBytes packet) (Packet.toBytes packet).length := by
  have whole := wellFramed_packet hid (Nat.le_of_eq framed)
  rwa [Packet.handed_eq framed, Packet.count_eq framed] at whole

theorem exchanged_frames {request : Request} {events : List Event} {passed : Bool}
    (framed : WellFramed request.packet request.packet.length) (exchanged : Exchanged request events passed) :
    ∀ event ∈ events, event.WellFramed := by
  cases exchanged <;> simp [Event.WellFramed, framed]

theorem bootloaderInstall_frames : Proc.Within Frames bootloaderInstall := by
  intro session
  obtain ⟨image, err, after, run, _, events, log, script⟩ := bootloaderInstall_performs session
  rw [run]
  refine ⟨events, log, script.forall_events fun request member part passed exchanged => ?_⟩
  refine exchanged_frames ?_ exchanged
  simp only [guardedRequests, imageRequests, List.mem_append, List.mem_singleton, List.mem_map] at member
  rcases member with (rfl | rfl | ⟨block, inside, rfl⟩ | rfl) | rfl
  · exact wellFramed_whole rfl rfl
  · exact wellFramed_whole rfl rfl
  · exact wellFramed_whole rfl (dataPacket_framed (chunks_block_length (by decide) inside).2)
  · exact wellFramed_whole rfl rfl
  · exact wellFramed_whole rfl rfl

theorem bootloaderExit_frames : Proc.Within Frames bootloaderExit := by
  intro session
  obtain ⟨err, after, run, events, log, script⟩ := bootloaderExit_performs session
  rw [run]
  exact ⟨events, log, exchanged_frames (wellFramed_whole rfl rfl) script.of_single⟩

theorem bootloaderEnter_frames : Proc.Within Frames bootloaderEnter := by
  refine frames_bind (frames_write (wellFramed_packet rfl (by decide))) fun res => ?_
  exact frames_ite (frames_failWith _ _) (frames_failWith _ _)

theorem bootloaderInfo_frames : Proc.Within Frames bootloaderInfo := by
  refine frames_bind (frames_quiet fun _ => rfl) fun heap => ?_
  refine frames_bind (frames_exchange rfl (by decide) _ _ _ _ _) fun step => ?_
  cases step with
  | error err => exact frames_quiet fun _ => rfl
  | ok reply =>
      refine frames_bind (frames_quiet fun _ => rfl) fun type => ?_
      exact frames_ite (frames_quiet fun _ => rfl) (frames_ite (frames_denied _ _ _) (frames_quiet fun _ => rfl))

theorem retrieveLoop_logs {property : Event → Prop} {kind : Retrieval}
    (written : ∀ handle res, property (.write ((kind.more handle).take kind.moreSize) kind.moreSize res))
    (read : ∀ result, property (.read kind.fileChunksz timeout result)) (handle : UInt8)
    (reply : Reply) (readSoFar total : UInt32) :
    Proc.Within (Session.Logs property) (retrieveLoop kind handle reply readSoFar total) := by
  intro session
  generalize left : session.reads.length = size
  induction size using Nat.strongRecOn generalizing handle reply readSoFar session with
  | ind size ih =>
    by_cases below : readSoFar < total
    · have asking := logs_transact (written handle) read ("Unable to write " ++ kind.continuing) reply
        ("Unable to read " ++ kind.continuing ++ "_REPLY") session
      rw [retrieveLoop, if_pos below]
      split
      · rename_i asked
        rwa [asked] at asking
      · rename_i asked
        rwa [asked] at asking
      · rename_i got after asked
        rw [asked] at asking
        have quiet := continuingReply_quiet kind got after
        split
        · rename_i used
          rw [used] at quiet
          exact asking.trans (Session.Logs.of_same_log quiet)
        · rename_i used
          rw [used] at quiet
          exact asking.trans (Session.Logs.of_same_log quiet)
        · rename_i used
          rw [used] at quiet
          refine (asking.trans (Session.Logs.of_same_log quiet)).trans (ih _ ?_ _ _ _ _ rfl)
          rw [continuingReply_reads used, ← left]
          exact transact_reads asked
    · rw [retrieveLoop, if_neg below]
      exact Session.Logs.of_same_log rfl

theorem openingRequest_frames (kind : Retrieval) (hid : kind.init.hidLayer = 0) {path : CString}
    (fits : Packet.size PathRequest + (path.bytes.length + 1) < 65535) (writeError : String) (reply : Reply)
    (size : Nat) (milliseconds : Int) (readError : String) :
    Proc.Within Frames (exchange (openingRequest kind path) writeError reply size milliseconds readError) :=
  frames_exchange hid (Nat.le_of_eq (openingRequest_framed kind fits)) _ _ _ _ _

theorem continueUpload_frames (handle : UInt8) :
    WellFramed ((dlRetrieval.more handle).take dlRetrieval.moreSize) dlRetrieval.moreSize := by
  have framed : WellFramed (Packet.handed (continueUpload handle)) (Packet.count (continueUpload handle)) :=
    wellFramed_packet rfl (Nat.le_of_eq rfl)
  exact framed

theorem dl_frames (path : CString) : Proc.Within Frames (dl path) := by
  intro session
  by_cases fits : Packet.size PathRequest + (path.bytes.length + 1) < 65535
  · rw [dl, retrieve_begins dlRetrieval session fits]
    refine frames_bind (openingRequest_frames dlRetrieval rfl fits _ _ _ _ _) (fun step => ?_) session.afterMalloc
    cases step with
    | error err => exact frames_quiet fun _ => rfl
    | ok reply =>
        refine frames_bind (frames_quiet fun _ => rfl) fun type => frames_ite (frames_denied _ _ _) ?_
        refine frames_bind (frames_quiet fun _ => rfl) fun packetLen => ?_
        refine frames_bind (frames_quiet fun _ => rfl) fun bytes => ?_
        refine frames_bind (frames_quiet fun _ => rfl) fun _ => ?_
        refine frames_bind (frames_quiet fun _ => rfl) fun total => ?_
        refine frames_bind (frames_quiet fun _ => rfl) fun handle => ?_
        exact retrieveLoop_logs (fun handle _ => continueUpload_frames handle) (fun _ => trivial) _ _ _ _
  · have null : packetAlloc dlRetrieval.init (path.bytes.length + 1) = none := if_neg fits
    rw [dl, retrieve, null]
    exact Session.Logs.refl _ session

/-- The listing does not end with its first reply: the first request was answered and not denied, and the
reply announces more than it carries. -/
structure ListsFurther (path : CString) (session : Session) : Prop where
  fits : Packet.size PathRequest + (path.bytes.length + 1) < 65535
  answered : 0 ≤ session.writeResult ∧ 0 < session.readResult.res
  accepted : session.opening.memory 4 ≠ vmError
  below : openingSize session.opening.len < session.opening.announced

theorem ls_frames {path : CString} {session : Session} (ends : ¬ ListsFurther path session) :
    Frames session (ls path session).2 := by
  by_cases fits : Packet.size PathRequest + (path.bytes.length + 1) < 65535
  · have asking := openingRequest_frames lsRetrieval rfl fits ("Unable to write " ++ lsRetrieval.opening ++ ".")
      ⟨session.junk 0, 0⟩ lsRetrieval.fileChunksz timeout ("Unable to read " ++ lsRetrieval.opening)
      session.afterMalloc
    by_cases answered : 0 ≤ session.writeResult ∧ 0 < session.readResult.res
    · rw [exchange_answered session.afterMalloc answered.1 answered.2] at asking
      by_cases refused : session.opening.memory 4 = vmError
      · obtain ⟨after, run, log⟩ := openingReply_denied lsRetrieval session.opening
          (session.afterMalloc.afterExchange (openingRequest lsRetrieval path) lsRetrieval.fileChunksz timeout)
          refused
        rw [ls, retrieve_begins lsRetrieval session fits, Proc.bind_returned
          (exchange_answered session.afterMalloc answered.1 answered.2)]
        exact asking.trans (Session.Logs.of_same_log ((congrArg (fun run => run.2.log) run).trans log))
      · obtain ⟨after, run, _, log⟩ := retrieveLoop_done lsRetrieval (session.opening.memory 11) session.opening
          (session.opened lsRetrieval path) fun below => ends ⟨fits, answered, refused, below⟩
        rw [ls, retrieve_opened lsRetrieval session fits answered refused, run]
        exact asking.trans (Session.Logs.of_same_log log)
    · obtain ⟨after, failed⟩ := exchange_failed (openingRequest lsRetrieval path)
        ("Unable to write " ++ lsRetrieval.opening ++ ".") ⟨session.junk 0, 0⟩ lsRetrieval.fileChunksz timeout
        ("Unable to read " ++ lsRetrieval.opening) session.afterMalloc answered
      rw [failed] at asking
      rw [ls, retrieve_begins lsRetrieval session fits, Proc.bind_returned failed]
      exact asking
  · have null : packetAlloc lsRetrieval.init (path.bytes.length + 1) = none := if_neg fits
    rw [ls, retrieve, null]
    exact Session.Logs.refl _ session

/-- CONTINUE_LIST_FILES is handed over with its 12 bytes, but its length field says 7. -/
theorem continueListFiles_misframed (handle : UInt8) :
    ¬ WellFramed ((lsRetrieval.more handle).take lsRetrieval.moreSize) lsRetrieval.moreSize := by
  rintro ⟨_, _, _, field⟩
  have length : (((lsRetrieval.more handle).take lsRetrieval.moreSize).drop 1).take 2 = leBytes 2 7 := rfl
  rw [length] at field
  exact absurd field (by decide)

theorem retrieveLoop_asks {kind : Retrieval} {readSoFar total : UInt32} (handle : UInt8) (reply : Reply)
    (session : Session) (below : readSoFar < total) :
    .write ((kind.more handle).take kind.moreSize) kind.moreSize session.writeResult ∈
      (retrieveLoop kind handle reply readSoFar total session).2.log := by
  have grows (handle : UInt8) (reply : Reply) (readSoFar : UInt32) (session : Session) :
      Session.Logs (fun _ => True) session (retrieveLoop kind handle reply readSoFar total session).2 :=
    retrieveLoop_logs (fun _ _ => trivial) (fun _ => trivial) handle reply readSoFar total session
  have asking : .write ((kind.more handle).take kind.moreSize) kind.moreSize session.writeResult ∈
      (transact (kind.more handle) kind.moreSize ("Unable to write " ++ kind.continuing) reply kind.fileChunksz
        timeout ("Unable to read " ++ kind.continuing ++ "_REPLY") session).2.log := by
    rw [transact_run]
    split
    · exact List.mem_append_right _ (List.mem_singleton.mpr rfl)
    · split
      · exact Session.afterTransact_log ▸ List.mem_append_right _ List.mem_cons_self
      · exact Session.afterTransact_log ▸ List.mem_append_right _ List.mem_cons_self
  rw [retrieveLoop, if_pos below]
  split
  · rename_i asked
    rwa [asked] at asking
  · rename_i asked
    rwa [asked] at asking
  · rename_i got after asked
    rw [asked] at asking
    have quiet := continuingReply_quiet kind got after
    split
    · rename_i used
      rw [used] at quiet
      exact quiet ▸ asking
    · rename_i used
      rw [used] at quiet
      exact quiet ▸ asking
    · rename_i used
      rw [used] at quiet
      exact (grows _ _ _ _).keeps (quiet ▸ asking)

theorem ls_misframes {path : CString} {session : Session} (further : ListsFurther path session) :
    ∃ event ∈ (ls path session).2.log, ¬ event.WellFramed := by
  obtain ⟨fits, answered, accepted, below⟩ := further
  rw [ls, retrieve_opened lsRetrieval session fits answered accepted]
  exact ⟨_, retrieveLoop_asks _ _ _ below, continueListFiles_misframed (session.opening.memory 11)⟩

inductive Invocation where
  | up (dst : CString)
  | dl (path : CString)
  | ls (path : CString)
  | rm (path : CString)
  | mkdir_ (path : CString)
  | run (transport : Transport) (exec : CString) (milliseconds : UInt32)
  | vmexec (out : VmOutput) (locals globals : Int) (useReply : Bool)
  | closehnd (start stop : Int)
  | info (transport : Transport) (arg : Option String)
  | bootloaderEnter
  | bootloaderInstall
  | bootloaderInfo
  | bootloaderExit

def Invocation.command : Invocation → Command Err
  | .up dst => Ev3duder.up dst
  | .dl path => Ev3duder.dl path
  | .ls path => Ev3duder.ls path
  | .rm path => Ev3duder.rm path
  | .mkdir_ path => Ev3duder.mkdir_ path
  | .run transport exec milliseconds => Ev3duder.run transport exec milliseconds
  | .vmexec out locals globals useReply => Ev3duder.vmexec out locals globals useReply
  | .closehnd start stop => Ev3duder.closehnd start stop
  | .info transport arg => Ev3duder.info transport arg
  | .bootloaderEnter => Ev3duder.bootloaderEnter
  | .bootloaderInstall => Ev3duder.bootloaderInstall
  | .bootloaderInfo => Ev3duder.bootloaderInfo
  | .bootloaderExit => Ev3duder.bootloaderExit

/-- A run hands over well-framed packets only, and a receiver that cuts the stream of these packets without
their HID bytes by its length fields recovers exactly the packets. -/
def InStep (run : Option Err × Session) : Prop :=
  (∀ packet count, (packet, count) ∈ run.2.log.filterMap Event.written → WellFramed packet count) ∧
    splitFrames ((run.2.log.filterMap Event.written).map fun written => written.1.drop 1).flatten =
      some ((run.2.log.filterMap Event.written).map fun written => written.1.drop 1)

theorem wellFramed_drop {packet : Bytes} {count : Nat} (framed : WellFramed packet count) :
    Framed (packet.drop 1) := by
  obtain ⟨length, _, enough, field⟩ := framed
  rw [Framed, List.length_drop, length, field, prefixSize]
  omega

theorem inStep_iff {run : Option Err × Session} :
    InStep run ↔ ∀ event ∈ run.2.log, event.WellFramed := by
  have written : (∀ packet count, (packet, count) ∈ run.2.log.filterMap Event.written → WellFramed packet count) ↔
      ∀ event ∈ run.2.log, event.WellFramed := by
    constructor
    · intro framed event member
      cases event with
      | write packet count res => exact framed packet count (List.mem_filterMap.mpr ⟨_, member, rfl⟩)
      | read => trivial
    · intro framed packet count member
      obtain ⟨event, inside, same⟩ := List.mem_filterMap.mp member
      cases event with
      | write =>
          cases same
          exact framed _ inside
      | read => cases same
  constructor
  · intro step
    exact written.mp step.1
  · intro framed
    refine ⟨written.mpr framed, splitFrames_flatten fun frame member => ?_⟩
    obtain ⟨⟨packet, count⟩, inside, rfl⟩ := List.mem_map.mp member
    exact wellFramed_drop (written.mpr framed packet count inside)

theorem frames_inStep {command : Command Err} {session : Session} (fresh : session.log = [])
    (frames : Frames session (command session).2) : InStep (command session) := by
  obtain ⟨events, log, framed⟩ := frames
  rw [inStep_iff, log, fresh, List.nil_append]
  exact framed

/-- The verdict on framing: every command keeps in step, but for a listing that does not end with its first
reply. -/
theorem inStep_unless_listing (invocation : Invocation) (writes : List Int) (reads : List ReadResult)
    (junk : Nat → Memory) (input : File) :
    InStep (invocation.command { writes, reads, junk, input }) ↔
      ¬ ∃ path, invocation = .ls path ∧ ListsFurther path { writes, reads, junk, input } := by
  have always {command : Command Err} (frames : Proc.Within Frames command) :
      InStep (command { writes, reads, junk, input }) := frames_inStep rfl (frames _)
  cases invocation with
  | ls path =>
      constructor
      · rintro step ⟨_, same, further⟩
        cases same
        obtain ⟨event, member, misframed⟩ := ls_misframes further
        exact misframed (inStep_iff.mp step event member)
      · intro ends
        exact frames_inStep rfl (ls_frames fun further => ends ⟨path, rfl, further⟩)
  | up dst =>
      exact iff_of_true (always (up_frames dst)) fun ⟨_, same, _⟩ => nomatch same
  | dl path =>
      exact iff_of_true (always (dl_frames path)) fun ⟨_, same, _⟩ => nomatch same
  | rm path =>
      exact iff_of_true (always (pathCommand_frames deleteFileInit rfl path _ _ _ _)) fun ⟨_, same, _⟩ => nomatch same
  | mkdir_ path =>
      exact iff_of_true (always (pathCommand_frames createDirInit rfl path _ _ _ _)) fun ⟨_, same, _⟩ => nomatch same
  | run transport exec milliseconds =>
      exact iff_of_true (always (run_frames transport exec milliseconds)) fun ⟨_, same, _⟩ => nomatch same
  | vmexec out locals globals useReply =>
      exact iff_of_true (always (vmexec_frames out locals globals useReply)) fun ⟨_, same, _⟩ => nomatch same
  | closehnd start stop =>
      exact iff_of_true (always (closehnd_frames start stop)) fun ⟨_, same, _⟩ => nomatch same
  | info transport arg =>
      exact iff_of_true (always (info_frames transport arg)) fun ⟨_, same, _⟩ => nomatch same
  | bootloaderEnter =>
      exact iff_of_true (always bootloaderEnter_frames) fun ⟨_, same, _⟩ => nomatch same
  | bootloaderInstall =>
      exact iff_of_true (always bootloaderInstall_frames) fun ⟨_, same, _⟩ => nomatch same
  | bootloaderInfo =>
      exact iff_of_true (always bootloaderInfo_frames) fun ⟨_, same, _⟩ => nomatch same
  | bootloaderExit =>
      exact iff_of_true (always bootloaderExit_frames) fun ⟨_, same, _⟩ => nomatch same

theorem ls_out_of_step :
    ¬ InStep (ls ⟨[0x2F], by decide⟩
      { writes := [11], reads := [.received [10, 0, 0, 0, 3, 0x99, 0, 20, 0, 0, 0, 1]] }) := by
  intro step
  have further : ListsFurther ⟨[0x2F], by decide⟩
      { writes := [11], reads := [.received [10, 0, 0, 0, 3, 0x99, 0, 20, 0, 0, 0, 1]] } :=
    ⟨by decide, by decide, by decide, by decide⟩
  obtain ⟨event, member, misframed⟩ := ls_misframes further
  exact misframed (inStep_iff.mp step event member)

end Ev3duder
