import Mathlib.Logic.Function.Basic
import Ev3duder.Commands.Fetched
import Ev3duder.Commands.Simple
import Ev3duder.Commands.Upload

namespace Ev3duder

open Data

/-! # Commands against a brick

What runs on the brick is a parameter: anything that answers packets and has files.  What the file commands rely on is
said of it in terms of the packets.
-/

/-- What a brick makes of a packet, and its answer. -/
structure Brick (σ : Type) where
  step : σ → Bytes → σ × Bytes
  files : σ → Bytes → Option Bytes

/-- A system command that is to be answered, as it is handed over: behind the HID byte its length, the counter 0, the
type and the command with its operands. -/
def systemCommand (cmd : UInt8) (operands : Bytes) : Bytes :=
  0 :: (leBytes 2 (operands.length + 4) ++ [0, 0, 1, cmd] ++ operands)

/-- A file on its way to the brick, of which `content` is there, and the files from before. -/
structure Coming where
  path : CString
  size : Nat
  content : Bytes
  before : Bytes → Option Bytes

variable {σ : Type}

/-- A brick that takes files in, gives them out and deletes them, under the names that it has for them.  The packets are
those of `packets.h`, and what is asked for is an answer that goes with each.  While a file is on its way nothing is
said of the files that are there. -/
structure KeepsFiles (brick : Brick σ) where
  Names : CString → Prop
  Receives : σ → UInt8 → Coming → Prop
  /-- What is still to go out under a handle. -/
  Sends : σ → UInt8 → Bytes → Prop
  begin_download (state : σ) {path : CString} (name : Names path) {size : Nat} (small : size < 2 ^ 32) :
    ∃ (reply : BrickReply) (after : σ), reply.chunk = [] ∧
      brick.step state (systemCommand 0x92 (leBytes 4 size ++ (path.bytes ++ [0]))) = (after, reply.continuing) ∧
      Receives after reply.handle ⟨path, size, [], brick.files state⟩
  continue_download {state : σ} {handle : UInt8} {coming : Coming} (receives : Receives state handle coming)
    {chunk : Bytes} (nonempty : 1 ≤ chunk.length) (small : (systemCommand 0x93 (handle :: chunk)).length ≤ 1024)
    (within : coming.content.length + chunk.length ≤ coming.size) :
    ∃ (reply : BrickReply) (after : σ), reply.chunk = [] ∧ reply.handle = handle ∧
      brick.step state (systemCommand 0x93 (handle :: chunk)) = (after, reply.continuing) ∧
      Receives after handle { coming with content := coming.content ++ chunk }
  received {state : σ} {handle : UInt8} {coming : Coming} (receives : Receives state handle coming)
    (whole : coming.content.length = coming.size) :
    brick.files state = Function.update coming.before coming.path.bytes (some coming.content)
  begin_upload {state : σ} {path : CString} (name : Names path) {content : Bytes}
    (kept : brick.files state path.bytes = some content) {count : Nat} (small : count < 2 ^ 16) :
    ∃ (reply : BrickReply) (rest : Bytes) (after : σ), reply.chunk ++ rest = content ∧ reply.chunk.length ≤ count ∧
      brick.step state (systemCommand 0x94 (leBytes 2 count ++ (path.bytes ++ [0]))) =
        (after, reply.opening content.length) ∧
      Sends after reply.handle rest ∧ brick.files after = brick.files state
  continue_upload {state : σ} {handle : UInt8} {rest : Bytes} (sends : Sends state handle rest) (more : rest ≠ [])
    {count : Nat} (positive : 1 ≤ count) (small : count < 2 ^ 16) :
    ∃ (reply : BrickReply) (later : Bytes) (after : σ), reply.chunk ++ later = rest ∧ 1 ≤ reply.chunk.length ∧
      reply.chunk.length ≤ count ∧
      brick.step state (systemCommand 0x95 (handle :: leBytes 2 count)) = (after, reply.continuing) ∧
      Sends after reply.handle later ∧ brick.files after = brick.files state
  upload_missing {state : σ} {path : CString} (name : Names path) (missing : brick.files state path.bytes = none)
    {count : Nat} (small : count < 2 ^ 16) :
    ∃ (answer : Bytes) (after : σ),
      brick.step state (systemCommand 0x94 (leBytes 2 count ++ (path.bytes ++ [0]))) = (after, answer) ∧
      answer[4]? = some vmError ∧ brick.files after = brick.files state
  delete_file (state : σ) {path : CString} (name : Names path) :
    ∃ (answer : Bytes) (type : UInt8) (after : σ),
      brick.step state (systemCommand 0x9C (path.bytes ++ [0])) = (after, answer) ∧ answer[4]? = some type ∧
      (type = vmError ↔ brick.files state path.bytes = none) ∧
      brick.files after = Function.update (brick.files state) path.bytes none

/-- A log in which every packet is answered by the brick before the next one is written. -/
inductive Dialogue (brick : Brick σ) : σ → List Event → σ → Prop where
  | finished (state : σ) : Dialogue brick state [] state
  | exchange {state middle after : σ} {packet answer : Bytes} {res milliseconds : Int} {size : Nat} {log : List Event}
      (answered : brick.step state packet = (middle, answer)) (taken : 0 ≤ res)
      (rest : Dialogue brick middle log after) :
      Dialogue brick state (.write packet packet.length res :: .read size milliseconds (.received answer) :: log) after

/-- The command runs against the brick, whatever is in the memory it does not initialise; what it fetches is its
output. -/
def Conducts (brick : Brick σ) (state : σ) (command : Command Err) (input : Bytes) (err : Err)
    (fetched : Option Bytes) (after : σ) : Prop :=
  ∀ junk, ∃ writes reads last, command { writes, reads, junk, input := { rest := input } } = (some err, last) ∧
    (∀ content ∈ fetched, last.output = content) ∧ Dialogue brick state last.log after

theorem systemCommand_eq {τ : Type} [Packet τ] {packet : τ} {cmd : UInt8} {operands : Bytes}
    (framed : (Packet.packetLen packet).toNat = (Packet.tail packet).length) (hid : Packet.hidLayer packet = 0)
    (tail : Packet.tail packet = [0, 0, 1, cmd] ++ operands) : Packet.toBytes packet = systemCommand cmd operands := by
  have length : (Packet.packetLen packet).toNat = operands.length + 4 := by
    rw [framed, tail]
    simp
  rw [Packet.toBytes, hid, length, tail, systemCommand, List.append_assoc]

theorem received_positive {answer : Bytes} {index : Nat} {byte : UInt8} (field : answer[index]? = some byte) :
    0 < (ReadResult.received answer).res := by
  obtain ⟨inside, _⟩ := List.getElem?_eq_some_iff.mp field
  exact Int.natCast_pos.mpr (Nat.zero_lt_of_lt inside)

section Commands

variable {brick : Brick σ} (keeps : KeepsFiles brick)

theorem chunkPacket_command (handle : UInt8) {block : Bytes} (small : block.length ≤ chunkSize) :
    Packet.toBytes (chunkPacket handle block) = systemCommand 0x93 (handle :: block) := by
  refine systemCommand_eq ?_ rfl (by simp only [Packet.tail, chunkPacket, CommandFields.tail]; rfl)
  have field : (Packet.packetLen (chunkPacket handle block)).toNat = (UInt16.ofNat (8 + block.length - 3)).toNat := rfl
  rw [field, UInt16.toNat_ofNat']
  simp [Packet.tail, chunkPacket, CommandFields.tail]
  simp only [chunkSize] at small
  omega

theorem beginDownload_command {path : CString} {size : Nat} (small : size < 2 ^ 32)
    (fits : Packet.size BeginDownload + (path.bytes.length + 1) < 65535) :
    Packet.toBytes (beginDownload path size) = systemCommand 0x92 (leBytes 4 size ++ (path.bytes ++ [0])) := by
  refine systemCommand_eq (beginDownload_framed size fits).1 rfl ?_
  have field : (UInt32.ofNat size).toNat = size := by
    rw [UInt32.toNat_ofNat', Nat.mod_eq_of_lt small]
  simp only [Packet.tail, beginDownload, CommandFields.tail, field]
  rfl

/-- The blocks of a file go to the brick one by one. -/
theorem KeepsFiles.chunks_dialogue (blocks : List Bytes) {state : σ} {handle : UInt8} {coming : Coming}
    (receives : keeps.Receives state handle coming)
    (sizes : ∀ block ∈ blocks, 1 ≤ block.length ∧ block.length ≤ chunkSize)
    (total : coming.content.length + blocks.flatten.length = coming.size) :
    ∃ (replies : List BrickReply) (after : σ), replies.length = blocks.length ∧
      (∀ reply ∈ replies, reply.chunk = [] ∧ reply.handle = handle) ∧
      keeps.Receives after handle { coming with content := coming.content ++ blocks.flatten } ∧
      ∀ bdrep : Reply, bdrep.memory 7 = handle →
        Dialogue brick state (chunkEvents bdrep blocks (List.replicate blocks.length 0)
          (replies.map BrickReply.result)) after := by
  induction blocks generalizing state coming with
  | nil =>
      refine ⟨[], state, rfl, List.forall_mem_nil _, ?_, fun _ _ => .finished state⟩
      rw [List.flatten_nil, List.append_nil]
      exact receives
  | cons block blocks ih =>
      obtain ⟨positive, small⟩ := sizes block List.mem_cons_self
      rw [List.flatten_cons, List.length_append] at total
      have packet := chunkPacket_command handle small
      have length := chunkPacket_length handle block
      obtain ⟨reply, middle, bare, same, answered, next⟩ := keeps.continue_download receives positive (by
        rw [← packet, length]
        exact Nat.le_trans (Nat.add_le_add_left small 8) (by decide)) (by omega)
      have later : (coming.content ++ block).length + blocks.flatten.length = coming.size := by
        rw [List.length_append]
        omega
      obtain ⟨replies, after, count, echoes, last, dialogue⟩ := ih next
        (fun other member => sizes other (List.mem_cons_of_mem _ member)) later
      refine ⟨reply :: replies, after, congrArg Nat.succ count, ?_, ?_, ?_⟩
      · exact List.forall_mem_cons.mpr ⟨⟨bare, same⟩, echoes⟩
      · rw [List.flatten_cons, ← List.append_assoc]
        exact last
      · intro bdrep opened
        have echoed : (bdrep.receive reply.result).memory 7 = handle :=
          (continuing_received bdrep reply (by simp [bare])).2.1.trans same
        rw [← packet] at answered
        have first := @Dialogue.exchange σ brick _ _ _ _ _ 0 timeout beginDownloadReplySize _ answered
          (Int.le_refl 0) (dialogue _ echoed)
        rw [length] at first
        rw [List.map_cons, List.length_cons, List.replicate_succ, chunkEvents, opened]
        exact first

theorem replies_echo {handle : UInt8} {first : BrickReply} {replies : List BrickReply} (same : first.handle = handle)
    (echoes : ∀ reply ∈ replies, reply.chunk = [] ∧ reply.handle = handle) :
    EchoesHandle handle (.received first.continuing :: replies.map BrickReply.result) replies.length := by
  have echo (reply : BrickReply) (same : reply.handle = handle) :
      reply.continuing[4]? ≠ some vmError ∧ reply.continuing[7]? = some handle := by
    have type : reply.continuing[4]? = some reply.type := rfl
    have field : reply.continuing[7]? = some reply.handle := rfl
    rw [type, field, same]
    exact ⟨fun denied => reply.accepted (Option.some.inj denied), rfl⟩
  intro index bound
  cases index with
  | zero => exact ⟨first.continuing, rfl, echo first same⟩
  | succ index =>
      have inside : index < replies.length := bound
      refine ⟨replies[index].continuing, ?_, echo _ (echoes _ (List.getElem_mem inside)).2⟩
      rw [List.getD_cons_succ, List.getD_eq_getElem?_getD, List.getElem?_map, List.getElem?_eq_getElem inside]
      rfl

/-- An upload to the brick leaves the file there. -/
theorem KeepsFiles.up_conducts (state : σ) {path : CString} (name : keeps.Names path) {content : Bytes}
    (small : content.length < 2 ^ 32) (fits : Packet.size BeginDownload + (path.bytes.length + 1) < 65535) :
    ∃ after, Conducts brick state (up path) content .unk none after ∧
      brick.files after = Function.update (brick.files state) path.bytes (some content) := by
  obtain ⟨first, opened, bare, answered, receives⟩ := keeps.begin_download state name small
  have blocks := upChunks_eq content
  have whole : (chunks chunkSize content).flatten = content := chunks_flatten (by decide) content
  obtain ⟨replies, after, count, echoes, last, dialogue⟩ := keeps.chunks_dialogue (chunks chunkSize content) receives
    (fun block member => chunks_block_length (by decide) member) (by rw [whole]; exact Nat.zero_add _)
  rw [whole] at last
  refine ⟨after, fun junk => ?_, keeps.received last rfl⟩
  have taken : ∀ index, index ≤ upChunks content.length →
      0 ≤ (List.replicate ((chunks chunkSize content).length + 1) (0 : Int)).getD index (-1) := by
    intro index bound
    rw [List.getD_eq_getElem?_getD, List.getElem?_replicate_of_lt (by omega)]
    exact Int.le_refl 0
  have completes : UpCompletes path (upSession content [] (List.replicate ((chunks chunkSize content).length + 1) 0)
      (.received first.continuing :: replies.map BrickReply.result) junk) :=
    EchoesHandle.completes (by rw [blocks, ← count]; exact replies_echo rfl echoes) (by omega) fits taken
  have full := (up_calls_full completes).mpr fun index _ => Nat.le_refl _
  obtain ⟨opens, exchanged⟩ := completes.opens
  obtain ⟨final, run, _, log⟩ := up_run opens exchanged
  rw [run] at full
  have accepted := up_succeeds.mpr completes
  rw [run] at accepted
  refine ⟨_, _, final, run.trans (congrArg (·, final) accepted), nofun, ?_⟩
  have handle : ((⟨junk 0, 0⟩ : Reply).receive first.result).memory 7 = first.handle :=
    (continuing_received ⟨junk 0, 0⟩ first (by simp [bare])).2.1
  rw [← beginDownload_command small fits] at answered
  have conversed := @Dialogue.exchange σ brick _ _ _ _ _ 0 timeout beginDownloadReplySize _ answered (Int.le_refl 0)
    (dialogue _ handle)
  rw [← Packet.count_eq (beginDownload_framed content.length fits).1] at conversed
  rw [log full]
  exact conversed

theorem openingRequest_command {path : CString} (fits : Packet.size PathRequest + (path.bytes.length + 1) < 65535) :
    Packet.toBytes (openingRequest dlRetrieval path) =
      systemCommand 0x94 (leBytes 2 dlChunkSize ++ (path.bytes ++ [0])) :=
  systemCommand_eq (openingRequest_framed dlRetrieval fits) rfl
    (by simp only [Packet.tail, openingRequest, dlRetrieval, CommandFields.tail]; rfl)

theorem continueUpload_command (handle : UInt8) : Packet.toBytes (continueUpload handle) =
    systemCommand 0x95 (handle :: leBytes 2 1004) :=
  systemCommand_eq rfl rfl (by simp only [Packet.tail, continueUpload, CommandFields.tail]; rfl)

/-- What is left of a file comes in as many parts as the brick likes. -/
theorem KeepsFiles.parts_dialogue {state : σ} {handle : UInt8} {rest : Bytes} (sends : keeps.Sends state handle rest) :
    ∃ (replies : List BrickReply) (after : σ), replies.flatMap BrickReply.chunk = rest ∧
      (∀ reply ∈ replies, 1 ≤ reply.chunk.length ∧ reply.chunk.length ≤ 1004) ∧
      brick.files after = brick.files state ∧
      ∀ (buffer : Reply) (writes : List Int), (∀ index, index < replies.length → 0 ≤ writes.getD index (-1)) →
        Dialogue brick state (passEvents dlRetrieval buffer handle writes (replies.map BrickReply.result)
          replies.length) after := by
  induction size : rest.length using Nat.strong_induction_on generalizing state handle rest with
  | _ size ih =>
      by_cases more : rest = []
      · exact ⟨[], state, more.symm, List.forall_mem_nil _, rfl, fun _ _ _ => .finished state⟩
      · obtain ⟨reply, later, middle, parts, positive, small, answered, next, same⟩ :=
          keeps.continue_upload sends more (by decide : 1 ≤ 1004) (by decide)
        have total := congrArg List.length parts
        rw [List.length_append] at total
        obtain ⟨replies, after, whole, sizes, files, dialogue⟩ := ih later.length (by omega) next rfl
        refine ⟨reply :: replies, after, ?_, ?_, files.trans same, ?_⟩
        · rw [List.flatMap_cons, whole, parts]
        · exact List.forall_mem_cons.mpr ⟨⟨positive, small⟩, sizes⟩
        · intro buffer writes taken
          have first : 0 ≤ writes.headD (-1) := by
            rw [List.headD_eq_getD]
            exact taken 0 (Nat.succ_pos _)
          have others : ∀ index, index < replies.length → 0 ≤ writes.tail.getD index (-1) := by
            intro index bound
            rw [tail_getD]
            exact taken (index + 1) (Nat.succ_lt_succ bound)
          have carried : (buffer.receive reply.result).memory 7 = reply.handle :=
            (continuing_received buffer reply small).2.1
          rw [← continueUpload_command] at answered
          have conversed := @Dialogue.exchange σ brick _ _ _ _ _ (writes.headD (-1)) timeout 1012 _ answered first
            (dialogue (buffer.receive reply.result) writes.tail others)
          rw [List.length_cons, passEvents, List.map_cons, List.headD_cons, List.tail_cons, carried]
          exact conversed

/-- A download from the brick brings the file, and leaves the files as they are. -/
theorem KeepsFiles.dl_conducts {state : σ} {path : CString} (name : keeps.Names path) {content : Bytes}
    (kept : brick.files state path.bytes = some content) (small : content.length < 2 ^ 32)
    (fits : Packet.size PathRequest + (path.bytes.length + 1) < 65535) :
    ∃ after, Conducts brick state (dl path) [] .unk (some content) after ∧ brick.files after = brick.files state := by
  obtain ⟨first, rest, opened, parts, firstSize, answered, sends, same⟩ :=
    keeps.begin_upload name kept (by decide : dlChunkSize < 2 ^ 16)
  obtain ⟨replies, after, whole, sizes, files, dialogue⟩ := keeps.parts_dialogue sends
  refine ⟨after, fun junk => ?_, files.trans same⟩
  rw [← whole] at parts
  let writes := List.replicate (replies.length + 1) (0 : Int)
  have taken : ∀ index, index ≤ replies.length → 0 ≤ writes.getD index (-1) := by
    intro index bound
    rw [List.getD_eq_getElem?_getD, List.getElem?_replicate_of_lt (by omega)]
    exact Int.le_refl 0
  have ends := served_ends junk small fits parts firstSize sizes taken
  have log := served_log fits ends
  obtain ⟨output, _⟩ := retrieve_ends dlRetrieval ends
  obtain ⟨_, handle, _, _, payload⟩ := opening_received ⟨junk 0, 0⟩ first small firstSize
  have opening : (servedSession content.length first replies writes junk).opening =
      (⟨junk 0, 0⟩ : Reply).receive (.received (first.opening content.length)) := rfl
  refine ⟨writes, _, _, Prod.ext ((retrieve_succeeds dlRetrieval path _).mpr ⟨_, ends⟩) rfl, ?_, ?_⟩
  · rintro _ ⟨⟩
    refine output.trans ?_
    rw [opening, payload]
    exact (congrArg (first.chunk ++ ·) (exact_payloads _ replies sizes)).trans parts
  · have later := dialogue (servedSession content.length first replies writes junk).opening writes.tail (by
      intro index bound
      rw [tail_getD]
      exact taken (index + 1) bound)
    rw [opening] at later log
    rw [handle] at log
    rw [← openingRequest_command fits] at answered
    have conversed := @Dialogue.exchange σ brick _ _ _ _ _ 0 timeout 1012 _ answered (Int.le_refl 0) later
    exact Eq.mpr (congrArg (fun events => Dialogue brick state events after) log) conversed

/-- A download of a file that is not there is refused. -/
theorem KeepsFiles.dl_refused {state : σ} {path : CString} (name : keeps.Names path)
    (missing : brick.files state path.bytes = none)
    (fits : Packet.size PathRequest + (path.bytes.length + 1) < 65535) :
    ∃ after, Conducts brick state (dl path) [] .vm none after ∧ brick.files after = brick.files state := by
  obtain ⟨answer, after, answered, denial, same⟩ := keeps.upload_missing name missing (by decide : dlChunkSize < 2 ^ 16)
  refine ⟨after, fun junk => ?_, same⟩
  let session : Session := { writes := [0], reads := [.received answer], junk }
  have written : 0 ≤ session.afterMalloc.writeResult := Int.le_refl 0
  have read : 0 < session.afterMalloc.readResult.res := received_positive denial
  obtain ⟨last, denied, log⟩ := openingReply_denied dlRetrieval _
    (session.afterMalloc.afterExchange (openingRequest dlRetrieval path) dlRetrieval.fileChunksz timeout)
    (@Reply.receive_delivered ⟨session.junk 0, 0⟩ (.received answer) 4 _ denial)
  have run : dl path session = (some .vm, last) := by
    rw [dl, retrieve_begins dlRetrieval session fits, Proc.bind_returned
      (exchange_answered session.afterMalloc written read)]
    exact denied
  refine ⟨_, _, last, run, fun _ none => absurd none (Option.not_mem_none _), ?_⟩
  rw [log, Session.afterExchange_log, Packet.handed_eq (openingRequest_framed dlRetrieval fits),
    Packet.count_eq (openingRequest_framed dlRetrieval fits)]
  rw [← openingRequest_command fits] at answered
  exact .exchange answered (Int.le_refl 0) (.finished after)

def deleteRequest (path : CString) : SystemCmd :=
  { deleteFileInit with
    packetLen := UInt16.ofNat (Packet.size SystemCmd + (path.bytes.length + 1) - prefixSize)
    bytes := path.bytes ++ [0] }

theorem deleteRequest_framed {path : CString} (fits : Packet.size SystemCmd + (path.bytes.length + 1) < 65535) :
    (Packet.packetLen (deleteRequest path)).toNat = (Packet.tail (deleteRequest path)).length := by
  have length : (Packet.tail (deleteRequest path)).length = path.bytes.length + 5 := by
    simp [deleteRequest, Packet.tail, CommandFields.tail]
    omega
  refine (allocated_length fits).trans ?_
  rw [length]
  show 7 + (path.bytes.length + 1) - 3 = _
  omega

theorem judged (reply : Reply) (message success : String) (session : Session) :
    ∃ last, (do
        let type ← reply.type
        if type = vmError then denied reply 0 message
        else failWith success .unk : Command Err) session =
          (some (if reply.memory 4 = vmError then .vm else .unk), last) ∧ last.log = session.log := by
  rw [Proc.bind_returned (reply.type_run session)]
  by_cases refused : reply.memory 4 = vmError
  · rw [if_pos refused, if_pos refused]
    exact ⟨_, rfl, rfl⟩
  · rw [if_neg refused, if_neg refused]
    exact ⟨_, rfl, rfl⟩

/-- What a deletion makes of the answer. -/
theorem rm_answered {path : CString} {session : Session}
    (fits : Packet.size SystemCmd + (path.bytes.length + 1) < 65535) (written : 0 ≤ session.writeResult)
    (read : 0 < session.readResult.res) :
    ∃ last, rm path session = (some (if ((⟨session.junk 0, 0⟩ : Reply).receive session.readResult).memory 4 = vmError
        then .vm else .unk), last) ∧
      last.log = session.log ++ [.write (Packet.toBytes (deleteRequest path))
        (Packet.toBytes (deleteRequest path)).length session.writeResult,
        .read systemReplySize timeout session.readResult] := by
  have alloc : packetAlloc deleteFileInit (path.bytes.length + 1) = some { deleteFileInit with
      packetLen := UInt16.ofNat (Packet.size SystemCmd + (path.bytes.length + 1) - prefixSize) } := if_pos fits
  have framed := deleteRequest_framed fits
  have log : (session.afterMalloc.afterExchange (deleteRequest path) systemReplySize timeout).log = session.log ++
      [.write (Packet.toBytes (deleteRequest path)) (Packet.toBytes (deleteRequest path)).length session.writeResult,
        .read systemReplySize timeout session.readResult] := by
    rw [Session.afterExchange_log, Packet.handed_eq framed, Packet.count_eq framed]
    rfl
  obtain ⟨last, run, quiet⟩ := judged ((⟨session.junk 0, 0⟩ : Reply).receive session.readResult)
    "`DELETE_FILE` was denied." "`DELETE_FILE` was successful."
    (session.afterMalloc.afterExchange (deleteRequest path) systemReplySize timeout)
  refine ⟨last, ?_, quiet.trans log⟩
  rw [rm, pathCommand, alloc]
  exact (Proc.bind_returned (exchange_answered session.afterMalloc written read)).trans run

/-- A deletion takes the file away if it is there, and is refused if it is not. -/
theorem KeepsFiles.rm_conducts (state : σ) {path : CString} (name : keeps.Names path)
    (fits : Packet.size SystemCmd + (path.bytes.length + 1) < 65535) :
    ∃ after, Conducts brick state (rm path) [] (if (brick.files state path.bytes).isSome then .unk else .vm) none
        after ∧
      brick.files after = Function.update (brick.files state) path.bytes none := by
  obtain ⟨answer, type, after, answered, field, denial, files⟩ := keeps.delete_file state name
  refine ⟨after, fun junk => ?_, files⟩
  obtain ⟨last, run, log⟩ := @rm_answered path { writes := [0], reads := [.received answer], junk } fits
    (Int.le_refl 0) (received_positive field)
  have judgement : (if ((⟨junk 0, 0⟩ : Reply).receive (.received answer)).memory 4 = vmError then Err.vm else .unk) =
      if (brick.files state path.bytes).isSome then .unk else .vm := by
    rw [@Reply.receive_delivered ⟨junk 0, 0⟩ (.received answer) 4 _ field]
    cases kept : brick.files state path.bytes with
    | none => exact if_pos (denial.mpr kept)
    | some content =>
        refine if_neg fun refused => ?_
        rw [denial.mp refused] at kept
        cases kept
  refine ⟨_, _, last, run.trans (congrArg (fun err => (some err, last)) judgement), nofun, ?_⟩
  rw [log]
  have packet : Packet.toBytes (deleteRequest path) = systemCommand 0x9C (path.bytes ++ [0]) :=
    systemCommand_eq (deleteRequest_framed fits) rfl
      (by simp only [Packet.tail, deleteRequest, CommandFields.tail]; rfl)
  rw [← packet] at answered
  exact .exchange answered (Int.le_refl 0) (.finished after)

end Commands

end Ev3duder
