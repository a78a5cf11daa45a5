import Ev3duder.Commands.Paths
import Ev3duder.Main.Usage

namespace Ev3duder

open Data

/-! # `exec` from the command line to the brick -/

section Run

variable {session : Session} {exec : CString}

/-- `run` sends its request and only reads from then on. -/
theorem run_sends (transport : Transport) (milliseconds : UInt32) (session : Session)
    (fits : Packet.size VmCmd + (run1.length + (exec.bytes.length + 1) + run2.length) < 65535) :
    ∃ err after events, run transport exec milliseconds session = (some err, after) ∧
      after.log = session.log ++ events ∧ events.filterMap Event.written =
        [(Packet.toBytes (runRequest exec), (Packet.toBytes (runRequest exec)).length)] := by
  obtain ⟨framed, _⟩ := runRequest_framed fits
  have answered := @follows_runAnswer (fun event => event.written = none) (fun _ _ _ => rfl) transport
    ⟨session.junk 0, 0⟩ (session.junk 1) (runTimeout milliseconds)
  rw [run_begins transport milliseconds session fits,
    Proc.bind_returned (writePacket_run (runRequest exec) session.afterMalloc.afterMalloc)]
  have written : (session.afterMalloc.afterMalloc.afterWrite (Packet.toBytes (runRequest exec))
      (Packet.count (runRequest exec))).log = session.log ++ [.write (Packet.toBytes (runRequest exec))
        (Packet.toBytes (runRequest exec)).length session.afterMalloc.afterMalloc.writeResult] := by
    rw [Session.afterWrite_log, Packet.count_eq framed, List.take_length]
    rfl
  split
  · exact ⟨.comm, _, _, rfl, written, rfl⟩
  · obtain ⟨err, after, run, events, log, quiet⟩ := answered (session.afterMalloc.afterMalloc.afterWrite
      (Packet.toBytes (runRequest exec)) (Packet.count (runRequest exec)))
    refine ⟨err, after, _, run, by rw [log, written, List.append_assoc], ?_⟩
    rw [List.filterMap_append, List.filterMap_eq_nil_iff.mpr quiet]
    rfl

end Run

/-- The packets of an upload to a brick that gives out this handle. -/
def uploadPackets (dst : CString) (content : Bytes) (handle : UInt8) : List Bytes :=
  Packet.toBytes (beginDownload dst content.length) ::
    (chunks chunkSize content).map fun block => Packet.toBytes (chunkPacket handle block)

section Upload

variable {dst : CString} {content : Bytes} {handle : UInt8} {writes : List Int} {reads : List ReadResult}
  {junk : Nat → Memory}

theorem up_sends (small : content.length ≤ 0xFFFFFFFF)
    (fits : Packet.size BeginDownload + (dst.bytes.length + 1) < 65535)
    (taken : ∀ index, index ≤ upChunks content.length → 0 ≤ writes.getD index (-1))
    (echoes : EchoesHandle handle reads (upChunks content.length)) :
    ∃ after, up dst (upSession content [] writes reads junk) = (some .unk, after) ∧
      after.log.filterMap Event.written =
        (uploadPackets dst content handle).map fun packet => (packet, packet.length) := by
  have completes : UpCompletes dst (upSession content [] writes reads junk) := echoes.completes small fits taken
  have written := echoes.written completes
  have succeeded := up_succeeds.mpr completes
  rcases run : up dst (upSession content [] writes reads junk) with ⟨err, after⟩
  rw [run] at written succeeded
  exact ⟨after, congrArg (·, after) succeeded, written⟩

/-- What an upload carries is what it is told to store, and under which name. -/
theorem uploadPackets_carry (dst : CString) (content : Bytes) (handle : UInt8) (small : content.length ≤ 0xFFFFFFFF) :
    ∃ opening parts, uploadPackets dst content handle = opening :: parts ∧ opening[6]? = some 0x92 ∧
      leValue ((opening.drop 7).take 4) = content.length ∧ opening.drop 11 = dst.bytes ++ [0] ∧
      (∀ part ∈ parts, part[6]? = some 0x93) ∧ (parts.map (List.drop 8)).flatten = content := by
  refine ⟨_, _, rfl, rfl, ?_, rfl, ?_, ?_⟩
  · have field : ((Packet.toBytes (beginDownload dst content.length)).drop 7).take 4 =
        leBytes 4 (UInt32.ofNat content.length).toNat := rfl
    rw [field, UInt32.toNat_ofNat', Nat.mod_eq_of_lt (by omega), leValue_leBytes_of_lt (by omega)]
  · intro part member
    obtain ⟨block, _, rfl⟩ := List.mem_map.mp member
    rfl
  · have payload : (List.drop 8 ∘ fun block => Packet.toBytes (chunkPacket handle block)) = id := rfl
    rw [List.map_map, payload, List.map_id, chunks_flatten (by decide)]

end Upload

section Exec

variable {surroundings : Surroundings} {argv rest : List CString} {cmd : CString} {transport : Transport} {rbf : Bytes}
  {handle : UInt8} {writes : List Int} {reads : List ReadResult} {junk : Nat → Memory}

theorem execProgram_sends (timeout : UInt32) (transport : Transport) (small : rbf.length ≤ 0xFFFFFFFF)
    (taken : ∀ index, index ≤ upChunks rbf.length → 0 ≤ writes.getD index (-1))
    (echoes : EchoesHandle handle reads (upChunks rbf.length)) :
    ∃ err after, execProgram rbf timeout transport { writes, reads, junk } = (some err, after) ∧
      after.log.filterMap Event.written = (uploadPackets execName rbf handle ++
        [Packet.toBytes (runRequest execName)]).map fun packet => (packet, packet.length) := by
  obtain ⟨stored, uploaded, sent⟩ := @up_sends execName rbf handle writes reads junk small (by decide) taken echoes
  obtain ⟨err, after, events, started, log, request⟩ := @run_sends execName transport timeout stored (by decide)
  refine ⟨err, after, ?_, ?_⟩
  · have front : execProgram rbf timeout transport { writes, reads, junk } =
        (up execName >>= fun ret => if ret ≠ .unk then return ret else run transport execName timeout)
          (upSession rbf [] writes reads junk) := rfl
    rw [front, Proc.bind_returned uploaded]
    exact started
  · rw [log, List.filterMap_append, sent, request, List.map_append]
    rfl

/-- `exec` on a brick that takes its packets and echoes one handle: the packets store a program with the command in it,
byte for byte, and the last of them starts this program. -/
theorem main_exec (starts : Starts surroundings argv .exec (cmd :: rest) transport)
    (temporary : surroundings.tmpfile = true) (made : mkrbf (execCommand cmd) = some rbf)
    (taken : ∀ index, index ≤ upChunks rbf.length → 0 ≤ writes.getD index (-1))
    (echoes : EchoesHandle handle reads (upChunks rbf.length)) :
    ∃ err after opening parts,
      main surroundings argv (Machine.started { writes, reads, junk }) = (some err, after) ∧
      linkState after.calls = some .closed ∧
      after.session.log.filterMap Event.written =
        (opening :: parts ++ [Packet.toBytes (runRequest execName)]).map (fun packet => (packet, packet.length)) ∧
      opening[6]? = some 0x92 ∧ opening.drop 11 = execName.bytes ++ [0] ∧
      (∀ part ∈ parts, part[6]? = some 0x93) ∧
      readRbf (parts.map (List.drop 8)).flatten = some (execCommand cmd) := by
  obtain ⟨options, command, parsed, name, args, selected⟩ := starts
  have small : rbf.length ≤ 0xFFFFFFFF := by
    have bound := mkrbf_small made
    omega
  obtain ⟨middle, searched, run⟩ := @mainCommand_linked surroundings (cmd :: rest) command { writes, reads, junk } _
    options.params.timeout _ selected
  have link : HasLink transport middle := ⟨searched.handle, searched.state⟩
  obtain ⟨err, stored, program, sent⟩ := @execProgram_sends rbf handle writes reads junk options.params.timeout
    transport small taken echoes
  have branch : mainSwitch surroundings options.params.timeout (cmd :: rest) .exec =
      breaksWith (overLink (execProgram rbf options.params.timeout)) := by
    simp only [mainSwitch, execBranch, made, temporary, if_true]
  have ran : overLink (execProgram rbf options.params.timeout) middle = (some err, { middle with
      session := stored
      calls := middle.calls ++ (stored.log.drop middle.session.log.length).map MainCall.transfers }) := by
    rw [overLink_run _ link, runs, searched.session, program]
  have broke : breaksWith (overLink (execProgram rbf options.params.timeout)) middle = (some (.breaks err), _) :=
    Proc.bind_returned ran
  have kept := keepsLink_overLink (execProgram rbf options.params.timeout) middle transport link
  rw [ran] at kept
  obtain ⟨after, left, session, closed⟩ := @leaveSwitch_breaks surroundings _ transport err kept
  obtain ⟨opening, parts, packets, start, _, name', each, whole⟩ := uploadPackets_carry execName rbf handle small
  refine ⟨err, after, opening, parts, ?_, closed, ?_, start, name', each, ?_⟩
  · rw [main_parsed parsed, args, run, name, branch]
    exact (Proc.bind_returned broke).trans left
  · rw [session, sent, packets]
  · rw [whole, readRbf_mkrbf made]

theorem starts_exec_true : Starts (bareSurroundings ⟨true, false, false, false⟩)
    [programName, ⟨ascii "exec", by decide⟩, ⟨ascii "true", by decide⟩] .exec [⟨ascii "true", by decide⟩] .usb := by
  obtain ⟨parsed, args⟩ := parsed_word programName ⟨ascii "exec", by decide⟩ [⟨ascii "true", by decide⟩] (by decide)
    (by decide)
  exact ⟨_, _, parsed, by decide, args, rfl⟩

theorem main_exec_true : ∃ err after, main (bareSurroundings ⟨true, false, false, false⟩)
    [programName, ⟨ascii "exec", by decide⟩, ⟨ascii "true", by decide⟩]
    (Machine.started { writes := [41, 151, 50], reads := List.replicate 2 (.received [6, 0, 0, 0, 3, 0x92, 0, 2]) }) =
      (some err, after) := by
  have short : rbfSize (execCommand ⟨ascii "true", by decide⟩) < 2 ^ 32 := by decide
  have made : mkrbf (execCommand ⟨ascii "true", by decide⟩) = some _ := if_pos short
  have one : upChunks (rbfSize (execCommand ⟨ascii "true", by decide⟩)) = 1 := by decide
  have length := mkrbf_length made
  obtain ⟨err, after, _, _, run, _⟩ := @main_exec _ _ _ _ _ _ 2 [41, 151, 50]
    (List.replicate 2 (.received [6, 0, 0, 0, 3, 0x92, 0, 2])) (fun _ _ => 0) starts_exec_true rfl made
    (by rw [length, one]; decide) (by
      rw [length, one]
      intro index bound
      match index, bound with
      | 0, _ => exact ⟨_, rfl, by decide, rfl⟩
      | 1, _ => exact ⟨_, rfl, by decide, rfl⟩)
  exact ⟨err, after, run⟩

end Exec

end Ev3duder
