import Ev3duder.Commands.Retrieval

namespace Ev3duder

open Data

/-! # What a successful retrieval is worth -/

section Sound

def Session.buffer (session : Session) (index : Nat) : Reply :=
  (⟨session.junk 0, 0⟩ : Reply).after session.reads (index + 1)

def Session.delivered (session : Session) (index : Nat) : Bytes := (session.reads.getD index (.received [])).stored

def replyHeader : Nat → Nat
  | 0 => beginUploadReplySize
  | _ + 1 => continueUploadReplySize

/-- Where a reply ends according to its own length field. -/
def Session.replyEnd (session : Session) (index : Nat) : Nat := (session.buffer index).len.toNat + 2

/-- A reply is as long as it says, and longer than its header. -/
structure Session.Consistent (session : Session) (index : Nat) : Prop where
  header : replyHeader index ≤ session.replyEnd index
  received : session.replyEnd index ≤ (session.delivered index).length

def Session.payload (session : Session) (index : Nat) : Bytes :=
  ((session.delivered index).take (session.replyEnd index)).drop (replyHeader index)

/-- A success means: the output has the announced size, it consists of the payloads of the replies received,
and each of these lies inside what was delivered. -/
def RetrieveSound (session : Session) (run : Option Err × Session) : Prop :=
  run.1 = some .unk →
    run.2.output.length = session.opening.announced.toNat ∧
      run.2.output = (List.range (run.2.log.filterMap Event.answer).length).flatMap session.payload ∧
      ∀ index, index < (run.2.log.filterMap Event.answer).length → session.Consistent index

variable {session : Session}

theorem passEvents_answer (kind : Retrieval) (reply : Reply) (handle : UInt8) (writes : List Int)
    (reads : List ReadResult) (count : Nat) :
    (passEvents kind reply handle writes reads count).filterMap Event.answer =
      (List.range count).map fun index => reads.getD index (.received []) := by
  induction count generalizing reply handle writes reads with
  | zero => rfl
  | succ count ih =>
      simp only [passEvents, List.filterMap_cons, Event.answer, ih, List.range_succ_eq_map, List.map_cons,
        List.map_map, Function.comp_def, List.headD_eq_getD, tail_getD]

theorem openingSize_eq {packetLen : UInt16} (header : beginUploadReplySize ≤ packetLen.toNat + 2) :
    (openingSize packetLen).toNat = packetLen.toNat + 2 - beginUploadReplySize := by
  have bound : packetLen.toNat < 65536 := packetLen.toNat_lt
  have sum : (packetLen.toUInt32 + 2).toNat = packetLen.toNat + 2 := by
    rw [UInt32.toNat_add]
    change (packetLen.toNat + 2) % 2 ^ 32 = _
    omega
  have order : UInt32.ofNat beginUploadReplySize ≤ packetLen.toUInt32 + 2 := by
    rw [UInt32.le_iff_toNat_le, sum]
    exact header
  rw [openingSize, UInt32.toNat_sub_of_le _ _ order, sum]
  rfl

theorem continuingSize_eq {packetLen : UInt16} (header : continueUploadReplySize ≤ packetLen.toNat + 2) :
    (continuingSize packetLen).toNat = packetLen.toNat + 2 - continueUploadReplySize := by
  have bound : packetLen.toNat < 65536 := packetLen.toNat_lt
  have sum : (packetLen.toUInt64 + 2).toNat = packetLen.toNat + 2 := by
    rw [UInt64.toNat_add]
    change (packetLen.toNat + 2) % 2 ^ 64 = _
    omega
  have order : UInt64.ofNat continueUploadReplySize ≤ packetLen.toUInt64 + 2 := by
    rw [UInt64.le_iff_toNat_le, sum]
    exact header
  rw [continuingSize, UInt64.toNat_sub_of_le _ _ order, sum]
  rfl

def Session.taken (session : Session) : Nat → Bytes
  | 0 => (session.buffer 0).openingPayload
  | index + 1 => (session.buffer (index + 1)).continuingPayload

theorem taken_eq {index : Nat} (consistent : session.Consistent index) :
    session.taken index = session.payload index := by
  obtain ⟨header, received⟩ := consistent
  have memory : (session.buffer index).memory =
      ((⟨session.junk 0, 0⟩ : Reply).after session.reads index).memory.store (session.delivered index) := by
    rw [Session.buffer, Reply.after_succ]
    rfl
  have load : (session.buffer index).memory.load (replyHeader index)
      (session.replyEnd index - replyHeader index) = session.payload index := by
    rw [memory, Memory.load_store (by omega), Session.payload, List.drop_take]
  cases index with
  | zero =>
      rw [← load, Session.taken, Reply.openingPayload, openingSize_eq header]
      rfl
  | succ index =>
      rw [← load, Session.taken, Reply.continuingPayload, continuingSize_eq header]
      rfl

theorem payload_length {index : Nat} (consistent : session.Consistent index) :
    (session.payload index).length = session.replyEnd index - replyHeader index := by
  have := consistent.received
  simp only [Session.payload, List.length_drop, List.length_take]
  omega

theorem opening_eq (session : Session) : session.opening = session.buffer 0 := by
  rw [Session.buffer, Reply.after, Session.opening, Session.readResult]
  rfl

theorem retrieve_taken {path : CString} {count : Nat} (kind : Retrieval) (ends : RetrievalEnds path session count)
    (fresh : session.log = []) (empty : session.output = []) :
    (retrieve kind path session).2.output = (List.range (count + 1)).flatMap session.taken ∧
      ((retrieve kind path session).2.log.filterMap Event.answer).length = count + 1 := by
  obtain ⟨output, log⟩ := retrieve_ends kind ends
  constructor
  · rw [output, empty, List.nil_append, List.range_succ_eq_map, List.flatMap_cons, List.flatMap_map, opening_eq]
    rfl
  · rw [log, fresh, List.nil_append, List.filterMap_append, passEvents_answer, List.length_append,
      List.length_map, List.length_range]
    exact Nat.add_comm 1 count

theorem retrieve_sound {path : CString} (kind : Retrieval) (fresh : session.log = [])
    (empty : session.output = []) :
    RetrieveSound session (retrieve kind path session) ↔
      ∀ count, RetrievalEnds path session count →
        (∀ index, index ≤ count → session.Consistent index) ∧
          ((List.range (count + 1)).map fun index => session.replyEnd index - replyHeader index).sum =
            session.opening.announced.toNat := by
  have size {count : Nat} (consistent : ∀ index, index ≤ count → session.Consistent index) :
      ((List.range (count + 1)).flatMap session.payload).length =
        ((List.range (count + 1)).map fun index => session.replyEnd index - replyHeader index).sum := by
    rw [List.length_flatMap]
    congr 1
    apply List.map_congr_left
    intro index member
    exact payload_length (consistent index (Nat.le_of_lt_succ (List.mem_range.mp member)))
  constructor
  · intro sound count ends
    obtain ⟨output, answers⟩ := retrieve_taken kind ends fresh empty
    obtain ⟨length, content, consistent⟩ := sound ((retrieve_succeeds kind path session).mpr ⟨count, ends⟩)
    rw [answers] at content consistent
    have all : ∀ index, index ≤ count → session.Consistent index := by
      intro index bound
      exact consistent index (Nat.lt_succ_of_le bound)
    exact ⟨all, by rw [← size all, ← content, length]⟩
  · intro harmless succeeded
    obtain ⟨count, ends⟩ := (retrieve_succeeds kind path session).mp succeeded
    obtain ⟨output, answers⟩ := retrieve_taken kind ends fresh empty
    obtain ⟨consistent, total⟩ := harmless count ends
    have content : (List.range (count + 1)).flatMap session.taken =
        (List.range (count + 1)).flatMap session.payload := by
      rw [List.flatMap_def, List.flatMap_def]
      congr 1
      apply List.map_congr_left
      intro index member
      exact taken_eq (consistent index (Nat.le_of_lt_succ (List.mem_range.mp member)))
    rw [answers, output, content]
    refine ⟨by rw [size consistent, total], rfl, ?_⟩
    intro index bound
    exact consistent index (Nat.le_of_lt_succ bound)

/-- The verdict on downloads and listings: no reply is checked against what was received or is missing. -/
theorem retrieve_sound_iff (path : CString) (writes : List Int) (reads : List ReadResult)
    (junk : Nat → Memory) :
    (RetrieveSound { writes, reads, junk } (dl path { writes, reads, junk }) ↔
        ∀ count, RetrievalEnds path { writes, reads, junk } count →
          (∀ index, index ≤ count → Session.Consistent { writes, reads, junk } index) ∧
            ((List.range (count + 1)).map fun index =>
              Session.replyEnd { writes, reads, junk } index - replyHeader index).sum =
                (Session.opening { writes, reads, junk }).announced.toNat) ∧
      (RetrieveSound { writes, reads, junk } (ls path { writes, reads, junk }) ↔
        ∀ count, RetrievalEnds path { writes, reads, junk } count →
          (∀ index, index ≤ count → Session.Consistent { writes, reads, junk } index) ∧
            ((List.range (count + 1)).map fun index =>
              Session.replyEnd { writes, reads, junk } index - replyHeader index).sum =
                (Session.opening { writes, reads, junk }).announced.toNat) :=
  ⟨retrieve_sound dlRetrieval rfl rfl, retrieve_sound lsRetrieval rfl rfl⟩

/-- A reply that announces five bytes of payload and brings none: five bytes of old memory are saved. -/
theorem dl_saves_old_memory :
    ¬ RetrieveSound { writes := [12], reads := [.received [15, 0, 0, 0, 3, 0x94, 0, 5, 0, 0, 0, 1]] }
      (dl ⟨[], by decide⟩ { writes := [12], reads := [.received [15, 0, 0, 0, 3, 0x94, 0, 5, 0, 0, 0, 1]] }) := by
  intro sound
  have ends : RetrievalEnds ⟨[], by decide⟩
      { writes := [12], reads := [.received [15, 0, 0, 0, 3, 0x94, 0, 5, 0, 0, 0, 1]] } 0 :=
    ⟨by decide, by decide, by decide, loopEnds_zero.mpr (by decide)⟩
  obtain ⟨_, _, consistent⟩ := sound ((retrieve_succeeds dlRetrieval _ _).mpr ⟨0, ends⟩)
  have answers := (retrieve_taken dlRetrieval ends rfl rfl).2
  have first := consistent 0 (by rw [dl, answers]; decide)
  exact absurd first.received (by decide)

end Sound

/-- A reply with a part of the file; what a reply carries besides is the brick's own affair. -/
structure BrickReply where
  msgCount : UInt16
  type : UInt8
  cmd : UInt8
  ret : UInt8
  handle : UInt8
  chunk : Bytes
  accepted : type ≠ vmError

namespace BrickReply

def opening (reply : BrickReply) (fileSize : Nat) : Bytes :=
  leBytes 2 (10 + reply.chunk.length) ++ leBytes 2 reply.msgCount.toNat ++ [reply.type, reply.cmd, reply.ret] ++
    leBytes 4 fileSize ++ reply.handle :: reply.chunk

def continuing (reply : BrickReply) : Bytes :=
  leBytes 2 (6 + reply.chunk.length) ++ leBytes 2 reply.msgCount.toNat ++ [reply.type, reply.cmd, reply.ret] ++
    reply.handle :: reply.chunk

def result (reply : BrickReply) : ReadResult := .received reply.continuing

end BrickReply

section Exact

theorem received_len {buffer : Reply} {data rest : Bytes} {packetLen : Nat} (small : packetLen < 65536)
    (front : data = leBytes 2 packetLen ++ rest) :
    (buffer.receive (.received data)).len.toNat = packetLen := by
  have long : 0 + 2 ≤ (ReadResult.received data).stored.length := by
    rw [front]
    simp [ReadResult.stored]
  have field : (buffer.receive (.received data)).memory.load 0 2 = leBytes 2 packetLen := by
    rw [Reply.receive, Memory.load_store long, List.drop_zero, ReadResult.stored, front]
    exact List.take_left' (leBytes_length 2 packetLen)
  rw [Reply.len, field, leValue_leBytes_of_lt (by omega), UInt16.toNat_ofNat', Nat.mod_eq_of_lt small]

theorem continuing_received (buffer : Reply) (reply : BrickReply) (small : reply.chunk.length ≤ 1004) :
    (buffer.receive reply.result).memory 4 = reply.type ∧ (buffer.receive reply.result).memory 7 = reply.handle ∧
      (continuingSize (buffer.receive reply.result).len).toNat = reply.chunk.length ∧
      (buffer.receive reply.result).continuingPayload = reply.chunk := by
  have len : (buffer.receive reply.result).len.toNat = 6 + reply.chunk.length :=
    received_len (by omega) (by simp only [BrickReply.continuing, List.append_assoc]; rfl)
  have size : (continuingSize (buffer.receive reply.result).len).toNat = reply.chunk.length := by
    rw [continuingSize_eq (by rw [len, continueUploadReplySize]; omega), len, continueUploadReplySize]
    omega
  refine ⟨Reply.receive_delivered rfl, Reply.receive_delivered rfl, size, ?_⟩
  have stored : reply.result.stored.drop 8 = reply.chunk := rfl
  have length : reply.result.stored.length = 8 + reply.chunk.length := by
    simp [BrickReply.result, ReadResult.stored, BrickReply.continuing]
    omega
  rw [Reply.continuingPayload, size, Reply.receive, continueUploadReplySize,
    Memory.load_store (by omega), stored, List.take_length]

theorem opening_received (buffer : Reply) (reply : BrickReply) {fileSize : Nat} (bound : fileSize < 2 ^ 32)
    (small : reply.chunk.length ≤ 1000) :
    (buffer.receive (.received (reply.opening fileSize))).memory 4 = reply.type ∧
      (buffer.receive (.received (reply.opening fileSize))).memory 11 = reply.handle ∧
      (buffer.receive (.received (reply.opening fileSize))).announced.toNat = fileSize ∧
      (openingSize (buffer.receive (.received (reply.opening fileSize))).len).toNat = reply.chunk.length ∧
      (buffer.receive (.received (reply.opening fileSize))).openingPayload = reply.chunk := by
  have len : (buffer.receive (.received (reply.opening fileSize))).len.toNat = 10 + reply.chunk.length :=
    received_len (by omega) (by simp only [BrickReply.opening, List.append_assoc]; rfl)
  have size : (openingSize (buffer.receive (.received (reply.opening fileSize))).len).toNat =
      reply.chunk.length := by
    rw [openingSize_eq (by rw [len, beginUploadReplySize]; omega), len, beginUploadReplySize]
    omega
  have stored : (reply.opening fileSize).drop 12 = reply.chunk := rfl
  have length : (reply.opening fileSize).length = 12 + reply.chunk.length := by
    simp [BrickReply.opening]
    omega
  have field : (buffer.receive (.received (reply.opening fileSize))).memory.load 7 4 = leBytes 4 fileSize :=
    Memory.load_store (by rw [ReadResult.stored, length]; omega)
  have whole : 12 + reply.chunk.length ≤ (ReadResult.received (reply.opening fileSize)).stored.length :=
    Nat.le_of_eq length.symm
  refine ⟨Reply.receive_delivered rfl, Reply.receive_delivered rfl, ?_, size, ?_⟩
  · rw [Reply.announced, field, leValue_leBytes_of_lt bound, UInt32.toNat_ofNat', Nat.mod_eq_of_lt bound]
  · rw [Reply.openingPayload, size, Reply.receive, beginUploadReplySize,
      Memory.load_store whole, ReadResult.stored, stored, List.take_length]

theorem exact_loopEnds (buffer : Reply) (writes : List Int) (rest : List BrickReply) {readSoFar total : UInt32}
    (taken : ∀ index, index < rest.length → 0 ≤ writes.getD index (-1))
    (sizes : ∀ reply ∈ rest, 1 ≤ reply.chunk.length ∧ reply.chunk.length ≤ 1004)
    (missing : readSoFar.toNat + (rest.flatMap BrickReply.chunk).length = total.toNat) :
    LoopEnds buffer writes (rest.map BrickReply.result) readSoFar total rest.length := by
  induction rest generalizing buffer writes readSoFar with
  | nil =>
      rw [List.length_nil, loopEnds_zero, UInt32.lt_iff_toNat_lt]
      simpa using Nat.le_of_eq missing.symm
  | cons reply rest ih =>
      obtain ⟨positive, small⟩ := sizes reply List.mem_cons_self
      obtain ⟨type, _, size, _⟩ := continuing_received buffer reply small
      have bound := total.toNat_lt
      rw [List.flatMap_cons, List.length_append] at missing
      have moved : (readSoFar + (continuingSize (buffer.receive reply.result).len).toUInt32).toNat =
          readSoFar.toNat + reply.chunk.length := by
        rw [UInt32.toNat_add, UInt64.toNat_toUInt32, size, Nat.mod_eq_of_lt (by omega : reply.chunk.length < 2 ^ 32),
          Nat.mod_eq_of_lt (by omega)]
      rw [List.length_cons, List.map_cons, loopEnds_succ]
      refine ⟨UInt32.lt_iff_toNat_lt.mpr (by omega), ⟨?_, ?_⟩, ?_, ih _ _ ?_ ?_ ?_⟩
      · have first := taken 0 (by simp)
        cases writes <;> exact first
      · simp [BrickReply.result, ReadResult.res, BrickReply.continuing]
        omega
      · rw [List.headD_cons, type]
        exact reply.accepted
      · intro index inside
        have later := taken (index + 1) (by simpa using inside)
        cases writes <;> exact later
      · exact fun other member => sizes other (List.mem_cons_of_mem _ member)
      · rw [List.headD_cons, moved]
        omega

theorem exact_payloads (buffer : Reply) (rest : List BrickReply)
    (sizes : ∀ reply ∈ rest, 1 ≤ reply.chunk.length ∧ reply.chunk.length ≤ 1004) :
    (List.range rest.length).flatMap (fun index =>
      (buffer.after (rest.map BrickReply.result) (index + 1)).continuingPayload) =
      rest.flatMap BrickReply.chunk := by
  induction rest generalizing buffer with
  | nil => rfl
  | cons reply rest ih =>
      have small := (sizes reply List.mem_cons_self).2
      have first := (continuing_received buffer reply small).2.2.2
      have others := ih (buffer.receive reply.result) fun other member =>
        sizes other (List.mem_cons_of_mem _ member)
      rw [List.length_cons, List.range_succ_eq_map, List.flatMap_cons, List.flatMap_map, List.flatMap_cons,
        ← others]
      exact congrArg (· ++ _) first

theorem exact_requests (buffer : Reply) (handle : UInt8) (writes : List Int) (rest : List BrickReply)
    (sizes : ∀ reply ∈ rest, 1 ≤ reply.chunk.length ∧ reply.chunk.length ≤ 1004) :
    (passEvents dlRetrieval buffer handle writes (rest.map BrickReply.result) rest.length).filterMap
        Event.written =
      (handle :: rest.map BrickReply.handle).dropLast.map fun handle =>
        (Packet.toBytes (continueUpload handle), Packet.size ContinueUpload) := by
  induction rest generalizing buffer handle writes with
  | nil => rfl
  | cons reply rest ih =>
      have carried := (continuing_received buffer reply (sizes reply List.mem_cons_self).2).2.1
      have others := ih (buffer.receive reply.result) reply.handle writes.tail fun other member =>
        sizes other (List.mem_cons_of_mem _ member)
      rw [List.map_cons, List.map_cons, List.dropLast_cons_cons, List.map_cons, ← others, List.length_cons, passEvents,
        List.headD_cons, List.tail_cons, carried]
      rfl

theorem exact_reads (buffer : Reply) (handle : UInt8) (writes : List Int) (rest : List BrickReply)
    (sizes : ∀ reply ∈ rest, 1 ≤ reply.chunk.length ∧ reply.chunk.length ≤ 1004)
    {count : Nat} {milliseconds : Int} {result : ReadResult}
    (member : Event.read count milliseconds result ∈
      passEvents dlRetrieval buffer handle writes (rest.map BrickReply.result) rest.length) :
    count = 1012 ∧ result.stored.length ≤ count := by
  induction rest generalizing buffer handle writes with
  | nil => simp [passEvents] at member
  | cons reply rest ih =>
      rw [List.length_cons, passEvents, List.map_cons, List.headD_cons] at member
      rcases List.mem_cons.mp member with same | member
      · cases same
      · rcases List.mem_cons.mp member with same | member
        · cases same
          have small := (sizes reply List.mem_cons_self).2
          refine ⟨rfl, ?_⟩
          simp [BrickReply.result, ReadResult.stored, BrickReply.continuing, dlRetrieval, beginUploadReplySize,
            dlChunkSize]
          omega
        · exact ih _ _ _ (fun other inside => sizes other (List.mem_cons_of_mem _ inside)) member

def servedSession (fileSize : Nat) (first : BrickReply) (rest : List BrickReply) (writes : List Int)
    (junk : Nat → Memory) : Session where
  writes
  reads := .received (first.opening fileSize) :: rest.map BrickReply.result
  junk

theorem parts_bounded {rest : List BrickReply}
    (sizes : ∀ reply ∈ rest, 1 ≤ reply.chunk.length ∧ reply.chunk.length ≤ 1004) :
    rest.length ≤ (rest.flatMap BrickReply.chunk).length := by
  induction rest with
  | nil => exact Nat.zero_le _
  | cons reply rest ih =>
      have positive := (sizes reply List.mem_cons_self).1
      have others := ih fun other member => sizes other (List.mem_cons_of_mem _ member)
      rw [List.flatMap_cons, List.length_append, List.length_cons]
      omega

theorem openingRequest_framed (kind : Retrieval) {path : CString}
    (fits : Packet.size PathRequest + (path.bytes.length + 1) < 65535) :
    (Packet.packetLen (openingRequest kind path)).toNat = (Packet.tail (openingRequest kind path)).length := by
  have small : 9 + (path.bytes.length + 1) < 65535 := fits
  have field : (Packet.packetLen (openingRequest kind path)).toNat =
      (UInt16.ofNat (9 + (path.bytes.length + 1) - 3)).toNat := rfl
  rw [field, UInt16.toNat_ofNat']
  simp [Packet.tail, openingRequest, CommandFields.tail]
  omega

section Served

variable {content : Bytes} {path : CString} {first : BrickReply} {rest : List BrickReply} {writes : List Int}

theorem served_ends (junk : Nat → Memory) (bound : content.length < 2 ^ 32)
    (fits : Packet.size PathRequest + (path.bytes.length + 1) < 65535)
    (parts : first.chunk ++ rest.flatMap BrickReply.chunk = content) (firstSize : first.chunk.length ≤ 1000)
    (sizes : ∀ reply ∈ rest, 1 ≤ reply.chunk.length ∧ reply.chunk.length ≤ 1004)
    (taken : ∀ index, index ≤ rest.length → 0 ≤ writes.getD index (-1)) :
    RetrievalEnds path (servedSession content.length first rest writes junk) rest.length := by
  have opening : (servedSession content.length first rest writes junk).opening =
      (⟨junk 0, 0⟩ : Reply).receive (.received (first.opening content.length)) := rfl
  obtain ⟨type, _, announced, size, _⟩ := opening_received ⟨junk 0, 0⟩ first bound firstSize
  have total := congrArg List.length parts
  rw [List.length_append] at total
  refine ⟨fits, ⟨?_, ?_⟩, ?_, ?_⟩
  · have begun := taken 0 (Nat.zero_le _)
    cases writes <;> exact begun
  · simp [servedSession, Session.readResult, ReadResult.res, BrickReply.opening]
    omega
  · rw [opening, type]
    exact first.accepted
  · rw [opening]
    refine exact_loopEnds _ _ rest ?_ sizes (by rw [size, announced, total])
    intro index inside
    have later := taken (index + 1) inside
    cases writes <;> exact later

/-- The whole log of a download that ends well. -/
theorem served_log {junk : Nat → Memory} {fileSize : Nat}
    (fits : Packet.size PathRequest + (path.bytes.length + 1) < 65535)
    (ends : RetrievalEnds path (servedSession fileSize first rest writes junk) rest.length) :
    (dl path (servedSession fileSize first rest writes junk)).2.log =
      .write (Packet.toBytes (openingRequest dlRetrieval path))
          (Packet.toBytes (openingRequest dlRetrieval path)).length (writes.headD (-1)) ::
        .read 1012 timeout (.received (first.opening fileSize)) ::
        passEvents dlRetrieval (servedSession fileSize first rest writes junk).opening
          ((servedSession fileSize first rest writes junk).opening.memory 11) writes.tail
          (rest.map BrickReply.result) rest.length := by
  obtain ⟨_, log⟩ := retrieve_ends dlRetrieval ends
  have count := Packet.count_eq (openingRequest_framed dlRetrieval fits)
  have whole : (Packet.toBytes (openingRequest dlRetrieval path)).take
      (Packet.count (openingRequest dlRetrieval path)) = Packet.toBytes (openingRequest dlRetrieval path) := by
    rw [count, List.take_length]
  rw [whole, count] at log
  exact log

end Served

/-- Against a brick that keeps to the protocol a download is exact. -/
theorem dl_exact (content : Bytes) {path : CString} {first : BrickReply} {rest : List BrickReply}
    {writes : List Int} (junk : Nat → Memory) (bound : content.length < 2 ^ 32)
    (fits : Packet.size PathRequest + (path.bytes.length + 1) < 65535)
    (parts : first.chunk ++ rest.flatMap BrickReply.chunk = content) (firstSize : first.chunk.length ≤ 1000)
    (sizes : ∀ reply ∈ rest, 1 ≤ reply.chunk.length ∧ reply.chunk.length ≤ 1004)
    (taken : ∀ index, index ≤ rest.length → 0 ≤ writes.getD index (-1)) :
    let run := dl path (servedSession content.length first rest writes junk)
    run.1 = some .unk ∧ run.2.output = content ∧ rest.length ≤ content.length ∧
      run.2.log.filterMap Event.written =
        (Packet.toBytes (openingRequest dlRetrieval path), (Packet.toBytes (openingRequest dlRetrieval path)).length) ::
          ((first :: rest).map BrickReply.handle).dropLast.map (fun handle =>
            (Packet.toBytes (continueUpload handle), Packet.size ContinueUpload)) ∧
      ∀ count milliseconds result, Event.read count milliseconds result ∈ run.2.log →
        count = 1012 ∧ result.stored.length ≤ count := by
  intro run
  have opening : (servedSession content.length first rest writes junk).opening =
      (⟨junk 0, 0⟩ : Reply).receive (.received (first.opening content.length)) := rfl
  obtain ⟨_, handle, _, _, payload⟩ := opening_received ⟨junk 0, 0⟩ first bound firstSize
  have ends := served_ends junk bound fits parts firstSize sizes taken
  obtain ⟨output, _⟩ := retrieve_ends dlRetrieval ends
  have events : run.2.log = _ := served_log fits ends
  refine ⟨(retrieve_succeeds dlRetrieval path _).mpr ⟨_, ends⟩, ?_, ?_, ?_, ?_⟩
  · refine output.trans ?_
    rw [opening, payload]
    exact (congrArg (first.chunk ++ ·) (exact_payloads _ rest sizes)).trans parts
  · have each := parts_bounded sizes
    rw [← parts, List.length_append]
    omega
  · have requests := exact_requests (servedSession content.length first rest writes junk).opening first.handle
      writes.tail rest sizes
    rw [events, opening, handle]
    simp only [List.filterMap_cons, Event.written, List.map_cons]
    rw [← requests, opening]
  · intro count milliseconds result member
    rw [events] at member
    simp only [List.mem_cons] at member
    rcases member with same | same | member
    · cases same
    · cases same
      refine ⟨rfl, ?_⟩
      simp [ReadResult.stored, BrickReply.opening]
      omega
    · exact exact_reads _ _ _ rest sizes member

theorem dl_exact_three_bytes :
    (dl ⟨[0x61], by decide⟩ (servedSession 3 ⟨0, 3, 0x94, 0, 1, [7, 8], by decide⟩
      [⟨0, 3, 0x95, 0, 2, [9], by decide⟩] [13, 10] fun _ _ => 0)).2.output = [7, 8, 9] :=
  (dl_exact [7, 8, 9] (fun _ _ => 0) (by decide) (by decide) rfl (by decide) (by decide)
    (by decide)).2.1

end Exact

end Ev3duder
