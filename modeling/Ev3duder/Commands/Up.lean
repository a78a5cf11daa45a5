import Ev3duder.Packets

namespace Ev3duder

open Data

/-! # `up`: a local file is uploaded to the brick -/

/-- `CHUNK_SIZE`: the brick does not take packets of more than 1024 bytes. -/
def chunkSize : Nat := 1000

def finalChunkSz (fsize : Nat) : Nat := if fsize % chunkSize = 0 then chunkSize else fsize % chunkSize

def upChunks (fsize : Nat) : Nat := if fsize % chunkSize = 0 then fsize / chunkSize else fsize / chunkSize + 1

def upRequest (chunks finalSz i : Nat) : Nat := if i = chunks - 1 then finalSz else chunkSize

/-- The packet of one pass: the length field is patched for the last one only, and `fread` overwrites no
more of the chunk than it got. -/
def upPacket (chunks finalSz i : Nat) (cd : ContinueDownload) (fileHandle : UInt8) (data : Bytes) :
    ContinueDownload where
  toCommandFields := { cd.toCommandFields with
    packetLen := if i = chunks - 1 then UInt16.ofNat (Packet.size ContinueDownload + finalSz - prefixSize)
      else cd.packetLen }
  fileHandle := fileHandle
  fileChunk := data ++ cd.fileChunk.drop data.length

def upLoop (chunks finalSz : Nat) (cd : ContinueDownload) (bdrep : Reply) (i : Nat) :
    Command (Except Err Reply) :=
  if i < chunks then do
    let fileHandle ← bdrep.u8 7
    let data ← fread (upRequest chunks finalSz i)
    let cd := upPacket chunks finalSz i cd fileHandle data
    match ← exchange cd "Unable to write CONTINUE_DOWNLOAD." bdrep beginDownloadReplySize timeout
        "Unable to read CONTINUE_DOWNLOAD" with
    | .error err => return .error err
    | .ok bdrep => upLoop chunks finalSz cd bdrep (i + 1)
  else return .ok bdrep
termination_by chunks - i

def upTransfer (fsize : Nat) (bdrep : Reply) : Command Err := do
  match packetAlloc continueDownloadInit chunkSize with
  | none => Proc.crash
  | some cd => do
      let heap ← malloc
      let cd := { cd with fileChunk := heap.load 0 chunkSize }
      match ← upLoop (upChunks fsize) (finalChunkSz fsize) cd bdrep 0 with
      | .error err => return err
      | .ok bdrep => do
          let type ← bdrep.type
          if type = vmError then denied bdrep 0 "CONTINUE_DOWNLOAD was denied."
          else failWith "`upload` was successful." .unk

def up (dst : CString) : Command Err := do
  let fsize ← Proc.gets fun session => session.input.rest.length
  if 0xFFFFFFFF < fsize then return .fTooBig
  else
    match packetAlloc beginDownloadInit (dst.bytes.length + 1) with
    | none => Proc.crash
    | some bd => do
        let bd := { bd with fileSize := UInt32.ofNat fsize, fileName := dst.bytes ++ [0] }
        let stack ← malloc
        match ← exchange bd "Unable to write BEGIN_DOWNLOAD." ⟨stack, 0⟩ beginDownloadReplySize timeout
            "Unable to read BEGIN_DOWNLOAD" with
        | .error err => return err
        | .ok bdrep => do
            let type ← bdrep.type
            if type = vmError then do
              let ret ← bdrep.ret
              setErrno ret.toNat
              failWith "BEGIN_DOWNLOAD was denied." .vm
            else upTransfer fsize bdrep

def Session.afterChunk (session : Session) (bdrep : Reply) (request : Nat) : Session :=
  { session with
    peeks := session.peeks ++ [⟨8, bdrep.got⟩]
    input := session.input.afterRead request }

def Session.upPacket (session : Session) (chunks finalSz i : Nat) (cd : ContinueDownload) (bdrep : Reply) :
    ContinueDownload :=
  Ev3duder.upPacket chunks finalSz i cd (bdrep.memory 7)
    (session.input.rest.take (session.input.transfer (upRequest chunks finalSz i)))

section Pass

variable {chunks finalSz i : Nat} {cd : ContinueDownload} {bdrep : Reply} {session : Session}

theorem upLoop_pass (inside : i < chunks) :
    upLoop chunks finalSz cd bdrep i session =
      (exchange (session.upPacket chunks finalSz i cd bdrep) "Unable to write CONTINUE_DOWNLOAD." bdrep
          beginDownloadReplySize timeout "Unable to read CONTINUE_DOWNLOAD" >>= fun step =>
        match step with
        | .error err => return .error err
        | .ok bdrep' => upLoop chunks finalSz (session.upPacket chunks finalSz i cd bdrep) bdrep' (i + 1))
        (session.afterChunk bdrep (upRequest chunks finalSz i)) := by
  rw [upLoop, if_pos inside]
  have handle : bdrep.u8 7 session = (some (bdrep.memory 7),
      { session with peeks := session.peeks ++ [⟨8, bdrep.got⟩] }) := rfl
  have data : fread (upRequest chunks finalSz i) { session with peeks := session.peeks ++ [⟨8, bdrep.got⟩] } =
      (some (session.input.rest.take (session.input.transfer (upRequest chunks finalSz i))),
        session.afterChunk bdrep (upRequest chunks finalSz i)) := rfl
  rw [Proc.bind_returned handle, Proc.bind_returned data]
  rfl

theorem upLoop_answered (inside : i < chunks) (written : 0 ≤ session.writeResult)
    (read : 0 < session.readResult.res) :
    upLoop chunks finalSz cd bdrep i session =
      upLoop chunks finalSz (session.upPacket chunks finalSz i cd bdrep)
        (bdrep.receive session.readResult) (i + 1)
        ((session.afterChunk bdrep (upRequest chunks finalSz i)).afterExchange
          (session.upPacket chunks finalSz i cd bdrep) beginDownloadReplySize timeout) := by
  rw [upLoop_pass inside, Proc.bind_returned (exchange_answered
    (session.afterChunk bdrep (upRequest chunks finalSz i)) written read)]
  rfl

theorem upLoop_failed (finalSz : Nat) (cd : ContinueDownload) (bdrep : Reply) (inside : i < chunks)
    (failed : ¬ (0 ≤ session.writeResult ∧ 0 < session.readResult.res)) :
    ∃ after, upLoop chunks finalSz cd bdrep i session = (some (.error .comm), after) := by
  obtain ⟨after, run⟩ := exchange_failed (session.upPacket chunks finalSz i cd bdrep)
    "Unable to write CONTINUE_DOWNLOAD." bdrep beginDownloadReplySize timeout
    "Unable to read CONTINUE_DOWNLOAD" (session.afterChunk bdrep (upRequest chunks finalSz i)) failed
  exact ⟨after, by rw [upLoop_pass inside, Proc.bind_returned run]; rfl⟩

theorem upLoop_finished (outside : ¬ i < chunks) :
    upLoop chunks finalSz cd bdrep i session = (some (.ok bdrep), session) := by
  rw [upLoop, if_neg outside]
  rfl

end Pass

def upRequests (chunks finalSz i : Nat) : List Nat :=
  (List.range' i (chunks - i)).map (upRequest chunks finalSz)

section Loop

variable {chunks finalSz i : Nat} {cd : ContinueDownload} {bdrep : Reply} {session : Session}

theorem upRequests_cons (inside : i < chunks) :
    upRequests chunks finalSz i = upRequest chunks finalSz i :: upRequests chunks finalSz (i + 1) := by
  have count : chunks - i = (chunks - (i + 1)) + 1 := by omega
  rw [upRequests, count, List.range'_succ, List.map_cons]
  rfl

theorem upRequests_nil (outside : ¬ i < chunks) : upRequests chunks finalSz i = [] := by
  have count : chunks - i = 0 := by omega
  rw [upRequests, count]
  rfl

/-- A loop that returns had every exchange answered, ends with the last reply in its buffer, and has made
exactly the reads it meant to. -/
theorem upLoop_returned {final : Reply} {after : Session}
    (returned : upLoop chunks finalSz cd bdrep i session = (some (.ok final), after)) :
    Answered session.writes session.reads (chunks - i) ∧
      final = bdrep.after session.reads (chunks - i) ∧
      after.input.calls = session.input.calls ++ session.input.reads (upRequests chunks finalSz i) := by
  generalize left : chunks - i = count
  induction count generalizing i cd bdrep session with
  | zero =>
      have outside : ¬ i < chunks := by omega
      rw [upLoop_finished outside] at returned
      cases returned
      exact ⟨answeredBy_zero _ _ _, rfl, by simp [upRequests_nil outside, File.reads]⟩
  | succ count ih =>
      have inside : i < chunks := by omega
      by_cases answered : 0 ≤ session.writeResult ∧ 0 < session.readResult.res
      · rw [upLoop_answered inside answered.1 answered.2] at returned
        obtain ⟨others, last, calls⟩ := ih returned (by omega)
        refine ⟨answeredBy_succ.mpr ⟨answered, others⟩, last, ?_⟩
        rw [calls, upRequests_cons inside, File.reads]
        exact List.append_assoc _ _ _
      · obtain ⟨_, failed⟩ := upLoop_failed finalSz cd bdrep inside answered
        rw [failed] at returned
        cases returned

theorem upLoop_returns (finalSz : Nat) (cd : ContinueDownload) (bdrep : Reply) (session : Session)
    (answered : Answered session.writes session.reads (chunks - i)) :
    ∃ after, upLoop chunks finalSz cd bdrep i session =
      (some (.ok (bdrep.after session.reads (chunks - i))), after) := by
  generalize left : chunks - i = count at answered ⊢
  induction count generalizing i cd bdrep session with
  | zero => exact ⟨session, upLoop_finished (by omega)⟩
  | succ count ih =>
      have inside : i < chunks := by omega
      obtain ⟨first, others⟩ := answeredBy_succ.mp answered
      obtain ⟨after, run⟩ := ih (session.upPacket chunks finalSz i cd bdrep)
        (bdrep.receive session.readResult) ((session.afterChunk bdrep (upRequest chunks finalSz i)).afterExchange
          (session.upPacket chunks finalSz i cd bdrep) beginDownloadReplySize timeout)
        (by omega : chunks - (i + 1) = count) others
      exact ⟨after, by rw [upLoop_answered inside first.1 first.2, run]; rfl⟩

theorem upLoop_unanswered (finalSz : Nat) (cd : ContinueDownload) (bdrep : Reply)
    (unanswered : ¬ Answered session.writes session.reads (chunks - i)) :
    ∃ after, upLoop chunks finalSz cd bdrep i session = (some (.error .comm), after) := by
  generalize left : chunks - i = count at unanswered
  induction count generalizing i cd bdrep session with
  | zero => exact absurd (answeredBy_zero _ _ _) unanswered
  | succ count ih =>
      have inside : i < chunks := by omega
      by_cases first : 0 ≤ session.writeResult ∧ 0 < session.readResult.res
      · have others : ¬ Answered session.writes.tail session.reads.tail count := by
          intro others
          exact unanswered (answeredBy_succ.mpr ⟨first, others⟩)
        rw [upLoop_answered inside first.1 first.2]
        exact ih _ _ (by omega) others
      · exact upLoop_failed finalSz cd bdrep inside first

end Loop

def chunkPacket (fileHandle : UInt8) (block : Bytes) : ContinueDownload :=
  { continueDownloadInit with
    packetLen := UInt16.ofNat (Packet.size ContinueDownload + block.length - prefixSize)
    fileHandle
    fileChunk := block }

def chunkEvents (bdrep : Reply) : List Bytes → List Int → List ReadResult → List Event
  | [], _, _ => []
  | block :: blocks, writes, reads =>
      .write (Packet.toBytes (chunkPacket (bdrep.memory 7) block))
          (Packet.size ContinueDownload + block.length) (writes.headD (-1)) ::
        .read beginDownloadReplySize timeout (reads.headD (.received [])) ::
        chunkEvents (bdrep.receive (reads.headD (.received []))) blocks writes.tail reads.tail

/-- The packet of a pass whose `fread` brought all it was asked for is the packet of that block, however
much stale data lies behind the block in the buffer. -/
theorem upPacket_sent {finalSz chunks i : Nat} {cd : ContinueDownload} (fileHandle : UInt8) {block : Bytes}
    (header : cd.toCommandFields = { continueDownloadInit.toCommandFields with packetLen := 1005 })
    (full : block.length = upRequest chunks finalSz i) (small : finalSz ≤ chunkSize) :
    Packet.handed (upPacket chunks finalSz i cd fileHandle block) = Packet.toBytes (chunkPacket fileHandle block) ∧
    Packet.count (upPacket chunks finalSz i cd fileHandle block) =
      Packet.size ContinueDownload + block.length := by
  have size : block.length ≤ 1000 := by
    rw [full]
    unfold upRequest
    split
    · exact small
    · exact Nat.le_refl _
  have packetLen : Packet.packetLen (upPacket chunks finalSz i cd fileHandle block) =
      UInt16.ofNat (8 + block.length - 3) := by
    change (if i = chunks - 1 then UInt16.ofNat (8 + finalSz - 3) else cd.packetLen) = _
    rw [full, header]
    unfold upRequest
    split <;> rfl
  have value : (UInt16.ofNat (8 + block.length - 3)).toNat = 5 + block.length := by
    rw [UInt16.toNat_ofNat']
    omega
  have count : Packet.count (upPacket chunks finalSz i cd fileHandle block) = 8 + block.length := by
    rw [Packet.count, packetLen, value, prefixSize]
    omega
  refine ⟨?_, count⟩
  have front : Packet.toBytes (upPacket chunks finalSz i cd fileHandle block) =
      Packet.toBytes (chunkPacket fileHandle block) ++ cd.fileChunk.drop block.length := by
    simp only [Packet.toBytes, packetLen]
    simp [upPacket, chunkPacket, Packet.tail, Packet.hidLayer, Packet.packetLen, Packet.size, header,
      CommandFields.tail, prefixSize]
  have length : (Packet.toBytes (chunkPacket fileHandle block)).length = 8 + block.length := by
    simp [Packet.toBytes, chunkPacket, Packet.tail, CommandFields.tail]
    omega
  rw [Packet.handed, count, front, ← length, List.take_left]

theorem upRequest_eq {total finalSz i length : Nat} (inside : i < total)
    (size : length = (total - 1 - i) * chunkSize + finalSz) (small : finalSz ≤ chunkSize) :
    upRequest total finalSz i = min chunkSize length := by
  unfold upRequest
  split
  · have none : total - 1 - i = 0 := by omega
    rw [size, none]
    omega
  · have more : 1 ≤ total - 1 - i := by omega
    have := Nat.mul_le_mul_right chunkSize more
    omega

/-- What holds before pass `i`: the length field is still the one of a full chunk, and the file has left exactly what
the passes from `i` on are to send. -/
structure UpReady (total finalSz i : Nat) (cd : ContinueDownload) (input : File) : Prop where
  header : i < total → cd.toCommandFields = { continueDownloadInit.toCommandFields with packetLen := 1005 }
  size : i < total → input.rest.length = (total - 1 - i) * chunkSize + finalSz
  empty : ¬ i < total → input.rest = []

section Ready

variable {total finalSz i : Nat} {cd : ContinueDownload} {input : File}

theorem UpReady.block (ready : UpReady total finalSz i cd input) (inside : i < total) (small : finalSz ≤ chunkSize) :
    input.rest.take (upRequest total finalSz i) = input.rest.take chunkSize ∧
      input.rest.drop (upRequest total finalSz i) = input.rest.drop chunkSize ∧
      (input.rest.take chunkSize).length = upRequest total finalSz i := by
  have request := upRequest_eq inside (ready.size inside) small
  rw [request, ← List.take_eq_take_min, ← List.drop_eq_drop_min, List.length_take]
  exact ⟨rfl, rfl, rfl⟩

theorem UpReady.next (ready : UpReady total finalSz i cd input) (inside : i < total) (small : finalSz ≤ chunkSize)
    (whole : input.transfer (upRequest total finalSz i) = upRequest total finalSz i) (fileHandle : UInt8)
    (data : Bytes) :
    UpReady total finalSz (i + 1) (upPacket total finalSz i cd fileHandle data)
      (input.afterRead (upRequest total finalSz i)) := by
  have length := ready.size inside
  have rest : (input.afterRead (upRequest total finalSz i)).rest = input.rest.drop chunkSize := by
    change input.rest.drop (input.transfer (upRequest total finalSz i)) = _
    rw [whole, (ready.block inside small).2.1]
  refine ⟨?_, ?_, ?_⟩
  · intro more
    have notLast : i ≠ total - 1 := by omega
    change (if i = total - 1 then _ else cd.packetLen) |> fun value =>
      { cd.toCommandFields with packetLen := value } = _
    rw [if_neg notLast]
    exact ready.header inside
  · intro more
    rw [rest, List.length_drop, length]
    have split : total - 1 - i = (total - 1 - (i + 1)) + 1 := by omega
    rw [split, Nat.succ_mul]
    omega
  · intro done
    rw [rest]
    apply List.drop_of_length_le
    have none : total - 1 - i = 0 := by omega
    rw [length, none]
    omega

end Ready

theorem upLoop_log {total finalSz i : Nat} {cd : ContinueDownload} {bdrep final : Reply}
    {session after : Session} (positive : 0 < finalSz) (small : finalSz ≤ chunkSize)
    (ready : UpReady total finalSz i cd session.input)
    (returned : upLoop total finalSz cd bdrep i session = (some (.ok final), after))
    (full : ∀ call ∈ after.input.calls, call.2 = call.1) :
    after.log = session.log ++
      chunkEvents bdrep (chunks chunkSize session.input.rest) session.writes session.reads := by
  generalize left : total - i = count
  induction count generalizing i cd bdrep session with
  | zero =>
      have outside : ¬ i < total := by omega
      rw [upLoop_finished outside] at returned
      cases returned
      simp [ready.empty outside, chunkEvents]
  | succ count ih =>
      have inside : i < total := by omega
      have whole : session.input.transfer (upRequest total finalSz i) = upRequest total finalSz i := by
        have calls := (upLoop_returned returned).2.2
        rw [upRequests_cons inside, File.reads] at calls
        exact full (upRequest total finalSz i, session.input.transfer (upRequest total finalSz i))
          (by simp [calls])
      obtain ⟨block, remainder, blockLength⟩ := ready.block inside small
      have nonempty : session.input.rest ≠ [] := by
        have length := ready.size inside
        apply List.length_pos_iff.mp
        omega
      have packet : session.upPacket total finalSz i cd bdrep =
          upPacket total finalSz i cd (bdrep.memory 7) (session.input.rest.take chunkSize) := by
        rw [Session.upPacket, whole, block]
      obtain ⟨sent, count⟩ := upPacket_sent (bdrep.memory 7) (ready.header inside) blockLength small
      by_cases answered : 0 ≤ session.writeResult ∧ 0 < session.readResult.res
      · rw [upLoop_answered inside answered.1 answered.2] at returned
        have rest : ((session.afterChunk bdrep (upRequest total finalSz i)).afterExchange
            (session.upPacket total finalSz i cd bdrep) beginDownloadReplySize timeout).input.rest =
            session.input.rest.drop chunkSize := by
          change session.input.rest.drop (session.input.transfer (upRequest total finalSz i)) = _
          rw [whole, remainder]
        have later := ih (ready.next inside small whole _ _) returned (by omega)
        rw [later, rest, chunks_cons (by decide) nonempty, chunkEvents, Session.afterExchange_log, packet,
          sent, count, List.append_assoc]
        rfl
      · obtain ⟨_, failed⟩ := upLoop_failed finalSz cd bdrep inside answered
        rw [failed] at returned
        cases returned

def beginDownload (dst : CString) (fsize : Nat) : BeginDownload :=
  { beginDownloadInit with
    packetLen := UInt16.ofNat (Packet.size BeginDownload + (dst.bytes.length + 1) - prefixSize)
    fileSize := UInt32.ofNat fsize
    fileName := dst.bytes ++ [0] }

def Session.upOpening (session : Session) : Reply :=
  (⟨session.junk 0, 0⟩ : Reply).receive session.readResult

def Session.upOpened (session : Session) (dst : CString) : Session :=
  { session.afterMalloc.afterExchange (beginDownload dst session.input.rest.length) beginDownloadReplySize
      timeout with peeks := session.peeks ++ [⟨5, session.readResult.stored.length⟩] }

/-- The transfer is opened: the file and the path fit, and BEGIN_DOWNLOAD was answered and not denied. -/
structure UpOpens (dst : CString) (session : Session) : Prop where
  small : session.input.rest.length ≤ 0xFFFFFFFF
  fits : Packet.size BeginDownload + (dst.bytes.length + 1) < 65535
  written : 0 ≤ session.writeResult
  read : 0 < session.readResult.res
  accepted : session.upOpening.memory 4 ≠ vmError

section Whole

variable {dst : CString} {session : Session}

theorem up_begins (small : session.input.rest.length ≤ 0xFFFFFFFF)
    (fits : Packet.size BeginDownload + (dst.bytes.length + 1) < 65535) :
    up dst session =
      (exchange (beginDownload dst session.input.rest.length) "Unable to write BEGIN_DOWNLOAD."
          ⟨session.junk 0, 0⟩ beginDownloadReplySize timeout "Unable to read BEGIN_DOWNLOAD" >>= fun step =>
        match step with
        | .error err => return err
        | .ok bdrep => do
            let type ← bdrep.type
            if type = vmError then do
              let ret ← bdrep.ret
              setErrno ret.toNat
              failWith "BEGIN_DOWNLOAD was denied." .vm
            else upTransfer session.input.rest.length bdrep) session.afterMalloc := by
  have alloc : packetAlloc beginDownloadInit (dst.bytes.length + 1) = some { beginDownloadInit with
      packetLen := UInt16.ofNat (Packet.size BeginDownload + (dst.bytes.length + 1) - prefixSize) } := by
    rw [packetAlloc, if_pos fits]
    rfl
  have size : Proc.gets (fun session : Session => session.input.rest.length) session =
      (some session.input.rest.length, session) := rfl
  rw [up, Proc.bind_returned size, if_neg (Nat.not_lt.mpr small), alloc]
  exact Proc.bind_returned (malloc_run session)

theorem upOpening_type :
    Reply.type ((⟨session.junk 0, 0⟩ : Reply).receive session.afterMalloc.readResult)
      (session.afterMalloc.afterExchange (beginDownload dst session.input.rest.length) beginDownloadReplySize
        timeout) = (some (session.upOpening.memory 4), session.upOpened dst) := rfl

theorem up_opened (opens : UpOpens dst session) :
    up dst session = upTransfer session.input.rest.length session.upOpening (session.upOpened dst) := by
  rw [up_begins opens.small opens.fits, Proc.bind_returned
    (exchange_answered session.afterMalloc opens.written opens.read)]
  exact (Proc.bind_returned upOpening_type).trans (congrFun (if_neg opens.accepted) _)

theorem up_unopened (closed : ¬ UpOpens dst session) : (up dst session).1 ≠ some .unk := by
  by_cases small : session.input.rest.length ≤ 0xFFFFFFFF
  · by_cases fits : Packet.size BeginDownload + (dst.bytes.length + 1) < 65535
    · rw [up_begins small fits]
      by_cases answered : 0 ≤ session.writeResult ∧ 0 < session.readResult.res
      · have denied : session.upOpening.memory 4 = vmError :=
          Decidable.of_not_not fun accepted => closed ⟨small, fits, answered.1, answered.2, accepted⟩
        rw [Proc.bind_returned (exchange_answered session.afterMalloc answered.1 answered.2)]
        simp only
        rw [Proc.bind_returned upOpening_type, if_pos denied]
        simp [failWith, setErrno, setErrmsg, Reply.ret, Reply.u8, Reply.peek, Proc.bind_apply]
      · obtain ⟨after, failed⟩ := exchange_failed (beginDownload dst session.input.rest.length)
          "Unable to write BEGIN_DOWNLOAD." ⟨session.junk 0, 0⟩ beginDownloadReplySize timeout
          "Unable to read BEGIN_DOWNLOAD" session.afterMalloc answered
        rw [Proc.bind_returned failed]
        simp
    · have null : packetAlloc beginDownloadInit (dst.bytes.length + 1) = none := if_neg fits
      rw [up, Proc.bind_returned (Proc.gets_apply _ _), if_neg (Nat.not_lt.mpr small), null]
      simp
  · rw [up, Proc.bind_returned (Proc.gets_apply _ _), if_pos (Nat.lt_of_not_le small)]
    simp

def Session.upBuffer (session : Session) : ContinueDownload :=
  { continueDownloadInit with packetLen := 1005, fileChunk := (session.junk 0).load 0 chunkSize }

theorem upTransfer_run {fsize : Nat} {bdrep final : Reply} {after : Session}
    (run : upLoop (upChunks fsize) (finalChunkSz fsize) session.upBuffer bdrep 0 session.afterMalloc =
      (some (.ok final), after)) :
    ∃ last, upTransfer fsize bdrep session =
        (some (if final.memory 4 = vmError then .vm else .unk), last) ∧
      last.log = after.log ∧ last.input = after.input := by
  have alloc : packetAlloc continueDownloadInit chunkSize =
      some { continueDownloadInit with packetLen := 1005 } := rfl
  have transfer : upTransfer fsize bdrep session =
      (if final.memory 4 = vmError then denied final 0 "CONTINUE_DOWNLOAD was denied."
        else failWith "`upload` was successful." .unk)
        { after with peeks := after.peeks ++ [⟨5, final.got⟩] } := by
    rw [upTransfer, alloc]
    exact (Proc.bind_returned (malloc_run session)).trans
      ((Proc.bind_returned run).trans (Proc.bind_returned (final.type_run after)))
  rw [transfer]
  by_cases refused : final.memory 4 = vmError
  · rw [if_pos refused, if_pos refused]
    exact ⟨_, rfl, rfl, rfl⟩
  · rw [if_neg refused, if_neg refused]
    exact ⟨_, rfl, rfl, rfl⟩

theorem upTransfer_failed {fsize : Nat} {bdrep : Reply} {after : Session} {err : Err}
    (run : upLoop (upChunks fsize) (finalChunkSz fsize) session.upBuffer bdrep 0 session.afterMalloc =
      (some (.error err), after)) :
    upTransfer fsize bdrep session = (some err, after) := by
  have alloc : packetAlloc continueDownloadInit chunkSize =
      some { continueDownloadInit with packetLen := 1005 } := rfl
  rw [upTransfer, alloc]
  exact (Proc.bind_returned (malloc_run session)).trans (Proc.bind_returned run)

end Whole

end Ev3duder
