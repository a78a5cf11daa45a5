import Ev3duder.Commands.Up

namespace Ev3duder

open Data

/-! # What an upload does as a whole -/

theorem upChunks_eq (content : Bytes) : upChunks content.length = (chunks chunkSize content).length := by
  rw [chunks_length (by decide)]
  unfold upChunks
  split <;> simp only [chunkSize] at * <;> omega

theorem finalChunkSz_positive (fsize : Nat) : 0 < finalChunkSz fsize := by
  unfold finalChunkSz
  split <;> simp only [chunkSize] at * <;> omega

theorem finalChunkSz_small (fsize : Nat) : finalChunkSz fsize ≤ chunkSize := by
  unfold finalChunkSz
  split <;> simp only [chunkSize] at * <;> omega

theorem upChunks_size {fsize : Nat} (more : 0 < upChunks fsize) :
    fsize = (upChunks fsize - 1) * chunkSize + finalChunkSz fsize := by
  by_cases whole : fsize % chunkSize = 0
  · have count : upChunks fsize = fsize / chunkSize := if_pos whole
    have last : finalChunkSz fsize = chunkSize := if_pos whole
    rw [count] at more ⊢
    rw [last]
    simp only [chunkSize] at *
    omega
  · have count : upChunks fsize = fsize / chunkSize + 1 := if_neg whole
    have last : finalChunkSz fsize = fsize % chunkSize := if_neg whole
    rw [count, last]
    simp only [chunkSize]
    omega

theorem upChunks_zero {fsize : Nat} (none : ¬ 0 < upChunks fsize) : fsize = 0 := by
  by_cases whole : fsize % chunkSize = 0
  · have count : upChunks fsize = fsize / chunkSize := if_pos whole
    rw [count] at none
    simp only [chunkSize] at *
    omega
  · have count : upChunks fsize = fsize / chunkSize + 1 := if_neg whole
    rw [count] at none
    exact absurd (Nat.succ_pos _) none

theorem upRequests_sum {total finalSz i : Nat} (inside : i < total) :
    (upRequests total finalSz i).sum = (total - 1 - i) * chunkSize + finalSz := by
  generalize left : total - 1 - i = count
  induction count generalizing i with
  | zero =>
      have last : i = total - 1 := by omega
      rw [upRequests_cons inside, upRequests_nil (by omega), upRequest, if_pos last]
      simp
  | succ count ih =>
      have notLast : i ≠ total - 1 := by omega
      rw [upRequests_cons inside, List.sum_cons, ih (by omega) (by omega), upRequest, if_neg notLast,
        Nat.succ_mul]
      omega

theorem upRequests_whole (fsize : Nat) :
    (upRequests (upChunks fsize) (finalChunkSz fsize) 0).sum ≤ fsize := by
  by_cases more : 0 < upChunks fsize
  · rw [upRequests_sum more]
    exact Nat.le_of_eq (upChunks_size more).symm
  · rw [upRequests_nil (by omega)]
    exact Nat.zero_le _

section Run

variable {dst : CString} {session : Session}

def Session.bdrep (session : Session) (count : Nat) : Reply :=
  (⟨session.junk 0, 0⟩ : Reply).after session.reads count

/-- The upload goes through as far as `up` looks: the file and the path fit, every exchange is answered, and
neither the first nor the last reply is a denial. -/
structure UpCompletes (dst : CString) (session : Session) : Prop where
  small : session.input.rest.length ≤ 0xFFFFFFFF
  fits : Packet.size BeginDownload + (dst.bytes.length + 1) < 65535
  answered : Answered session.writes session.reads (upChunks session.input.rest.length + 1)
  opened : (session.bdrep 1).memory 4 ≠ vmError
  closed : (session.bdrep (upChunks session.input.rest.length + 1)).memory 4 ≠ vmError

theorem beginDownload_framed {dst : CString} (fsize : Nat)
    (fits : Packet.size BeginDownload + (dst.bytes.length + 1) < 65535) :
    (Packet.packetLen (beginDownload dst fsize)).toNat = (Packet.tail (beginDownload dst fsize)).length ∧
      (Packet.tail (beginDownload dst fsize)).length = dst.bytes.length + 9 := by
  have length : (Packet.tail (beginDownload dst fsize)).length = dst.bytes.length + 9 := by
    simp [beginDownload, Packet.tail, CommandFields.tail]
    omega
  refine ⟨(allocated_length fits).trans ?_, length⟩
  rw [length]
  show 11 + (dst.bytes.length + 1) - 3 = _
  omega

theorem Session.upOpened_log (fits : Packet.size BeginDownload + (dst.bytes.length + 1) < 65535) :
    (session.upOpened dst).log = session.log ++
      [.write (Packet.toBytes (beginDownload dst session.input.rest.length))
        (Packet.count (beginDownload dst session.input.rest.length)) session.writeResult,
        .read beginDownloadReplySize timeout session.readResult] := by
  have opened : (session.upOpened dst).log = (session.afterMalloc.afterExchange
      (beginDownload dst session.input.rest.length) beginDownloadReplySize timeout).log := rfl
  rw [opened, Session.afterExchange_log, Packet.handed_eq (beginDownload_framed _ fits).1]
  rfl

theorem up_run (opens : UpOpens dst session)
    (answered : Answered session.writes session.reads (upChunks session.input.rest.length + 1)) :
    ∃ last, up dst session =
        (some (if (session.bdrep (upChunks session.input.rest.length + 1)).memory 4 = vmError then .vm
          else .unk), last) ∧
      last.input.calls = session.input.calls ++ session.input.reads
        (upRequests (upChunks session.input.rest.length) (finalChunkSz session.input.rest.length) 0) ∧
      ((∀ call ∈ last.input.calls, call.2 = call.1) → last.log = session.log ++
        [.write (Packet.toBytes (beginDownload dst session.input.rest.length))
          (Packet.count (beginDownload dst session.input.rest.length)) session.writeResult,
          .read beginDownloadReplySize timeout session.readResult] ++
        chunkEvents session.upOpening (chunks chunkSize session.input.rest) session.writes.tail
          session.reads.tail) := by
  have chunksAnswered : Answered (session.upOpened dst).afterMalloc.writes
      (session.upOpened dst).afterMalloc.reads (upChunks session.input.rest.length - 0) :=
    (answeredBy_succ.mp answered).2
  obtain ⟨after, loop⟩ := upLoop_returns (finalChunkSz session.input.rest.length)
    (session.upOpened dst).upBuffer session.upOpening (session.upOpened dst).afterMalloc chunksAnswered
  obtain ⟨last, run, sameLog, sameInput⟩ := upTransfer_run loop
  have calls := (upLoop_returned loop).2.2
  refine ⟨last, by rw [up_opened opens, run]; rfl, by rw [sameInput, calls]; rfl, ?_⟩
  intro full
  have size (more : 0 < upChunks session.input.rest.length) : (session.upOpened dst).afterMalloc.input.rest.length =
      (upChunks session.input.rest.length - 1 - 0) * chunkSize + finalChunkSz session.input.rest.length :=
    upChunks_size more
  have empty (none : ¬ 0 < upChunks session.input.rest.length) :
      (session.upOpened dst).afterMalloc.input.rest = [] :=
    List.eq_nil_of_length_eq_zero (upChunks_zero none)
  have log := upLoop_log (finalChunkSz_positive _) (finalChunkSz_small _) ⟨fun _ => rfl, size, empty⟩ loop
    (by rwa [sameInput] at full)
  have opened : (session.upOpened dst).afterMalloc.log = (session.upOpened dst).log := rfl
  rw [sameLog, log, opened, Session.upOpened_log opens.fits]
  rfl

theorem bdrep_one : session.bdrep 1 = session.upOpening := by
  simp only [Session.upOpening, Session.bdrep, Reply.after]
  rfl

theorem UpCompletes.opens (completes : UpCompletes dst session) :
    UpOpens dst session ∧ Answered session.writes session.reads (upChunks session.input.rest.length + 1) := by
  obtain ⟨first, _⟩ := answeredBy_succ.mp completes.answered
  exact ⟨⟨completes.small, completes.fits, first.1, first.2, bdrep_one ▸ completes.opened⟩, completes.answered⟩

/-- An upload succeeds exactly when it goes through as far as `up` looks. -/
theorem up_succeeds : (up dst session).1 = some .unk ↔ UpCompletes dst session := by
  constructor
  · intro succeeded
    have opens : UpOpens dst session := Classical.byContradiction fun closed => up_unopened closed succeeded
    by_cases answered : Answered session.writes session.reads (upChunks session.input.rest.length + 1)
    · obtain ⟨last, run, _⟩ := up_run opens answered
      rw [run] at succeeded
      refine ⟨opens.small, opens.fits, answered, bdrep_one ▸ opens.accepted, ?_⟩
      intro refused
      rw [if_pos refused] at succeeded
      cases succeeded
    · have unanswered : ¬ Answered (session.upOpened dst).afterMalloc.writes
          (session.upOpened dst).afterMalloc.reads (upChunks session.input.rest.length - 0) := by
        intro others
        exact answered (answeredBy_succ.mpr ⟨⟨opens.written, opens.read⟩, others⟩)
      obtain ⟨after, failed⟩ := upLoop_unanswered (finalChunkSz session.input.rest.length)
        (session.upOpened dst).upBuffer session.upOpening unanswered
      rw [up_opened opens, upTransfer_failed failed] at succeeded
      cases succeeded
  · intro completes
    obtain ⟨opens, answered⟩ := completes.opens
    obtain ⟨last, run, _⟩ := up_run opens answered
    rw [run, if_neg completes.closed]

end Run

def Event.fileChunk : Event → Option Bytes
  | .write packet _ _ => if packet[6]? = some 0x93 then some (packet.drop 8) else none
  | .read .. => none

theorem chunkEvents_fileChunk (bdrep : Reply) (blocks : List Bytes) (writes : List Int)
    (reads : List ReadResult) :
    (chunkEvents bdrep blocks writes reads).filterMap Event.fileChunk = blocks := by
  induction blocks generalizing bdrep writes reads with
  | nil => rfl
  | cons block blocks ih =>
      have front : Event.fileChunk (.write (Packet.toBytes (chunkPacket (bdrep.memory 7) block))
          (Packet.size ContinueDownload + block.length) (writes.headD (-1))) = some block := rfl
      rw [chunkEvents, List.filterMap_cons_some front, List.filterMap_cons_none rfl, ih]

theorem chunkEvents_answer (bdrep : Reply) (blocks : List Bytes) (writes : List Int)
    (reads : List ReadResult) :
    (chunkEvents bdrep blocks writes reads).filterMap Event.answer =
      (List.range blocks.length).map fun index => reads.getD index (.received []) := by
  induction blocks generalizing bdrep writes reads with
  | nil => rfl
  | cons block blocks ih =>
      simp only [chunkEvents, List.filterMap_cons, Event.answer, ih, List.length_cons, List.range_succ_eq_map,
        List.map_cons, List.map_map, Function.comp_def, List.headD_eq_getD, tail_getD]

theorem beginDownload_chunk (dst : CString) (fsize count : Nat) (res : Int) :
    Event.fileChunk (.write (Packet.toBytes (beginDownload dst fsize)) count res) = none := rfl

section Sound

variable {content : Bytes} {dst : CString} {writes : List Int} {reads : List ReadResult} {counts : List Nat}
  {junk : Nat → Memory}

/-- A program that has just opened the link and the local file. -/
def upSession (content : Bytes) (counts : List Nat) (writes : List Int) (reads : List ReadResult)
    (junk : Nat → Memory) : Session where
  writes
  reads
  junk
  input := { rest := content, counts }

/-- A successful upload had no reply of type VM_ERROR and sent exactly the contents of the file, each chunk
made of bytes that were read for it. -/
def UpSound (content : Bytes) (run : Option Err × Session) : Prop :=
  run.1 = some .unk →
    (∀ result ∈ run.2.log.filterMap Event.answer, result.type ≠ some vmError) ∧
      (run.2.log.filterMap Event.fileChunk).flatten = content ∧
      ∀ call ∈ run.2.input.calls, call.2 = call.1

theorem not_denied_of_memory {reply : Reply} {result : ReadResult}
    (accepted : (reply.receive result).memory 4 ≠ vmError) : result.type ≠ some vmError :=
  fun denied => accepted (Reply.receive_delivered denied)

theorem up_answers (completes : UpCompletes dst (upSession content counts writes reads junk))
    (full : ∀ call ∈ (up dst (upSession content counts writes reads junk)).2.input.calls, call.2 = call.1) :
    (up dst (upSession content counts writes reads junk)).2.log.filterMap Event.answer =
        (List.range (upChunks content.length + 1)).map (fun index => reads.getD index (.received [])) ∧
      (up dst (upSession content counts writes reads junk)).2.log.filterMap Event.fileChunk =
        chunks chunkSize content := by
  obtain ⟨opens, answered⟩ := completes.opens
  obtain ⟨last, run, calls, log⟩ := up_run opens answered
  rw [run] at full ⊢
  have first : (upSession content counts writes reads junk).readResult = reads.getD 0 (.received []) := by
    cases reads <;> rfl
  rw [log full]
  constructor
  · rw [List.filterMap_append, chunkEvents_answer]
    simp only [upSession, List.nil_append, List.filterMap_cons, Event.answer, List.filterMap_nil, upChunks_eq,
      List.range_succ_eq_map, List.map_cons, List.map_map, Function.comp_def, tail_getD, List.cons_append,
      List.cons.injEq, and_true]
    exact first
  · rw [List.filterMap_append, chunkEvents_fileChunk]
    simp only [upSession, List.nil_append, List.filterMap_cons, beginDownload_chunk, List.filterMap_nil]
    rfl

theorem up_calls_full (completes : UpCompletes dst (upSession content counts writes reads junk)) :
    (∀ call ∈ (up dst (upSession content counts writes reads junk)).2.input.calls, call.2 = call.1) ↔
      ∀ index, index < upChunks content.length →
        upRequest (upChunks content.length) (finalChunkSz content.length) index ≤
          counts.getD index (upRequest (upChunks content.length) (finalChunkSz content.length) index) := by
  obtain ⟨opens, answered⟩ := completes.opens
  obtain ⟨last, run, calls, log⟩ := up_run opens answered
  have size : (upRequests (upChunks content.length) (finalChunkSz content.length) 0).length =
      upChunks content.length := by
    simp [upRequests]
  have item {index : Nat} (bound : index < upChunks content.length) :
      (upRequests (upChunks content.length) (finalChunkSz content.length) 0).getD index 0 =
        upRequest (upChunks content.length) (finalChunkSz content.length) index := by
    simp [upRequests, bound]
  have whole := File.reads_full { rest := content, counts } _ (upRequests_whole content.length)
  rw [size] at whole
  rw [run, calls]
  refine Iff.trans whole ?_
  constructor
  · intro full index bound
    have given := full index bound
    rwa [item bound] at given
  · intro full index bound
    rw [item bound]
    exact full index bound

/-- The verdict on uploads: only the first and the last reply are looked at, and no `fread` count is, so a
success means what it should exactly when neither hides something. -/
theorem up_sound_iff :
    UpSound content (up dst (upSession content counts writes reads junk)) ↔
      (UpCompletes dst (upSession content counts writes reads junk) →
        (∀ index, 0 < index → index < upChunks content.length →
          (reads.getD index (.received [])).type ≠ some vmError) ∧
        ∀ index, index < upChunks content.length →
          upRequest (upChunks content.length) (finalChunkSz content.length) index ≤
            counts.getD index (upRequest (upChunks content.length) (finalChunkSz content.length) index)) := by
  constructor
  · intro sound completes
    obtain ⟨accepted, _, full⟩ := sound (up_succeeds.mpr completes)
    rw [(up_answers completes full).1] at accepted
    refine ⟨?_, (up_calls_full completes).mp full⟩
    intro index _ bound
    exact accepted _ (List.mem_map.mpr ⟨index, List.mem_range.mpr (by omega), rfl⟩)
  · intro harmless succeeded
    have completes := up_succeeds.mp succeeded
    obtain ⟨accepted, complete⟩ := harmless completes
    have full := (up_calls_full completes).mpr complete
    obtain ⟨answers, sent⟩ := up_answers completes full
    refine ⟨?_, by rw [sent, chunks_flatten (by decide)], full⟩
    rw [answers]
    intro result member
    obtain ⟨index, bound, rfl⟩ := List.mem_map.mp member
    rw [List.mem_range] at bound
    by_cases first : index = 0
    · subst first
      have opened := completes.opened
      rw [Session.bdrep, Reply.after_succ] at opened
      exact not_denied_of_memory opened
    · by_cases last : index = upChunks content.length
      · subst last
        have closed := completes.closed
        rw [Session.bdrep, Reply.after_succ] at closed
        exact not_denied_of_memory closed
      · exact accepted index (by omega) (by omega)

theorem up_two_chunks {content : Bytes} (size : content.length = 1001) :
    ¬ UpSound content (up ⟨[], by decide⟩ (upSession content [] [12, 1008, 9]
      [.received [6, 0, 0, 0, 3, 0x92, 0, 1], .received [6, 0, 0, 0, 5, 0x93, 4, 1],
        .received [6, 0, 0, 0, 3, 0x93, 0, 1]] fun _ _ => 0)) := by
  intro sound
  have completes : UpCompletes ⟨[], by decide⟩ (upSession content [] [12, 1008, 9]
      [.received [6, 0, 0, 0, 3, 0x92, 0, 1], .received [6, 0, 0, 0, 5, 0x93, 4, 1],
        .received [6, 0, 0, 0, 3, 0x93, 0, 1]] fun _ _ => 0) := by
    refine ⟨?_, by decide, ?_, ?_, ?_⟩
    · change content.length ≤ 0xFFFFFFFF
      omega
    · change Answered [12, 1008, 9] [_, _, _] (upChunks content.length + 1)
      rw [size]
      unfold Answered AnsweredBy
      decide
    · change (Reply.after ⟨fun _ => 0, 0⟩ [_, _, _] 1).memory 4 ≠ vmError
      decide
    · change (Reply.after ⟨fun _ => 0, 0⟩ [_, _, _] (upChunks content.length + 1)).memory 4 ≠ vmError
      rw [size]
      decide
  obtain ⟨accepted, _, full⟩ := sound (up_succeeds.mpr completes)
  rw [(up_answers completes full).1, size] at accepted
  exact accepted (.received [6, 0, 0, 0, 5, 0x93, 4, 1]) (by decide) rfl

theorem up_hides_denied_chunk :
    ¬ UpSound (List.replicate 1001 0) (up ⟨[], by decide⟩ (upSession (List.replicate 1001 0) [] [12, 1008, 9]
      [.received [6, 0, 0, 0, 3, 0x92, 0, 1], .received [6, 0, 0, 0, 5, 0x93, 4, 1],
        .received [6, 0, 0, 0, 3, 0x93, 0, 1]] fun _ _ => 0)) :=
  up_two_chunks List.length_replicate

end Sound

theorem chunkEvents_written (bdrep : Reply) (blocks : List Bytes) (writes : List Int)
    (reads : List ReadResult) {handle : UInt8} (opened : bdrep.memory 7 = handle)
    (echoed : ∀ index, index < blocks.length →
      (reads.getD index (.received [])).stored[7]? = some handle) :
    (chunkEvents bdrep blocks writes reads).filterMap Event.written =
      blocks.map fun block => (Packet.toBytes (chunkPacket handle block), 8 + block.length) := by
  induction blocks generalizing bdrep writes reads with
  | nil => rfl
  | cons block blocks ih =>
      have first : (reads.headD (.received [])).stored[7]? = some handle := by
        have delivered := echoed 0 (by simp)
        cases reads <;> exact delivered
      have later := ih (bdrep.receive (reads.headD (.received []))) writes.tail reads.tail
        (Reply.receive_delivered first) (by
        intro index bound
        have delivered := echoed (index + 1) (by simpa using bound)
        cases reads <;> exact delivered)
      rw [List.map_cons, ← later, ← opened]
      rfl

theorem chunkPacket_framed {handle : UInt8} {block : Bytes} (small : block.length ≤ 1000) :
    leValue (((Packet.toBytes (chunkPacket handle block)).drop 1).take 2) + 3 =
      (Packet.toBytes (chunkPacket handle block)).length := by
  have value : (UInt16.ofNat (8 + block.length - 3)).toNat = 5 + block.length := by
    rw [UInt16.toNat_ofNat']
    omega
  have field : ((Packet.toBytes (chunkPacket handle block)).drop 1).take 2 =
      leBytes 2 (UInt16.ofNat (8 + block.length - 3)).toNat := rfl
  rw [field, value, leValue_leBytes_of_lt (by omega)]
  simp [Packet.toBytes, chunkPacket, Packet.tail, CommandFields.tail]
  omega

/-- The first `count` replies after the opening one, and that one, are no errors and carry the handle. -/
def EchoesHandle (handle : UInt8) (reads : List ReadResult) (count : Nat) : Prop :=
  ∀ index, index ≤ count →
    ∃ data, reads.getD index (.received []) = .received data ∧ data[4]? ≠ some vmError ∧ data[7]? = some handle

section Agreed

variable {content : Bytes} {dst : CString} {writes : List Int} {reads : List ReadResult} {junk : Nat → Memory}
  {handle : UInt8} {count : Nat}

theorem EchoesHandle.accepted (echoes : EchoesHandle handle reads count) {reply : Reply} {index : Nat}
    (bound : index ≤ count) : (reply.receive (reads.getD index (.received []))).memory 4 ≠ vmError := by
  obtain ⟨data, arrived, notDenied, echoed⟩ := echoes index bound
  rw [arrived]
  have long : 4 < data.length := by
    have := (List.getElem?_eq_some_iff.mp echoed).1
    omega
  have type : (ReadResult.received data).stored[4]? = some data[4] := List.getElem?_eq_getElem long
  rw [Reply.receive_delivered type]
  rintro denied
  exact notDenied (type.trans (congrArg some denied))

theorem EchoesHandle.completes (echoes : EchoesHandle handle reads (upChunks content.length))
    (small : content.length ≤ 0xFFFFFFFF) (fits : Packet.size BeginDownload + (dst.bytes.length + 1) < 65535)
    (taken : ∀ index, index ≤ upChunks content.length → 0 ≤ writes.getD index (-1)) :
    UpCompletes dst (upSession content [] writes reads junk) := by
  refine ⟨small, fits, ?_, ?_, ?_⟩
  · intro index bound
    have inside : index ≤ upChunks content.length := Nat.le_of_lt_succ bound
    obtain ⟨data, arrived, _, echoed⟩ := echoes index inside
    refine ⟨taken index inside, ?_⟩
    change 0 < (reads.getD index (.received [])).res
    rw [arrived]
    have := (List.getElem?_eq_some_iff.mp echoed).1
    simp only [ReadResult.res]
    omega
  · rw [Session.bdrep, Reply.after_succ]
    exact echoes.accepted (Nat.zero_le _)
  · rw [Session.bdrep, Reply.after_succ]
    exact echoes.accepted (Nat.le_refl _)

theorem chunkPacket_length (handle : UInt8) (block : Bytes) :
    (Packet.toBytes (chunkPacket handle block)).length = 8 + block.length := by
  simp [Packet.toBytes, chunkPacket, Packet.tail, CommandFields.tail]
  omega

theorem EchoesHandle.written (echoes : EchoesHandle handle reads (upChunks content.length))
    (completes : UpCompletes dst (upSession content [] writes reads junk)) :
    (up dst (upSession content [] writes reads junk)).2.log.filterMap Event.written =
      (Packet.toBytes (beginDownload dst content.length) ::
        (chunks chunkSize content).map fun block => Packet.toBytes (chunkPacket handle block)).map fun packet =>
          (packet, packet.length) := by
  have full := (up_calls_full completes).mpr fun index _ => Nat.le_refl _
  obtain ⟨opens, answered⟩ := completes.opens
  obtain ⟨last, run, calls, log⟩ := up_run opens answered
  rw [run] at full ⊢
  have handles : (upSession content [] writes reads junk).upOpening.memory 7 = handle := by
    obtain ⟨data, arrived, _, echoed⟩ := echoes 0 (Nat.zero_le _)
    have first : (upSession content [] writes reads junk).readResult = .received data := by
      rw [← arrived]
      exact List.headD_eq_getD
    rw [Session.upOpening, first]
    exact Reply.receive_delivered echoed
  have echoed : ∀ index, index < (chunks chunkSize content).length →
      (reads.tail.getD index (.received [])).stored[7]? = some handle := by
    intro index bound
    rw [← upChunks_eq] at bound
    obtain ⟨data, arrived, _, echo⟩ := echoes (index + 1) bound
    rw [tail_getD, arrived]
    exact echo
  rw [log full, List.filterMap_append]
  refine (congrArg _ (chunkEvents_written _ _ _ _ handles echoed)).trans ?_
  have whole := Packet.count_eq (beginDownload_framed content.length opens.fits).1
  simp only [List.map_cons, List.map_map, Function.comp_def, chunkPacket_length, ← whole]
  rfl

end Agreed

/-- Against a brick that takes every packet and echoes one handle, the upload is exact. -/
theorem up_exact {content : Bytes} {dst : CString} {writes : List Int} {reads : List ReadResult}
    {junk : Nat → Memory} (handle : UInt8) (small : content.length ≤ 0xFFFFFFFF)
    (fits : Packet.size BeginDownload + (dst.bytes.length + 1) < 65535)
    (taken : ∀ index, index ≤ (content.length + 999) / 1000 → 0 ≤ writes.getD index (-1))
    (agreed : ∀ index, index ≤ (content.length + 999) / 1000 →
      ∃ data, reads.getD index (.received []) = .received data ∧ data[4]? ≠ some vmError ∧
        data[7]? = some handle) :
    (up dst (upSession content [] writes reads junk)).1 = some .unk ∧
      ∃ opening packets,
        (up dst (upSession content [] writes reads junk)).2.log.filterMap Event.written =
            (opening :: packets).map (fun packet => (packet, packet.length)) ∧
          opening[6]? = some 0x92 ∧ leValue ((opening.drop 7).take 4) = content.length ∧
          opening.drop 11 = dst.bytes ++ [0] ∧
          packets.length = (content.length + 999) / 1000 ∧
          (∀ packet ∈ packets, packet[6]? = some 0x93 ∧ packet[7]? = some handle ∧
            1 ≤ (packet.drop 8).length ∧ (packet.drop 8).length ≤ 1000 ∧
            leValue ((packet.drop 1).take 2) + 3 = packet.length) ∧
          (packets.map (List.drop 8)).flatten = content := by
  have count : upChunks content.length = (content.length + 999) / 1000 := by
    rw [upChunks_eq, chunks_length (by decide)]
    rfl
  have echoes : EchoesHandle handle reads (upChunks content.length) := count ▸ agreed
  have completes : UpCompletes dst (upSession content [] writes reads junk) :=
    echoes.completes small fits (count ▸ taken)
  refine ⟨up_succeeds.mpr completes, Packet.toBytes (beginDownload dst content.length),
    (chunks chunkSize content).map (fun block => Packet.toBytes (chunkPacket handle block)),
    echoes.written completes, rfl, ?_, rfl, ?_, ?_, ?_⟩
  · have field : ((Packet.toBytes (beginDownload dst content.length)).drop 7).take 4 =
        leBytes 4 (UInt32.ofNat content.length).toNat := rfl
    rw [field, UInt32.toNat_ofNat', Nat.mod_eq_of_lt (by omega), leValue_leBytes_of_lt (by omega)]
  · rw [List.length_map, ← upChunks_eq, count]
  · intro packet member
    obtain ⟨block, inside, rfl⟩ := List.mem_map.mp member
    obtain ⟨positive, most⟩ := chunks_block_length (by decide) inside
    exact ⟨rfl, rfl, positive, most, chunkPacket_framed most⟩
  · rw [List.map_map]
    have payload : (List.drop 8 ∘ fun block => Packet.toBytes (chunkPacket handle block)) = id := rfl
    rw [payload, List.map_id, chunks_flatten (by decide)]

theorem up_exact_two_chunks :
    (up ⟨[0x61], by decide⟩ (upSession (List.replicate 1001 7) [] [13, 1008, 9]
      [.received [6, 0, 0, 0, 3, 0x92, 0, 2], .received [6, 0, 1, 0, 3, 0x93, 0, 2],
        .received [6, 0, 2, 0, 3, 0x93, 8, 2]] fun _ _ => 0)).1 = some .unk := by
  have length : (List.replicate 1001 (7 : UInt8)).length = 1001 := List.length_replicate
  refine (up_exact 2 (by rw [length]; decide) (by decide) ?_ ?_).1
  · rw [length]
    decide
  · rw [length]
    intro index bound
    obtain rfl | rfl | rfl : index = 0 ∨ index = 1 ∨ index = 2 := by omega
    · exact ⟨_, rfl, by decide, rfl⟩
    · exact ⟨_, rfl, by decide, rfl⟩
    · exact ⟨_, rfl, by decide, rfl⟩

end Ev3duder
