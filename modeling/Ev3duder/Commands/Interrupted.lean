import Ev3duder.Commands.Upload

namespace Ev3duder

open Data

/-! # Uploads that break off

Whatever ends an upload early, the packets handed over are the first packets of the whole upload.
-/

/-- The chunks of a file, each under the handle that is in the reply buffer when it is sent. -/
def uploadChunks (bdrep : Reply) : List Bytes → List ReadResult → List Bytes
  | [], _ => []
  | block :: blocks, reads =>
      Packet.toBytes (chunkPacket (bdrep.memory 7) block) ::
        uploadChunks (bdrep.receive (reads.headD (.received []))) blocks reads.tail

/-- All packets of the upload of the session's file. -/
def Session.uploadPackets (session : Session) (path : CString) : List Bytes :=
  Packet.toBytes (beginDownload path session.input.rest.length) ::
    uploadChunks session.upOpening (chunks chunkSize session.input.rest) session.reads.tail

theorem uploadChunks_length (bdrep : Reply) (blocks : List Bytes) (reads : List ReadResult) :
    (uploadChunks bdrep blocks reads).length = blocks.length := by
  induction blocks generalizing bdrep reads with
  | nil => rfl
  | cons block blocks ih => exact congrArg Nat.succ (ih _ _)

/-- Behind their eight bytes of header the chunks carry the file. -/
theorem uploadChunks_payloads (bdrep : Reply) (blocks : List Bytes) (reads : List ReadResult) :
    (uploadChunks bdrep blocks reads).map (List.drop 8) = blocks := by
  induction blocks generalizing bdrep reads with
  | nil => rfl
  | cons block blocks ih => exact congrArg (block :: ·) (ih _ _)

/-- A pass hands over the next block of the file, and leaves the blocks behind it to the next pass. -/
theorem upPass_hands {total finalSz i : Nat} {cd : ContinueDownload} {session : Session} (bdrep : Reply)
    (small : finalSz ≤ chunkSize) (ready : UpReady total finalSz i cd session.input)
    (free : session.input.counts = []) (inside : i < total) :
    Packet.handed (session.upPacket total finalSz i cd bdrep) =
        Packet.toBytes (chunkPacket (bdrep.memory 7) (session.input.rest.take chunkSize)) ∧
      UpReady total finalSz (i + 1) (session.upPacket total finalSz i cd bdrep)
        (session.input.afterRead (upRequest total finalSz i)) ∧
      (session.input.afterRead (upRequest total finalSz i)).rest = session.input.rest.drop chunkSize ∧
      (session.input.afterRead (upRequest total finalSz i)).counts = [] := by
  obtain ⟨block, remainder, blockLength⟩ := ready.block inside small
  obtain ⟨taken, rest, still⟩ := File.transfer_free free (upRequest total finalSz i)
  have whole : session.input.transfer (upRequest total finalSz i) = upRequest total finalSz i := by
    rw [List.length_take] at blockLength
    simp only [File.transfer, free, List.headD_nil]
    omega
  have packet : session.upPacket total finalSz i cd bdrep =
      upPacket total finalSz i cd (bdrep.memory 7) (session.input.rest.take chunkSize) := by
    rw [Session.upPacket, taken, block]
  refine ⟨?_, ?_, rest.trans remainder, still⟩
  · rw [packet]
    exact (upPacket_sent (bdrep.memory 7) (ready.header inside) blockLength small).1
  · rw [packet]
    exact ready.next inside small whole (bdrep.memory 7) (session.input.rest.take chunkSize)

/-- However the loop ends, it has handed over the first chunks of what is left of the file: one for each exchange that
went through, and the one whose exchange did not. -/
theorem upLoop_hands {total finalSz i : Nat} {cd : ContinueDownload} (bdrep : Reply) {session : Session}
    (small : finalSz ≤ chunkSize) (positive : 0 < finalSz) (ready : UpReady total finalSz i cd session.input)
    (free : session.input.counts = []) :
    ∃ count, packetsOf (upLoop total finalSz cd bdrep i session).2.log = packetsOf session.log ++
        (uploadChunks bdrep (chunks chunkSize session.input.rest) session.reads).take count ∧
      ∀ index, index < (chunks chunkSize session.input.rest).length →
        (index < count ↔ Answered session.writes session.reads index) := by
  generalize left : total - i = passes
  induction passes generalizing i cd bdrep session with
  | zero =>
      have outside : ¬ i < total := by omega
      rw [upLoop_finished outside, ready.empty outside, chunks_nil]
      exact ⟨0, (List.append_nil _).symm, fun _ none => absurd none (Nat.not_lt_zero _)⟩
  | succ passes ih =>
      have inside : i < total := by omega
      obtain ⟨sent, later, rest, still⟩ := upPass_hands bdrep small ready free inside
      have nonempty : session.input.rest ≠ [] := by
        have length := ready.size inside
        apply List.length_pos_iff.mp
        omega
      rw [chunks_cons (by decide) nonempty, uploadChunks]
      by_cases answered : 0 ≤ session.writeResult ∧ 0 < session.readResult.res
      · let middle := (session.afterChunk bdrep (upRequest total finalSz i)).afterExchange
          (session.upPacket total finalSz i cd bdrep) beginDownloadReplySize timeout
        have left : middle.input.rest = session.input.rest.drop chunkSize := rest
        have chunk : packetsOf middle.log =
            packetsOf session.log ++ [Packet.handed (session.upPacket total finalSz i cd bdrep)] := by
          rw [Session.afterExchange_log, packetsOf_append]
          rfl
        obtain ⟨count, packets, reached⟩ := @ih (i + 1) (session.upPacket total finalSz i cd bdrep)
          (bdrep.receive session.readResult) middle later still (by omega)
        rw [left] at packets reached
        rw [upLoop_answered inside answered.1 answered.2]
        refine ⟨count + 1, ?_, ?_⟩
        · rw [packets, chunk, sent, List.append_assoc]
          rfl
        · intro index bound
          cases index with
          | zero => exact iff_of_true (Nat.succ_pos _) (answeredBy_zero _ _ _)
          | succ index =>
              rw [Nat.succ_lt_succ_iff, reached index (Nat.lt_of_succ_lt_succ bound), Answered, answeredBy_succ]
              exact (and_iff_right answered).symm
      · obtain ⟨last, failed⟩ := exchange_failed (session.upPacket total finalSz i cd bdrep)
          "Unable to write CONTINUE_DOWNLOAD." bdrep beginDownloadReplySize timeout "Unable to read CONTINUE_DOWNLOAD"
          (session.afterChunk bdrep (upRequest total finalSz i)) answered
        have chunk := exchange_hands (session.upPacket total finalSz i cd bdrep)
          "Unable to write CONTINUE_DOWNLOAD." bdrep beginDownloadReplySize timeout "Unable to read CONTINUE_DOWNLOAD"
          (session.afterChunk bdrep (upRequest total finalSz i))
        rw [failed, sent] at chunk
        rw [upLoop_pass inside, Proc.bind_returned failed]
        refine ⟨1, chunk, ?_⟩
        intro index bound
        cases index with
        | zero => exact iff_of_true Nat.one_pos (answeredBy_zero _ _ _)
        | succ index =>
            refine iff_of_false (by omega) fun others => ?_
            exact answered (answeredBy_succ.mp others).1

section Upload

variable {path : CString} {session : Session}

theorem upOpened_hands (fits : Packet.size BeginDownload + (path.bytes.length + 1) < 65535) :
    packetsOf (session.upOpened path).log =
      packetsOf session.log ++ [Packet.toBytes (beginDownload path session.input.rest.length)] := by
  rw [Session.upOpened_log fits, packetsOf_append]
  rfl

/-- An upload that is not opened hands over its opening at most. -/
theorem up_unopened_hands (closed : ¬ UpOpens path session) :
    packetsOf (up path session).2.log = packetsOf session.log ∨
      packetsOf (up path session).2.log =
        packetsOf session.log ++ [Packet.toBytes (beginDownload path session.input.rest.length)] := by
  by_cases small : session.input.rest.length ≤ 0xFFFFFFFF
  · by_cases fits : Packet.size BeginDownload + (path.bytes.length + 1) < 65535
    · right
      have opening := exchange_hands (beginDownload path session.input.rest.length) "Unable to write BEGIN_DOWNLOAD."
        ⟨session.junk 0, 0⟩ beginDownloadReplySize timeout "Unable to read BEGIN_DOWNLOAD" session.afterMalloc
      rw [Packet.handed_eq (beginDownload_framed session.input.rest.length fits).1] at opening
      rw [up_begins small fits]
      by_cases answered : 0 ≤ session.writeResult ∧ 0 < session.readResult.res
      · have denied : session.upOpening.memory 4 = vmError :=
          Decidable.of_not_not fun accepted => closed ⟨small, fits, answered.1, answered.2, accepted⟩
        rw [exchange_answered session.afterMalloc answered.1 answered.2] at opening
        rw [Proc.bind_returned (exchange_answered session.afterMalloc answered.1 answered.2)]
        simp only
        rw [Proc.bind_returned upOpening_type, if_pos denied]
        exact opening
      · obtain ⟨last, failed⟩ := exchange_failed (beginDownload path session.input.rest.length)
          "Unable to write BEGIN_DOWNLOAD." ⟨session.junk 0, 0⟩ beginDownloadReplySize timeout
          "Unable to read BEGIN_DOWNLOAD" session.afterMalloc answered
        rw [failed] at opening
        rw [Proc.bind_returned failed]
        exact opening
    · left
      have null : packetAlloc beginDownloadInit (path.bytes.length + 1) = none := if_neg fits
      rw [up, Proc.bind_returned (Proc.gets_apply _ _), if_neg (Nat.not_lt.mpr small), null]
      rfl
  · left
    rw [up, Proc.bind_returned (Proc.gets_apply _ _), if_pos (Nat.lt_of_not_le small)]
    rfl

theorem upTransfer_log (fsize : Nat) (bdrep : Reply) :
    (upTransfer fsize bdrep session).2.log =
      (upLoop (upChunks fsize) (finalChunkSz fsize) session.upBuffer bdrep 0 session.afterMalloc).2.log := by
  by_cases answered : Answered session.writes session.reads (upChunks fsize - 0)
  · obtain ⟨after, returned⟩ := upLoop_returns (finalChunkSz fsize) session.upBuffer bdrep session.afterMalloc answered
    obtain ⟨last, run, sameLog, _⟩ := upTransfer_run returned
    rw [run, returned]
    exact sameLog
  · obtain ⟨after, failed⟩ := @upLoop_unanswered (upChunks fsize) 0 session.afterMalloc (finalChunkSz fsize)
      session.upBuffer bdrep answered
    rw [upTransfer_failed failed, failed]

/-- An upload hands over its first packets: behind the opening, when this was taken up, a chunk for each exchange that
went through and the one whose exchange did not. -/
theorem up_hands (path : CString) (session : Session) (fresh : session.log = []) (free : session.input.counts = []) :
    ∃ count, packetsOf (up path session).2.log = (session.uploadPackets path).take count ∧
      (UpOpens path session → 0 < count) ∧
      ∀ index, 0 < index → index < (session.uploadPackets path).length →
        (index < count ↔ UpOpens path session ∧ Answered session.writes session.reads index) := by
  have silent : packetsOf session.log = [] := by rw [fresh]; rfl
  by_cases opens : UpOpens path session
  · have ready : UpReady (upChunks session.input.rest.length) (finalChunkSz session.input.rest.length) 0
        (session.upOpened path).upBuffer (session.upOpened path).afterMalloc.input :=
      ⟨fun _ => rfl, upChunks_size, fun none => List.eq_nil_of_length_eq_zero (upChunks_zero none)⟩
    obtain ⟨count, packets, reached⟩ := upLoop_hands session.upOpening (finalChunkSz_small _)
      (finalChunkSz_positive _) ready free
    have opened : packetsOf (session.upOpened path).afterMalloc.log = [Packet.toBytes (beginDownload path
        session.input.rest.length)] := by
      refine (upOpened_hands opens.fits).trans ?_
      rw [silent, List.nil_append]
    refine ⟨count + 1, ?_, fun _ => Nat.succ_pos _, ?_⟩
    · rw [up_opened opens, upTransfer_log, packets, opened]
      rfl
    · intro index positive bound
      obtain ⟨index, rfl⟩ := Nat.exists_eq_succ_of_ne_zero (Nat.pos_iff_ne_zero.mp positive)
      rw [Session.uploadPackets, List.length_cons, uploadChunks_length] at bound
      have first : 0 ≤ session.writeResult ∧ 0 < session.readResult.res := ⟨opens.written, opens.read⟩
      have both : Answered session.writes session.reads (index + 1) ↔
          Answered session.writes.tail session.reads.tail index := answeredBy_succ.trans (and_iff_right first)
      rw [Nat.succ_eq_add_one, Nat.succ_lt_succ_iff, both, and_iff_right opens]
      exact reached index (Nat.lt_of_succ_lt_succ bound)
  · have none (count : Nat) (few : count ≤ 1) (index : Nat) (positive : 0 < index) :
        index < count ↔ UpOpens path session ∧ Answered session.writes session.reads index :=
      iff_of_false (by omega) fun both => opens both.1
    rcases up_unopened_hands opens with nothing | opening
    · rw [nothing, silent]
      exact ⟨0, rfl, fun opened => absurd opened opens, fun index positive _ => none 0 (Nat.zero_le _) index positive⟩
    · rw [opening, silent]
      exact ⟨1, rfl, fun _ => Nat.one_pos, fun index positive _ => none 1 (Nat.le_refl _) index positive⟩

/-- A successful upload has handed over all of its packets. -/
theorem up_hands_all (fresh : session.log = []) (free : session.input.counts = [])
    (succeeded : (up path session).1 = some .unk) :
    packetsOf (up path session).2.log = session.uploadPackets path := by
  obtain ⟨count, packets, first, reached⟩ := up_hands path session fresh free
  obtain ⟨opens, answered⟩ := (up_succeeds.mp succeeded).opens
  have length : (session.uploadPackets path).length = upChunks session.input.rest.length + 1 := by
    rw [Session.uploadPackets, List.length_cons, uploadChunks_length, upChunks_eq]
  rw [packets, List.take_of_length_le]
  rw [length]
  by_cases more : 0 < upChunks session.input.rest.length
  · have fewer : Answered session.writes session.reads (upChunks session.input.rest.length) :=
      fun index bound => answered index (Nat.lt_succ_of_lt bound)
    exact (reached _ more (by rw [length]; exact Nat.lt_succ_self _)).mpr ⟨opens, fewer⟩
  · have := first opens
    omega

theorem uploadPackets_payloads (path : CString) (session : Session) :
    ((session.uploadPackets path).drop 1).flatMap (List.drop 8) = session.input.rest := by
  rw [Session.uploadPackets, List.drop_one, List.tail_cons, List.flatMap_def, uploadChunks_payloads,
    chunks_flatten (by decide)]

theorem uploadPackets_begin (path : CString) (session : Session) (count : Nat) :
    (((session.uploadPackets path).take count).drop 1).flatMap (List.drop 8) <+: session.input.rest := by
  have part : ((session.uploadPackets path).take count).drop 1 <+: (session.uploadPackets path).drop 1 := by
    rw [List.drop_take]
    exact List.take_prefix _ _
  obtain ⟨later, all⟩ := part
  refine ⟨later.flatMap (List.drop 8), ?_⟩
  rw [← List.flatMap_append, all, uploadPackets_payloads]

end Upload

/-- However an upload ends, the packets handed over are the first packets of the whole upload: each one behind the
opening exactly if the opening was taken up and every packet before it taken and answered.  So what was sent of the file
is a beginning of it, and it is all of the file when the upload succeeds. -/
theorem up_interrupted (path : CString) (content : Bytes) (writes : List Int) (reads : List ReadResult)
    (junk : Nat → Memory) :
    let session := upSession content [] writes reads junk
    let run := up path session
    (∃ count, packetsOf run.2.log = (session.uploadPackets path).take count ∧
      ∀ index, 0 < index → index < (session.uploadPackets path).length →
        (index < count ↔ UpOpens path session ∧ Answered writes reads index)) ∧
    ((packetsOf run.2.log).drop 1).flatMap (List.drop 8) <+: content ∧
    (run.1 = some .unk → packetsOf run.2.log = session.uploadPackets path ∧
      ((packetsOf run.2.log).drop 1).flatMap (List.drop 8) = content) := by
  intro session run
  obtain ⟨count, packets, _, reached⟩ := up_hands path session rfl rfl
  refine ⟨⟨count, packets, reached⟩, ?_, fun succeeded => ?_⟩
  · rw [packets]
    exact uploadPackets_begin path session count
  · have all := up_hands_all rfl rfl succeeded
    exact ⟨all, by rw [all]; exact uploadPackets_payloads path session⟩

end Ev3duder
