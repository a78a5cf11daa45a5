import Ev3duder.Commands.Download

namespace Ev3duder

open Data

/-! # Whole runs of `dl` and `ls` -/

def Reply.len (reply : Reply) : UInt16 := UInt16.ofNat (leValue (reply.memory.load 0 2))

def Reply.announced (reply : Reply) : UInt32 := UInt32.ofNat (leValue (reply.memory.load 7 4))

def Reply.openingPayload (reply : Reply) : Bytes :=
  reply.memory.load beginUploadReplySize (openingSize reply.len).toNat

def Reply.continuingPayload (reply : Reply) : Bytes :=
  reply.memory.load continueUploadReplySize (continuingSize reply.len).toNat

def Session.afterPass (session : Session) (kind : Retrieval) (handle : UInt8) (reply : Reply) : Session :=
  let got := reply.receive session.readResult
  let answered := session.afterTransact (kind.more handle) kind.moreSize kind.fileChunksz timeout
  { answered with
    peeks := answered.peeks ++ [⟨5, got.got⟩, ⟨2, got.got⟩,
      ⟨continueUploadReplySize + (continuingSize got.len).toNat, got.got⟩, ⟨8, got.got⟩]
    output := answered.output ++ got.continuingPayload }

theorem Session.afterPass_log (session : Session) (kind : Retrieval) (handle : UInt8) (reply : Reply) :
    (session.afterPass kind handle reply).log = session.log ++
      [.write ((kind.more handle).take kind.moreSize) kind.moreSize session.writeResult,
        .read kind.fileChunksz timeout session.readResult] :=
  Session.afterTransact_log

section Loop

variable {kind : Retrieval} {handle : UInt8} {reply : Reply} {readSoFar total : UInt32} {session : Session}

theorem continuingReply_accepted (kind : Retrieval) {reply : Reply} (session : Session)
    (accepted : reply.memory 4 ≠ vmError) :
    ∃ after, continuingReply kind reply session =
        (some (.ok (continuingSize reply.len, reply.memory 7)), after) ∧
      after = { session with
        peeks := session.peeks ++ [⟨5, reply.got⟩, ⟨2, reply.got⟩,
          ⟨continueUploadReplySize + (continuingSize reply.len).toNat, reply.got⟩, ⟨8, reply.got⟩]
        output := session.output ++ reply.continuingPayload } := by
  refine ⟨_, ?_, rfl⟩
  rw [continuingReply, Proc.bind_returned (reply.type_run session), if_neg accepted]
  simp only [Proc.bind_apply, Reply.packetLen, Reply.u16, Reply.u8, Reply.peek, fwrite, Proc.modify_apply,
    Proc.pure_apply, List.append_assoc, List.cons_append, List.nil_append]
  rfl

theorem continuingReply_denied (kind : Retrieval) {reply : Reply} (session : Session)
    (denied : reply.memory 4 = vmError) :
    ∃ after, continuingReply kind reply session = (some (.error .vm), after) := by
  rw [continuingReply, Proc.bind_returned (reply.type_run session), if_pos denied]
  exact ⟨_, rfl⟩

theorem continuingReply_quiet (kind : Retrieval) (reply : Reply) (session : Session) :
    (continuingReply kind reply session).2.log = session.log := by
  by_cases accepted : reply.memory 4 = vmError
  · rw [continuingReply, Proc.bind_returned (reply.type_run session), if_pos accepted]
    rfl
  · obtain ⟨after, run, after_eq⟩ := continuingReply_accepted kind session accepted
    rw [run, after_eq]

theorem retrieveLoop_pass (below : readSoFar < total)
    (answered : 0 ≤ session.writeResult ∧ 0 < session.readResult.res)
    (accepted : (reply.receive session.readResult).memory 4 ≠ vmError) :
    retrieveLoop kind handle reply readSoFar total session =
      retrieveLoop kind ((reply.receive session.readResult).memory 7) (reply.receive session.readResult)
        (readSoFar + (continuingSize (reply.receive session.readResult).len).toUInt32) total
        (session.afterPass kind handle reply) := by
  rw [retrieveLoop, if_pos below]
  obtain ⟨last, used, last_eq⟩ := continuingReply_accepted kind
    (session.afterTransact (kind.more handle) kind.moreSize kind.fileChunksz timeout) accepted
  split
  · rename_i asked
    rw [transact_answered session answered.1 answered.2] at asked
    cases asked
  · rename_i asked
    rw [transact_answered session answered.1 answered.2] at asked
    cases asked
  · rename_i asked
    rw [transact_answered session answered.1 answered.2] at asked
    cases asked
    split
    · rename_i other
      rw [used] at other
      cases other
    · rename_i other
      rw [used] at other
      cases other
    · rename_i other
      rw [used] at other
      cases other
      rw [last_eq]
      rfl

theorem retrieveLoop_stops (below : readSoFar < total)
    (stops : ¬ ((0 ≤ session.writeResult ∧ 0 < session.readResult.res) ∧
      (reply.receive session.readResult).memory 4 ≠ vmError)) :
    (retrieveLoop kind handle reply readSoFar total session).1 ≠ some .unk := by
  rw [retrieveLoop, if_pos below]
  by_cases answered : 0 ≤ session.writeResult ∧ 0 < session.readResult.res
  · have denied : (reply.receive session.readResult).memory 4 = vmError :=
      Classical.byContradiction fun accepted => stops ⟨answered, accepted⟩
    obtain ⟨last, used⟩ := continuingReply_denied kind
      (session.afterTransact (kind.more handle) kind.moreSize kind.fileChunksz timeout) denied
    split <;> rename_i asked <;> rw [transact_answered session answered.1 answered.2] at asked <;> cases asked
    split <;> rename_i other <;> rw [used] at other <;> cases other
    simp
  · obtain ⟨after, failed⟩ := transact_failed (kind.more handle) kind.moreSize
      ("Unable to write " ++ kind.continuing) reply kind.fileChunksz timeout
      ("Unable to read " ++ kind.continuing ++ "_REPLY") session answered
    split <;> rename_i asked <;> rw [failed] at asked <;> cases asked
    simp

theorem retrieveLoop_done (kind : Retrieval) (handle : UInt8) (reply : Reply) (session : Session)
    (done : ¬ readSoFar < total) :
    ∃ after, retrieveLoop kind handle reply readSoFar total session = (some .unk, after) ∧
      after.output = session.output ∧ after.log = session.log := by
  rw [retrieveLoop, if_neg done]
  exact ⟨_, rfl, rfl, rfl⟩

/-- What was read after the next `count` replies, as the loop counts it. -/
def progress (reply : Reply) (reads : List ReadResult) (readSoFar : UInt32) : Nat → UInt32
  | 0 => readSoFar
  | count + 1 => progress (reply.receive (reads.headD (.received []))) reads.tail
      (readSoFar + (continuingSize (reply.receive (reads.headD (.received []))).len).toUInt32) count

/-- The loop ends well with the `count`-th of the coming replies. -/
structure LoopEnds (reply : Reply) (writes : List Int) (reads : List ReadResult) (readSoFar total : UInt32)
    (count : Nat) : Prop where
  answered : Answered writes reads count
  accepted : ∀ index, index < count → (reply.after reads (index + 1)).memory 4 ≠ vmError
  below : ∀ index, index < count → progress reply reads readSoFar index < total
  reached : ¬ progress reply reads readSoFar count < total

theorem loopEnds_zero {writes : List Int} {reads : List ReadResult} :
    LoopEnds reply writes reads readSoFar total 0 ↔ ¬ readSoFar < total := by
  constructor
  · intro ends
    exact ends.reached
  · intro reached
    exact ⟨answeredBy_zero _ _ _, by omega, by omega, reached⟩

theorem loopEnds_succ {writes : List Int} {reads : List ReadResult} {count : Nat} :
    LoopEnds reply writes reads readSoFar total (count + 1) ↔
      readSoFar < total ∧ (0 ≤ writes.headD (-1) ∧ 0 < (reads.headD (.received [])).res) ∧
        (reply.receive (reads.headD (.received []))).memory 4 ≠ vmError ∧
        LoopEnds (reply.receive (reads.headD (.received []))) writes.tail reads.tail
          (readSoFar + (continuingSize (reply.receive (reads.headD (.received []))).len).toUInt32) total count := by
  constructor
  · rintro ⟨answered, accepted, below, reached⟩
    obtain ⟨first, others⟩ := answeredBy_succ.mp answered
    refine ⟨below 0 (by omega), first, accepted 0 (by omega), others, ?_, ?_, reached⟩
    · intro index bound
      exact accepted (index + 1) (by omega)
    · intro index bound
      exact below (index + 1) (by omega)
  · rintro ⟨start, first, firstAccepted, others, accepted, below, reached⟩
    refine ⟨answeredBy_succ.mpr ⟨first, others⟩, ?_, ?_, reached⟩
    · intro index bound
      cases index with
      | zero => exact firstAccepted
      | succ index => exact accepted index (by omega)
    · intro index bound
      cases index with
      | zero => exact start
      | succ index => exact below index (by omega)

def passEvents (kind : Retrieval) (reply : Reply) (handle : UInt8) : List Int → List ReadResult → Nat → List Event
  | _, _, 0 => []
  | writes, reads, count + 1 =>
      .write ((kind.more handle).take kind.moreSize) kind.moreSize (writes.headD (-1)) ::
        .read kind.fileChunksz timeout (reads.headD (.received [])) ::
        passEvents kind (reply.receive (reads.headD (.received [])))
          ((reply.receive (reads.headD (.received []))).memory 7) writes.tail reads.tail count

/-- The loop ends well exactly when some number of replies ends it. -/
theorem retrieveLoop_ends {count : Nat} (kind : Retrieval) (handle : UInt8) (session : Session)
    (ends : LoopEnds reply session.writes session.reads readSoFar total count) :
    ∃ after, retrieveLoop kind handle reply readSoFar total session = (some .unk, after) ∧
      after.output = session.output ++
        (List.range count).flatMap (fun index => (reply.after session.reads (index + 1)).continuingPayload) ∧
      after.log = session.log ++ passEvents kind reply handle session.writes session.reads count := by
  induction count generalizing handle reply readSoFar session with
  | zero =>
      obtain ⟨after, run, output, log⟩ := retrieveLoop_done kind handle reply session (loopEnds_zero.mp ends)
      exact ⟨after, run, by simp [output], by simp [log, passEvents]⟩
  | succ count ih =>
      obtain ⟨below, answered, accepted, others⟩ := loopEnds_succ.mp ends
      obtain ⟨after, run, output, log⟩ := ih ((reply.receive session.readResult).memory 7)
        (session.afterPass kind handle reply) others
      refine ⟨after, (retrieveLoop_pass below answered accepted).trans run, ?_, ?_⟩
      · rw [output, List.range_succ_eq_map, List.flatMap_cons, List.flatMap_map]
        exact List.append_assoc _ _ _
      · rw [log, passEvents]
        rw [Session.afterPass_log, List.append_assoc]
        rfl

theorem retrieveLoop_unk (kind : Retrieval) (handle : UInt8) (session : Session)
    (succeeded : (retrieveLoop kind handle reply readSoFar total session).1 = some .unk) :
    ∃ count, LoopEnds reply session.writes session.reads readSoFar total count := by
  generalize left : session.reads.length = size
  induction size using Nat.strongRecOn generalizing handle reply readSoFar session with
  | ind size ih =>
    by_cases below : readSoFar < total
    · by_cases goes : (0 ≤ session.writeResult ∧ 0 < session.readResult.res) ∧
          (reply.receive session.readResult).memory 4 ≠ vmError
      · obtain ⟨answered, accepted⟩ := goes
        rw [retrieveLoop_pass below answered accepted] at succeeded
        have shorter : (session.afterPass kind handle reply).reads.length < size :=
          left ▸ Session.reads_shorter answered.2
        obtain ⟨count, others⟩ := ih _ shorter _ _ succeeded rfl
        exact ⟨count + 1, loopEnds_succ.mpr ⟨below, answered, accepted, others⟩⟩
      · exact absurd succeeded (retrieveLoop_stops below goes)
    · exact ⟨0, loopEnds_zero.mpr below⟩

end Loop

section Whole

variable {kind : Retrieval} {path : CString} {session : Session}

def Session.opening (session : Session) : Reply := (⟨session.junk 0, 0⟩ : Reply).receive session.readResult

def openingRequest (kind : Retrieval) (path : CString) : PathRequest :=
  { kind.init with
    packetLen := UInt16.ofNat (Packet.size PathRequest + (path.bytes.length + 1) - prefixSize)
    path := path.bytes ++ [0]
    maxBytes := kind.maxBytes }

/-- The retrieval ends well with the `count`-th reply after the first. -/
structure RetrievalEnds (path : CString) (session : Session) (count : Nat) : Prop where
  fits : Packet.size PathRequest + (path.bytes.length + 1) < 65535
  answered : 0 ≤ session.writeResult ∧ 0 < session.readResult.res
  accepted : session.opening.memory 4 ≠ vmError
  rest : LoopEnds session.opening session.writes.tail session.reads.tail (openingSize session.opening.len)
    session.opening.announced count

theorem retrieve_begins (kind : Retrieval) (session : Session)
    (fits : Packet.size PathRequest + (path.bytes.length + 1) < 65535) :
    retrieve kind path session =
      (exchange (openingRequest kind path) ("Unable to write " ++ kind.opening ++ ".") ⟨session.junk 0, 0⟩
          kind.fileChunksz timeout ("Unable to read " ++ kind.opening) >>= fun step =>
        match step with
        | .error err => return err
        | .ok reply => openingReply kind reply) session.afterMalloc := by
  have alloc : packetAlloc kind.init (path.bytes.length + 1) = some { kind.init with
      packetLen := UInt16.ofNat (Packet.size PathRequest + (path.bytes.length + 1) - prefixSize) } := if_pos fits
  rw [retrieve, alloc]
  exact Proc.bind_returned (malloc_run session)

def Session.opened (session : Session) (kind : Retrieval) (path : CString) : Session :=
  let reply := session.opening
  let answered := session.afterMalloc.afterExchange (openingRequest kind path) kind.fileChunksz timeout
  { answered with
    peeks := answered.peeks ++ [⟨5, reply.got⟩, ⟨2, reply.got⟩,
      ⟨beginUploadReplySize + (openingSize reply.len).toNat, reply.got⟩, ⟨11, reply.got⟩, ⟨12, reply.got⟩]
    output := answered.output ++ reply.openingPayload }

theorem Session.opened_log (session : Session) (kind : Retrieval) (path : CString) :
    (session.opened kind path).log = session.log ++
      [.write (Packet.handed (openingRequest kind path)) (Packet.count (openingRequest kind path)) session.writeResult,
        .read kind.fileChunksz timeout session.readResult] :=
  Session.afterExchange_log

theorem openingReply_accepted (kind : Retrieval) (reply : Reply) (session : Session)
    (accepted : reply.memory 4 ≠ vmError) :
    openingReply kind reply session =
      retrieveLoop kind (reply.memory 11) reply (openingSize reply.len) reply.announced
        { session with
          peeks := session.peeks ++ [⟨5, reply.got⟩, ⟨2, reply.got⟩,
            ⟨beginUploadReplySize + (openingSize reply.len).toNat, reply.got⟩, ⟨11, reply.got⟩, ⟨12, reply.got⟩]
          output := session.output ++ reply.openingPayload } := by
  rw [openingReply, Proc.bind_returned (reply.type_run session), if_neg accepted]
  simp only [retrieveRest, Proc.bind_apply, Reply.packetLen, Reply.u16, Reply.u32, Reply.u8, Reply.peek, fwrite,
    Proc.modify_apply, Proc.pure_apply, List.append_assoc, List.cons_append, List.nil_append]
  rfl

theorem openingReply_denied (kind : Retrieval) (reply : Reply) (session : Session)
    (refused : reply.memory 4 = vmError) :
    ∃ after, openingReply kind reply session = (some .vm, after) ∧ after.log = session.log := by
  rw [openingReply, Proc.bind_returned (reply.type_run session), if_pos refused]
  exact ⟨_, rfl, rfl⟩

theorem retrieve_opened (kind : Retrieval) (session : Session)
    (fits : Packet.size PathRequest + (path.bytes.length + 1) < 65535)
    (answered : 0 ≤ session.writeResult ∧ 0 < session.readResult.res)
    (accepted : session.opening.memory 4 ≠ vmError) :
    retrieve kind path session =
      retrieveLoop kind (session.opening.memory 11) session.opening (openingSize session.opening.len)
        session.opening.announced (session.opened kind path) := by
  rw [retrieve_begins kind session fits]
  exact (Proc.bind_returned (exchange_answered session.afterMalloc answered.1 answered.2)).trans
    (openingReply_accepted kind session.opening _ accepted)

theorem retrieve_unopened (kind : Retrieval) (session : Session)
    (closed : ¬ ((Packet.size PathRequest + (path.bytes.length + 1) < 65535) ∧
      (0 ≤ session.writeResult ∧ 0 < session.readResult.res) ∧ session.opening.memory 4 ≠ vmError)) :
    (retrieve kind path session).1 ≠ some .unk := by
  by_cases fits : Packet.size PathRequest + (path.bytes.length + 1) < 65535
  · rw [retrieve_begins kind session fits]
    by_cases answered : 0 ≤ session.writeResult ∧ 0 < session.readResult.res
    · have refused : session.opening.memory 4 = vmError :=
        Classical.byContradiction fun accepted => closed ⟨fits, answered, accepted⟩
      rw [Proc.bind_returned (exchange_answered session.afterMalloc answered.1 answered.2)]
      obtain ⟨after, run, _⟩ := openingReply_denied kind session.opening
        (session.afterMalloc.afterExchange (openingRequest kind path) kind.fileChunksz timeout) refused
      exact fun succeeded => nomatch (congrArg Prod.fst run).symm.trans succeeded
    · obtain ⟨after, failed⟩ := exchange_failed (openingRequest kind path)
        ("Unable to write " ++ kind.opening ++ ".") ⟨session.junk 0, 0⟩ kind.fileChunksz timeout
        ("Unable to read " ++ kind.opening) session.afterMalloc answered
      rw [Proc.bind_returned failed]
      simp
  · have null : packetAlloc kind.init (path.bytes.length + 1) = none := if_neg fits
    rw [retrieve, null]
    simp

theorem retrieve_succeeds (kind : Retrieval) (path : CString) (session : Session) :
    (retrieve kind path session).1 = some .unk ↔ ∃ count, RetrievalEnds path session count := by
  constructor
  · intro succeeded
    have open_ := Classical.byContradiction fun closed => retrieve_unopened kind session closed succeeded
    obtain ⟨fits, answered, accepted⟩ := open_
    rw [retrieve_opened kind session fits answered accepted] at succeeded
    obtain ⟨count, ends⟩ := retrieveLoop_unk _ _ _ succeeded
    exact ⟨count, fits, answered, accepted, ends⟩
  · rintro ⟨count, fits, answered, accepted, rest⟩
    rw [retrieve_opened kind session fits answered accepted]
    obtain ⟨after, run, _⟩ := retrieveLoop_ends kind (session.opening.memory 11) (session.opened kind path) rest
    rw [run]

theorem retrieve_ends {count : Nat} (kind : Retrieval) (ends : RetrievalEnds path session count) :
    (retrieve kind path session).2.output = session.output ++ session.opening.openingPayload ++
        (List.range count).flatMap (fun index =>
          (session.opening.after session.reads.tail (index + 1)).continuingPayload) ∧
      (retrieve kind path session).2.log = session.log ++
        [.write ((Packet.toBytes (openingRequest kind path)).take (Packet.count (openingRequest kind path)))
          (Packet.count (openingRequest kind path)) session.writeResult,
          .read kind.fileChunksz timeout session.readResult] ++
        passEvents kind session.opening (session.opening.memory 11) session.writes.tail session.reads.tail count := by
  obtain ⟨fits, answered, accepted, rest⟩ := ends
  rw [retrieve_opened kind session fits answered accepted]
  obtain ⟨after, run, output, log⟩ :=
    retrieveLoop_ends kind (session.opening.memory 11) (session.opened kind path) rest
  rw [run]
  refine ⟨output, ?_⟩
  exact log.trans (by rw [Session.opened_log]; rfl)

end Whole

end Ev3duder
