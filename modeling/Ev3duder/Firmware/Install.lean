import Ev3duder.Firmware.Bootloader

namespace Ev3duder

open Data

/-! # What the bootloader is told, and when -/

/-- A request of the update, and the replies after which the next one may follow. -/
structure Request where
  packet : Bytes
  size : Nat
  milliseconds : Int
  accepts : ReadResult → Prop

/-- The three ways a request can fail, and success.  A reply that does not fill its layout leaves the
verdict to stale memory, so nothing is said about it. -/
inductive Exchanged (request : Request) : List Event → Bool → Prop where
  | unwritten {res} (failed : res < 0) :
      Exchanged request [.write request.packet request.packet.length res] false
  | unread {res result} (written : 0 ≤ res) (failed : result.res ≤ 0) :
      Exchanged request [.write request.packet request.packet.length res,
        .read request.size request.milliseconds result] false
  | judged {res result passed} (written : 0 ≤ res) (read : 0 < result.res)
      (verdict : request.size ≤ result.stored.length → (passed = true ↔ request.accepts result)) :
      Exchanged request [.write request.packet request.packet.length res,
        .read request.size request.milliseconds result] passed

def Performs (script : List Request) (before after : Session) (passed : Bool) : Prop :=
  ∃ events, after.log = before.log ++ events ∧ Script Exchanged script events passed

section Performs

variable {first second script : List Request} {before middle after last : Session} {done : Bool}

theorem Performs.trans (early : Performs first before middle true)
    (late : Performs second middle after done) : Performs (first ++ second) before after done := by
  obtain ⟨events, earlyLog, earlyRun⟩ := early
  obtain ⟨rest, lateLog, lateRun⟩ := late
  exact ⟨events ++ rest, by rw [lateLog, earlyLog, List.append_assoc], earlyRun.append lateRun⟩

theorem Performs.stop (early : Performs first before after false) :
    Performs (first ++ second) before after false := by
  obtain ⟨events, log, run⟩ := early
  exact ⟨events, log, run.append_stopped⟩

theorem Performs.of_log (performed : Performs script before after done) (same : last.log = after.log) :
    Performs script before last done := by
  obtain ⟨events, log, run⟩ := performed
  exact ⟨events, by rw [same, log], run⟩

theorem Performs.from_log (performed : Performs script middle after done) (same : middle.log = before.log) :
    Performs script before after done := by
  obtain ⟨events, log, run⟩ := performed
  exact ⟨events, by rw [log, same], run⟩

theorem Performs.none (same : after.log = before.log) : Performs [] before after true :=
  ⟨[], by rw [same, List.append_nil], .finished⟩

end Performs

def Acknowledged (result : ReadResult) : Prop := result.type = some vmOk ∨ result.type = some vmSysRq

def bootloaderRequest {τ : Type} [Packet τ] (request : τ) (size : Nat) (milliseconds : Int)
    (accepts : ReadResult → Prop) : Request where
  packet := Packet.toBytes request
  size
  milliseconds
  accepts

section Step

variable {τ : Type} [Packet τ] {request : τ} {session : Session}

/-- An exchange that fails stops the script; one that is answered goes on with whatever is made of the
reply. -/
theorem exchange_performs (request : τ) (script : Request)
    (sent : Packet.handed request = script.packet)
    (length : Packet.count request = script.packet.length) (writeError : String) (reply : Reply)
    (readError : String) (session : Session) :
    (∃ after, exchange request writeError reply script.size script.milliseconds readError session =
        (some (.error .comm), after) ∧ after.input = session.input ∧ Performs [script] session after false) ∨
      (exchange request writeError reply script.size script.milliseconds readError session =
          (some (.ok (reply.receive session.readResult)),
            session.afterExchange request script.size script.milliseconds) ∧
        ∀ passed, (script.size ≤ session.readResult.stored.length →
            (passed = true ↔ script.accepts session.readResult)) →
          Performs [script] session (session.afterExchange request script.size script.milliseconds) passed) := by
  have log : (session.afterExchange request script.size script.milliseconds).log = session.log ++
      [.write script.packet script.packet.length session.writeResult,
        .read script.size script.milliseconds session.readResult] := by
    rw [Session.afterExchange_log, sent, length]
  have out := session.afterWrite_log (Packet.toBytes request) (Packet.count request)
  rw [← Packet.handed, sent, length] at out
  by_cases written : 0 ≤ session.writeResult
  · by_cases read : 0 < session.readResult.res
    · refine Or.inr ⟨exchange_answered session written read, fun passed verdict => ⟨_, log, ?_⟩⟩
      exact .single (.judged written read verdict)
    · refine Or.inl ⟨{ session.afterExchange request script.size script.milliseconds with
          errmsg := some readError }, by rw [exchange_run, if_neg (by omega), if_pos (by omega)], rfl, _, log, ?_⟩
      exact .single (.unread written (by omega))
  · refine Or.inl ⟨{ session.afterWrite (Packet.toBytes request) (Packet.count request) with
        errmsg := some writeError }, by rw [exchange_run, if_pos (by omega)], rfl, _, by rw [length]; exact out, ?_⟩
    exact .single (.unwritten (by omega))

theorem bootloaderReply_run (reply : Reply) (more : Nat) (deniedError : String) (session : Session) :
    ∃ err after, bootloaderReply reply more deniedError session = (some err, after) ∧
      session.SameLink after ∧ after.input = session.input ∧
      (err = .unk ↔ reply.memory 4 = vmOk ∨ reply.memory 4 = vmSysRq) := by
  rw [bootloaderReply, Proc.bind_returned (reply.type_run session)]
  by_cases refused : reply.memory 4 ≠ vmOk ∧ reply.memory 4 ≠ vmSysRq
  · rw [if_pos refused]
    refine ⟨.vm, _, rfl, ⟨rfl, rfl, rfl⟩, rfl, ?_⟩
    simp [refused]
  · rw [if_neg refused]
    refine ⟨.unk, _, rfl, ⟨rfl, rfl, rfl⟩, rfl, ?_⟩
    grind

theorem acknowledged_iff {result : ReadResult} (reply : Reply) (full : systemReplySize ≤ result.stored.length) :
    Acknowledged result ↔
      (reply.receive result).memory 4 = vmOk ∨ (reply.receive result).memory 4 = vmSysRq := by
  have long : 4 < result.stored.length := by
    have : 7 ≤ result.stored.length := full
    omega
  simp only [Acknowledged, ReadResult.type_eq reply long, Option.some.injEq]

theorem bootloaderStep_performs (request : τ)
    (framed : (Packet.packetLen request).toNat = (Packet.tail request).length)
    (writeError readError deniedError : String) (milliseconds : Int) (more : Nat) (session : Session) :
    ∃ err after,
      bootloaderStep (some request) writeError readError deniedError milliseconds more session =
        (some err, after) ∧ after.input = session.input ∧
      Performs [bootloaderRequest request systemReplySize milliseconds Acknowledged] session after
        (err = .unk) := by
  rw [bootloaderStep]
  rcases exchange_performs request (bootloaderRequest request systemReplySize milliseconds Acknowledged)
      (Packet.handed_eq framed) (Packet.count_eq framed) writeError ⟨session.junk 0, 0⟩ readError
      session.afterMalloc with
    ⟨after, run, input, stopped⟩ | ⟨run, performed⟩
  · exact ⟨.comm, after, (Proc.bind_returned (malloc_run session)).trans (Proc.bind_returned run), input, stopped⟩
  · obtain ⟨err, after, judged, link, input, verdict⟩ := bootloaderReply_run
      ((⟨session.junk 0, 0⟩ : Reply).receive session.readResult) more deniedError
      (session.afterMalloc.afterExchange request systemReplySize milliseconds)
    refine ⟨err, after, ((Proc.bind_returned (malloc_run session)).trans (Proc.bind_returned run)).trans judged, input,
      ?_⟩
    refine (performed (err = .unk) fun full => ?_).of_log link.log
    rw [decide_eq_true_iff, verdict]
    exact (acknowledged_iff _ full).symm

end Step

def dataPacket (block : Bytes) : SystemCmd :=
  { fwDownloadDataInit with
    packetLen := UInt16.ofNat (Packet.size SystemCmd - prefixSize + block.length)
    bytes := block }

def dataRequest (block : Bytes) : Request :=
  bootloaderRequest (dataPacket block) systemReplySize (-1) Acknowledged

def imageRequests (image : Bytes) : List Request := (chunks maxPayload image).map dataRequest

theorem fwDownloadData_alloc :
    packetAlloc fwDownloadDataInit maxPayload = some { fwDownloadDataInit with packetLen := 1022 } := rfl

theorem dataPacket_framed {block : Bytes} (small : block.length ≤ maxPayload) :
    (Packet.packetLen (dataPacket block)).toNat = (Packet.tail (dataPacket block)).length := by
  have bound : block.length ≤ 1018 := small
  have field : (Packet.packetLen (dataPacket block)).toNat = (UInt16.ofNat (4 + block.length)).toNat := rfl
  rw [field, UInt16.toNat_ofNat']
  simp [Packet.tail, dataPacket, CommandFields.tail]
  omega

theorem dataPacket_sent {request : SystemCmd} {payload : Bytes} {count : Nat}
    (header : request.toCommandFields = { fwDownloadDataInit.toCommandFields with
      packetLen := UInt16.ofNat (Packet.size SystemCmd - prefixSize + count) })
    (enough : (payload.take count).length = count) (small : count ≤ maxPayload)
    (bytes : request.bytes = payload) :
    Packet.handed request = Packet.toBytes (dataPacket (payload.take count)) ∧
      Packet.count request = Packet.count (dataPacket (payload.take count)) := by
  have same : Packet.count request = Packet.count (dataPacket (payload.take count)) := by
    simp only [Packet.count, Packet.packetLen, header, dataPacket, enough]
  refine ⟨?_, same⟩
  have front : Packet.toBytes request = Packet.toBytes (dataPacket (payload.take count)) ++ payload.drop count := by
    simp [Packet.toBytes, Packet.tail, Packet.hidLayer, Packet.packetLen, header, bytes, dataPacket, enough,
      CommandFields.tail]
  rw [Packet.handed, same, Packet.count_eq (dataPacket_framed (by omega)), front, List.take_left]

/-- What `fread` brings, filled up with zeros; a short one ends the file. -/
theorem fillBlock_reads (payload : Bytes) (count : Nat) (session : Session) :
    fillBlock payload count false session =
      (some (padded count (session.input.rest.take (session.input.transfer count)) ++ payload.drop count,
        decide ((session.input.rest.take (session.input.transfer count)).length < count)),
        { session with input := session.input.afterRead count }) := by
  have most := session.input.taken_length count
  rw [fillBlock, if_neg (by decide), Proc.bind_returned (fread_run count session)]
  split
  · rename_i short
    rw [padded_short most, decide_eq_true short]
    rfl
  · rename_i enough
    rw [padded_full (by omega), decide_eq_false enough]
    rfl

theorem fillBlock_run (payload : Bytes) (count : Nat) (ended : Bool) (session : Session) :
    ∃ filled stopped after, fillBlock payload count ended session = (some (filled, stopped), after) ∧
      session.SameLink after ∧ (filled.take count).length = count ∧
      (session.input.counts = [] → (ended = true → session.input.rest = []) →
        filled.take count = padded count session.input.rest ∧
          after.input.rest = session.input.rest.drop count ∧ after.input.counts = [] ∧
          (stopped = true → after.input.rest = [])) := by
  cases ended with
  | true =>
      refine ⟨_, _, session, rfl, ⟨rfl, rfl, rfl⟩, by simp, ?_⟩
      intro counts nothing
      simp [nothing rfl, counts, padded_nil]
  | false =>
      have front (taken : Bytes) : (padded count taken ++ payload.drop count).take count = padded count taken :=
        List.take_left' (padded_length count taken)
      refine ⟨_, _, _, fillBlock_reads payload count session, ⟨rfl, rfl, rfl⟩, by rw [front, padded_length], ?_⟩
      intro counts _
      obtain ⟨taken, rest, later⟩ := File.transfer_free counts count
      refine ⟨?_, rest, later, fun stopped => ?_⟩
      · rw [front, taken, padded_take]
      · have short := of_decide_eq_true stopped
        rw [taken, List.length_take] at short
        exact rest.trans (List.drop_of_length_le (by omega))

theorem imageRequests_block {block rest : Bytes} (positive : 0 < block.length)
    (small : block.length ≤ maxPayload) (full : block.length = maxPayload ∨ rest = []) :
    imageRequests (block ++ rest) = [dataRequest block] ++ imageRequests rest := by
  rw [imageRequests, chunks_append (List.length_pos_iff.mp positive) small full]
  rfl

theorem sendLoop_pass {total sent thisBlock : Nat} {request : SystemCmd} (reply : Reply) {ended stopped : Bool}
    (crc : UInt32) {payload : Bytes} {session read : Session} (more : sent < total)
    (block : (if total - sent ≤ maxPayload then total - sent else maxPayload) = thisBlock)
    (filled : fillBlock request.bytes thisBlock ended session = (some (payload, stopped), read)) :
    sendLoop total request reply sent ended crc session =
      (exchange (withBlock request thisBlock payload) "Unable to write FW_DOWNLOAD_DATA." reply systemReplySize
          (-1) "Unable to read FW_DOWNLOAD_DATA" >>= fun step =>
        match step with
        | .error err => return .error err
        | .ok reply => do
            match ← bootloaderReply reply 2 "`FW_DOWNLOAD_DATA` was denied." with
            | .unk => sendLoop total (withBlock request thisBlock payload) reply (sent + thisBlock) stopped
                        (crc32 crc (payload.take thisBlock))
            | err => return .error err) read := by
  rw [sendLoop, if_pos more]
  simp only [block]
  exact (Proc.bind_returned filled).trans rfl

theorem nextBlock_bounds {left thisBlock : Nat} (more : 0 < left)
    (block : (if left ≤ maxPayload then left else maxPayload) = thisBlock) :
    0 < thisBlock ∧ thisBlock ≤ maxPayload ∧ thisBlock ≤ left ∧ (thisBlock = maxPayload ∨ left - thisBlock = 0) := by
  have positive : 0 < maxPayload := by decide
  split at block <;> omega

/-- One pass: its block is refused, or the loop goes on behind it. -/
theorem sendLoop_step {total sent : Nat} {request : SystemCmd} (reply : Reply) (ended : Bool) (crc : UInt32)
    (session : Session)
    (header : request.toCommandFields = { fwDownloadDataInit.toCommandFields with packetLen := request.packetLen })
    (more : sent < total) :
    ∃ block after,
      (0 < block.length ∧ block.length ≤ maxPayload ∧ block.length ≤ total - sent ∧
        (block.length = maxPayload ∨ total - sent - block.length = 0)) ∧
      ((∃ err, sendLoop total request reply sent ended crc session = (some (.error err), after) ∧ err ≠ .unk ∧
          Performs [dataRequest block] session after false) ∨
        ∃ next got stopped,
          next.toCommandFields = { fwDownloadDataInit.toCommandFields with packetLen := next.packetLen } ∧
          sendLoop total request reply sent ended crc session =
            sendLoop total next got (sent + block.length) stopped (crc32 crc block) after ∧
          Performs [dataRequest block] session after true ∧
          (session.input.counts = [] → (ended = true → session.input.rest = []) →
            block = padded block.length session.input.rest ∧
              after.input.rest = session.input.rest.drop block.length ∧ after.input.counts = [] ∧
              (stopped = true → after.input.rest = []))) := by
  generalize block_eq : (if total - sent ≤ maxPayload then total - sent else maxPayload) = thisBlock
  have bounds := nextBlock_bounds (by omega) block_eq
  obtain ⟨payload, stopped, read, filled, link, enough, exactly⟩ := fillBlock_run request.bytes thisBlock ended session
  generalize next_eq : withBlock request thisBlock payload = next
  have nextHeader : next.toCommandFields = { fwDownloadDataInit.toCommandFields with
      packetLen := UInt16.ofNat (Packet.size SystemCmd - prefixSize + thisBlock) } := by
    rw [← next_eq, withBlock, header]
  have unfolded := sendLoop_pass reply crc more block_eq filled
  rw [next_eq] at unfolded
  obtain ⟨sentBytes, count⟩ := dataPacket_sent nextHeader enough bounds.2.1 (by rw [← next_eq, withBlock])
  have length : Packet.count next = (Packet.toBytes (dataPacket (payload.take thisBlock))).length := by
    rw [count, Packet.count_eq (dataPacket_framed (by omega))]
  rw [← enough] at bounds
  rcases exchange_performs next (dataRequest (payload.take thisBlock)) sentBytes length
    "Unable to write FW_DOWNLOAD_DATA." reply "Unable to read FW_DOWNLOAD_DATA" read with
    ⟨after, run, _, failed⟩ | ⟨run, performed⟩
  · refine ⟨payload.take thisBlock, after, bounds, Or.inl ⟨.comm, ?_, by decide, failed.from_log link.log⟩⟩
    exact unfolded.trans (Proc.bind_returned run)
  · obtain ⟨err, judgedAt, judged, judgedLink, judgedInput, verdict⟩ := bootloaderReply_run
      (reply.receive read.readResult) 2 "`FW_DOWNLOAD_DATA` was denied." (read.afterExchange next systemReplySize (-1))
    have step : Performs [dataRequest (payload.take thisBlock)] session judgedAt (err = .unk) := by
      refine ((performed (err = .unk) fun long => ?_).of_log judgedLink.log).from_log link.log
      rw [decide_eq_true_iff, verdict]
      exact (acknowledged_iff _ long).symm
    have answered := unfolded.trans ((Proc.bind_returned run).trans (Proc.bind_returned judged))
    by_cases passed : err = .unk
    · subst passed
      refine ⟨payload.take thisBlock, judgedAt, bounds,
        Or.inr ⟨next, reply.receive read.readResult, stopped, by rw [nextHeader], ?_, step, ?_⟩⟩
      · rw [enough]
        exact answered
      · rw [enough, judgedInput]
        exact exactly
    · rw [decide_eq_false passed] at step
      refine ⟨payload.take thisBlock, judgedAt, bounds, Or.inl ⟨err, answered.trans ?_, passed, step⟩⟩
      cases err <;> first | rfl | exact absurd rfl passed

/-- The loop transfers an image of exactly the length left, and returns its checksum; with complete reads the
image is the rest of the file and zeros. -/
theorem sendLoop_performs (total : Nat) (request : SystemCmd) (reply : Reply) (sent : Nat) (ended : Bool)
    (crc : UInt32) (session : Session)
    (header : request.toCommandFields = { fwDownloadDataInit.toCommandFields with
      packetLen := request.packetLen }) :
    ∃ image result after, sendLoop total request reply sent ended crc session = (some result, after) ∧
      image.length = total - sent ∧
      ((result = .ok (crc32 crc image) ∧ Performs (imageRequests image) session after true ∧
          (session.input.counts = [] → (ended = true → session.input.rest = []) →
            image = padded (total - sent) session.input.rest)) ∨
        ∃ err, result = .error err ∧ err ≠ .unk ∧ Performs (imageRequests image) session after false) := by
  generalize left : total - sent = remaining
  induction remaining using Nat.strongRecOn generalizing request reply sent ended crc session with
  | ind remaining ih =>
    by_cases more : sent < total
    · obtain ⟨block, after, ⟨nonempty, small, inside, full⟩, outcome⟩ :=
        sendLoop_step reply ended crc session header more
      rw [left] at inside full
      have split (rest : Bytes) (size : rest.length = remaining - block.length) :
          imageRequests (block ++ rest) = [dataRequest block] ++ imageRequests rest := by
        refine imageRequests_block nonempty small ?_
        rcases full with full | none
        · exact Or.inl full
        · exact Or.inr (List.eq_nil_of_length_eq_zero (by omega))
      rcases outcome with ⟨err, stops, known, refused⟩ | ⟨next, got, stopped, nextHeader, goes, step, exactly⟩
      · refine ⟨block ++ List.replicate (remaining - block.length) 0, .error err, after, stops, ?_,
          Or.inr ⟨err, rfl, known, ?_⟩⟩
        · rw [List.length_append, List.length_replicate]
          omega
        · rw [split _ List.length_replicate]
          exact refused.stop
      · obtain ⟨image, result, last, later, size, outcome⟩ := ih (remaining - block.length) (by omega) next got
          (sent + block.length) stopped (crc32 crc block) after nextHeader (by omega)
        refine ⟨block ++ image, result, last, goes.trans later, by rw [List.length_append]; omega, ?_⟩
        rw [split image size, ← crc32_append]
        rcases outcome with ⟨succeeded, others, exactRest⟩ | ⟨err, failed, known, others⟩
        · refine Or.inl ⟨succeeded, step.trans others, ?_⟩
          intro counts nothing
          obtain ⟨front, restLeft, countsLeft, nothingLeft⟩ := exactly counts nothing
          rw [exactRest countsLeft nothingLeft, restLeft]
          exact (congrArg (· ++ _) front).trans (padded_split inside session.input.rest).symm
        · exact Or.inr ⟨err, failed, known, step.trans others⟩
    · refine ⟨[], .ok crc, session, ?_, ?_, Or.inl ⟨by rw [crc32_nil], ?_, ?_⟩⟩
      · rw [sendLoop, if_neg more]
        rfl
      · simp only [List.length_nil]
        omega
      · rw [imageRequests, chunks_nil]
        exact .none rfl
      · intro _ _
        have none : remaining = 0 := by omega
        subst none
        exact (List.eq_nil_of_length_eq_zero (padded_length _ _)).symm

end Ev3duder
