import Ev3duder.Bridge.Frames

namespace Ev3duder

open Data BridgeEvent

/-! # What the two ends of the bridge can do to it -/

/-- What one call of `cNetReadTcp` has to guarantee. -/
structure ReadSafe (pass : Pass) (bridge : Bridge) (result : Option UInt32) (after : Bridge) : Prop where
  /-- A call that uses an index outside the buffer, or breaks an assertion, does not return. -/
  inside : result ≠ none
  /-- `strstr` finds a NUL before the end of the buffer. -/
  terminated : bridge.tcpRead = .waitOnStart → ∀ bytes, pass.received = some bytes →
    (bridge.stored 0 (bytes.take 100)).buffered.length < bridgeBufSize - 1
  /-- Pointer and rest change by what was read, as numbers. -/
  exact : bridge.tcpRead = .waitOnOnlyChunk → ∀ bytes, pass.received = some bytes →
    after.tcpReadBufPointer.toNat =
        bridge.tcpReadBufPointer.toNat + (bytes.take bridge.tcpRestLen.toNat).length ∧
      (after.tcpRestLen.toNat + (bytes.take bridge.tcpRestLen.toNat).length = bridge.tcpRestLen.toNat ∨
        (bytes.take bridge.tcpRestLen.toNat).length = bridge.tcpRestLen.toNat)
  bounded : after.tcpReadBufPointer.toNat ≤ 65537 ∧ after.tcpRestLen.toNat ≤ 65535
  /-- A failure ends the session, and no bytes are reported. -/
  failure : pass.received = none → after.netConnection = .notConnected ∧
    ∀ value, result = some value → value.toInt32.toInt ≤ 0

/-- What the read side keeps between its calls: the end of the buffer is never written, and of a packet that is being
received the bytes so far and the rest make up all of it. -/
structure Reassembling (bridge : Bridge) : Prop where
  top : bridge.readBuf 65538 = 0
  pointer : bridge.tcpReadBufPointer.toNat ≤ 65537
  rest : bridge.tcpRestLen.toNat ≤ 65535
  chunk : bridge.tcpRead = .waitOnOnlyChunk → 2 ≤ bridge.tcpReadBufPointer.toNat ∧
    bridge.tcpReadBufPointer.toNat + bridge.tcpRestLen.toNat = bridge.tcpTotalLength.toNat ∧
    bridge.tcpTotalLength.toNat ≤ 65537

section Reading

variable {pass : Pass} {bridge after : Bridge} {result : Option UInt32}

theorem Reassembling.kept (reassembling : Reassembling bridge) (pointer : Nat) (bytes : Bytes)
    (inside : pointer + bytes.length ≤ 65537) : bridge.readBuf.storeAt (1 + pointer) bytes 65538 = 0 :=
  (Memory.storeAt_after (by omega)).trans reassembling.top

/-- A store at the front of the buffer, with no body to receive behind it. -/
theorem Reassembling.front (reassembling : Reassembling bridge) {bytes : Bytes} (short : bytes.length ≤ 100)
    {pointer : UInt32} (small : pointer.toNat ≤ 65537) {state : TcpState} (other : state ≠ .waitOnOnlyChunk)
    (connection : NetState) (log : List BridgeEvent) :
    Reassembling { bridge.stored 0 bytes with
      tcpReadBufPointer := pointer, tcpRead := state, netConnection := connection, log := log } :=
  ⟨reassembling.kept 0 bytes (by omega), small, reassembling.rest, fun chunk => absurd chunk other⟩

theorem Reassembling.announced (reassembling : Reassembling bridge) : Reassembling bridge.announced := by
  obtain ⟨rest, total⟩ := announced_lengths bridge
  have bound := leValue_lt (bridge.readBuf.load 1 2)
  rw [Memory.load_length] at bound
  have pointer : bridge.announced.tcpReadBufPointer.toNat = 2 := rfl
  exact ⟨reassembling.top, by omega, by omega, fun _ => by omega⟩

/-- A call in a state in which no body is being received, on a read that brought something. -/
theorem readSafe_front {bytes : Bytes} {value : UInt32} (before : Reassembling bridge)
    (reassembling : Reassembling after) (state : bridge.tcpRead ≠ .waitOnOnlyChunk)
    (read : pass.received = some bytes) :
    ReadSafe pass bridge (some value) after := by
  refine ⟨Option.some_ne_none value, fun _ other _ => ?_, fun chunk => absurd chunk state,
    ⟨reassembling.pointer, reassembling.rest⟩, fun failed => ?_⟩
  · have kept : (bridge.stored 0 (other.take 100)).readBuf 65538 = 0 :=
      before.kept 0 _ (by rw [List.length_take]; omega)
    exact Nat.lt_of_le_of_lt (Memory.cstring_ends kept (by decide) _) (by decide)
  · cases failed.symm.trans read

theorem readSafe_chunk {bytes : Bytes} (state : bridge.tcpRead = .waitOnOnlyChunk) (read : pass.received = some bytes)
    (inside : result ≠ none)
    (pointer : after.tcpReadBufPointer.toNat =
      bridge.tcpReadBufPointer.toNat + (bytes.take bridge.tcpRestLen.toNat).length)
    (rest : after.tcpRestLen.toNat + (bytes.take bridge.tcpRestLen.toNat).length = bridge.tcpRestLen.toNat ∨
      (bytes.take bridge.tcpRestLen.toNat).length = bridge.tcpRestLen.toNat)
    (bounded : after.tcpReadBufPointer.toNat ≤ 65537 ∧ after.tcpRestLen.toNat ≤ 65535) :
    ReadSafe pass bridge result after := by
  refine ⟨inside, fun start => ?_, fun _ other came => ?_, bounded, fun failed => ?_⟩
  · cases state.symm.trans start
  · cases read.symm.trans came
    exact ⟨pointer, rest⟩
  · cases failed.symm.trans read

/-- The pointer behind what was read: nothing is cut off. -/
theorem advanced_pointer (bytes : Bytes) (reassembling : Reassembling bridge)
    (state : bridge.tcpRead = .waitOnOnlyChunk) :
    (bytes.take bridge.tcpRestLen.toNat).length ≤ bridge.tcpRestLen.toNat ∧
      (bridge.advanced ((bytes.take bridge.tcpRestLen.toNat).length : Int)).tcpReadBufPointer.toNat =
        bridge.tcpReadBufPointer.toNat + (bytes.take bridge.tcpRestLen.toNat).length := by
  obtain ⟨least, whole, bound⟩ := reassembling.chunk state
  have count : (bytes.take bridge.tcpRestLen.toNat).length ≤ bridge.tcpRestLen.toNat := List.length_take_le _ _
  refine ⟨count, ?_⟩
  rw [Bridge.advanced, UInt32.toNat_add, toNat_ofInt (by omega)]
  omega

/-- What is left to read after it. -/
theorem advanced_rest (bytes : Bytes) (reassembling : Reassembling bridge) :
    (bridge.tcpRestLen - UInt32.ofInt ((bytes.take bridge.tcpRestLen.toNat).length : Int)).toNat =
      bridge.tcpRestLen.toNat - (bytes.take bridge.tcpRestLen.toNat).length := by
  have count : (bytes.take bridge.tcpRestLen.toNat).length ≤ bridge.tcpRestLen.toNat := List.length_take_le _ _
  have bound := reassembling.rest
  have length : (UInt32.ofInt ((bytes.take bridge.tcpRestLen.toNat).length : Int)).toNat =
      (bytes.take bridge.tcpRestLen.toNat).length := toNat_ofInt (by omega)
  rw [UInt32.toNat_sub_of_le _ _ (UInt32.le_iff_toNat_le.mpr (by omega)), length]

/-- A chunk that is complete has all the bytes that were left to read. -/
theorem complete_length {bytes : Bytes} (rest : bridge.tcpRestLen.toNat ≤ 65535)
    (complete : bridge.tcpRestLen = UInt32.ofInt ((bytes.take bridge.tcpRestLen.toNat).length : Int)) :
    (bytes.take bridge.tcpRestLen.toNat).length = bridge.tcpRestLen.toNat := by
  have count : (bytes.take bridge.tcpRestLen.toNat).length ≤ bridge.tcpRestLen.toNat := List.length_take_le _ _
  have value := congrArg UInt32.toNat complete
  rw [toNat_ofInt (by omega)] at value
  exact value.symm

theorem netRead_safe (read : NetRead pass bridge result after) (reassembling : Reassembling bridge)
    (between : pass.received = none → bridge.tcpRead = .waitOnLength) :
    ReadSafe pass bridge result after ∧ Reassembling after := by
  cases read with
  | idle state =>
      cases read : pass.received with
      | none => cases state.symm.trans (between read)
      | some bytes => exact ⟨readSafe_front reassembling reassembling (by simp [state]) read, reassembling⟩
  | startFailed state failed => cases state.symm.trans (between failed)
  | startEnded state ended =>
      have kept := reassembling.front (show ([] : Bytes).length ≤ 100 from Nat.zero_le _) reassembling.pointer
        (by simp [state] : bridge.tcpRead ≠ _)
      exact ⟨readSafe_front reassembling (kept _ _) (by simp [state]) ended, kept _ _⟩
  | @startFound bytes state read =>
      have kept := reassembling.front (List.length_take_le 100 bytes) reassembling.pointer
        (by decide : TcpState.waitOnLength ≠ _)
      exact ⟨readSafe_front reassembling (kept _ _) (by simp [state]) read, kept _ _⟩
  | @startMissed bytes state read =>
      have kept := reassembling.front (List.length_take_le 100 bytes) reassembling.pointer
        (by simp [state] : bridge.tcpRead ≠ _)
      exact ⟨readSafe_front reassembling (kept _ _) (by simp [state]) read, kept _ _⟩
  | lengthFailed state failed =>
      have other : bridge.tcpRead ≠ .waitOnOnlyChunk := by simp [state]
      refine ⟨⟨Option.some_ne_none _, ?_, fun chunk => absurd chunk other, ⟨Nat.zero_le _, reassembling.rest⟩, ?_⟩, ?_⟩
      · exact fun start => by simp [state] at start
      · refine fun _ => ⟨rfl, fun value returned => ?_⟩
        cases returned
        decide
      · exact ⟨reassembling.top, Nat.zero_le _, reassembling.rest, fun chunk => absurd chunk other⟩
  | @lengthShort bytes state read short =>
      have kept := reassembling.front (show bytes.length ≤ 100 by omega) (show (0 : UInt32).toNat ≤ 65537 by decide)
        (by simp [state] : bridge.tcpRead ≠ _)
      exact ⟨readSafe_front reassembling (kept _ _) (by simp [state]) read, kept _ _⟩
  | @length bytes state read complete =>
      have two : (bytes.take 2).length ≤ 100 := Nat.le_trans (List.length_take_le 2 bytes) (by decide)
      have kept := reassembling.front two reassembling.pointer (by simp [state] : bridge.tcpRead ≠ _)
        bridge.netConnection
      have announced := (kept (bridge.stored 0 (bytes.take 2)).log).announced
      exact ⟨readSafe_front reassembling announced (by simp [state]) read, announced⟩
  | chunkTooLarge state large =>
      obtain ⟨_, _, bound⟩ := reassembling.chunk state
      exact absurd large (chunk_small bound)
  | @chunkOutside bytes state read outside =>
      obtain ⟨_, whole, bound⟩ := reassembling.chunk state
      exact absurd outside (chunk_inside (by omega))
  | @chunkEnded bytes state read ended =>
      obtain ⟨least, whole, bound⟩ := reassembling.chunk state
      refine ⟨readSafe_chunk state read (Option.some_ne_none _) ?_ ?_ ?_, ?_⟩
      · rw [ended]
        rfl
      · rw [ended]
        exact Or.inl rfl
      · exact ⟨reassembling.pointer, reassembling.rest⟩
      · exact ⟨reassembling.kept _ [] (by rw [List.length_nil]; omega), reassembling.pointer, reassembling.rest,
          reassembling.chunk⟩
  | chunkDone state small call more complete =>
      obtain ⟨least, whole, bound⟩ := reassembling.chunk state
      rcases readSocket_returned call with ⟨failed, _⟩ | ⟨bytes, read, rfl, rfl⟩
      · cases state.symm.trans (between failed)
      · obtain ⟨count, pointer⟩ := advanced_pointer bytes reassembling state
        have all := complete_length reassembling.rest complete
        refine ⟨readSafe_chunk state read (Option.some_ne_none _) pointer (Or.inr all) ⟨?_, reassembling.rest⟩, ?_⟩
        · exact Nat.le_trans (Nat.le_of_eq pointer) (by omega)
        · exact ⟨reassembling.kept _ _ (by omega), Nat.le_trans (Nat.le_of_eq pointer) (by omega), reassembling.rest,
            fun other => by cases other⟩
  | chunkPart state small call more partly =>
      obtain ⟨least, whole, bound⟩ := reassembling.chunk state
      rcases readSocket_returned call with ⟨failed, _⟩ | ⟨bytes, read, rfl, rfl⟩
      · cases state.symm.trans (between failed)
      · obtain ⟨count, pointer⟩ := advanced_pointer bytes reassembling state
        have left := advanced_rest bytes reassembling
        have shorter := Nat.le_trans (Nat.le_of_eq left) (Nat.sub_le _ _)
        have ends := Nat.le_trans (Nat.le_of_eq pointer) (show _ ≤ 65537 by omega)
        have split := (congrArg₂ (· + ·) left (Eq.refl (bytes.take bridge.tcpRestLen.toNat).length)).trans
          (Nat.sub_add_cancel count)
        refine ⟨readSafe_chunk state read (Option.some_ne_none _) pointer (Or.inl split)
          ⟨ends, Nat.le_trans shorter reassembling.rest⟩, ?_⟩
        refine ⟨reassembling.kept _ _ (by omega), ends, Nat.le_trans shorter reassembling.rest,
          fun _ => ⟨?_, ?_, bound⟩⟩
        · exact Nat.le_trans least (Nat.le_trans (Nat.le_add_right _ _) (Nat.le_of_eq pointer.symm))
        · refine (congrArg₂ (· + ·) pointer left).trans ?_
          change bridge.tcpReadBufPointer.toNat + _ + (bridge.tcpRestLen.toNat - _) = bridge.tcpTotalLength.toNat
          omega

/-- A failure that is noticed leaves the bridge in the state it has between two packets. -/
theorem between_of_safe (connected : bridge.netConnection = .connected) (read : NetRead pass bridge result after)
    (safe : ReadSafe pass bridge result after) (failed : pass.received = none) : bridge.tcpRead = .waitOnLength := by
  have gone := (safe.failure failed).1
  cases read with
  | idle => cases connected.symm.trans gone
  | startFailed => exact absurd rfl safe.inside
  | startEnded _ ended => cases failed.symm.trans ended
  | startFound _ other => cases failed.symm.trans other
  | startMissed _ other => cases failed.symm.trans other
  | lengthFailed state => exact state
  | lengthShort state => exact state
  | length state => exact state
  | chunkTooLarge => exact absurd rfl safe.inside
  | chunkOutside => exact absurd rfl safe.inside
  | chunkEnded _ other => cases failed.symm.trans other
  | chunkDone _ _ call =>
      rcases readSocket_returned call with ⟨_, _, rfl⟩ | ⟨_, other, _⟩
      · cases connected.symm.trans gone
      · cases failed.symm.trans other
  | chunkPart _ _ call =>
      rcases readSocket_returned call with ⟨_, _, rfl⟩ | ⟨_, other, _⟩
      · cases connected.symm.trans gone
      · cases failed.symm.trans other

theorem Reassembling.same (reassembling : Reassembling bridge) (same : SameReader bridge after) :
    Reassembling after := by
  obtain ⟨_, tcpRead, pointer, total, restLen, readBuf, _⟩ := same
  obtain ⟨top, small, rest, chunk⟩ := reassembling
  rw [← readBuf] at top
  rw [← pointer] at small
  rw [← restLen] at rest
  rw [← tcpRead, ← pointer, ← restLen, ← total] at chunk
  exact ⟨top, small, rest, chunk⟩

theorem reassembling_handOver (reassembling : Reassembling bridge) (len : Int) :
    Reassembling (handOver pass len bridge).2 := by
  have kept : Reassembling (bridge.handed pass len) :=
    ⟨reassembling.top, reassembling.pointer, reassembling.rest, reassembling.chunk⟩
  rw [handOver_run]
  split
  · split
    · exact ⟨kept.top, kept.pointer, kept.rest, kept.chunk⟩
    · exact kept
  · exact reassembling

theorem reassembling_readSide (reassembling : Reassembling bridge) (connected : bridge.netConnection = .connected)
    (between : pass.readReady = true → pass.received = none → bridge.tcpRead = .waitOnLength) :
    Reassembling (readSide pass bridge).2 := by
  cases ready : pass.readReady with
  | false =>
      rw [readSide_idle ready]
      exact reassembling
  | true =>
      have read : NetRead pass bridge _ _ := cNetReadTcp_cases connected
      have kept := (netRead_safe read reassembling (between ready)).2
      rcases call : cNetReadTcp pass (UInt32.ofNat (bridgeBufSize - 1)) bridge with ⟨_ | value, read⟩
      · rw [call] at kept
        rw [readSide_died ready call]
        exact kept
      · rw [call] at kept
        rw [readSide_returned ready call]
        exact reassembling_handOver kept _

theorem pumpReply_step {pumped : Bridge} (run : pumpReply pass bridge = (some (), pumped)) :
    PumpStep pass bridge pumped := by
  have pumping := pumpReply_cases pass bridge
  rwa [Proc.Ends, run] at pumping

theorem PumpStep.whole {pumped : Bridge} (step : PumpStep pass bridge pumped) (drained : bridge.writeLen ≤ 0) :
    WholeReply pass.reply := by
  cases step with
  | busy more => omega
  | silent _ reply => exact reply ▸ Or.inl rfl
  | fresh _ reply _ header whole => exact reply ▸ Or.inr ⟨header, whole⟩

/-- The assertion holds of the replies that are whole, and of no others. -/
theorem pumpReply_survives (pass : Pass) (bridge : Bridge) :
    (∃ pumped, pumpReply pass bridge = (some (), pumped)) ↔ (bridge.writeLen ≤ 0 → WholeReply pass.reply) := by
  constructor
  · intro returned
    obtain ⟨pumped, run⟩ := returned
    exact (pumpReply_step run).whole
  · intro whole
    have pumping := pumpReply_cases pass bridge
    rcases run : pumpReply pass bridge with ⟨_ | _, pumped⟩
    · rw [Proc.Ends, run] at pumping
      refine absurd (whole (Int.not_lt.mp fun more => ?_)) pumping.2
      rw [pumpReply_run, if_neg (by omega)] at run
      cases run
    · exact ⟨pumped, rfl⟩

end Reading

/-- Whenever a pass comes to call `cNetReadTcp`, the call is safe. -/
def ReadsSafely (bridge : Bridge) (pass : Pass) : Prop :=
  bridge.netConnection = .connected → pass.readReady = true →
    ∀ pumped, pumpReply pass bridge = (some (), pumped) →
      ReadSafe pass pumped (cNetReadTcp pass (UInt32.ofNat (bridgeBufSize - 1)) pumped).1
        (cNetReadTcp pass (UInt32.ofNat (bridgeBufSize - 1)) pumped).2

/-- A `read` that fails finds the bridge between two packets, with no part of one received. -/
def FailsBetween (bridge : Bridge) (pass : Pass) : Prop :=
  bridge.netConnection = .connected → pass.readReady = true → (bridge.writeLen ≤ 0 → WholeReply pass.reply) →
    pass.received = none → bridge.tcpRead = .waitOnLength

section Runs

variable {pass : Pass} {bridge after : Bridge}

theorem readsSafely_iff (reassembling : Reassembling bridge) : ReadsSafely bridge pass ↔ FailsBetween bridge pass := by
  constructor
  · intro safe connected ready survives failed
    obtain ⟨pumped, run⟩ := (pumpReply_survives pass bridge).mpr survives
    have step := pumpReply_step run
    have pumpedConnected := step.connection.trans connected
    exact step.tcpRead.symm.trans
      (between_of_safe pumpedConnected (cNetReadTcp_cases pumpedConnected) (safe connected ready pumped run) failed)
  · intro between connected ready pumped run
    have step := pumpReply_step run
    have survives := (pumpReply_survives pass bridge).mp ⟨pumped, run⟩
    refine (netRead_safe (cNetReadTcp_cases (step.connection.trans connected)) (reassembling.same step.sameReader)
      fun failed => ?_).1
    exact step.tcpRead.trans (between connected ready survives failed)

theorem reassembling_bridgePass (goes : bridge.going = true) (reassembling : Reassembling bridge)
    (between : FailsBetween bridge pass) (run : bridgePass pass bridge = (some (), after)) : Reassembling after := by
  have ends : Proc.Ends (bridgePass pass) bridge (fun _ => Reassembling) fun _ => True := by
    refine bridgePass_ends goes (fun _ => ?_) fun connected => ?_
    · obtain ⟨top, pointer, rest, chunk⟩ := reassembling
      rw [Proc.Ends, awaitClient_run]
      cases pass.accepts with
      | true => exact ⟨top, pointer, rest, fun other => by cases other⟩
      | false =>
          cases pass.beaconFails with
          | true => exact ⟨top, pointer, rest, chunk⟩
          | false => exact ⟨top, pointer, rest, chunk⟩
    · refine Proc.ends_bind ((pumpReply_cases pass bridge).mono (fun _ _ => id) fun _ _ => trivial) ?_
      intro _ pumped step
      have same := step.sameReader
      have kept := reassembling_readSide (reassembling.same same) (same.connection.trans connected) fun ready failed =>
        same.tcpRead.trans (between connected ready step.whole failed)
      refine Proc.ends_bind ((Proc.ends_of_after kept).mono (fun _ _ => id) fun _ _ => trivial) ?_
      intro more read reassembling
      cases more with
      | false => exact reassembling
      | true =>
          rw [if_pos rfl]
          exact (Proc.ends_of_after (reassembling.same (sameReader_writeSide pass read))).mono (fun _ _ => id)
            fun _ _ => trivial
  rwa [Proc.Ends, run] at ends

theorem started_reassembling : Reassembling Bridge.started :=
  ⟨rfl, Nat.zero_le _, Nat.zero_le _, fun chunk => by cases chunk⟩

end Runs

theorem bridge_reads_safely_iff (coming : List Pass) :
    Along Bridge.going bridgePass ReadsSafely coming Bridge.started ↔
      Along Bridge.going bridgePass FailsBetween coming Bridge.started :=
  along_iff (fun _ _ _ reassembling => readsSafely_iff reassembling)
    (fun _ _ _ goes reassembling between run => reassembling_bridgePass goes reassembling between run)
    started_reassembling

/-- A client that is reset before it has asked for anything: `hexdump` gets `(unsigned) -1`. -/
theorem bridge_reads_reset :
    ¬ Along Bridge.going bridgePass ReadsSafely [{ accepts := true }, { readReady := true, received := none }]
      Bridge.started := by
  intro along
  have accepted : bridgePass { accepts := true } Bridge.started = (some (), Bridge.started.accepted) := rfl
  have safe := (((along rfl).2 _ accepted) rfl).1 rfl rfl (Bridge.started.accepted.filled (.received []) 0) rfl
  exact safe.inside rfl

/-- Whatever `ev3_read_timeout` returned, the pass gets past the assertion, and of a reply that is not all there
nothing is due to the client. -/
def SurvivesReply (bridge : Bridge) (pass : Pass) : Prop :=
  bridge.netConnection = .connected → ∃ pumped, pumpReply pass bridge = (some (), pumped) ∧
    (bridge.writeLen ≤ 0 → ¬ WholeReply pass.reply → pumped.writeLen ≤ 0)

/-- Every reply that is read is all there. -/
def RepliesWhole (bridge : Bridge) (pass : Pass) : Prop :=
  bridge.netConnection = .connected → bridge.writeLen ≤ 0 → WholeReply pass.reply

theorem bridge_survives_replies_iff (coming : List Pass) :
    Along Bridge.going bridgePass SurvivesReply coming Bridge.started ↔
      Along Bridge.going bridgePass RepliesWhole coming Bridge.started := by
  refine along_iff (fun bridge pass _ _ => ?_) (fun _ _ _ _ _ _ _ => trivial) trivial
  constructor
  · intro survives connected
    obtain ⟨pumped, run, _⟩ := survives connected
    exact (pumpReply_survives pass bridge).mp ⟨pumped, run⟩
  · intro whole connected
    obtain ⟨pumped, run⟩ := (pumpReply_survives pass bridge).mpr (whole connected)
    exact ⟨pumped, run, fun drained torn => absurd (whole connected drained) torn⟩

/-- A read that fails, and a frame of seven bytes of which five have come, end in the assertion. -/
theorem bridge_aborts :
    ¬ Along Bridge.going bridgePass SurvivesReply [{ accepts := true }, { reply := .failed [] }] Bridge.started ∧
    ¬ Along Bridge.going bridgePass SurvivesReply [{ accepts := true }, { reply := .received [5, 0, 0, 0, 3] }]
      Bridge.started := by
  have accepted : bridgePass { accepts := true } Bridge.started = (some (), Bridge.started.accepted) := rfl
  constructor
  · intro along
    obtain ⟨pumped, run, _⟩ := ((along rfl).2 _ accepted rfl).1 rfl
    cases run
  · intro along
    obtain ⟨pumped, run, _⟩ := ((along rfl).2 _ accepted rfl).1 rfl
    cases run

end Ev3duder
