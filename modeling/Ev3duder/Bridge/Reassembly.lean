import Ev3duder.Bridge.Resilience
import Ev3duder.Bridge.Unlock

namespace Ev3duder

open Data BridgeEvent

/-! # The frame that is being received

Its bytes are told from the log alone: a frame begins once the request is answered, and again once a packet was handed
over.
-/

/-- What an event makes of the bytes that were received of a frame. -/
def BridgeEvent.gather (bytes : Bytes) : BridgeEvent → Bytes
  | .received more => bytes ++ more
  | .unlocked => []
  | .packet .. => []
  | _ => bytes

/-- The bytes that were received so far of the current frame. -/
def frameBytes (log : List BridgeEvent) : Bytes := log.foldl gather []

/-- The state variables and the buffer agree about a frame of which the length is known. -/
structure Reassembled (bridge : Bridge) : Prop where
  begun : 2 ≤ bridge.tcpReadBufPointer.toNat
  whole : bridge.tcpReadBufPointer.toNat + bridge.tcpRestLen.toNat = bridge.tcpTotalLength.toNat
  fits : bridge.tcpTotalLength.toNat ≤ 65537
  received : bridge.readBuf.load 1 bridge.tcpReadBufPointer.toNat = frameBytes bridge.log
  announced : bridge.tcpTotalLength.toNat = leValue ((frameBytes bridge.log).take 2) + 2
  front : bridge.readBuf 0 = 0

/-- `assert(Length >= ..)`, in either of the two states that have one. -/
def AssertsLength (bridge : Bridge) (length : UInt32) : Prop :=
  (bridge.tcpRead = .waitOnLength → 2 ≤ length) ∧
    (bridge.tcpRead = .waitOnOnlyChunk → bridge.tcpTotalLength ≤ length)

/-- What a call of `cNetReadTcp` does about frames.  The count of a completed frame is the length that it announces and
the two bytes that announce it, and this many bytes of the buffer are the frame. -/
structure ReadsFrame (bridge : Bridge) (result : Option UInt32) (after : Bridge) : Prop where
  returns : result ≠ none
  goesOn : after.tcpRead = .waitOnOnlyChunk → Reassembled after
  completes : bridge.tcpRead = .waitOnOnlyChunk → after.tcpRead = .waitOnLength →
    ∃ count, result = some count ∧ count.toNat = leValue ((frameBytes after.log).take 2) + 2 ∧
      after.readBuf.load 1 count.toNat = frameBytes after.log

structure Gathering (bridge : Bridge) : Prop extends Reassembling bridge where
  received : bridge.tcpRead = .waitOnOnlyChunk →
    bridge.readBuf.load 1 bridge.tcpReadBufPointer.toNat = frameBytes bridge.log ∧
      bridge.tcpTotalLength.toNat = leValue ((frameBytes bridge.log).take 2) + 2
  between : bridge.netConnection = .connected → bridge.tcpRead = .waitOnLength → frameBytes bridge.log = []

section Gathering

variable {pass : Pass} {bridge after : Bridge} {result : Option UInt32}

theorem frameBytes_snoc (log : List BridgeEvent) (event : BridgeEvent) :
    frameBytes (log ++ [event]) = gather (frameBytes log) event := by
  simp [frameBytes]

theorem Gathering.reassembled (gathering : Gathering bridge) (front : bridge.readBuf 0 = 0)
    (state : bridge.tcpRead = .waitOnOnlyChunk) : Reassembled bridge := by
  obtain ⟨begun, whole, fits⟩ := gathering.chunk state
  obtain ⟨received, announced⟩ := gathering.received state
  exact ⟨begun, whole, fits, received, announced, front⟩

theorem Gathering.same (gathering : Gathering bridge) (same : SameReader bridge after)
    (frame : frameBytes after.log = frameBytes bridge.log) : Gathering after := by
  refine ⟨gathering.toReassembling.same same, fun state => ?_, fun connected state => ?_⟩
  · rw [same.readBuf, same.pointer, same.total, frame]
    exact gathering.received (same.tcpRead.symm.trans state)
  · rw [frame]
    exact gathering.between (same.connection.symm.trans connected) (same.tcpRead.symm.trans state)

/-- What a call leaves behind: a packet to hand over only where no part of a frame is left in the buffer. -/
structure Gathered (value : UInt32) (after : Bridge) : Prop extends Reassembling after where
  received : after.tcpRead = .waitOnOnlyChunk → value = 0 ∧
    after.readBuf.load 1 after.tcpReadBufPointer.toNat = frameBytes after.log ∧
      after.tcpTotalLength.toNat = leValue ((frameBytes after.log).take 2) + 2
  between : after.netConnection = .connected → after.tcpRead = .waitOnLength →
    0 < value.toInt32.toInt ∨ frameBytes after.log = []

theorem Gathering.gathered (gathering : Gathering bridge) : Gathered 0 bridge :=
  ⟨gathering.toReassembling, fun state => ⟨rfl, gathering.received state⟩,
    fun connected state => .inr (gathering.between connected state)⟩

/-- Where the call ends in another state than the two of a frame, or without a connection between frames. -/
theorem gathered_elsewhere {value : UInt32} (reassembling : Reassembling after)
    (elsewhere : after.tcpRead ≠ .waitOnOnlyChunk)
    (gone : after.netConnection ≠ .connected ∨ after.tcpRead ≠ .waitOnLength) : Gathered value after := by
  refine ⟨reassembling, fun state => absurd state elsewhere, fun connected state => ?_⟩
  rcases gone with gone | gone
  · exact absurd connected gone
  · exact absurd state gone

theorem frameBytes_stored (pointer : Nat) (bytes : Bytes) :
    frameBytes (bridge.stored pointer bytes).log = frameBytes bridge.log ++ bytes :=
  frameBytes_snoc bridge.log (.received bytes)

/-- The next read goes right behind the bytes that are already there, and leaves the length in front of them. -/
theorem gathered_chunk (gathering : Gathering bridge) (state : bridge.tcpRead = .waitOnOnlyChunk) (bytes : Bytes) :
    (bridge.stored bridge.tcpReadBufPointer.toNat bytes).readBuf.load 1
        (bridge.tcpReadBufPointer.toNat + bytes.length) = frameBytes bridge.log ++ bytes ∧
      bridge.tcpTotalLength.toNat = leValue ((frameBytes bridge.log ++ bytes).take 2) + 2 := by
  obtain ⟨received, announced⟩ := gathering.received state
  have length : (frameBytes bridge.log).length = bridge.tcpReadBufPointer.toNat := by
    rw [← received, Memory.load_length]
  have header : 2 ≤ (frameBytes bridge.log).length := by
    rw [length]
    exact (gathering.chunk state).1
  rw [← length] at received
  constructor
  · rw [← length, ← List.length_append]
    exact Memory.storeAt_behind received bytes
  · rwa [List.take_append_of_le_length header]

/-- A connection that ends within a frame leaves what there is of it. -/
theorem gathered_ended (gathering : Gathering bridge) (state : bridge.tcpRead = .waitOnOnlyChunk) :
    (bridge.stored bridge.tcpReadBufPointer.toNat []).dropped.readBuf.load 1 bridge.tcpReadBufPointer.toNat =
        frameBytes (bridge.stored bridge.tcpReadBufPointer.toNat []).dropped.log ∧
      bridge.tcpTotalLength.toNat =
        leValue ((frameBytes (bridge.stored bridge.tcpReadBufPointer.toNat []).dropped.log).take 2) + 2 := by
  have chunk := gathered_chunk gathering state []
  rw [← frameBytes_stored bridge.tcpReadBufPointer.toNat] at chunk
  have frame := frameBytes_snoc (bridge.stored bridge.tcpReadBufPointer.toNat []).log .closed
  change _ = frameBytes (bridge.stored bridge.tcpReadBufPointer.toNat []).log at frame
  refine ⟨chunk.1.trans frame.symm, chunk.2.trans ?_⟩
  exact congrArg (fun bytes => leValue (bytes.take 2) + 2) frame.symm

/-- The two bytes of the length are the first of a frame, and say how long it is. -/
theorem gathered_length {bytes : Bytes} (between : frameBytes bridge.log = []) (complete : 2 ≤ bytes.length) :
    (bridge.stored 0 (bytes.take 2)).announced.readBuf.load 1 2 =
        frameBytes (bridge.stored 0 (bytes.take 2)).announced.log ∧
      (bridge.stored 0 (bytes.take 2)).announced.tcpTotalLength.toNat =
        leValue ((frameBytes (bridge.stored 0 (bytes.take 2)).announced.log).take 2) + 2 := by
  have two : (bytes.take 2).length = 2 := List.length_take_of_le complete
  have loaded : (bridge.stored 0 (bytes.take 2)).readBuf.load 1 (bytes.take 2).length = bytes.take 2 :=
    Memory.storeAt_load
  have frame : frameBytes (bridge.stored 0 (bytes.take 2)).log = bytes.take 2 := by
    rw [frameBytes_stored, between, List.nil_append]
  have total := (announced_lengths (bridge.stored 0 (bytes.take 2))).2
  rw [two] at loaded
  rw [loaded] at total
  refine ⟨loaded.trans frame.symm, total.trans ?_⟩
  change _ = leValue ((frameBytes (bridge.stored 0 (bytes.take 2)).log).take 2) + 2
  rw [frame, List.take_of_length_le (Nat.le_of_eq two)]

theorem Gathering.asserts (gathering : Gathering bridge) :
    AssertsLength bridge (UInt32.ofNat (bridgeBufSize - 1)) := by
  refine ⟨fun _ => by decide, fun state => ?_⟩
  obtain ⟨_, _, bound⟩ := gathering.chunk state
  exact UInt32.not_lt.mp (chunk_small bound)

theorem netRead_gathered (read : NetRead pass bridge result after) (gathering : Gathering bridge)
    (connected : bridge.netConnection = .connected) (clean : .readFailed ∉ after.log) :
    ∃ value, result = some value ∧ Gathered value after ∧
      (bridge.tcpRead = .waitOnOnlyChunk → after.tcpRead = .waitOnLength →
        value.toNat = leValue ((frameBytes after.log).take 2) + 2 ∧
          after.readBuf.load 1 value.toNat = frameBytes after.log) := by
  have safe : ∀ bytes, pass.received = some bytes → ReadSafe pass bridge result after ∧ Reassembling after :=
    fun bytes came => netRead_safe read gathering.toReassembling fun failed => nomatch came.symm.trans failed
  cases read with
  | idle state => exact ⟨0, rfl, gathering.gathered, fun chunk => nomatch state.symm.trans chunk⟩
  | startFailed => exact absurd (List.mem_append_right _ (List.mem_singleton_self _)) clean
  | startEnded state ended =>
      refine ⟨0, rfl, gathered_elsewhere (safe _ ended).2 ?_ (.inl (by simp [Bridge.dropped])), ?_⟩
      · exact fun chunk => nomatch state.symm.trans chunk
      · exact fun chunk => nomatch state.symm.trans chunk
  | startFound state read =>
      refine ⟨0, rfl, ⟨(safe _ read).2, (fun chunk => nomatch chunk), fun _ _ => .inr (frameBytes_snoc _ _)⟩, ?_⟩
      exact fun chunk => nomatch state.symm.trans chunk
  | startMissed state read =>
      refine ⟨0, rfl, gathered_elsewhere (safe _ read).2 ?_ (.inr ?_), ?_⟩
      · exact fun chunk => nomatch state.symm.trans chunk
      · exact fun between => nomatch state.symm.trans between
      · exact fun chunk => nomatch state.symm.trans chunk
  | lengthFailed =>
      exact absurd (List.mem_append_left _ (List.mem_append_right _ (List.mem_singleton_self _))) clean
  | lengthShort state read =>
      refine ⟨_, rfl, gathered_elsewhere (safe _ read).2 ?_ (.inl (by simp [Bridge.dropped])), ?_⟩
      · exact fun chunk => nomatch state.symm.trans chunk
      · exact fun chunk => nomatch state.symm.trans chunk
  | @length bytes state read complete =>
      refine ⟨0, rfl, ⟨(safe _ read).2, fun _ => ⟨rfl, ?_⟩, fun _ between => nomatch between⟩, ?_⟩
      · exact gathered_length (gathering.between connected state) complete
      · exact fun chunk => nomatch state.symm.trans chunk
  | chunkTooLarge state large => exact absurd (gathering.asserts.2 state) (UInt32.not_le.mpr large)
  | chunkOutside state read => exact absurd rfl (safe _ read).1.inside
  | chunkEnded state read ended =>
      refine ⟨0, rfl, ⟨(safe _ read).2, fun _ => ⟨rfl, ?_⟩, fun _ between => nomatch state.symm.trans between⟩, ?_⟩
      · exact gathered_ended gathering state
      · exact fun _ between => nomatch state.symm.trans between
  | chunkDone state small call more complete =>
      rcases readSocket_returned call with ⟨_, _, rfl⟩ | ⟨bytes, came, rfl, rfl⟩
      · exact absurd (List.mem_append_right _ (List.mem_singleton_self _)) clean
      · have chunk := gathered_chunk gathering state (bytes.take bridge.tcpRestLen.toNat)
        obtain ⟨begun, whole, fits⟩ := gathering.chunk state
        have all := complete_length gathering.rest complete
        rw [all, whole, ← frameBytes_stored bridge.tcpReadBufPointer.toNat] at chunk
        refine ⟨_, rfl, ⟨(safe _ came).2, (fun state => nomatch state), fun _ _ => .inl ?_⟩,
          fun _ _ => ⟨chunk.2, chunk.1⟩⟩
        rw [signed_eq (by omega)]
        omega
  | chunkPart state small call more partly =>
      rcases readSocket_returned call with ⟨_, _, rfl⟩ | ⟨bytes, came, rfl, rfl⟩
      · exact absurd (List.mem_append_right _ (List.mem_singleton_self _)) clean
      · have chunk := gathered_chunk gathering state (bytes.take bridge.tcpRestLen.toNat)
        have pointer := (advanced_pointer bytes gathering.toReassembling state).2
        rw [← pointer, ← frameBytes_stored bridge.tcpReadBufPointer.toNat] at chunk
        exact ⟨0, rfl, ⟨(safe _ came).2, fun _ => ⟨rfl, chunk⟩, fun _ between => nomatch state.symm.trans between⟩,
          fun _ between => nomatch state.symm.trans between⟩

/-- While no read has failed. -/
def Gathers (bridge : Bridge) : Prop := .readFailed ∉ bridge.log → Gathering bridge

theorem Reads.grown (reads : Reads bridge after) : bridge.log <+: after.log := by
  obtain ⟨⟨events, logged, _⟩, _⟩ := reads
  exact ⟨events, logged.symm⟩

theorem netRead_grown (read : NetRead pass bridge result after) : bridge.log <+: after.log := by
  rcases netRead_reads read with reads | ⟨bytes, _, _, _, _, _, answered⟩
  · exact reads.grown
  · subst answered
    simp [Bridge.answered, Bridge.stored]

theorem gathered_handOver {value : UInt32} (gathered : Gathered value bridge) :
    Gathering (handOver pass value.toInt32.toInt bridge).2 := by
  have kept : Reassembling (handOver pass value.toInt32.toInt bridge).2 :=
    reassembling_handOver gathered.toReassembling _
  rw [handOver_run] at kept ⊢
  by_cases positive : 0 < value.toInt32.toInt
  · rw [if_pos positive] at kept ⊢
    have elsewhere : bridge.tcpRead ≠ .waitOnOnlyChunk := by
      intro state
      rw [(gathered.received state).1] at positive
      exact absurd positive (by decide)
    split at kept
    · rw [if_pos ‹_›]
      exact ⟨kept, fun state => absurd state elsewhere, fun connected => nomatch connected⟩
    · rw [if_neg ‹_›]
      exact ⟨kept, fun state => absurd state elsewhere, fun _ _ => frameBytes_snoc bridge.log _⟩
  · rw [if_neg positive]
    exact ⟨gathered.toReassembling, fun state => (gathered.received state).2,
      fun connected state => (gathered.between connected state).resolve_left positive⟩

theorem gathers_readSide (gathers : Gathers bridge) (connected : bridge.netConnection = .connected) :
    Gathers (readSide pass bridge).2 := by
  cases ready : pass.readReady with
  | false =>
      rw [readSide_idle ready]
      exact gathers
  | true =>
      have read : NetRead pass bridge _ _ := cNetReadTcp_cases connected
      rcases call : cNetReadTcp pass (UInt32.ofNat (bridgeBufSize - 1)) bridge with ⟨_ | value, middle⟩
      · rw [call] at read
        rw [readSide_died ready call]
        intro clean
        have before := gathers fun failed => clean ((netRead_grown read).subset failed)
        obtain ⟨_, returned, _⟩ := netRead_gathered read before connected clean
        cases returned
      · rw [call] at read
        rw [readSide_returned ready call]
        intro clean
        have still : .readFailed ∉ middle.log := fun failed => clean ((reads_handOver _).grown.subset failed)
        have before := gathers fun failed => still ((netRead_grown read).subset failed)
        obtain ⟨_, returned, gathered, _⟩ := netRead_gathered read before connected still
        cases returned
        exact gathered_handOver gathered

theorem frameBytes_quiet {log events : List BridgeEvent}
    (quiet : ∀ event ∈ events, ∀ bytes, gather bytes event = bytes) :
    frameBytes (log ++ events) = frameBytes log := by
  rw [frameBytes, frameBytes, List.foldl_append]
  generalize log.foldl gather [] = bytes
  induction events generalizing bytes with
  | nil => rfl
  | cons event events ih =>
      rw [List.foldl_cons, quiet event List.mem_cons_self]
      exact ih (fun other member => quiet other (List.mem_cons_of_mem _ member)) bytes

/-- What the other side of a pass does leaves the frame alone. -/
theorem Gathers.same (gathers : Gathers bridge) (same : SameReader bridge after)
    (quiet : ∃ events, after.log = bridge.log ++ events ∧ ∀ event ∈ events, ∀ bytes, gather bytes event = bytes) :
    Gathers after := by
  obtain ⟨events, logged, quiet⟩ := quiet
  intro clean
  rw [logged] at clean
  refine (gathers fun failed => clean (List.mem_append_left _ failed)).same same ?_
  rw [logged, frameBytes_quiet quiet]

theorem PumpStep.gathering (step : PumpStep pass bridge after) (gathering : Gathering bridge) : Gathering after := by
  rcases step.kept with same | ⟨len, filled, _⟩
  · rwa [same]
  · subst filled
    exact gathering.same (sameReader_filled bridge pass.reply len) (frameBytes_snoc bridge.log _)

theorem gathers_pumpReply (gathers : Gathers bridge) : Gathers (pumpReply pass bridge).2 := by
  rcases pumpReply_after pass bridge with same | ⟨len, filled⟩
  · rwa [same]
  · rw [filled]
    exact gathers.same (sameReader_filled bridge pass.reply len) ⟨[.reply pass.reply], rfl, by simp [gather]⟩

theorem gathers_writeSide (gathers : Gathers bridge) : Gathers (writeSide pass bridge).2 := by
  obtain ⟨events, len, pos, ends, known⟩ := writeSide_writes pass bridge
  refine gathers.same (sameReader_writeSide pass bridge) ⟨events, by rw [ends], ?_⟩
  intro event member bytes
  obtain ⟨_, _, wrote⟩ := known event member
  rw [wrote]
  rfl

theorem gathers_bridgePass (gathers : Gathers bridge) : Gathers (bridgePass pass bridge).2 := by
  cases state : bridge.netConnection with
  | notConnected =>
      rw [bridgePass_notConnected state, awaitClient_run]
      split
      · refine fun clean => ?_
        obtain ⟨top, pointer, rest, _⟩ := (gathers fun failed => clean (List.mem_append_left _ failed)).toReassembling
        exact ⟨⟨top, pointer, rest, fun chunk => nomatch chunk⟩, (fun chunk => nomatch chunk),
          fun _ between => nomatch between⟩
      · split
        · intro clean
          obtain ⟨kept, received, _⟩ := gathers clean
          exact ⟨⟨kept.top, kept.pointer, kept.rest, kept.chunk⟩, received,
            fun connected => absurd connected bridge.shut_unconnected⟩
        · exact gathers
  | connected =>
      rw [bridgePass_connected state]
      refine Proc.bind_keeps (gathers_pumpReply gathers) fun _ pumped run pumping => ?_
      have connected := (pumpReply_step run).connection.trans state
      refine Proc.bind_keeps (gathers_readSide pumping connected) fun more read _ reading => ?_
      cases more with
      | false => exact reading
      | true => exact gathers_writeSide reading
  | closed =>
      rw [bridgePass_closed state]
      exact gathers

theorem gathers_started : Gathers Bridge.started :=
  fun _ => ⟨started_reassembling, (fun state => nomatch state), fun connected => nomatch connected⟩

theorem gathers_bridgeLoop (coming : List Pass) : Gathers (bridgeLoop coming Bridge.started).2 := by
  have always : Along Bridge.going bridgePass (fun _ _ => True) coming Bridge.started :=
    along_of_forall fun _ _ _ => trivial
  exact passes_invariant (fun _ _ _ gathers _ => gathers_bridgePass gathers) gathers_started always

end Gathering

/-- In every state that is reached without a failing read, the buffer holds what was received of the frame; and so it
does behind the next call, which breaks no assertion. -/
theorem bridge_reassembles (coming : List Pass) (clean : .readFailed ∉ (bridgeLoop coming Bridge.started).2.log) :
    ((bridgeLoop coming Bridge.started).2.tcpRead = .waitOnOnlyChunk →
      Reassembled (bridgeLoop coming Bridge.started).2) ∧
    ∀ pass pumped, (bridgeLoop coming Bridge.started).2.netConnection = .connected →
      pumpReply pass (bridgeLoop coming Bridge.started).2 = (some (), pumped) →
      (pumped.tcpRead = .waitOnOnlyChunk → Reassembled pumped) ∧
      AssertsLength pumped (UInt32.ofNat (bridgeBufSize - 1)) ∧
      ∀ result after, cNetReadTcp pass (UInt32.ofNat (bridgeBufSize - 1)) pumped = (result, after) →
        .readFailed ∉ after.log → ReadsFrame pumped result after := by
  have front := bridgeLoop_front coming (show Bridge.started.readBuf 0 = 0 from rfl)
  have gathering := gathers_bridgeLoop coming clean
  generalize (bridgeLoop coming Bridge.started).2 = bridge at *
  refine ⟨gathering.reassembled front, fun pass pumped connected run => ?_⟩
  have step := pumpReply_step run
  have pumpedFront := (congrFun step.sameReader.readBuf 0).trans front
  have pumping := step.gathering gathering
  refine ⟨pumping.reassembled pumpedFront, pumping.asserts, fun result after call still => ?_⟩
  have read : NetRead pass pumped result after := by
    have cases : NetRead pass pumped _ _ := cNetReadTcp_cases (step.connection.trans connected)
    rwa [call] at cases
  obtain ⟨value, returned, gathered, completes⟩ := netRead_gathered read pumping (step.connection.trans connected) still
  subst returned
  refine ⟨Option.some_ne_none value, fun state => ?_, fun chunk between => ⟨value, rfl, completes chunk between⟩⟩
  obtain ⟨begun, whole, fits⟩ := gathered.chunk state
  obtain ⟨_, received, announced⟩ := gathered.received state
  exact ⟨begun, whole, fits, received, announced, (netRead_front read).trans pumpedFront⟩

/-- The client that is served has sent the length of a frame and one of its three bytes. -/
def frameBegun : List Pass :=
  servedClient ++ [{ readReady := true, received := some [3, 0] }, { readReady := true, received := some [7] }]

theorem bridge_reassembles_begun : Reassembled (bridgeLoop frameBegun Bridge.started).2 :=
  (bridge_reassembles frameBegun (by decide +kernel)).1 (by decide +kernel)

end Ev3duder
