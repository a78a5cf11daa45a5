import Ev3duder.Bridge.Steps

namespace Ev3duder

open Data

/-! # What the log of a bridge says about the connection it serves

A connection begins when its client is accepted; everything since then belongs to it.
-/

namespace BridgeEvent

def sinceAccepted (log : List BridgeEvent) : List BridgeEvent :=
  log.foldl (fun events event => if event = .accepted then [] else events ++ [event]) []

/-- Bytes from the client. -/
def incoming : BridgeEvent → Bytes
  | .received bytes => bytes
  | _ => []

/-- Bytes that went to the client. -/
def outgoing : BridgeEvent → Bytes
  | .wrote bytes res => bytes.take res.toNat
  | _ => []

/-- A reply without what lies behind its end. -/
def trimmed (data : Bytes) : Bytes := data.take (leValue (data.take 2) + 2)

/-- The reply that a read of the brick delivered. -/
def replied : BridgeEvent → List Bytes
  | .reply (.received data) => if data = [] then [] else [trimmed data]
  | _ => []

/-- The packet and the count of a call of `ev3_write`. -/
def handed : BridgeEvent → List (Bytes × Nat)
  | .packet buf count _ => [(buf, count)]
  | _ => []

end BridgeEvent

section History

open BridgeEvent

variable (log : List BridgeEvent)

/-- What the client of this connection sent, as far as it was read. -/
def delivered : Bytes := (sinceAccepted log).flatMap incoming

/-- What this connection's client was sent. -/
def outgoingBytes : Bytes := (sinceAccepted log).flatMap outgoing

def repliesDelivered : List Bytes := (sinceAccepted log).flatMap replied

/-- The calls of `ev3_write` during this connection. -/
def packetsHanded : List (Bytes × Nat) := (sinceAccepted log).flatMap handed

variable {log} {event : BridgeEvent}

@[simp] theorem sinceAccepted_accepted : sinceAccepted (log ++ [.accepted]) = [] := by
  simp [sinceAccepted]

theorem sinceAccepted_snoc (other : event ≠ .accepted) :
    sinceAccepted (log ++ [event]) = sinceAccepted log ++ [event] := by
  simp [sinceAccepted, other]

theorem sinceAccepted_append {events : List BridgeEvent} (others : ∀ event ∈ events, event ≠ .accepted) :
    sinceAccepted (log ++ events) = sinceAccepted log ++ events := by
  induction events generalizing log with
  | nil => simp
  | cons event rest ih =>
      have here := others event List.mem_cons_self
      have next := @ih (log ++ [event]) fun event member => others event (List.mem_cons_of_mem _ member)
      rw [List.append_assoc, List.singleton_append] at next
      rw [next, sinceAccepted_snoc here, List.append_assoc, List.singleton_append]

theorem delivered_snoc (other : event ≠ .accepted) :
    delivered (log ++ [event]) = delivered log ++ event.incoming := by
  simp [delivered, sinceAccepted_snoc other]

theorem outgoingBytes_snoc (other : event ≠ .accepted) :
    outgoingBytes (log ++ [event]) = outgoingBytes log ++ event.outgoing := by
  simp [outgoingBytes, sinceAccepted_snoc other]

theorem repliesDelivered_snoc (other : event ≠ .accepted) :
    repliesDelivered (log ++ [event]) = repliesDelivered log ++ event.replied := by
  simp [repliesDelivered, sinceAccepted_snoc other]

theorem packetsHanded_snoc (other : event ≠ .accepted) :
    packetsHanded (log ++ [event]) = packetsHanded log ++ event.handed := by
  simp [packetsHanded, sinceAccepted_snoc other]

end History

section Record

variable (bridge : Bridge)

@[simp] theorem delivered_stored (pointer : Nat) (bytes : Bytes) :
    delivered (bridge.stored pointer bytes).log = delivered bridge.log ++ bytes :=
  delivered_snoc (by simp)

@[simp] theorem packetsHanded_stored (pointer : Nat) (bytes : Bytes) :
    packetsHanded (bridge.stored pointer bytes).log = packetsHanded bridge.log := by
  refine (packetsHanded_snoc (by simp)).trans ?_
  simp [BridgeEvent.handed]

@[simp] theorem delivered_dropped : delivered bridge.dropped.log = delivered bridge.log := by
  refine (delivered_snoc (by simp)).trans ?_
  simp [BridgeEvent.incoming]

@[simp] theorem packetsHanded_dropped : packetsHanded bridge.dropped.log = packetsHanded bridge.log := by
  refine (packetsHanded_snoc (by simp)).trans ?_
  simp [BridgeEvent.handed]

@[simp] theorem delivered_answered (taken : Int) : delivered (bridge.answered taken).log = delivered bridge.log := by
  refine (delivered_snoc (by simp)).trans ?_
  rw [delivered_snoc (by simp)]
  simp [BridgeEvent.incoming]

@[simp] theorem packetsHanded_answered (taken : Int) :
    packetsHanded (bridge.answered taken).log = packetsHanded bridge.log := by
  refine (packetsHanded_snoc (by simp)).trans ?_
  rw [packetsHanded_snoc (by simp)]
  simp [BridgeEvent.handed]

@[simp] theorem delivered_handed (pass : Pass) (len : Int) :
    delivered (bridge.handed pass len).log = delivered bridge.log := by
  refine (delivered_snoc (by simp)).trans ?_
  simp [BridgeEvent.incoming]

@[simp] theorem packetsHanded_handed (pass : Pass) (len : Int) :
    packetsHanded (bridge.handed pass len).log =
      packetsHanded bridge.log ++ [(bridge.readBuf.load 0 (len + 1).toNat, (len + 1).toNat)] :=
  packetsHanded_snoc (by simp)

@[simp] theorem delivered_filled (reply : ReadResult) (len : Int) :
    delivered (bridge.filled reply len).log = delivered bridge.log := by
  refine (delivered_snoc (by simp)).trans ?_
  simp [BridgeEvent.incoming]

@[simp] theorem packetsHanded_filled (reply : ReadResult) (len : Int) :
    packetsHanded (bridge.filled reply len).log = packetsHanded bridge.log := by
  refine (packetsHanded_snoc (by simp)).trans ?_
  simp [BridgeEvent.handed]

@[simp] theorem delivered_accepted : delivered bridge.accepted.log = [] := by
  simp [delivered, Bridge.accepted]

@[simp] theorem packetsHanded_accepted : packetsHanded bridge.accepted.log = [] := by
  simp [packetsHanded, Bridge.accepted]

end Record

def Bridge.unlocked (bridge : Bridge) : Bool :=
  bridge.tcpRead = .waitOnLength ∨ bridge.tcpRead = .waitOnOnlyChunk

/-- An event of the read side of an unlocked connection. -/
def BridgeEvent.reading : BridgeEvent → Bool
  | .received _ => true
  | .readFailed => true
  | .packet .. => true
  | .closed => true
  | _ => false

/-- Something was read, or nothing, but no request was found; the connection may have been dropped. -/
structure Reads (before after : Bridge) : Prop where
  events : ∃ events, after.log = before.log ++ events ∧ ∀ event ∈ events, event.reading = true
  writeBuf : after.writeBuf = before.writeBuf
  writeLen : after.writeLen = before.writeLen
  writePos : after.writePos = before.writePos
  front : after.readBuf 0 = before.readBuf 0
  connection : after.netConnection = .connected →
    before.netConnection = .connected ∧ after.unlocked = before.unlocked ∧
      (before.tcpRead = .waitOnStart → after.tcpRead = .waitOnStart)

theorem Reads.refl (bridge : Bridge) : Reads bridge bridge :=
  ⟨⟨[], by simp, by simp⟩, rfl, rfl, rfl, rfl, fun connected => ⟨connected, rfl, id⟩⟩

theorem Reads.trans {first second third : Bridge} (head : Reads first second) (tail : Reads second third) :
    Reads first third := by
  obtain ⟨early, earlyLog, earlyReading⟩ := head.events
  obtain ⟨late, lateLog, lateReading⟩ := tail.events
  refine ⟨⟨early ++ late, by rw [lateLog, earlyLog, List.append_assoc], ?_⟩, tail.writeBuf.trans head.writeBuf,
    tail.writeLen.trans head.writeLen, tail.writePos.trans head.writePos, tail.front.trans head.front,
    fun connected => ?_⟩
  · intro event member
    rcases List.mem_append.mp member with member | member
    · exact earlyReading event member
    · exact lateReading event member
  · obtain ⟨middle, same, waits⟩ := tail.connection connected
    obtain ⟨begun, before, waited⟩ := head.connection middle
    exact ⟨begun, same.trans before, fun waiting => waits (waited waiting)⟩

section Reads

variable {pass : Pass} {bridge after : Bridge}

theorem reads_logged {events : List BridgeEvent} (reading : ∀ event ∈ events, event.reading = true) :
    Reads bridge (bridge.logged events) :=
  ⟨⟨events, rfl, reading⟩, rfl, rfl, rfl, rfl, fun connected => ⟨connected, rfl, id⟩⟩

theorem reads_stored (pointer : Nat) (bytes : Bytes) : Reads bridge (bridge.stored pointer bytes) :=
  ⟨⟨[.received bytes], rfl, by simp [BridgeEvent.reading]⟩, rfl, rfl, rfl,
    Memory.storeAt_before bytes (by omega), fun connected => ⟨connected, rfl, id⟩⟩

theorem reads_dropped : Reads bridge bridge.dropped :=
  ⟨⟨[.closed], rfl, by simp [BridgeEvent.reading]⟩, rfl, rfl, rfl, rfl, fun connected => nomatch connected⟩

theorem reads_cleared : Reads bridge { bridge with tcpReadBufPointer := 0 } :=
  ⟨⟨[], by simp, by simp⟩, rfl, rfl, rfl, rfl, fun connected => ⟨connected, rfl, id⟩⟩

theorem reads_readSocket {received : Option Bytes} {pointer : UInt32} {count : Nat} {dataRead : Int}
    (call : readSocket received pointer count bridge = (some dataRead, after)) : Reads bridge after := by
  rcases readSocket_returned call with ⟨_, _, rfl⟩ | ⟨bytes, _, _, rfl⟩
  · exact reads_logged (by simp [BridgeEvent.reading])
  · exact reads_stored _ _

theorem unlocked_length (state : bridge.tcpRead = .waitOnLength) : bridge.unlocked = true := by
  simp [Bridge.unlocked, state]

theorem unlocked_chunk (state : bridge.tcpRead = .waitOnOnlyChunk) : bridge.unlocked = true := by
  simp [Bridge.unlocked, state]

theorem netRead_reads {result : Option UInt32} (read : NetRead pass bridge result after) :
    Reads bridge after ∨ ∃ bytes, bridge.tcpRead = .waitOnStart ∧ pass.received = some bytes ∧ bytes ≠ [] ∧
      strstr (bridge.stored 0 (bytes.take 100)).buffered requestText = true ∧ result = some 0 ∧
      after = (bridge.stored 0 (bytes.take 100)).answered pass.answerTaken := by
  cases read with
  | idle => exact Or.inl (Reads.refl bridge)
  | startFailed => exact Or.inl (reads_logged (by simp [BridgeEvent.reading]))
  | startEnded => exact Or.inl ((reads_stored 0 []).trans reads_dropped)
  | startMissed => exact Or.inl (reads_stored 0 _)
  | startFound state received more found => exact Or.inr ⟨_, state, received, more, found, rfl, rfl⟩
  | lengthFailed =>
      exact Or.inl (reads_cleared.trans ((reads_logged (by simp [BridgeEvent.reading])).trans reads_dropped))
  | lengthShort => exact Or.inl (reads_cleared.trans ((reads_stored 0 _).trans reads_dropped))
  | length state =>
      rename_i bytes _ _
      refine Or.inl ((reads_stored 0 (bytes.take 2)).trans
        ⟨⟨[], by simp [Bridge.announced], by simp⟩, rfl, rfl, rfl, rfl, fun connected => ⟨connected, ?_, ?_⟩⟩)
      · rw [unlocked_chunk rfl]
        exact (unlocked_length state).symm
      · intro waiting
        cases state.symm.trans waiting
  | chunkTooLarge => exact Or.inl (Reads.refl bridge)
  | chunkOutside => exact Or.inl (Reads.refl bridge)
  | chunkEnded => exact Or.inl ((reads_stored _ []).trans reads_dropped)
  | chunkDone state small call =>
      obtain ⟨events, buf, len, pos, front, connection⟩ := reads_readSocket call
      refine Or.inl ⟨events, buf, len, pos, front, fun connected => ⟨(connection connected).1, ?_, ?_⟩⟩
      · rw [unlocked_chunk state]
        exact unlocked_length rfl
      · intro waiting
        cases state.symm.trans waiting
  | chunkPart state small call =>
      obtain ⟨events, buf, len, pos, front, connection⟩ := reads_readSocket call
      exact Or.inl ⟨events, buf, len, pos, front, connection⟩

theorem reads_handOver (len : Int) : Reads bridge (handOver pass len bridge).2 := by
  have handed : Reads bridge (bridge.handed pass len) := reads_logged (by simp [BridgeEvent.reading])
  rw [handOver_run]
  split
  · split
    · exact handed.trans reads_dropped
    · exact handed
  · exact Reads.refl bridge

theorem readSide_start (pass : Pass) (state : bridge.tcpRead = .waitOnStart)
    (connected : bridge.netConnection = .connected) :
    (pass.readReady = false ∧ readSide pass bridge = (some true, bridge)) ∨
      (readSide pass bridge).1 = none ∨
      (readSide pass bridge).2.netConnection = .notConnected ∨
      ∃ bytes, pass.readReady = true ∧ pass.received = some bytes ∧ bytes ≠ [] ∧
        readSide pass bridge = (some true,
          if strstr (bridge.stored 0 (bytes.take 100)).buffered requestText then
            (bridge.stored 0 (bytes.take 100)).answered pass.answerTaken
          else bridge.stored 0 (bytes.take 100)) := by
  cases ready : pass.readReady with
  | false => exact Or.inl ⟨rfl, readSide_idle ready⟩
  | true =>
      have read : NetRead pass bridge _ _ := cNetReadTcp_cases connected
      rcases call : cNetReadTcp pass (UInt32.ofNat (bridgeBufSize - 1)) bridge with ⟨_ | len, after⟩
      · rw [readSide_died ready call]
        exact Or.inr (Or.inl rfl)
      · rw [call] at read
        rw [readSide_returned ready call]
        refine Or.inr (Or.inr ?_)
        cases read with
        | startEnded => exact Or.inl rfl
        | startFound _ received more found =>
            refine Or.inr ⟨_, rfl, received, more, ?_⟩
            rw [if_pos found]
            rfl
        | startMissed _ received more missed =>
            refine Or.inr ⟨_, rfl, received, more, ?_⟩
            rw [if_neg (by rw [missed]; decide)]
            rfl
        | idle other => cases state.symm.trans other
        | lengthFailed other => cases state.symm.trans other
        | lengthShort other => cases state.symm.trans other
        | length other => cases state.symm.trans other
        | chunkEnded other => cases state.symm.trans other
        | chunkDone other => cases state.symm.trans other
        | chunkPart other => cases state.symm.trans other

/-- The read side of a pass: what it did is reading, or it found the request. -/
theorem readSide_reads (connected : bridge.netConnection = .connected) :
    Reads bridge (readSide pass bridge).2 ∨ ∃ bytes, bridge.tcpRead = .waitOnStart ∧ pass.readReady = true ∧
      pass.received = some bytes ∧ bytes ≠ [] ∧
      strstr (bridge.stored 0 (bytes.take 100)).buffered requestText = true ∧
      readSide pass bridge = (some true, (bridge.stored 0 (bytes.take 100)).answered pass.answerTaken) := by
  cases ready : pass.readReady with
  | false =>
      rw [readSide_idle ready]
      exact Or.inl (Reads.refl bridge)
  | true =>
      have read : NetRead pass bridge _ _ := cNetReadTcp_cases connected
      rcases call : cNetReadTcp pass (UInt32.ofNat (bridgeBufSize - 1)) bridge with ⟨_ | len, after⟩
      · rw [call] at read
        rw [readSide_died ready call]
        rcases netRead_reads read with reads | ⟨_, _, _, _, _, returned, _⟩
        · exact Or.inl reads
        · cases returned
      · rw [call] at read
        rw [readSide_returned ready call]
        rcases netRead_reads read with reads | ⟨bytes, state, received, more, found, returned, answered⟩
        · exact Or.inl (reads.trans (reads_handOver _))
        · cases returned
          subst answered
          exact Or.inr ⟨bytes, state, rfl, received, more, found, rfl⟩

end Reads

end Ev3duder
