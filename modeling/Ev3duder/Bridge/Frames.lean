import Ev3duder.Bridge.History
import Ev3duder.Data.Framing

namespace Ev3duder

open Data BridgeEvent

/-! # From the client to the brick

TCP may cut what a client sends anywhere.  The body of a frame is put together from as many reads as it takes; its
length is not, and neither is the request.
-/

/-- What one client sends: a request line, and frames once it is answered. -/
structure BridgeClient where
  request : Bytes
  frames : List Bytes
  line : request.length ≤ 100
  asks : requestText <:+: request
  framed : ∀ frame ∈ frames, Framed frame ∧ 2 < frame.length

namespace BridgeClient

def stream (client : BridgeClient) : Bytes := client.request ++ client.frames.flatten

/-- No other client connects, no read fails, and no frame is sent before the answer. -/
structure Sends (client : BridgeClient) (bridge : Bridge) (pass : Pass) : Prop where
  alone : pass.accepts = false
  reads : pass.readReady = true → pass.received ≠ none
  asksFirst : bridge.netConnection = .connected → bridge.tcpRead = .waitOnStart → pass.readReady = true →
    ∀ bytes, pass.received = some bytes → delivered bridge.log ++ bytes.take 100 <+: client.request

/-- The read that completes the request finds it and no earlier one does, and the two bytes of a length come
together. -/
structure ReadsWhole (client : BridgeClient) (bridge : Bridge) (pass : Pass) : Prop where
  request : bridge.netConnection = .connected → bridge.tcpRead = .waitOnStart → pass.readReady = true →
    ∀ bytes, pass.received = some bytes → bytes ≠ [] →
      (strstr (bridge.stored 0 (bytes.take 100)).buffered requestText = true ↔
        delivered bridge.log ++ bytes.take 100 = client.request)
  header : bridge.netConnection = .connected → bridge.tcpRead = .waitOnLength → pass.readReady = true →
    ∀ bytes, pass.received = some bytes → bytes.length ≠ 1

def Meets (client : BridgeClient) (bridge : Bridge) (pass : Pass) : Prop :=
  client.Sends bridge pass ∧ client.ReadsWhole bridge pass

end BridgeClient

/-- What `ev3_write` gets for a frame: in front of it the zero byte of the HID layer. -/
def handedPacket (frame : Bytes) : Bytes × Nat := (0 :: frame, frame.length + 1)

/-- The frames that the client's connection delivered whole are what the brick got, in order and one at a time. -/
def HandedOver (client : BridgeClient) (log : List BridgeEvent) : Prop :=
  packetsHanded log =
    (framesWithin client.frames ((delivered log).length - client.request.length)).map handedPacket

/-- Where in the client's stream the read side is. -/
inductive Receiving (client : BridgeClient) (bridge : Bridge) : Prop where
  | request (state : bridge.tcpRead = .waitOnStart) (part : delivered bridge.log <+: client.request)
      (packets : packetsHanded bridge.log = [])
  | between {done rest : List Bytes} (state : bridge.tcpRead = .waitOnLength) (frames : client.frames = done ++ rest)
      (stream : delivered bridge.log = client.request ++ done.flatten)
      (packets : packetsHanded bridge.log = done.map handedPacket)
  | inside {done rest : List Bytes} {part left : Bytes} (state : bridge.tcpRead = .waitOnOnlyChunk)
      (frames : client.frames = done ++ (part ++ left) :: rest) (more : left ≠ [])
      (stream : delivered bridge.log = client.request ++ done.flatten ++ part)
      (packets : packetsHanded bridge.log = done.map handedPacket)
      (buffered : bridge.readBuf.load 1 part.length = part)
      (pointer : bridge.tcpReadBufPointer.toNat = part.length)
      (total : bridge.tcpTotalLength.toNat = (part ++ left).length)
      (restLen : bridge.tcpRestLen.toNat = left.length) : Receiving client bridge

section Frames

variable {client : BridgeClient} {pass : Pass} {bridge after : Bridge} {frame : Bytes}

theorem handedOver_done {log : List BridgeEvent} {done rest : List Bytes} (frames : client.frames = done ++ rest)
    (stream : delivered log = client.request ++ done.flatten) (packets : packetsHanded log = done.map handedPacket) :
    HandedOver client log := by
  have within := framesWithin_append done rest 0
  have nothing : framesWithin rest 0 = [] := by
    cases rest with
    | nil => rfl
    | cons frame rest =>
        have positive := (client.framed frame (by simp [frames])).2
        exact framesWithin_short (by omega)
  rw [nothing, List.append_nil, Nat.add_zero] at within
  rw [HandedOver, stream, List.length_append, Nat.add_sub_cancel_left, frames, within, packets]

theorem Receiving.handedOver (receiving : Receiving client bridge) : HandedOver client bridge.log := by
  cases receiving with
  | request state part packets =>
      have short : (delivered bridge.log).length - client.request.length = 0 := by
        have bound := part.length_le
        omega
      rw [HandedOver, short, packets]
      cases frames : client.frames with
      | nil => rfl
      | cons frame rest =>
          have positive := (client.framed frame (by simp [frames])).2
          rw [framesWithin_short (by omega)]
          rfl
  | between state frames stream packets => exact handedOver_done frames stream packets
  | inside state frames more stream packets =>
      rename_i done rest part left _ _ _ _
      have positive := List.length_pos_iff.mpr more
      have short : framesWithin ((part ++ left) :: rest) part.length = [] := by
        apply framesWithin_short
        rw [List.length_append]
        omega
      rw [HandedOver, stream, List.length_append, List.length_append, Nat.add_assoc, Nat.add_sub_cancel_left, frames,
        framesWithin_append, short, List.append_nil, packets]

/-- A frame is whole in the buffer and the brick has not got it yet. -/
structure Complete (client : BridgeClient) (bridge : Bridge) (frame : Bytes) : Prop where
  state : bridge.tcpRead = .waitOnLength
  connected : bridge.netConnection = .connected
  split : ∃ done rest, client.frames = done ++ frame :: rest ∧
    delivered bridge.log = client.request ++ done.flatten ++ frame ∧
    packetsHanded bridge.log = done.map handedPacket
  buffered : bridge.readBuf.load 1 frame.length = frame
  total : bridge.tcpTotalLength.toNat = frame.length

theorem frame_length_bound (member : frame ∈ client.frames) : 2 < frame.length ∧ frame.length ≤ 65537 := by
  obtain ⟨⟨header, length⟩, positive⟩ := client.framed frame member
  have bound := leValue_lt (frame.take 2)
  rw [List.length_take, Nat.min_eq_left header] at bound
  omega

theorem announced_lengths (bridge : Bridge) :
    bridge.announced.tcpRestLen.toNat = leValue (bridge.readBuf.load 1 2) ∧
      bridge.announced.tcpTotalLength.toNat = leValue (bridge.readBuf.load 1 2) + 2 := by
  have low := (bridge.readBuf 1).toNat_lt
  have high := (bridge.readBuf 2).toNat_lt
  have value : leValue (bridge.readBuf.load 1 2) = (bridge.readBuf 1).toNat + (bridge.readBuf 2).toNat * 256 := by
    change (bridge.readBuf 1).toNat + 256 * ((bridge.readBuf 2).toNat + 256 * 0) = _
    omega
  have rest : bridge.announced.tcpRestLen.toNat = leValue (bridge.readBuf.load 1 2) := by
    rw [value, Bridge.announced, UInt32.toNat_ofNat']
    omega
  have two : (2 : UInt32).toNat = 2 := rfl
  refine ⟨rest, ?_⟩
  change (bridge.announced.tcpRestLen + 2).toNat = _
  rw [UInt32.toNat_add, rest, value, two]
  omega

theorem ahead_begins {done rest : List Bytes} {bytes : Bytes} (frames : client.frames = done ++ rest)
    (stream : client.request ++ done.flatten ++ bytes <+: client.stream) : bytes <+: rest.flatten := by
  rwa [BridgeClient.stream, frames, List.flatten_append, ← List.append_assoc, List.prefix_append_right_inj] at stream

theorem Receiving.unanswered (receiving : Receiving client bridge) (state : bridge.tcpRead = .waitOnStart) :
    packetsHanded bridge.log = [] := by
  cases receiving with
  | request _ _ packets => exact packets
  | between other => cases state.symm.trans other
  | inside other => cases state.symm.trans other

/-- The line that completes the request is answered. -/
theorem receiving_answered {line : Bytes} (receiving : Receiving client bridge) (state : bridge.tcpRead = .waitOnStart)
    (request : delivered bridge.log ++ line = client.request) (taken : Int) :
    Receiving client ((bridge.stored 0 line).answered taken) := by
  refine .between rfl (List.nil_append _).symm ?_ ?_
  · rw [delivered_answered, delivered_stored, request, List.flatten_nil, List.append_nil]
  · rw [packetsHanded_answered, packetsHanded_stored, receiving.unanswered state, List.map_nil]

theorem receiving_asked {line : Bytes} (receiving : Receiving client bridge) (state : bridge.tcpRead = .waitOnStart)
    (part : delivered bridge.log ++ line <+: client.request) : Receiving client (bridge.stored 0 line) := by
  refine .request state ?_ ?_
  · rwa [delivered_stored]
  · rw [packetsHanded_stored, receiving.unanswered state]

/-- The two bytes of a length begin the next frame. -/
theorem receiving_length {bytes : Bytes} (two : bytes.length = 2) (receiving : Receiving client bridge)
    (state : bridge.tcpRead = .waitOnLength) (stream : delivered bridge.log ++ bytes <+: client.stream) :
    Receiving client (bridge.stored 0 bytes).announced := by
  cases receiving with
  | request other => cases state.symm.trans other
  | inside other => cases state.symm.trans other
  | @between done rest _ frames before packets =>
      rw [before] at stream
      have ahead := ahead_begins frames stream
      cases rest with
      | nil =>
          have short := ahead.length_le
          simp [two] at short
      | cons frame rest =>
          have member : frame ∈ client.frames := by simp [frames]
          obtain ⟨bound, limit⟩ := frame_length_bound member
          have front : frame.take 2 = bytes := by
            rw [List.flatten_cons, List.prefix_iff_eq_take, two, List.take_append_of_le_length (by omega)] at ahead
            exact ahead.symm
          have whole : bytes ++ frame.drop 2 = frame := by rw [← front, List.take_append_drop]
          have loaded : (bridge.stored 0 bytes).readBuf.load 1 bytes.length = bytes := Memory.storeAt_load
          have length := (client.framed frame member).1.2
          obtain ⟨restLen, total⟩ := announced_lengths (bridge.stored 0 bytes)
          rw [two] at loaded
          rw [loaded] at restLen total
          have split : client.frames = done ++ (bytes ++ frame.drop 2) :: rest := by rw [whole, frames]
          have more : frame.drop 2 ≠ [] := by
            apply List.length_pos_iff.mp
            rw [List.length_drop]
            omega
          refine .inside rfl split more ?_ ?_ ?_ two.symm ?_ ?_
          · change delivered (bridge.stored 0 bytes).log = _
            rw [delivered_stored, before]
          · change packetsHanded (bridge.stored 0 bytes).log = _
            rw [packetsHanded_stored, packets]
          · rw [two]
            exact loaded
          · rw [total, whole, ← front, length]
          · rw [restLen, List.length_drop, ← front]
            omega

theorem receiving_chunk {bytes : Bytes} {count : Int} (receiving : Receiving client bridge)
    (connected : bridge.netConnection = .connected) (state : bridge.tcpRead = .waitOnOnlyChunk)
    (asked : bytes.length ≤ bridge.tcpRestLen.toNat) (length : count = bytes.length)
    (stream : delivered bridge.log ++ bytes <+: client.stream) :
    (bridge.tcpRestLen = UInt32.ofInt count → ∃ frame ∈ client.frames,
      Complete client
        { (bridge.stored bridge.tcpReadBufPointer.toNat bytes).advanced count with tcpRead := .waitOnLength } frame) ∧
    (bridge.tcpRestLen ≠ UInt32.ofInt count →
      Receiving client
        { (bridge.stored bridge.tcpReadBufPointer.toNat bytes).advanced count with
          tcpRestLen := bridge.tcpRestLen - UInt32.ofInt count }) := by
  cases receiving with
  | request other => cases state.symm.trans other
  | between other => cases state.symm.trans other
  | @inside done rest part left _ frames more before packets buffered pointer total restLen =>
      have member : part ++ left ∈ client.frames := by simp [frames]
      obtain ⟨_, limit⟩ := frame_length_bound member
      have small : part.length + left.length ≤ 65537 := by rwa [List.length_append] at limit
      have number : (UInt32.ofInt count).toNat = bytes.length := by
        rw [length, toNat_ofInt (by omega)]
      have now : delivered bridge.log ++ bytes = client.request ++ done.flatten ++ (part ++ bytes) := by
        rw [before, List.append_assoc]
      have ahead : bytes <+: left ++ rest.flatten := by
        rw [now] at stream
        have ahead := ahead_begins frames stream
        rwa [List.flatten_cons, List.append_assoc, List.prefix_append_right_inj] at ahead
      have among : bytes = left.take bytes.length := by
        rw [List.prefix_iff_eq_take, List.take_append_of_le_length (by omega)] at ahead
        exact ahead
      have loaded : (bridge.stored bridge.tcpReadBufPointer.toNat bytes).readBuf.load 1 (part ++ bytes).length =
          part ++ bytes := by
        rw [Bridge.stored, pointer]
        exact Memory.storeAt_behind buffered bytes
      have moved : (bridge.tcpReadBufPointer + UInt32.ofInt count).toNat = (part ++ bytes).length := by
        rw [UInt32.toNat_add, pointer, number, List.length_append]
        omega
      have stored : packetsHanded (bridge.stored bridge.tcpReadBufPointer.toNat bytes).log =
          done.map handedPacket := by
        rw [packetsHanded_stored, packets]
      have log : delivered (bridge.stored bridge.tcpReadBufPointer.toNat bytes).log =
          client.request ++ done.flatten ++ (part ++ bytes) := by
        rw [delivered_stored, now]
      constructor
      · intro complete
        have full : bytes.length = left.length := by rw [← number, ← complete, restLen]
        have whole : bytes = left := by rw [among, full, List.take_length]
        subst whole
        exact ⟨part ++ bytes, member, rfl, connected, ⟨done, rest, frames, log, stored⟩, loaded, total⟩
      · intro partly
        have short : bytes.length < left.length := by
          have differs : bytes.length ≠ left.length := fun same => partly (UInt32.toNat_inj.mp (by omega))
          omega
        have split : left = bytes ++ left.drop bytes.length := by
          rw [among, List.length_take, Nat.min_eq_left (by omega), List.take_append_drop]
        have whole : part ++ left = part ++ bytes ++ left.drop bytes.length := by rw [List.append_assoc, ← split]
        have remains : left.drop bytes.length ≠ [] := by
          apply List.length_pos_iff.mp
          rw [List.length_drop]
          omega
        rw [whole] at frames total
        refine .inside state frames remains log stored loaded moved total ?_
        change (bridge.tcpRestLen - UInt32.ofInt count).toNat = _
        rw [UInt32.toNat_sub_of_le _ _ (by rw [UInt32.le_iff_toNat_le]; omega), restLen, number, List.length_drop]

theorem complete_handed (complete : Complete client bridge frame) (member : frame ∈ client.frames)
    (zero : bridge.readBuf 0 = 0) (pass : Pass) :
    Receiving client (bridge.handed pass bridge.tcpTotalLength.toInt32.toInt) := by
  obtain ⟨state, _, ⟨done, rest, frames, stream, packets⟩, buffered, total⟩ := complete
  obtain ⟨_, limit⟩ := frame_length_bound member
  have len : bridge.tcpTotalLength.toInt32.toInt = frame.length := by
    rw [signed_eq (by omega), total]
  have count : ((frame.length : Int) + 1).toNat = frame.length + 1 := by omega
  have split : client.frames = (done ++ [frame]) ++ rest := by simp [frames]
  refine .between state split ?_ ?_
  · rw [delivered_handed, stream]
    simp
  · rw [packetsHanded_handed, packets, len, count, Memory.load_succ, zero, buffered]
    simp [handedPacket]

/-- What was delivered is the client's, then the brick has the frames in it. -/
def HandsFrames (client : BridgeClient) (log : List BridgeEvent) : Prop :=
  delivered log <+: client.stream → HandedOver client log

def Received (client : BridgeClient) (bridge : Bridge) : Prop :=
  delivered bridge.log <+: client.stream →
    HandedOver client bridge.log ∧ (bridge.netConnection = .connected → Receiving client bridge)

theorem Received.hands (received : Received client bridge) : HandsFrames client bridge.log :=
  fun stream => (received stream).1

theorem received_of (receiving : delivered bridge.log <+: client.stream → Receiving client bridge) :
    Received client bridge :=
  fun stream => ⟨(receiving stream).handedOver, fun _ => receiving stream⟩

theorem received_dropped (hands : HandsFrames client bridge.log) : Received client bridge.dropped := by
  intro stream
  rw [delivered_dropped] at stream
  refine ⟨?_, fun connected => nomatch connected⟩
  rw [HandedOver, delivered_dropped, packetsHanded_dropped]
  exact hands stream

/-- The end of the stream. -/
theorem received_ended (hands : HandsFrames client bridge.log) (pointer : Nat) :
    Received client (bridge.stored pointer []).dropped := by
  apply received_dropped
  intro stream
  rw [delivered_stored, List.append_nil] at stream
  rw [HandedOver, delivered_stored, packetsHanded_stored, List.append_nil]
  exact hands stream

theorem received_handOver (pass : Pass)
    (complete : delivered bridge.log <+: client.stream → ∃ frame ∈ client.frames, Complete client bridge frame)
    (zero : bridge.readBuf 0 = 0) :
    Proc.Ends (handOver pass bridge.tcpTotalLength.toInt32.toInt) bridge (fun _ => Received client) fun _ => False := by
  have handed : 0 < bridge.tcpTotalLength.toInt32.toInt →
      Received client (bridge.handed pass bridge.tcpTotalLength.toInt32.toInt) := by
    refine fun _ => received_of fun stream => ?_
    rw [delivered_handed] at stream
    obtain ⟨frame, member, complete⟩ := complete stream
    exact complete_handed complete member zero pass
  rw [Proc.Ends, handOver_run]
  by_cases positive : 0 < bridge.tcpTotalLength.toInt32.toInt
  · rw [if_pos positive]
    by_cases refused : pass.packetTaken (bridge.tcpTotalLength.toInt32.toInt + 1).toNat <
        bridge.tcpTotalLength.toInt32.toInt + 1
    · rw [if_pos refused]
      exact received_dropped (handed positive).hands
    · rw [if_neg refused]
      exact handed positive
  · rw [if_neg positive]
    refine fun stream => absurd ?_ positive
    obtain ⟨frame, member, complete⟩ := complete stream
    obtain ⟨some, limit⟩ := frame_length_bound member
    have total := complete.total
    rw [signed_eq (by omega)]
    omega

/-- What one call of `cNetReadTcp` makes of the stream: nothing to hand over yet, or a whole frame. -/
theorem netRead_received {result : Option UInt32} (read : NetRead pass bridge result after)
    (ready : pass.readReady = true) (received : Received client bridge) (connected : bridge.netConnection = .connected)
    (sends : client.Sends bridge pass) (whole : client.ReadsWhole bridge pass) :
    (result = none ∧ HandsFrames client after.log) ∨ (result = some 0 ∧ Received client after) ∨
      result = some after.tcpTotalLength ∧
        (delivered after.log <+: client.stream → ∃ frame ∈ client.frames, Complete client after frame) := by
  have earlier : ∀ bytes, delivered bridge.log ++ bytes <+: client.stream → Receiving client bridge :=
    fun bytes stream => (received ((List.prefix_append _ _).trans stream)).2 connected
  cases read with
  | startFailed _ failed => exact absurd failed (sends.reads ready)
  | chunkTooLarge => exact Or.inl ⟨rfl, received.hands⟩
  | chunkOutside => exact Or.inl ⟨rfl, received.hands⟩
  | idle => exact Or.inr (Or.inl ⟨rfl, received⟩)
  | startEnded => exact Or.inr (Or.inl ⟨rfl, received_ended received.hands 0⟩)
  | startFound state came more found =>
      refine Or.inr (Or.inl ⟨rfl, received_of fun stream => ?_⟩)
      rw [delivered_answered, delivered_stored] at stream
      have request := (whole.request connected state ready _ came more).mp found
      exact receiving_answered (earlier _ stream) state request pass.answerTaken
  | startMissed state came more missed =>
      refine Or.inr (Or.inl ⟨rfl, received_of fun stream => ?_⟩)
      rw [delivered_stored] at stream
      exact receiving_asked (earlier _ stream) state (sends.asksFirst connected state ready _ came)
  | lengthFailed _ failed => exact absurd failed (sends.reads ready)
  | @lengthShort bytes state came short =>
      have none : bytes = [] := by
        have single := whole.header connected state ready bytes came
        exact List.length_eq_zero_iff.mp (by omega)
      have begun : HandsFrames client ({ bridge with tcpReadBufPointer := 0 } : Bridge).log := received.hands
      subst none
      exact Or.inr (Or.inl ⟨rfl, received_ended begun 0⟩)
  | @length bytes state came complete =>
      refine Or.inr (Or.inl ⟨rfl, received_of fun stream => ?_⟩)
      have two : (bytes.take 2).length = 2 := List.length_take_of_le complete
      change delivered (bridge.stored 0 (bytes.take 2)).log <+: client.stream at stream
      rw [delivered_stored] at stream
      exact receiving_length two (earlier _ stream) state stream
  | chunkEnded => exact Or.inr (Or.inl ⟨rfl, received_ended received.hands _⟩)
  | chunkDone state small call more complete =>
      rcases readSocket_returned call with ⟨failed, _⟩ | ⟨bytes, came, count, rfl⟩
      · exact absurd failed (sends.reads ready)
      · refine Or.inr (Or.inr ⟨rfl, fun stream => ?_⟩)
        change delivered (bridge.stored bridge.tcpReadBufPointer.toNat (bytes.take bridge.tcpRestLen.toNat)).log <+:
          client.stream at stream
        rw [delivered_stored] at stream
        exact (receiving_chunk (earlier _ stream) connected state (List.length_take_le _ _) count stream).1 complete
  | chunkPart state small call more partly =>
      rcases readSocket_returned call with ⟨failed, _⟩ | ⟨bytes, came, count, rfl⟩
      · exact absurd failed (sends.reads ready)
      · refine Or.inr (Or.inl ⟨rfl, received_of fun stream => ?_⟩)
        change delivered (bridge.stored bridge.tcpReadBufPointer.toNat (bytes.take bridge.tcpRestLen.toNat)).log <+:
          client.stream at stream
        rw [delivered_stored] at stream
        exact (receiving_chunk (earlier _ stream) connected state (List.length_take_le _ _) count stream).2 partly

theorem netRead_front {result : Option UInt32} (read : NetRead pass bridge result after) :
    after.readBuf 0 = bridge.readBuf 0 := by
  rcases netRead_reads read with reads | ⟨bytes, _, _, _, _, _, rfl⟩
  · exact reads.front
  · exact Memory.storeAt_before (bytes.take 100) (show 0 < 1 + 0 by decide)

theorem received_readSide (zero : bridge.readBuf 0 = 0) (received : Received client bridge)
    (connected : bridge.netConnection = .connected) (sends : client.Sends bridge pass)
    (whole : client.ReadsWhole bridge pass) :
    Proc.Ends (readSide pass) bridge (fun _ => Received client) fun after => HandsFrames client after.log := by
  cases ready : pass.readReady with
  | false =>
      rw [Proc.Ends, readSide_idle ready]
      exact received
  | true =>
      rcases call : cNetReadTcp pass (UInt32.ofNat (bridgeBufSize - 1)) bridge with ⟨result, after⟩
      have read : NetRead pass bridge result after := by
        have cases : NetRead pass bridge _ _ := cNetReadTcp_cases connected
        rwa [call] at cases
      have front := (netRead_front read).trans zero
      rcases netRead_received read ready received connected sends whole with
        ⟨rfl, hands⟩ | ⟨rfl, received⟩ | ⟨rfl, complete⟩
      · rw [Proc.Ends, readSide_died ready call]
        exact hands
      · rw [Proc.Ends, readSide_returned ready call]
        exact received
      · have handed : Proc.Ends (handOver pass after.tcpTotalLength.toInt32.toInt) after (fun _ => Received client)
            fun last => HandsFrames client last.log :=
          (received_handOver pass complete front).mono (fun _ _ => id) fun _ => False.elim
        rw [Proc.Ends, readSide_returned ready call]
        exact handed

structure SameReader (before after : Bridge) : Prop where
  connection : after.netConnection = before.netConnection
  tcpRead : after.tcpRead = before.tcpRead
  pointer : after.tcpReadBufPointer = before.tcpReadBufPointer
  total : after.tcpTotalLength = before.tcpTotalLength
  restLen : after.tcpRestLen = before.tcpRestLen
  readBuf : after.readBuf = before.readBuf
  delivered : delivered after.log = delivered before.log
  packets : packetsHanded after.log = packetsHanded before.log

theorem Receiving.same (receiving : Receiving client bridge) (same : SameReader bridge after) :
    Receiving client after := by
  obtain ⟨_, tcpRead, pointer, total, restLen, readBuf, delivered, packets⟩ := same
  cases receiving with
  | request state part none => exact .request (tcpRead.trans state) (delivered ▸ part) (packets.trans none)
  | between state frames stream handed =>
      exact .between (tcpRead.trans state) frames (delivered.trans stream) (packets.trans handed)
  | inside state frames more stream handed buffered front whole rest =>
      rw [← pointer] at front
      rw [← total] at whole
      rw [← restLen] at rest
      rw [← readBuf] at buffered
      exact .inside (tcpRead.trans state) frames more (delivered.trans stream) (packets.trans handed) buffered front
        whole rest

theorem HandsFrames.same (hands : HandsFrames client bridge.log) (same : SameReader bridge after) :
    HandsFrames client after.log := by
  intro stream
  rw [same.delivered] at stream
  rw [HandedOver, same.delivered, same.packets]
  exact hands stream

theorem Received.same (received : Received client bridge) (same : SameReader bridge after) :
    Received client after := by
  intro stream
  refine ⟨received.hands.same same stream, fun connected => ?_⟩
  rw [same.delivered] at stream
  exact ((received stream).2 (same.connection ▸ connected)).same same

theorem sameReader_filled (bridge : Bridge) (reply : ReadResult) (len : Int) :
    SameReader bridge (bridge.filled reply len) :=
  ⟨rfl, rfl, rfl, rfl, rfl, rfl, delivered_filled bridge reply len, packetsHanded_filled bridge reply len⟩

theorem PumpStep.sameReader (step : PumpStep pass bridge after) : SameReader bridge after := by
  rcases step.kept with rfl | ⟨len, rfl, _⟩
  · exact ⟨rfl, rfl, rfl, rfl, rfl, rfl, rfl, rfl⟩
  · exact sameReader_filled bridge pass.reply len

theorem sameReader_writeSide (pass : Pass) (bridge : Bridge) : SameReader bridge (writeSide pass bridge).2 := by
  obtain ⟨events, len, pos, ends, known⟩ := writeSide_writes pass bridge
  have others : ∀ event ∈ events, event ≠ .accepted := by
    intro event member
    obtain ⟨bytes, res, rfl⟩ := known event member
    exact nofun
  have silent : events.flatMap incoming = [] ∧ events.flatMap handed = [] := by
    simp only [List.flatMap_eq_nil_iff]
    constructor
    · intro event member
      obtain ⟨bytes, res, rfl⟩ := known event member
      rfl
    · intro event member
      obtain ⟨bytes, res, rfl⟩ := known event member
      rfl
  rw [ends]
  refine ⟨rfl, rfl, rfl, rfl, rfl, rfl, ?_, ?_⟩
  · simp only [delivered, sinceAccepted_append others, List.flatMap_append, silent.1, List.append_nil]
  · simp only [packetsHanded, sinceAccepted_append others, List.flatMap_append, silent.2, List.append_nil]

theorem BridgeClient.Sends.same (sends : client.Sends bridge pass) (same : SameReader bridge after) :
    client.Sends after pass := by
  refine ⟨sends.alone, sends.reads, fun connected state => ?_⟩
  rw [same.delivered]
  exact sends.asksFirst (same.connection ▸ connected) (same.tcpRead ▸ state)

theorem BridgeClient.ReadsWhole.same (whole : client.ReadsWhole bridge pass) (same : SameReader bridge after) :
    client.ReadsWhole after pass := by
  refine ⟨fun connected state => ?_, fun connected state => ?_⟩
  · simp only [Bridge.buffered, Bridge.stored, same.delivered, same.readBuf]
    exact whole.request (same.connection ▸ connected) (same.tcpRead ▸ state)
  · exact whole.header (same.connection ▸ connected) (same.tcpRead ▸ state)

theorem received_serveClient (zero : bridge.readBuf 0 = 0) (received : Received client bridge)
    (connected : bridge.netConnection = .connected) (sends : client.Sends bridge pass)
    (whole : client.ReadsWhole bridge pass) :
    Proc.Ends (serveClient pass) bridge (fun _ => Received client) fun after => HandsFrames client after.log := by
  refine Proc.ends_bind ((pumpReply_cases pass bridge).mono (fun _ _ => id) fun _ torn =>
    torn.1 ▸ received.hands.same (sameReader_filled bridge _ _)) fun _ pumped step => ?_
  have same := step.sameReader
  refine Proc.ends_bind (received_readSide (same.readBuf ▸ zero) (received.same same) (same.connection.trans connected)
    (sends.same same) (whole.same same)) fun goes read received => ?_
  cases goes with
  | false => exact received
  | true =>
      rw [if_pos rfl]
      exact (Proc.ends_of_after (received.same (sameReader_writeSide pass read))).mono (fun _ _ => id)
        fun _ => Received.hands

theorem readSide_front (pass : Pass) (connected : bridge.netConnection = .connected) :
    (readSide pass bridge).2.readBuf 0 = bridge.readBuf 0 := by
  rcases readSide_reads connected with reads | ⟨bytes, _, _, _, _, _, run⟩
  · exact reads.front
  · rw [run]
    exact Memory.storeAt_before (bytes.take 100) (show 0 < 1 + 0 by decide)

/-- No pass writes to the byte in front of what is read from a client. -/
theorem bridgePass_front (pass : Pass) (bridge : Bridge) : (bridgePass pass bridge).2.readBuf 0 = bridge.readBuf 0 := by
  cases state : bridge.netConnection with
  | closed => rw [bridgePass_closed state]
  | notConnected =>
      rw [bridgePass_notConnected state, awaitClient_run]
      split
      · rfl
      · split <;> rfl
  | connected =>
      have pumping : Proc.Ends (pumpReply pass) bridge (fun _ => SameReader bridge) (SameReader bridge) :=
        (pumpReply_cases pass bridge).mono (fun _ _ => PumpStep.sameReader) fun _ torn =>
          torn.1 ▸ sameReader_filled bridge _ _
      rw [bridgePass_connected state, serveClient]
      refine Proc.Ends.always (Proc.ends_bind (pumping.mono (fun _ _ => id) fun _ same => congrFun same.readBuf 0)
        fun _ pumped same => ?_) fun _ => id
      apply Proc.ends_of_after
      have read := readSide_front pass (same.connection.trans state)
      rw [same.readBuf] at read
      refine @Proc.bind_keeps _ _ _ (fun after : Bridge => after.readBuf 0 = bridge.readBuf 0) _ _ _ read
        fun goes middle _ front => ?_
      cases goes with
      | false => exact front
      | true => exact (congrFun (sameReader_writeSide pass middle).readBuf 0).trans front

end Frames

/-- A client has just connected, wherever the clients before it left the bridge. -/
def Joined (bridge : Bridge) : Prop :=
  ∃ earlier before, bridgeLoop earlier Bridge.started = (some (), before) ∧
    before.netConnection = .notConnected ∧ bridge = before.accepted

/-- In every run, the byte that `ev3_write` takes for the HID layer is zero. -/
theorem bridgeLoop_front (coming : List Pass) {bridge : Bridge} (zero : bridge.readBuf 0 = 0) :
    (bridgeLoop coming bridge).2.readBuf 0 = 0 := by
  have always : Along Bridge.going bridgePass (fun _ _ => True) coming bridge :=
    along_of_forall fun _ _ _ => trivial
  refine @passes_invariant _ _ _ _ _ _ _ (fun bridge : Bridge => bridge.readBuf 0 = 0) ?_ zero always
  exact fun bridge pass _ zero _ => (bridgePass_front pass bridge).trans zero

theorem Joined.front {bridge : Bridge} (joined : Joined bridge) : bridge.readBuf 0 = 0 := by
  obtain ⟨earlier, before, run, _, rfl⟩ := joined
  have front := bridgeLoop_front earlier (show Bridge.started.readBuf 0 = 0 from rfl)
  rwa [run] at front

theorem Joined.received {client : BridgeClient} {bridge : Bridge} (joined : Joined bridge) :
    Received client bridge := by
  obtain ⟨earlier, before, run, _, rfl⟩ := joined
  refine received_of fun _ => .request rfl ?_ (packetsHanded_accepted before)
  rw [delivered_accepted]
  exact List.nil_prefix

/-- One run: at every point of it the brick has the frames that were delivered whole. -/
theorem bridge_hands_frames (client : BridgeClient) {bridge : Bridge} (joined : Joined bridge) (coming : List Pass)
    (meets : Along Bridge.going bridgePass client.Meets coming bridge) :
    HandsFrames client (bridgeLoop coming bridge).2.log := by
  have run : Proc.Ends (bridgeLoop coming) bridge (fun _ after => after.readBuf 0 = 0 ∧ Received client after)
      fun after => HandsFrames client after.log := by
    refine passes_ends ?_ ⟨joined.front, joined.received⟩ meets
    rintro bridge pass goes ⟨zero, received⟩ ⟨sends, whole⟩
    refine Proc.Ends.and_after (bridgePass_ends goes (fun _ => ?_) fun connected => ?_)
      ((bridgePass_front pass bridge).trans zero)
    · rcases awaitClient_alone sends.alone with waits | shuts
      · rw [Proc.Ends, waits]
        exact received
      · rw [Proc.Ends, shuts]
        exact fun stream => ⟨received.hands stream, fun connected => absurd connected bridge.shut_unconnected⟩
    · exact received_serveClient zero received connected sends whole
  exact run.always fun _ invariant => invariant.2.hands

/-- Two runs of the bridge on what one client sends, cut in different ways. -/
theorem bridge_segmentation_independent (client : BridgeClient) {first second : Bridge} (firstJoined : Joined first)
    (secondJoined : Joined second) (coming other : List Pass)
    (firstMeets : Along Bridge.going bridgePass client.Meets coming first)
    (secondMeets : Along Bridge.going bridgePass client.Meets other second) :
    HandsFrames client (bridgeLoop coming first).2.log ∧ HandsFrames client (bridgeLoop other second).2.log ∧
      (delivered (bridgeLoop coming first).2.log <+: client.stream →
        delivered (bridgeLoop coming first).2.log = delivered (bridgeLoop other second).2.log →
        packetsHanded (bridgeLoop coming first).2.log = packetsHanded (bridgeLoop other second).2.log) ∧
      (delivered (bridgeLoop coming first).2.log = client.stream →
        packetsHanded (bridgeLoop coming first).2.log = client.frames.map handedPacket) := by
  have hands := bridge_hands_frames client firstJoined coming firstMeets
  have others := bridge_hands_frames client secondJoined other secondMeets
  refine ⟨hands, others, fun sent same => ?_, fun all => ?_⟩
  · have here := hands sent
    have there := others (same ▸ sent)
    rw [HandedOver, same] at here
    rw [here, there]
  · have here := hands (all ▸ List.prefix_refl _)
    have length : client.stream.length - client.request.length = client.frames.flatten.length := by
      rw [BridgeClient.stream, List.length_append, Nat.add_sub_cancel_left]
    rw [HandedOver, all, length, framesWithin_all] at here
    exact here

/-- A client with one frame of two bytes. -/
def shortClient : BridgeClient where
  request := ascii "GET /target?sn=12"
  frames := [[2, 0, 7, 8]]
  line := by decide +kernel
  asks := (strstr_iff _ _).mp (by decide +kernel)
  framed := by decide +kernel

/-- What the client sends comes in these pieces. -/
def arriving (pieces : List Bytes) : List Pass := pieces.map fun bytes => { readReady := true, received := some bytes }

theorem started_joined : Joined Bridge.started.accepted := ⟨[], Bridge.started, rfl, rfl, rfl⟩

theorem sends_answered {bridge : Bridge} (state : bridge.tcpRead ≠ .waitOnStart) (bytes : Bytes) :
    shortClient.Sends bridge { readReady := true, received := some bytes } :=
  ⟨rfl, nofun, fun _ other => absurd other state⟩

theorem sends_request {bytes : Bytes} (part : bytes.take 100 <+: shortClient.request) :
    shortClient.Sends Bridge.started.accepted { readReady := true, received := some bytes } := by
  refine ⟨rfl, nofun, fun _ _ _ _ came => ?_⟩
  cases came
  exact part

theorem meets_request :
    shortClient.Meets Bridge.started.accepted { readReady := true, received := some shortClient.request } := by
  refine ⟨sends_request (List.take_prefix _ _), fun _ _ _ _ came _ => ?_, nofun⟩
  cases came
  have found :
      strstr (Bridge.started.accepted.stored 0 (shortClient.request.take 100)).buffered requestText = true := by
    decide +kernel
  exact ⟨fun _ => by decide +kernel, fun _ => found⟩

theorem meets_answered {bridge : Bridge} {bytes : Bytes} (state : bridge.tcpRead ≠ .waitOnStart)
    (header : bridge.tcpRead = .waitOnLength → bytes.length ≠ 1) :
    shortClient.Meets bridge { readReady := true, received := some bytes } := by
  refine ⟨sends_answered state bytes, fun _ other => absurd other state, fun _ waits _ _ came => ?_⟩
  cases came
  exact header waits

/-- The body in one piece, and in two. -/
theorem bridge_segmentation_independent_body :
    packetsHanded (bridgeLoop (arriving [shortClient.request, [2, 0], [7, 8]]) Bridge.started.accepted).2.log =
        packetsHanded (bridgeLoop (arriving [shortClient.request, [2, 0], [7], [8]]) Bridge.started.accepted).2.log ∧
      packetsHanded (bridgeLoop (arriving [shortClient.request, [2, 0], [7, 8]]) Bridge.started.accepted).2.log =
        [([0, 2, 0, 7, 8], 5)] := by
  have first : Along Bridge.going bridgePass shortClient.Meets (arriving [shortClient.request, [2, 0], [7, 8]])
      Bridge.started.accepted := by
    refine along_cons (fun _ => meets_request) (along_cons (fun _ => meets_answered ?_ ?_)
      (along_cons (fun _ => meets_answered ?_ ?_) trivial))
    · decide +kernel
    · decide
    · decide +kernel
    · decide +kernel
  have second : Along Bridge.going bridgePass shortClient.Meets (arriving [shortClient.request, [2, 0], [7], [8]])
      Bridge.started.accepted := by
    refine along_cons (fun _ => meets_request) (along_cons (fun _ => meets_answered ?_ ?_)
      (along_cons (fun _ => meets_answered ?_ ?_) (along_cons (fun _ => meets_answered ?_ ?_) trivial)))
    · decide +kernel
    · decide
    · decide +kernel
    · decide +kernel
    · decide +kernel
    · decide +kernel
  have sent : delivered (bridgeLoop (arriving [shortClient.request, [2, 0], [7, 8]]) Bridge.started.accepted).2.log =
      shortClient.stream := by decide +kernel
  have also : delivered (bridgeLoop (arriving [shortClient.request, [2, 0], [7], [8]])
      Bridge.started.accepted).2.log = shortClient.stream := by decide +kernel
  obtain ⟨_, _, same, all⟩ := bridge_segmentation_independent shortClient started_joined started_joined _ _ first second
  exact ⟨same (sent ▸ List.prefix_refl _) (sent.trans also.symm), all sent⟩

/-- The two bytes of the length come one at a time. -/
def splitLength : List Pass := arriving [shortClient.request, [2], [0], [7, 8]]

/-- The request is found before all of it is there, and its last bytes are taken for a length. -/
def splitRequest : List Pass := arriving [shortClient.request.take 15, shortClient.request.drop 15, [2, 0, 7, 8]]

theorem bridge_depends_on_segments :
    Along Bridge.going bridgePass shortClient.Sends splitLength Bridge.started.accepted ∧
      packetsHanded (bridgeLoop splitLength Bridge.started.accepted).2.log = [([0, 2], 2)] ∧
      ¬ HandsFrames shortClient (bridgeLoop splitLength Bridge.started.accepted).2.log ∧
      Along Bridge.going bridgePass shortClient.Sends splitRequest Bridge.started.accepted ∧
      delivered (bridgeLoop splitRequest Bridge.started.accepted).2.log = shortClient.stream ∧
      packetsHanded (bridgeLoop splitRequest Bridge.started.accepted).2.log = [] ∧
      ¬ HandsFrames shortClient (bridgeLoop splitRequest Bridge.started.accepted).2.log := by
  have cut : packetsHanded (bridgeLoop splitLength Bridge.started.accepted).2.log = [([0, 2], 2)] := by
    decide +kernel
  have arrived : delivered (bridgeLoop splitLength Bridge.started.accepted).2.log = shortClient.request ++ [2] := by
    decide +kernel
  have sent : delivered (bridgeLoop splitRequest Bridge.started.accepted).2.log = shortClient.stream := by
    decide +kernel
  have nothing : packetsHanded (bridgeLoop splitRequest Bridge.started.accepted).2.log = [] := by decide +kernel
  refine ⟨?_, cut, fun hands => ?_, ?_, sent, nothing, fun hands => ?_⟩
  · refine along_cons (fun _ => sends_request (List.take_prefix _ _)) (along_cons (fun _ => sends_answered ?_ _)
      (along_cons (fun _ => sends_answered ?_ _) (along_cons (fun _ => sends_answered ?_ _) trivial)))
    · decide +kernel
    · decide +kernel
    · decide +kernel
  · have due := hands (by rw [arrived]; exact ⟨[0, 7, 8], by decide +kernel⟩)
    rw [HandedOver, cut, arrived] at due
    exact absurd due (by decide +kernel)
  · refine along_cons (fun _ => sends_request ?_) (along_cons (fun _ => sends_answered ?_ _)
      (along_cons (fun _ => sends_answered ?_ _) trivial))
    · exact (List.take_prefix _ _).trans (List.take_prefix _ _)
    · decide +kernel
    · decide +kernel
  · have due := hands (sent ▸ List.prefix_refl _)
    rw [HandedOver, nothing, sent] at due
    exact absurd due (by decide +kernel)

end Ev3duder
