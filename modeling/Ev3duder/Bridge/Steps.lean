import Ev3duder.Bridge.Passes

namespace Ev3duder

open Data

/-! # What one pass of the bridge can do -/

namespace Bridge

variable (bridge : Bridge)

def logged (events : List BridgeEvent) : Bridge := { bridge with log := bridge.log ++ events }

/-- A new client is connected. -/
def accepted : Bridge :=
  { bridge with tcpRead := .waitOnStart, netConnection := .connected, log := bridge.log ++ [.accepted] }

def dropped : Bridge := { bridge with netConnection := .notConnected, log := bridge.log ++ [.closed] }

/-- No beacon can be sent any more. -/
def shut : Bridge := { bridge with netConnection := .closed }

theorem shut_unconnected : bridge.shut.netConnection ≠ .connected := by
  change NetState.closed ≠ .connected
  decide

/-- `bytes` were read to `&Buffer[pointer]`. -/
def stored (pointer : Nat) (bytes : Bytes) : Bridge :=
  { bridge with
    readBuf := bridge.readBuf.storeAt (1 + pointer) bytes
    log := bridge.log ++ [.received bytes] }

/-- The bridge with the request found and answered. -/
def answered (taken : Int) : Bridge :=
  { bridge with
    tcpRead := .waitOnLength
    log := bridge.log ++ [.wrote acceptText (socketWrite taken acceptText.length)] ++ [.unlocked] }

/-- The bridge once the length of the next packet is in its buffer. -/
def announced : Bridge :=
  { bridge with
    tcpRestLen := UInt32.ofNat ((bridge.readBuf 1).toNat + (bridge.readBuf 2).toNat * 256)
    tcpTotalLength := UInt32.ofNat ((bridge.readBuf 1).toNat + (bridge.readBuf 2).toNat * 256) + 2
    tcpRead := .waitOnOnlyChunk
    tcpReadBufPointer := 2 }

def advanced (count : Int) : Bridge :=
  { bridge with tcpReadBufPointer := bridge.tcpReadBufPointer + UInt32.ofInt count }

end Bridge

theorem readSocket_run (received : Option Bytes) (pointer : UInt32) (count : Nat) (bridge : Bridge) :
    readSocket received pointer count bridge =
      match received with
      | none => (some (-1), bridge.logged [.readFailed])
      | some bytes =>
          if bridgeBufSize < 1 + pointer.toNat + (bytes.take count).length then (none, bridge)
          else (some (bytes.take count).length, bridge.stored pointer.toNat (bytes.take count)) := by
  cases received <;> rfl

theorem cNetWriteTcp_run {bridge : Bridge} (connected : bridge.netConnection = .connected) {bytes : Bytes}
    (some : bytes ≠ []) {room : Nat} (fits : bytes.length ≤ room) (taken : Int) :
    cNetWriteTcp bytes room taken bridge =
      (Option.some (UInt32.ofInt (socketWrite taken bytes.length)),
        bridge.logged [.wrote bytes (socketWrite taken bytes.length)]) := by
  have positive := List.length_pos_iff.mpr some
  rw [cNetWriteTcp, if_neg (by omega), if_neg (by simp [connected])]
  simp only [hexdump, if_neg (show ¬ room < bytes.length by omega)]
  rfl

/-- Everything one call of `cNetReadTcp` can do with a buffer of 65539 bytes. -/
inductive NetRead (pass : Pass) (bridge : Bridge) : Option UInt32 → Bridge → Prop where
  | idle (state : bridge.tcpRead = .idle) : NetRead pass bridge (some 0) bridge
  | startFailed (state : bridge.tcpRead = .waitOnStart) (failed : pass.received = none) :
      NetRead pass bridge none (bridge.logged [.readFailed])
  | startEnded (state : bridge.tcpRead = .waitOnStart) (ended : pass.received = some []) :
      NetRead pass bridge (some 0) (bridge.stored 0 []).dropped
  | startFound {bytes : Bytes} (state : bridge.tcpRead = .waitOnStart) (read : pass.received = some bytes)
      (more : bytes ≠ []) (found : strstr (bridge.stored 0 (bytes.take 100)).buffered requestText = true) :
      NetRead pass bridge (some 0) ((bridge.stored 0 (bytes.take 100)).answered pass.answerTaken)
  | startMissed {bytes : Bytes} (state : bridge.tcpRead = .waitOnStart) (read : pass.received = some bytes)
      (more : bytes ≠ []) (missed : strstr (bridge.stored 0 (bytes.take 100)).buffered requestText = false) :
      NetRead pass bridge (some 0) (bridge.stored 0 (bytes.take 100))
  | lengthFailed (state : bridge.tcpRead = .waitOnLength) (failed : pass.received = none) :
      NetRead pass bridge (some (UInt32.ofInt (-1)))
        (({ bridge with tcpReadBufPointer := 0 }).logged [.readFailed]).dropped
  | lengthShort {bytes : Bytes} (state : bridge.tcpRead = .waitOnLength) (read : pass.received = some bytes)
      (short : bytes.length < 2) :
      NetRead pass bridge (some (UInt32.ofInt bytes.length))
        (({ bridge with tcpReadBufPointer := 0 }).stored 0 bytes).dropped
  | length {bytes : Bytes} (state : bridge.tcpRead = .waitOnLength) (read : pass.received = some bytes)
      (complete : 2 ≤ bytes.length) :
      NetRead pass bridge (some 0) (bridge.stored 0 (bytes.take 2)).announced
  | chunkTooLarge (state : bridge.tcpRead = .waitOnOnlyChunk)
      (large : UInt32.ofNat (bridgeBufSize - 1) < bridge.tcpTotalLength) : NetRead pass bridge none bridge
  | chunkOutside {bytes : Bytes} (state : bridge.tcpRead = .waitOnOnlyChunk) (read : pass.received = some bytes)
      (outside : bridgeBufSize <
        1 + bridge.tcpReadBufPointer.toNat + (bytes.take bridge.tcpRestLen.toNat).length) :
      NetRead pass bridge none bridge
  | chunkEnded {bytes : Bytes} (state : bridge.tcpRead = .waitOnOnlyChunk) (read : pass.received = some bytes)
      (ended : bytes.take bridge.tcpRestLen.toNat = []) :
      NetRead pass bridge (some 0) (bridge.stored bridge.tcpReadBufPointer.toNat []).dropped
  | chunkDone {count : Int} {after : Bridge} (state : bridge.tcpRead = .waitOnOnlyChunk)
      (small : ¬ UInt32.ofNat (bridgeBufSize - 1) < bridge.tcpTotalLength)
      (read : readSocket pass.received bridge.tcpReadBufPointer bridge.tcpRestLen.toNat bridge = (some count, after))
      (more : count ≠ 0) (complete : bridge.tcpRestLen = UInt32.ofInt count) :
      NetRead pass bridge (some bridge.tcpTotalLength) { after.advanced count with tcpRead := .waitOnLength }
  | chunkPart {count : Int} {after : Bridge} (state : bridge.tcpRead = .waitOnOnlyChunk)
      (small : ¬ UInt32.ofNat (bridgeBufSize - 1) < bridge.tcpTotalLength)
      (read : readSocket pass.received bridge.tcpReadBufPointer bridge.tcpRestLen.toNat bridge = (some count, after))
      (more : count ≠ 0) (partly : bridge.tcpRestLen ≠ UInt32.ofInt count) :
      NetRead pass bridge (some 0)
        { after.advanced count with tcpRestLen := after.tcpRestLen - UInt32.ofInt count }

section NetRead

variable {pass : Pass} {bridge : Bridge}

/-- The buffer has room for the longest frame that the two bytes of a length can announce. -/
theorem chunk_small (limit : bridge.tcpTotalLength.toNat ≤ 65537) :
    ¬ UInt32.ofNat (bridgeBufSize - 1) < bridge.tcpTotalLength := by
  have size : (UInt32.ofNat (bridgeBufSize - 1)).toNat = 65539 := by decide
  rw [UInt32.lt_iff_toNat_lt, size]
  omega

theorem chunk_inside {bytes : Bytes}
    (room : bridge.tcpReadBufPointer.toNat + bridge.tcpRestLen.toNat ≤ 65537) :
    ¬ bridgeBufSize < 1 + bridge.tcpReadBufPointer.toNat + (bytes.take bridge.tcpRestLen.toNat).length := by
  rw [List.length_take, bridgeBufSize]
  omega

/-- The stores at the start of the buffer stay inside it. -/
theorem readSocket_front {received : Option Bytes} {bytes : Bytes} (read : received = some bytes) {count : Nat}
    (small : count ≤ 100) (bridge : Bridge) :
    readSocket received 0 count bridge =
      (some ((bytes.take count).length : Int), bridge.stored 0 (bytes.take count)) := by
  have inside : ¬ bridgeBufSize < 1 + (0 : UInt32).toNat + (bytes.take count).length := by
    simp only [bridgeBufSize, List.length_take, UInt32.toNat_zero]
    omega
  rw [read, readSocket_run]
  exact if_neg inside

theorem readSocket_died {received : Option Bytes} {pointer : UInt32} {count : Nat} {bridge after : Bridge}
    (call : readSocket received pointer count bridge = (none, after)) :
    ∃ bytes, received = some bytes ∧ bridgeBufSize < 1 + pointer.toNat + (bytes.take count).length ∧
      after = bridge := by
  rw [readSocket_run] at call
  cases received with
  | none => cases call
  | some bytes =>
      simp only at call
      split at call
      · cases call
        exact ⟨bytes, rfl, ‹_›, rfl⟩
      · cases call

theorem readSocket_returned {received : Option Bytes} {pointer : UInt32} {count : Nat} {bridge after : Bridge}
    {dataRead : Int} (call : readSocket received pointer count bridge = (some dataRead, after)) :
    (received = none ∧ dataRead = -1 ∧ after = bridge.logged [.readFailed]) ∨
      ∃ bytes, received = some bytes ∧ dataRead = (bytes.take count).length ∧
        after = bridge.stored pointer.toNat (bytes.take count) := by
  rw [readSocket_run] at call
  cases received with
  | none =>
      cases call
      exact Or.inl ⟨rfl, rfl, rfl⟩
  | some bytes =>
      simp only at call
      split at call
      · cases call
      · cases call
        exact Or.inr ⟨bytes, rfl, rfl, rfl⟩

theorem readSocket_came {received : Option Bytes} {pointer : UInt32} {count : Nat} {bridge after : Bridge}
    {dataRead : Int} {bytes : Bytes} (came : received = some bytes)
    (call : readSocket received pointer count bridge = (some dataRead, after)) :
    dataRead = (bytes.take count).length ∧ after = bridge.stored pointer.toNat (bytes.take count) := by
  rcases readSocket_returned call with ⟨failed, _⟩ | ⟨_, other, count, stored⟩
  · cases failed.symm.trans came
  · cases other.symm.trans came
    exact ⟨count, stored⟩

theorem readStart_cases (state : bridge.tcpRead = .waitOnStart) (connected : bridge.netConnection = .connected) :
    NetRead pass bridge (readStart pass bridge).1 (readStart pass bridge).2 := by
  cases read : pass.received with
  | none =>
      have call : readSocket pass.received 0 100 bridge = (some (-1), bridge.logged [.readFailed]) := by
        rw [read]
        rfl
      rw [readStart, Proc.bind_returned call]
      exact .startFailed state read
  | some bytes =>
      have call := readSocket_front read (show 100 ≤ 100 by decide) bridge
      have dumped : hexdump (bridgeBufSize - 1) (UInt32.ofInt (bytes.take 100).length).toNat
          (bridge.stored 0 (bytes.take 100)) = (some (), bridge.stored 0 (bytes.take 100)) := by
        have bound : (bytes.take 100).length ≤ 100 := List.length_take_le 100 bytes
        rw [toNat_ofInt (by omega), hexdump, if_neg (by rw [bridgeBufSize]; omega)]
        rfl
      rw [readStart, Proc.bind_returned call, Proc.bind_returned dumped]
      by_cases ended : bytes = []
      · subst ended
        exact .startEnded state read
      · have more : ¬ ((bytes.take 100).length : Int) = 0 := by
          have positive := List.length_pos_iff.mpr ended
          simp only [List.length_take]
          omega
        rw [if_neg more]
        have searched : Proc.gets Bridge.buffered (bridge.stored 0 (bytes.take 100)) =
            (some (bridge.stored 0 (bytes.take 100)).buffered, bridge.stored 0 (bytes.take 100)) := rfl
        rw [Proc.bind_returned searched]
        cases found : strstr (bridge.stored 0 (bytes.take 100)).buffered requestText with
        | true =>
            have still : (bridge.stored 0 (bytes.take 100)).netConnection = .connected := connected
            have wrote := cNetWriteTcp_run still (show acceptText ≠ [] by decide) (Nat.le_succ acceptText.length)
              pass.answerTaken
            rw [if_pos rfl, Proc.bind_returned wrote]
            exact .startFound state read ended found
        | false => exact .startMissed state read ended found

theorem readLength_cases (state : bridge.tcpRead = .waitOnLength) :
    NetRead pass bridge (readLength pass (UInt32.ofNat (bridgeBufSize - 1)) bridge).1
      (readLength pass (UInt32.ofNat (bridgeBufSize - 1)) bridge).2 := by
  have begun : Proc.modify (fun bridge : Bridge => { bridge with tcpReadBufPointer := 0 }) bridge =
      (some (), { bridge with tcpReadBufPointer := 0 }) := rfl
  rw [readLength, if_neg (by decide), Proc.bind_returned begun]
  cases read : pass.received with
  | none =>
      have call : readSocket none 0 2 { bridge with tcpReadBufPointer := 0 } =
        (some (-1), ({ bridge with tcpReadBufPointer := 0 } : Bridge).logged [.readFailed]) := rfl
      rw [Proc.bind_returned call]
      exact .lengthFailed state read
  | some bytes =>
      have call := readSocket_front (read ▸ rfl : pass.received = some bytes) (show 2 ≤ 100 by decide)
        { bridge with tcpReadBufPointer := 0 }
      rw [read] at call
      rw [Proc.bind_returned call]
      by_cases short : bytes.length < 2
      · have all : bytes.take 2 = bytes := List.take_of_length_le (by omega)
        rw [all, if_pos (by omega)]
        exact .lengthShort state read short
      · have two : (bytes.take 2).length = 2 := List.length_take_of_le (by omega)
        rw [two, if_neg (by decide)]
        exact .length state read (by omega)

theorem readChunk_cases (state : bridge.tcpRead = .waitOnOnlyChunk) :
    NetRead pass bridge (readChunk pass (UInt32.ofNat (bridgeBufSize - 1)) bridge).1
      (readChunk pass (UInt32.ofNat (bridgeBufSize - 1)) bridge).2 := by
  by_cases large : UInt32.ofNat (bridgeBufSize - 1) < bridge.tcpTotalLength
  · rw [readChunk, if_pos large]
    exact .chunkTooLarge state large
  · rw [readChunk, if_neg large]
    rcases call : readSocket pass.received bridge.tcpReadBufPointer bridge.tcpRestLen.toNat bridge with
      ⟨_ | count, after⟩
    · obtain ⟨bytes, read, outside, rfl⟩ := readSocket_died call
      rw [Proc.bind_died call]
      exact .chunkOutside state read outside
    · rw [Proc.bind_returned call]
      by_cases ended : count = 0
      · subst ended
        rcases readSocket_returned call with ⟨_, failed, _⟩ | ⟨bytes, read, length, rfl⟩
        · cases failed
        · have none : bytes.take bridge.tcpRestLen.toNat = [] := List.length_eq_zero_iff.mp (by omega)
          rw [none, if_pos rfl]
          exact .chunkEnded state read none
      · rw [if_neg ended]
        have advanced : Proc.modify (fun bridge : Bridge =>
            { bridge with tcpReadBufPointer := bridge.tcpReadBufPointer + UInt32.ofInt count }) after =
            (some (), after.advanced count) := rfl
        have room : ¬ bridgeBufSize - 1 < bridge.tcpTotalLength.toNat := by
          rw [UInt32.lt_iff_toNat_lt] at large
          exact large
        have dumped : hexdump (bridgeBufSize - 1) bridge.tcpTotalLength.toNat = pure () := by
          rw [hexdump, if_neg room]
        rw [Proc.bind_returned advanced, dumped]
        by_cases complete : bridge.tcpRestLen = UInt32.ofInt count
        · rw [if_pos complete]
          exact .chunkDone state large call ended complete
        · rw [if_neg complete]
          exact .chunkPart state large call ended complete

theorem cNetReadTcp_cases (connected : bridge.netConnection = .connected) :
    NetRead pass bridge (cNetReadTcp pass (UInt32.ofNat (bridgeBufSize - 1)) bridge).1
      (cNetReadTcp pass (UInt32.ofNat (bridgeBufSize - 1)) bridge).2 := by
  rw [cNetReadTcp]
  cases state : bridge.tcpRead with
  | idle => exact .idle state
  | waitOnStart => exact readStart_cases state connected
  | waitOnLength => exact readLength_cases state
  | waitOnOnlyChunk => exact readChunk_cases state

end NetRead

section Sides

variable {pass : Pass} {bridge : Bridge}

/-- The bridge after `ev3_write` of the packet of `len` bytes behind the zero byte. -/
def Bridge.handed (bridge : Bridge) (pass : Pass) (len : Int) : Bridge :=
  bridge.logged [.packet (bridge.readBuf.load 0 (len + 1).toNat) (len + 1).toNat (pass.packetTaken (len + 1).toNat)]

theorem handOver_run (pass : Pass) (len : Int) (bridge : Bridge) :
    handOver pass len bridge =
      if 0 < len then
        if pass.packetTaken (len + 1).toNat < len + 1 then (some false, (bridge.handed pass len).dropped)
        else (some true, bridge.handed pass len)
      else (some true, bridge) := by
  by_cases positive : 0 < len
  · rw [handOver, if_pos positive, if_pos positive]
    simp only [Proc.bind_apply, Proc.gets_apply, Bridge.event, Proc.modify_apply, Memory.load_length]
    by_cases refused : pass.packetTaken (len + 1).toNat < len + 1
    · rw [if_pos refused, if_pos refused]
      rfl
    · rw [if_neg refused, if_neg refused]
      rfl
  · rw [handOver, if_neg positive, if_neg positive]
    rfl

theorem readSide_idle (idle : pass.readReady = false) : readSide pass bridge = (some true, bridge) := by
  rw [readSide, idle]
  rfl

theorem readSide_died {after : Bridge} (ready : pass.readReady = true)
    (call : cNetReadTcp pass (UInt32.ofNat (bridgeBufSize - 1)) bridge = (none, after)) :
    readSide pass bridge = (none, after) := by
  rw [readSide, if_pos ready, Proc.bind_died call]

theorem readSide_returned {len : UInt32} {after : Bridge} (ready : pass.readReady = true)
    (call : cNetReadTcp pass (UInt32.ofNat (bridgeBufSize - 1)) bridge = (some len, after)) :
    readSide pass bridge = handOver pass len.toInt32.toInt after := by
  rw [readSide, if_pos ready, Proc.bind_returned call]

/-- The bridge with what the brick delivered in its buffer. -/
def Bridge.filled (bridge : Bridge) (reply : ReadResult) (len : Int) : Bridge :=
  { bridge with
    writeBuf := bridge.writeBuf.store reply.stored
    writeLen := len
    writePos := 0
    log := bridge.log ++ [.reply reply] }

/-- `realLen`: the length a reply states, with the two bytes that state it. -/
def Bridge.realLen (bridge : Bridge) : Nat := (bridge.writeBuf 0).toNat + 256 * (bridge.writeBuf 1).toNat + 2

theorem Bridge.realLen_bound (bridge : Bridge) : 2 ≤ bridge.realLen ∧ bridge.realLen ≤ 65537 := by
  have low := (bridge.writeBuf 0).toNat_lt
  have high := (bridge.writeBuf 1).toNat_lt
  simp only [Bridge.realLen]
  omega

theorem pumpReply_run (pass : Pass) (bridge : Bridge) :
    pumpReply pass bridge =
      if bridge.writeLen ≤ 0 then
        if pass.reply.res ≠ 0 then
          if ((bridge.filled pass.reply pass.reply.res).realLen : Int) ≤ pass.reply.res then
            (some (), bridge.filled pass.reply (bridge.filled pass.reply pass.reply.res).realLen)
          else (none, bridge.filled pass.reply pass.reply.res)
        else (some (), bridge.filled pass.reply pass.reply.res)
      else (some (), bridge) := by
  rw [pumpReply]
  by_cases drained : bridge.writeLen ≤ 0
  · rw [if_pos drained, if_pos drained]
    rfl
  · rw [if_neg drained, if_neg drained]

/-- What `ev3_read_timeout` brings is nothing, or reaches at least to the end of the frame it begins with. -/
def WholeReply : ReadResult → Prop
  | .received data => data = [] ∨ (2 ≤ data.length ∧ leValue (data.take 2) + 2 ≤ data.length)
  | .failed _ => False

theorem realLen_filled {data : Bytes} (header : 2 ≤ data.length) (len : Int) :
    (bridge.filled (.received data) len).realLen = leValue (data.take 2) + 2 := by
  obtain ⟨low, high, rest, rfl⟩ : ∃ low high rest, data = low :: high :: rest := by
    match data, header with
    | low :: high :: rest, _ => exact ⟨low, high, rest, rfl⟩
  simp [Bridge.realLen, Bridge.filled, ReadResult.stored, Memory.store, leValue]

/-- What the pump does when the process survives it. -/
inductive PumpStep (pass : Pass) (bridge : Bridge) : Bridge → Prop where
  | busy (more : 0 < bridge.writeLen) : PumpStep pass bridge bridge
  | silent (drained : bridge.writeLen ≤ 0) (reply : pass.reply = .received []) :
      PumpStep pass bridge (bridge.filled (.received []) 0)
  | fresh {data : Bytes} (drained : bridge.writeLen ≤ 0) (reply : pass.reply = .received data) (more : data ≠ [])
      (header : 2 ≤ data.length) (whole : leValue (data.take 2) + 2 ≤ data.length) :
      PumpStep pass bridge (bridge.filled (.received data) ((leValue (data.take 2) + 2 : Nat) : Int))

theorem pumpReply_cases (pass : Pass) (bridge : Bridge) :
    Proc.Ends (pumpReply pass) bridge (fun _ after => PumpStep pass bridge after)
      (fun after => after = bridge.filled pass.reply pass.reply.res ∧ ¬ WholeReply pass.reply) := by
  rw [Proc.Ends, pumpReply_run]
  by_cases drained : bridge.writeLen ≤ 0
  · rw [if_pos drained]
    cases reply : pass.reply with
    | failed stored =>
        have res : (ReadResult.failed stored).res = -1 := rfl
        rw [if_pos (by omega), res, if_neg (by omega)]
        exact ⟨rfl, id⟩
    | received data =>
        have res : (ReadResult.received data).res = data.length := rfl
        by_cases silent : data = []
        · subst silent
          rw [if_neg (by simp [res])]
          exact .silent drained reply
        · have positive := List.length_pos_iff.mpr silent
          rw [if_pos (by omega), res]
          have least := (bridge.filled (.received data) data.length).realLen_bound.1
          by_cases whole : ((bridge.filled (.received data) data.length).realLen : Int) ≤ data.length
          · have header : 2 ≤ data.length := by omega
            rw [if_pos whole, realLen_filled header]
            rw [realLen_filled header] at whole
            exact .fresh drained reply silent header (by omega)
          · rw [if_neg whole]
            refine ⟨rfl, ?_⟩
            rintro (none | ⟨header, fits⟩)
            · exact silent none
            · rw [realLen_filled header] at whole
              omega
  · rw [if_neg drained]
    exact .busy (by omega)

namespace PumpStep

variable {after : Bridge}

/-- The read side is left alone. -/
theorem kept (step : PumpStep pass bridge after) :
    after = bridge ∨ ∃ len, after = bridge.filled pass.reply len ∧ len ≤ pass.reply.res := by
  cases step with
  | busy => exact Or.inl rfl
  | silent _ reply => exact Or.inr ⟨0, by rw [reply], by simp [reply, ReadResult.res]⟩
  | fresh _ reply _ _ whole =>
      refine Or.inr ⟨_, by rw [reply], ?_⟩
      rw [reply, ReadResult.res]
      omega

theorem connection (step : PumpStep pass bridge after) : after.netConnection = bridge.netConnection := by
  rcases step.kept with rfl | ⟨len, rfl, _⟩ <;> rfl

theorem tcpRead (step : PumpStep pass bridge after) : after.tcpRead = bridge.tcpRead := by
  rcases step.kept with rfl | ⟨len, rfl, _⟩ <;> rfl

end PumpStep

/-- What is left of the reply that is being sent. -/
def Bridge.owed (bridge : Bridge) : Bytes := bridge.writeBuf.load bridge.writePos.toNat bridge.writeLen.toNat

/-- The bridge after a `write` of what is owed that returned `res`. -/
def Bridge.sent (bridge : Bridge) (res : Int) : Bridge :=
  { bridge with
    writeLen := bridge.writeLen - max res 0
    writePos := bridge.writePos + max res 0
    log := bridge.log ++ [.wrote bridge.owed res] }

/-- The reply that is being sent lies inside the buffer. -/
def Bridge.Inside (bridge : Bridge) : Prop :=
  0 < bridge.writeLen → 0 ≤ bridge.writePos ∧ bridge.writePos + bridge.writeLen ≤ 65537

theorem inside_pump {after : Bridge} (inside : bridge.Inside) (step : PumpStep pass bridge after) : after.Inside := by
  cases step with
  | busy => exact inside
  | silent => exact fun more => absurd more (Int.lt_irrefl 0)
  | @fresh data _ _ _ header whole =>
      have bound := leValue_lt (data.take 2)
      rw [List.length_take, Nat.min_eq_left header] at bound
      refine fun _ => ⟨Int.le_refl 0, ?_⟩
      simp only [Bridge.filled]
      omega

theorem writeSide_idle (idle : ¬ (pass.writeReady = true ∧ 0 < bridge.writeLen)) :
    writeSide pass bridge = (some (), bridge) := by
  rw [writeSide, if_neg idle]

theorem socketWrite_bounds (taken : Int) (length : Nat) :
    -1 ≤ socketWrite taken length ∧ socketWrite taken length ≤ length := by
  unfold socketWrite
  split <;> omega

theorem inside_sent (inside : bridge.Inside) (more : 0 < bridge.writeLen) (res : Int) : (bridge.sent res).Inside := by
  obtain ⟨front, back⟩ := inside more
  refine fun _ => ?_
  simp only [Bridge.sent]
  omega

theorem writeSide_unconnected (gone : bridge.netConnection ≠ .connected) :
    writeSide pass bridge = (some (), bridge) := by
  by_cases busy : pass.writeReady = true ∧ 0 < bridge.writeLen
  · have call : ∀ bytes room, cNetWriteTcp bytes room pass.replyTaken bridge = (some 0, bridge) := by
      intro bytes room
      rw [cNetWriteTcp]
      split
      · rfl
      · rfl
    rw [writeSide, if_pos busy, Proc.bind_returned (call _ _)]
    rfl
  · exact writeSide_idle busy

theorem writeSide_sends (connected : bridge.netConnection = .connected) (ready : pass.writeReady = true)
    (more : 0 < bridge.writeLen) (inside : bridge.Inside) :
    writeSide pass bridge =
      (some (), bridge.sent (socketWrite pass.replyTaken bridge.writeLen.toNat)) := by
  obtain ⟨front, back⟩ := inside more
  have length : (UInt32.ofInt bridge.writeLen).toNat = bridge.writeLen.toNat := by
    have nat : (bridge.writeLen.toNat : Int) = bridge.writeLen := by omega
    rw [← nat, toNat_ofInt (by omega), Int.toNat_natCast]
  have owedLength : bridge.owed.length = bridge.writeLen.toNat := Memory.load_length ..
  have nonempty : bridge.owed ≠ [] := by
    apply List.length_pos_iff.mp
    omega
  have room : bridge.owed.length ≤ bridgeBufSize - bridge.writePos.toNat := by
    rw [owedLength, bridgeBufSize]
    omega
  have wrote := cNetWriteTcp_run connected nonempty room pass.replyTaken
  obtain ⟨low, high⟩ := socketWrite_bounds pass.replyTaken bridge.writeLen.toNat
  rw [writeSide, if_pos ⟨ready, more⟩, length]
  rw [owedLength] at wrote
  rw [Bridge.owed] at wrote
  rw [Proc.bind_returned wrote, signed_ofInt low (by omega)]
  by_cases some : 0 < socketWrite pass.replyTaken bridge.writeLen.toNat
  · have whole : max (socketWrite pass.replyTaken bridge.writeLen.toNat) 0 =
        socketWrite pass.replyTaken bridge.writeLen.toNat := by omega
    rw [if_pos some, Bridge.sent, whole]
    rfl
  · have none : max (socketWrite pass.replyTaken bridge.writeLen.toNat) 0 = 0 := by omega
    rw [if_neg some, Bridge.sent, none, Int.sub_zero, Int.add_zero]
    rfl

theorem cNetWriteTcp_after (bytes : Bytes) (room : Nat) (taken : Int) (bridge : Bridge) :
    (cNetWriteTcp bytes room taken bridge).2 = bridge ∨
      ∃ res, (cNetWriteTcp bytes room taken bridge).2 = bridge.logged [.wrote bytes res] := by
  rw [cNetWriteTcp]
  split
  · exact Or.inl rfl
  · split
    · exact Or.inl rfl
    · by_cases beyond : room < bytes.length
      · rw [hexdump, if_pos beyond]
        exact Or.inl rfl
      · rw [hexdump, if_neg beyond]
        exact Or.inr ⟨_, rfl⟩

/-- Only the position in the reply and the log differ, and the log by writes. -/
def Writes (before after : Bridge) : Prop :=
  ∃ events len pos, after = { before with writeLen := len, writePos := pos, log := before.log ++ events } ∧
    ∀ event ∈ events, ∃ bytes res, event = .wrote bytes res

theorem Writes.refl (bridge : Bridge) : Writes bridge bridge :=
  ⟨[], bridge.writeLen, bridge.writePos, by simp, by simp⟩

theorem writeSide_writes (pass : Pass) (bridge : Bridge) : Writes bridge (writeSide pass bridge).2 := by
  rw [writeSide]
  split
  · refine Proc.bind_keeps ?_ fun value after _ writes => ?_
    · rcases cNetWriteTcp_after (bridge.writeBuf.load bridge.writePos.toNat (UInt32.ofInt bridge.writeLen).toNat)
        (bridgeBufSize - bridge.writePos.toNat) pass.replyTaken bridge with same | ⟨res, wrote⟩
      · rw [same]
        exact Writes.refl bridge
      · rw [wrote]
        exact ⟨[.wrote _ res], bridge.writeLen, bridge.writePos, rfl, by simp⟩
    · obtain ⟨events, len, pos, rfl, known⟩ := writes
      split
      · exact ⟨events, _, _, rfl, known⟩
      · exact ⟨events, len, pos, rfl, known⟩
  · exact Writes.refl bridge

theorem bridgePass_connected (connected : bridge.netConnection = .connected) :
    bridgePass pass bridge = serveClient pass bridge := by
  rw [bridgePass, connected]

theorem bridgePass_notConnected (waiting : bridge.netConnection = .notConnected) :
    bridgePass pass bridge = awaitClient pass bridge := by
  rw [bridgePass, waiting]

theorem bridgePass_closed (closed : bridge.netConnection = .closed) :
    bridgePass pass bridge = (some (), bridge) := by
  rw [bridgePass, closed]

/-- Everything the wait for a client can do. -/
theorem awaitClient_run (pass : Pass) (bridge : Bridge) :
    awaitClient pass bridge =
      (some (),
        if pass.accepts then bridge.accepted
        else if pass.beaconFails then bridge.shut
        else bridge) := by
  rw [awaitClient]
  cases pass.accepts <;> cases pass.beaconFails <;> rfl

theorem awaitClient_alone (alone : pass.accepts = false) :
    awaitClient pass bridge = (some (), bridge) ∨ awaitClient pass bridge = (some (), bridge.shut) := by
  rw [awaitClient_run, alone]
  cases pass.beaconFails with
  | true => exact Or.inr rfl
  | false => exact Or.inl rfl

/-- A pass of the loop, for what its two kinds guarantee. -/
theorem bridgePass_ends {invariant safe : Bridge → Prop} (goes : bridge.going = true)
    (waits : bridge.netConnection = .notConnected →
      Proc.Ends (awaitClient pass) bridge (fun _ => invariant) safe)
    (serves : bridge.netConnection = .connected → Proc.Ends (serveClient pass) bridge (fun _ => invariant) safe) :
    Proc.Ends (bridgePass pass) bridge (fun _ => invariant) safe := by
  cases state : bridge.netConnection with
  | notConnected =>
      rw [Proc.Ends, bridgePass_notConnected state]
      exact waits state
  | connected =>
      rw [Proc.Ends, bridgePass_connected state]
      exact serves state
  | closed => simp [Bridge.going, state] at goes

end Sides

end Ev3duder
