import Ev3duder.Bridge.Frames
import Ev3duder.Transport.Selection

namespace Ev3duder

open Data BridgeEvent

/-! # `tcp_open` and `tcp_write` at the other end of the bridge -/

/-- The fields of `struct tcp_handle` that the request is made of. -/
structure TcpHandle where
  serial : CString
  protocol : CString
  serialFits : serial.bytes.length < 15
  protocolFits : protocol.bytes.length < 8

def getLine (handle : TcpHandle) : Bytes :=
  ascii "GET /target?sn=" ++ handle.serial.bytes ++ ascii " VMTP1.0\nProtocol: " ++ handle.protocol.bytes

/-- What `sendto` gets: as many bytes of `buffer` as `snprintf` says the line has. -/
def tcpRequest (handle : TcpHandle) (buffer : Memory) : Bytes :=
  (buffer.store ((getLine handle).take 127 ++ [0])).load 0 (getLine handle).length

theorem getLine_length (handle : TcpHandle) : (getLine handle).length ≤ 55 := by
  have serial := handle.serialFits
  have protocol := handle.protocolFits
  have front : (ascii "GET /target?sn=").length = 15 := by decide +kernel
  have middle : (ascii " VMTP1.0\nProtocol: ").length = 19 := by decide +kernel
  simp only [getLine, List.length_append, front, middle]
  omega

theorem getLine_noNul (handle : TcpHandle) : 0 ∉ getLine handle := by
  have front : 0 ∉ ascii "GET /target?sn=" := by decide +kernel
  have middle : 0 ∉ ascii " VMTP1.0\nProtocol: " := by decide +kernel
  simp only [getLine, List.mem_append, not_or]
  exact ⟨⟨⟨front, handle.serial.noNul⟩, middle⟩, handle.protocol.noNul⟩

theorem getLine_asks (handle : TcpHandle) : requestText <:+: getLine handle := by
  have front : requestText <:+: ascii "GET /target?sn=" := (strstr_iff _ _).mp (by decide +kernel)
  refine front.trans ?_
  simp only [getLine, List.append_assoc]
  exact (List.prefix_append _ _).isInfix

theorem tcpRequest_line (handle : TcpHandle) (buffer : Memory) : tcpRequest handle buffer = getLine handle := by
  have length := getLine_length handle
  have whole : (getLine handle).take 127 = getLine handle := List.take_of_length_le (by omega)
  rw [tcpRequest, whole, Memory.load_store (by rw [List.length_append]; omega), List.drop_zero, List.take_left]

/-- The part of what lies in the socket that the next `read` asks for. -/
def Bridge.brings (bridge : Bridge) (bytes : Bytes) : Bytes :=
  match bridge.tcpRead with
  | .idle => []
  | .waitOnStart => bytes.take 100
  | .waitOnLength => bytes.take 2
  | .waitOnOnlyChunk => bytes.take bridge.tcpRestLen.toNat

/-- The brick sends whole frames and takes what it is sent.  A read brings the next bytes of what the client sends:
the request at once, the two bytes of a length together, and of a body any piece. -/
structure LinkedPass (client : BridgeClient) (bridge : Bridge) (pass : Pass) : Prop where
  reply : WholeReply pass.reply
  taken : ∀ count, pass.packetTaken count = count
  read : pass.readReady = true → ∃ bytes, pass.received = some bytes ∧ bytes ≠ [] ∧
    delivered bridge.log ++ bridge.brings bytes <+: client.stream ∧
    (bridge.tcpRead = .waitOnStart → bytes = client.request) ∧
    (bridge.tcpRead = .waitOnLength → 2 ≤ bytes.length)

/-- The client's request was answered. -/
def Greeted (log : List BridgeEvent) : Prop := ∃ res, .wrote acceptText res ∈ sinceAccepted log

theorem greeted_snoc {log : List BridgeEvent} {event : BridgeEvent} (answered : Greeted log)
    (other : event ≠ .accepted) : Greeted (log ++ [event]) := by
  obtain ⟨res, member⟩ := answered
  refine ⟨res, ?_⟩
  rw [sinceAccepted_snoc other]
  exact List.mem_append_left _ member

/-- Before the request nothing was read; behind it the client is unlocked and answered. -/
structure Linked (client : BridgeClient) (bridge : Bridge) : Prop where
  connected : bridge.netConnection = .connected
  front : bridge.readBuf 0 = 0
  inside : bridge.Inside
  receiving : Receiving client bridge
  greeted : (bridge.tcpRead = .waitOnStart ∧ delivered bridge.log = []) ∨
    (bridge.unlocked = true ∧ Greeted bridge.log)

section Linked

variable {client : BridgeClient} {pass : Pass} {bridge after : Bridge}

theorem request_found (noNul : 0 ∉ client.request) (bridge : Bridge) :
    strstr (bridge.stored 0 (client.request.take 100)).buffered requestText = true := by
  have whole : client.request.take 100 = client.request := List.take_of_length_le client.line
  have fits : client.request.length ≤ bridgeBufSize - 1 := Nat.le_trans client.line (by decide)
  rw [strstr_iff, whole]
  exact client.asks.trans (Memory.cstring_begins Memory.storeAt_load noNul fits).isInfix

theorem Linked.same (linked : Linked client bridge) (same : SameReader bridge after) (inside : after.Inside)
    (answered : Greeted bridge.log → Greeted after.log) : Linked client after := by
  refine ⟨same.connection.trans linked.connected, same.readBuf ▸ linked.front, inside, linked.receiving.same same, ?_⟩
  rw [Bridge.unlocked, same.tcpRead, same.delivered]
  exact linked.greeted.imp_right fun behind => ⟨behind.1, answered behind.2⟩

theorem linked_pump (linked : Linked client bridge) (step : PumpStep pass bridge after) : Linked client after := by
  refine linked.same step.sameReader (inside_pump linked.inside step) fun answered => ?_
  rcases step.kept with rfl | ⟨len, rfl, _⟩
  · exact answered
  · exact greeted_snoc answered (by simp)

theorem linked_writeSide (pass : Pass) (linked : Linked client bridge) :
    ∃ after, writeSide pass bridge = (some (), after) ∧ Linked client after := by
  by_cases busy : pass.writeReady = true ∧ 0 < bridge.writeLen
  · obtain ⟨ready, more⟩ := busy
    have run := writeSide_sends linked.connected ready more linked.inside
    have same := sameReader_writeSide pass bridge
    rw [run] at same
    refine ⟨_, run, linked.same same (inside_sent linked.inside more _) fun answered => ?_⟩
    exact greeted_snoc answered (by simp)
  · exact ⟨bridge, writeSide_idle busy, linked⟩

theorem LinkedPass.same (meets : LinkedPass client bridge pass) (same : SameReader bridge after) :
    LinkedPass client after pass := by
  have brings : after.brings = bridge.brings := by
    funext bytes
    simp only [Bridge.brings, same.tcpRead, same.restLen]
  refine ⟨meets.reply, meets.taken, fun ready => ?_⟩
  rw [brings, same.tcpRead, same.delivered]
  exact meets.read ready

/-- The read side while a body is being received: the state carries enough for every access. -/
theorem Receiving.room (receiving : Receiving client bridge) (state : bridge.tcpRead = .waitOnOnlyChunk) :
    0 < bridge.tcpRestLen.toNat ∧ bridge.tcpTotalLength.toNat ≤ 65537 ∧
      bridge.tcpReadBufPointer.toNat + bridge.tcpRestLen.toNat ≤ 65537 := by
  cases receiving with
  | request other => cases state.symm.trans other
  | between other => cases state.symm.trans other
  | @inside done rest part left _ frames more _ _ _ pointer total restLen =>
      have member : part ++ left ∈ client.frames := by simp [frames]
      obtain ⟨_, limit⟩ := frame_length_bound member
      have positive := List.length_pos_iff.mpr more
      rw [List.length_append] at limit total
      omega

theorem greeted_answered (bridge : Bridge) (taken : Int) : Greeted (bridge.answered taken).log := by
  refine greeted_snoc ⟨socketWrite taken acceptText.length, ?_⟩ (by simp)
  rw [sinceAccepted_snoc (by simp)]
  exact List.mem_append_right _ List.mem_cons_self

/-- One call of `cNetReadTcp` for a linked client: it returns, and the connection goes on. -/
theorem netRead_linked {result : Option UInt32} (read : NetRead pass bridge result after)
    (ready : pass.readReady = true) (linked : Linked client bridge) (meets : LinkedPass client bridge pass)
    (noNul : 0 ∉ client.request) :
    (result = some 0 ∧ Linked client after) ∨ (result = some after.tcpTotalLength ∧ after.readBuf 0 = 0 ∧
      after.Inside ∧ Greeted after.log ∧ ∃ frame ∈ client.frames, Complete client after frame) := by
  obtain ⟨connected, front, inside, receiving, greeted⟩ := linked
  obtain ⟨bytes, came, more, stream, asks, header⟩ := meets.read ready
  have zero := (netRead_front read).trans front
  have behind : bridge.tcpRead ≠ .waitOnStart → Greeted bridge.log := fun past =>
    (greeted.resolve_left fun before => past before.1).2
  cases read with
  | idle => exact Or.inl ⟨rfl, connected, front, inside, receiving, greeted⟩
  | startFailed _ failed => cases failed.symm.trans came
  | startEnded _ ended =>
      cases ended.symm.trans came
      exact absurd rfl more
  | startMissed state other _ missed =>
      cases other.symm.trans came
      rw [asks state, request_found noNul bridge] at missed
      cases missed
  | startFound state other _ found =>
      cases other.symm.trans came
      have line : bytes.take 100 = client.request := by rw [asks state, List.take_of_length_le client.line]
      rcases greeted with ⟨_, nothing⟩ | ⟨unlocked, _⟩
      · have request : delivered bridge.log ++ bytes.take 100 = client.request := by rw [nothing, line, List.nil_append]
        have answered := receiving_answered receiving state request pass.answerTaken
        exact Or.inl ⟨rfl, connected, zero, inside, answered, Or.inr ⟨rfl, greeted_answered _ _⟩⟩
      · simp [Bridge.unlocked, state] at unlocked
  | lengthFailed _ failed => cases failed.symm.trans came
  | lengthShort state other short =>
      cases other.symm.trans came
      exact absurd (header state) (by omega)
  | length state other complete =>
      cases other.symm.trans came
      have two : (bytes.take 2).length = 2 := List.length_take_of_le complete
      have brings : bridge.brings bytes = bytes.take 2 := by simp only [Bridge.brings, state]
      rw [brings] at stream
      refine Or.inl ⟨rfl, connected, zero, inside, receiving_length two receiving state stream, Or.inr ⟨rfl, ?_⟩⟩
      exact greeted_snoc (behind (by rw [state]; decide)) (by simp)
  | chunkTooLarge state large =>
      obtain ⟨_, limit, _⟩ := receiving.room state
      exact absurd large (chunk_small limit)
  | chunkOutside state other outside =>
      obtain ⟨_, _, room⟩ := receiving.room state
      exact absurd outside (chunk_inside room)
  | chunkEnded state other ended =>
      cases other.symm.trans came
      obtain ⟨positive, _⟩ := receiving.room state
      rcases List.take_eq_nil_iff.mp ended with none | none
      · omega
      · exact absurd none more
  | chunkDone state small call some complete =>
      have brings : bridge.brings bytes = bytes.take bridge.tcpRestLen.toNat := by simp only [Bridge.brings, state]
      rw [brings] at stream
      obtain ⟨count, rfl⟩ := readSocket_came came call
      have done := (receiving_chunk receiving connected state (List.length_take_le _ _) count stream).1 complete
      exact Or.inr ⟨rfl, zero, inside, greeted_snoc (behind (by rw [state]; decide)) (by simp), done⟩
  | chunkPart state small call some partly =>
      have brings : bridge.brings bytes = bytes.take bridge.tcpRestLen.toNat := by simp only [Bridge.brings, state]
      rw [brings] at stream
      obtain ⟨count, rfl⟩ := readSocket_came came call
      have going := (receiving_chunk receiving connected state (List.length_take_le _ _) count stream).2 partly
      refine Or.inl ⟨rfl, connected, zero, inside, going, Or.inr ⟨unlocked_chunk state, ?_⟩⟩
      exact greeted_snoc (behind (by rw [state]; decide)) (by simp)

/-- The frame goes to the brick, which takes all of it. -/
theorem linked_handOver {frame : Bytes} (complete : Complete client bridge frame) (member : frame ∈ client.frames)
    (front : bridge.readBuf 0 = 0) (inside : bridge.Inside) (greeted : Greeted bridge.log)
    (taken : ∀ count, pass.packetTaken count = count) :
    handOver pass bridge.tcpTotalLength.toInt32.toInt bridge =
        (some true, bridge.handed pass bridge.tcpTotalLength.toInt32.toInt) ∧
      Linked client (bridge.handed pass bridge.tcpTotalLength.toInt32.toInt) := by
  obtain ⟨bound, limit⟩ := frame_length_bound member
  have len : bridge.tcpTotalLength.toInt32.toInt = frame.length := by
    rw [signed_eq (by rw [complete.total]; omega), complete.total]
  constructor
  · rw [handOver_run, if_pos (by omega), if_neg]
    rw [taken]
    omega
  · exact ⟨complete.connected, front, inside, complete_handed complete member front pass,
      Or.inr ⟨unlocked_length complete.state, greeted_snoc greeted (by simp)⟩⟩

theorem linked_readSide (linked : Linked client bridge) (meets : LinkedPass client bridge pass)
    (noNul : 0 ∉ client.request) : ∃ after, readSide pass bridge = (some true, after) ∧ Linked client after := by
  cases ready : pass.readReady with
  | false => exact ⟨bridge, readSide_idle ready, linked⟩
  | true =>
      rcases call : cNetReadTcp pass (UInt32.ofNat (bridgeBufSize - 1)) bridge with ⟨result, after⟩
      have read : NetRead pass bridge result after := by
        have cases : NetRead pass bridge _ _ := cNetReadTcp_cases linked.connected
        rwa [call] at cases
      rcases netRead_linked read ready linked meets noNul with
        ⟨rfl, linked⟩ | ⟨rfl, front, inside, greeted, frame, member, complete⟩
      · exact ⟨after, readSide_returned ready call, linked⟩
      · obtain ⟨run, linked⟩ := linked_handOver complete member front inside greeted meets.taken
        exact ⟨_, (readSide_returned ready call).trans run, linked⟩

theorem linked_bridgePass (linked : Linked client bridge) (meets : LinkedPass client bridge pass)
    (noNul : 0 ∉ client.request) : ∃ after, bridgePass pass bridge = (some (), after) ∧ Linked client after := by
  have pumping := pumpReply_cases pass bridge
  unfold Proc.Ends at pumping
  rcases run : pumpReply pass bridge with ⟨_ | _, pumped⟩
  · rw [run] at pumping
    exact absurd meets.reply pumping.2
  · rw [run] at pumping
    have step : PumpStep pass bridge pumped := pumping
    obtain ⟨read, reading, linkedRead⟩ := linked_readSide (linked_pump linked step) (meets.same step.sameReader) noNul
    obtain ⟨after, writing, linkedAfter⟩ := linked_writeSide pass linkedRead
    refine ⟨after, ?_, linkedAfter⟩
    rw [bridgePass_connected linked.connected, serveClient, Proc.bind_returned run, Proc.bind_returned reading,
      if_pos rfl, writing]

end Linked

theorem linked_accepted (client : BridgeClient) : Linked client Bridge.started.accepted := by
  have begun : Receiving client Bridge.started.accepted := by
    refine .request rfl ?_ (packetsHanded_accepted _)
    rw [delivered_accepted]
    exact List.nil_prefix
  exact ⟨rfl, rfl, fun more => absurd more (Int.lt_irrefl 0), begun, Or.inl ⟨rfl, delivered_accepted _⟩⟩

theorem linked_bridgeLoop {client : BridgeClient} (noNul : 0 ∉ client.request) {coming : List Pass} {bridge : Bridge}
    (linked : Linked client bridge) (meets : Along Bridge.going bridgePass (LinkedPass client) coming bridge) :
    ∃ after, bridgeLoop coming bridge = (some (), after) ∧ Linked client after := by
  have run : Proc.Ends (bridgeLoop coming) bridge (fun _ => Linked client) fun _ => False := by
    refine passes_ends (fun bridge pass _ linked meets => ?_) linked meets
    obtain ⟨after, ends, linked⟩ := linked_bridgePass linked meets noNul
    rw [Proc.Ends, ends]
    exact linked
  unfold Proc.Ends at run
  rcases ends : bridgeLoop coming bridge with ⟨_ | _, after⟩
  · rw [ends] at run
    exact run.elim
  · rw [ends] at run
    exact ⟨after, rfl, run⟩

/-- What `tcp_open` and then `tcp_write` send. -/
def tcpClient (handle : TcpHandle) (packets : List HidPacket) (bodies : ∀ packet ∈ packets, packet.body ≠ []) :
    BridgeClient where
  request := getLine handle
  frames := packets.map HidPacket.frame
  line := Nat.le_trans (getLine_length handle) (by decide)
  asks := getLine_asks handle
  framed := by
    intro frame member
    obtain ⟨packet, inside, rfl⟩ := List.mem_map.mp member
    have positive := List.length_pos_iff.mpr (bodies packet inside)
    refine ⟨packet.framed, ?_⟩
    rw [packet.frame_length]
    omega

/-- When every call reports all of its packet as written, all of it was. -/
theorem btWriteAll_sent (fd : WriteEnd) (packets : List HidPacket)
    (sent : (btWriteAll fd (packets.map HidPacket.bytes)).1 = packets.map fun packet => (packet.frame.length : Int)) :
    (btWriteAll fd (packets.map HidPacket.bytes)).2.written = fd.written ++ (packets.map HidPacket.frame).flatten := by
  induction packets generalizing fd with
  | nil => simp [btWriteAll]
  | cons packet rest ih =>
      obtain ⟨count, within, result, written⟩ := btWrite_result fd packet.bytes
      simp only [List.map_cons, btWriteAll, List.cons.injEq] at sent ⊢
      obtain ⟨first, later⟩ := sent
      have all : count = packet.frame.length := by omega
      have body : packet.bytes.drop 1 = packet.frame := rfl
      rw [ih _ later, written, body, all, List.take_length, List.flatten_cons, List.append_assoc]

theorem handedPacket_frame {packet : HidPacket} (hid : packet.hid = 0) :
    handedPacket packet.frame = (packet.bytes, packet.bytes.length) := by
  rw [handedPacket, HidPacket.bytes, hid, List.length_cons]

theorem tcp_client_through_bridge (handle : TcpHandle) (buffer : Memory) (packets : List HidPacket)
    (hid : ∀ packet ∈ packets, packet.hid = 0) (bodies : ∀ packet ∈ packets, packet.body ≠ []) (answers : Answers)
    (sent : (btWriteAll ⟨[], answers⟩ (packets.map HidPacket.bytes)).1 =
      packets.map fun packet => (packet.frame.length : Int))
    (connecting : Pass) (accepts : connecting.accepts = true) (coming : List Pass)
    (linked : Along Bridge.going bridgePass (LinkedPass (tcpClient handle packets bodies)) coming
      Bridge.started.accepted) :
    (tcpRequest handle buffer).length ≤ 100 ∧ acceptText.length = 16 ∧
      (tcpClient handle packets bodies).stream =
        tcpRequest handle buffer ++ (btWriteAll ⟨[], answers⟩ (packets.map HidPacket.bytes)).2.written ∧
      ∃ after, bridgeLoop (connecting :: coming) Bridge.started = (some (), after) ∧
        after.netConnection = .connected ∧
        (delivered after.log ≠ [] → after.unlocked = true ∧ Greeted after.log) ∧
        packetsHanded after.log <+: packets.map (fun packet => (packet.bytes, packet.bytes.length)) ∧
        (delivered after.log = (tcpClient handle packets bodies).stream →
          packetsHanded after.log = packets.map fun packet => (packet.bytes, packet.bytes.length)) := by
  have joined : bridgePass connecting Bridge.started = (some (), Bridge.started.accepted) := by
    rw [bridgePass_notConnected rfl, awaitClient_run, accepts, if_pos rfl]
  obtain ⟨after, run, connected, _, _, receiving, greeted⟩ :=
    linked_bridgeLoop (getLine_noNul handle) (linked_accepted (tcpClient handle packets bodies)) linked
  have short : (getLine handle).length ≤ 100 := Nat.le_trans (getLine_length handle) (by decide)
  have wire : (tcpClient handle packets bodies).stream =
      getLine handle ++ (btWriteAll ⟨[], answers⟩ (packets.map HidPacket.bytes)).2.written := by
    rw [btWriteAll_sent _ _ sent]
    rfl
  have buffers : (packets.map HidPacket.frame).map handedPacket =
      packets.map fun packet => (packet.bytes, packet.bytes.length) := by
    rw [List.map_map]
    exact List.map_congr_left fun packet member => handedPacket_frame (hid packet member)
  have handed := receiving.handedOver
  rw [tcpRequest_line]
  refine ⟨short, by decide +kernel, wire, after, ?_, connected, fun some => ?_, ?_, fun all => ?_⟩
  · exact (passes_next rfl joined).trans run
  · exact greeted.resolve_left fun before => some before.2
  · rw [handed, ← buffers]
    exact (framesWithin_begins _ _).map handedPacket
  · have length : (delivered after.log).length - (getLine handle).length =
        (packets.map HidPacket.frame).flatten.length := by
      rw [all, BridgeClient.stream, List.length_append]
      exact Nat.add_sub_cancel_left _ _
    rw [handed, ← buffers]
    change (framesWithin (packets.map HidPacket.frame) ((delivered after.log).length - (getLine handle).length)).map
      handedPacket = _
    rw [length, framesWithin_all]

def firstHandle : TcpHandle := ⟨⟨ascii "1", by decide +kernel⟩, ⟨ascii "EV3", by decide +kernel⟩, by decide, by decide⟩

def shortPacket : HidPacket := ⟨0, [7, 8], by decide⟩

/-- A pass without a request, the request, and a packet whose body comes in two pieces. -/
def firstPasses : List Pass := {} :: arriving [getLine firstHandle, [2, 0], [7], [8]]

theorem shortPacket_bodies : ∀ packet ∈ [shortPacket], packet.body ≠ [] := by
  intro packet member
  cases List.mem_singleton.mp member
  decide

theorem linkedPass_piece {bridge : Bridge} {bytes : Bytes} (more : bytes ≠ [])
    (stream : delivered bridge.log ++ bridge.brings bytes <+:
      (tcpClient firstHandle [shortPacket] shortPacket_bodies).stream)
    (asks : bridge.tcpRead = .waitOnStart → bytes = getLine firstHandle)
    (header : bridge.tcpRead = .waitOnLength → 2 ≤ bytes.length) :
    LinkedPass (tcpClient firstHandle [shortPacket] shortPacket_bodies) bridge
      { readReady := true, received := some bytes } :=
  ⟨Or.inl rfl, fun _ => rfl, fun _ => ⟨bytes, rfl, more, stream, asks, header⟩⟩

theorem tcp_client_through_bridge_packet :
    packetsHanded (bridgeLoop ({ accepts := true } :: firstPasses) Bridge.started).2.log =
      [([0, 2, 0, 7, 8], 5)] := by
  have progress : Progress [1, 2] := by
    unfold Progress
    decide
  obtain ⟨later, written⟩ := btWriteAll_packets ⟨[], [1, 2]⟩ progress [shortPacket]
  have linked : Along Bridge.going bridgePass
      (LinkedPass (tcpClient firstHandle [shortPacket] shortPacket_bodies)) firstPasses Bridge.started.accepted := by
    refine along_cons (fun _ => ⟨Or.inl rfl, fun _ => rfl, nofun⟩)
      (along_cons (fun _ => linkedPass_piece ?_ ?_ (fun _ => rfl) nofun)
        (along_cons (fun _ => linkedPass_piece ?_ ?_ ?_ fun _ => ?_)
          (along_cons (fun _ => linkedPass_piece ?_ ?_ ?_ ?_)
            (along_cons (fun _ => linkedPass_piece ?_ ?_ ?_ ?_) trivial))))
    all_goals decide +kernel
  obtain ⟨_, _, _, after, run, _, _, _, handed⟩ := tcp_client_through_bridge firstHandle (fun _ => 0) [shortPacket]
    (by intro packet member; cases List.mem_singleton.mp member; rfl) shortPacket_bodies [1, 2]
    (by rw [written]; rfl) { accepts := true } rfl firstPasses linked
  have all : delivered (bridgeLoop ({ accepts := true } :: firstPasses) Bridge.started).2.log =
      (tcpClient firstHandle [shortPacket] shortPacket_bodies).stream := by decide +kernel
  rw [run] at all ⊢
  exact handed all

end Ev3duder
