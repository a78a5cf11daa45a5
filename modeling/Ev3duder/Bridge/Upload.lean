import Ev3duder.Bridge.Client
import Ev3duder.Commands.Framing
import Ev3duder.Commands.Interrupted

namespace Ev3duder

open Data

/-! # A file goes to the brick through the bridge

At one end a program that uploads over TCP, at the other the brick; between them the network, which brings the request
and each length in one read, cuts what follows a length as it likes, and may stop at any time.
-/

section Packets

variable {path : CString} {content : Bytes} {writes : List Int} {reads : List ReadResult} {junk : Nat → Memory}
  {packet : Bytes}

theorem uploadChunks_long {bdrep : Reply} {blocks : List Bytes} {answers : List ReadResult}
    (member : packet ∈ uploadChunks bdrep blocks answers) : 8 ≤ packet.length := by
  induction blocks generalizing bdrep answers with
  | nil => simp [uploadChunks] at member
  | cons block blocks ih =>
      rcases List.mem_cons.mp member with rfl | later
      · rw [chunkPacket_length]
        exact Nat.le_add_right 8 _
      · exact ih later

theorem upload_long (member : packet ∈ packetsOf (up path (upSession content [] writes reads junk)).2.log) :
    3 < packet.length := by
  obtain ⟨count, packets, _⟩ := up_hands path (upSession content [] writes reads junk) rfl rfl
  rw [packets] at member
  rcases List.mem_cons.mp (List.mem_of_mem_take member) with rfl | chunk
  · simp [Packet.toBytes, Packet.tail, beginDownload, CommandFields.tail]
    omega
  · have long := uploadChunks_long chunk
    omega

/-- Every packet of an upload is a frame behind the HID byte, and not an empty one. -/
theorem upload_framed (member : packet ∈ packetsOf (up path (upSession content [] writes reads junk)).2.log) :
    packet[0]? = some 0 ∧ Framed (packet.drop 1) ∧ 2 < (packet.drop 1).length := by
  have long := upload_long member
  obtain ⟨events, log, framed⟩ := up_frames path (upSession content [] writes reads junk)
  have whole : (up path (upSession content [] writes reads junk)).2.log = events := log
  rw [whole] at member
  obtain ⟨event, there, written⟩ := List.mem_filterMap.mp member
  cases event with
  | read => cases written
  | write sent count res =>
      cases written
      have good : WellFramed sent count := framed _ there
      refine ⟨good.2.1, wellFramed_drop good, ?_⟩
      rw [List.length_drop]
      exact Nat.lt_sub_of_add_lt long

end Packets

/-- What `tcp_open` and then `tcp_write` send while a file is uploaded. -/
def uploadClient (handle : TcpHandle) (path : CString) (content : Bytes) (writes : List Int) (reads : List ReadResult)
    (junk : Nat → Memory) : BridgeClient :=
  { tcpClient handle [] (List.forall_mem_nil _) with
    frames := (packetsOf (up path (upSession content [] writes reads junk)).2.log).map (List.drop 1)
    framed := by
      intro frame member
      obtain ⟨packet, inside, rfl⟩ := List.mem_map.mp member
      exact (upload_framed inside).2 }

theorem uploadClient_stream (handle : TcpHandle) (path : CString) (content : Bytes) (writes : List Int)
    (reads : List ReadResult) (junk : Nat → Memory) : (uploadClient handle path content writes reads junk).stream =
      getLine handle ++
        ((packetsOf (up path (upSession content [] writes reads junk)).2.log).map (List.drop 1)).flatten :=
  rfl

/-- When every call reports all of its packet as written, all of it was. -/
theorem btWriteAll_frames (fd : WriteEnd) (packets : List Bytes)
    (sent : (btWriteAll fd packets).1 = packets.map fun packet => ((packet.drop 1).length : Int)) :
    (btWriteAll fd packets).2.written = fd.written ++ (packets.map (List.drop 1)).flatten := by
  induction packets generalizing fd with
  | nil => simp [btWriteAll]
  | cons packet rest ih =>
      obtain ⟨count, within, result, written⟩ := btWrite_result fd packet
      simp only [List.map_cons, btWriteAll, List.cons.injEq] at sent ⊢
      obtain ⟨first, later⟩ := sent
      have all : count = (packet.drop 1).length := by omega
      rw [ih _ later, written, all, List.take_length, List.flatten_cons, List.append_assoc]

theorem handedPacket_drop {packet : Bytes} (hid : packet[0]? = some 0) :
    handedPacket (packet.drop 1) = (packet, packet.length) := by
  cases packet with
  | nil => cases hid
  | cons byte rest =>
      cases hid
      rfl

section Through

variable {path : CString} {content : Bytes} {writes : List Int} {reads : List ReadResult} {junk : Nat → Memory}
  {handle : TcpHandle} {log : List BridgeEvent}

/-- What the bridge has handed to the brick are the first packets of the upload; all of them once everything the client
sent has come in. -/
theorem bridge_hands_upload (handed : HandedOver (uploadClient handle path content writes reads junk) log) :
    (∃ seen, (packetsHanded log).map Prod.fst =
      (packetsOf (up path (upSession content [] writes reads junk)).2.log).take seen) ∧
    (delivered log = (uploadClient handle path content writes reads junk).stream →
      (packetsHanded log).map Prod.fst = packetsOf (up path (upSession content [] writes reads junk)).2.log) := by
  have back : (((packetsOf (up path (upSession content [] writes reads junk)).2.log).map (List.drop 1)).map
      handedPacket).map Prod.fst = packetsOf (up path (upSession content [] writes reads junk)).2.log := by
    rw [List.map_map, List.map_map]
    refine (List.map_congr_left fun packet member => ?_).trans (List.map_id _)
    exact congrArg Prod.fst (handedPacket_drop (upload_framed member).1)
  have frames : (uploadClient handle path content writes reads junk).frames =
      (packetsOf (up path (upSession content [] writes reads junk)).2.log).map (List.drop 1) := rfl
  rw [HandedOver, frames] at handed
  constructor
  · obtain ⟨seen, first⟩ : ∃ seen, framesWithin
        ((packetsOf (up path (upSession content [] writes reads junk)).2.log).map (List.drop 1))
        ((delivered log).length - (uploadClient handle path content writes reads junk).request.length) =
          ((packetsOf (up path (upSession content [] writes reads junk)).2.log).map (List.drop 1)).take seen :=
      ⟨_, List.prefix_iff_eq_take.mp (framesWithin_begins _ _)⟩
    exact ⟨seen, by rw [handed, first, List.map_take, List.map_take, back]⟩
  · intro all
    have length : (delivered log).length - (uploadClient handle path content writes reads junk).request.length =
        ((packetsOf (up path (upSession content [] writes reads junk)).2.log).map (List.drop 1)).flatten.length := by
      rw [all, BridgeClient.stream, List.length_append, Nat.add_sub_cancel_left, frames]
    rw [handed, length, framesWithin_all, back]

end Through

def briefReads : List ReadResult := [.received [6, 0, 0, 0, 3, 0x92, 0, 2], .received [6, 0, 0, 0, 3, 0x93, 0, 2]]

/-- Two bytes under the name `a`. -/
def briefSession : Session := upSession [7, 8] [] [13, 10] briefReads fun _ _ => 0

theorem brief_uploaded : (up (cstr [0x61]) briefSession).1 = some .unk := by
  have echoes : EchoesHandle 2 briefReads (upChunks ([7, 8] : Bytes).length) := by
    intro index bound
    have two : upChunks ([7, 8] : Bytes).length = 1 := by decide
    rw [two] at bound
    rcases Nat.le_one_iff_eq_zero_or_eq_one.mp bound with rfl | rfl
    · exact ⟨_, rfl, by decide, rfl⟩
    · exact ⟨_, rfl, by decide, rfl⟩
  exact up_succeeds.mpr (echoes.completes (by decide) (by decide) (by decide))

def openingPacket : HidPacket := ⟨0, [0, 0, 1, 0x92, 2, 0, 0, 0, 0x61, 0], by decide⟩

def blockPacket : HidPacket := ⟨0, [0, 0, 1, 0x93, 2, 7, 8], by decide⟩

theorem brief_packets : briefSession.uploadPackets (cstr [0x61]) = [openingPacket.bytes, blockPacket.bytes] := by
  have single : chunks chunkSize briefSession.input.rest = [[7, 8]] := by
    have nonempty : briefSession.input.rest ≠ [] := by decide
    rw [chunks_cons (by decide) nonempty]
    exact congrArg ([7, 8] :: ·) (chunks_nil chunkSize)
  rw [Session.uploadPackets, single]
  rfl

theorem brief_sent : packetsOf (up (cstr [0x61]) (upSession [7, 8] [] [13, 10] briefReads fun _ _ => 0)).2.log =
    [openingPacket.bytes, blockPacket.bytes] :=
  (up_hands_all rfl rfl brief_uploaded).trans brief_packets

def briefClient : BridgeClient := uploadClient firstHandle (cstr [0x61]) [7, 8] [13, 10] briefReads fun _ _ => 0

theorem brief_stream : briefClient.stream =
    getLine firstHandle ++ [10, 0, 0, 0, 1, 0x92, 2, 0, 0, 0, 0x61, 0, 7, 0, 0, 0, 1, 0x93, 2, 7, 8] := by
  refine (uploadClient_stream ..).trans ?_
  rw [brief_sent]
  decide +kernel

/-- The first packet comes in three pieces, the second in two. -/
def briefPasses : List Pass :=
  {} :: arriving
    [getLine firstHandle, [10, 0], [0, 0, 1, 0x92], [2, 0, 0, 0, 0x61, 0], [7, 0], [0, 0, 1, 0x93, 2, 7, 8]]

theorem brief_linked : Along Bridge.going bridgePass (LinkedPass briefClient) briefPasses Bridge.started.accepted := by
  have piece {bridge : Bridge} {bytes : Bytes} (more : bytes ≠ [])
      (stream : delivered bridge.log ++ bridge.brings bytes <+:
        getLine firstHandle ++ [10, 0, 0, 0, 1, 0x92, 2, 0, 0, 0, 0x61, 0, 7, 0, 0, 0, 1, 0x93, 2, 7, 8])
      (asks : bridge.tcpRead = .waitOnStart → bytes = getLine firstHandle)
      (header : bridge.tcpRead = .waitOnLength → 2 ≤ bytes.length) :
      LinkedPass briefClient bridge { readReady := true, received := some bytes } :=
    ⟨Or.inl rfl, fun _ => rfl, fun _ => ⟨bytes, rfl, more, brief_stream ▸ stream, asks, header⟩⟩
  refine along_cons (fun _ => ⟨Or.inl rfl, fun _ => rfl, nofun⟩)
    (along_cons (fun _ => piece ?_ ?_ (fun _ => rfl) nofun)
      (along_cons (fun _ => piece ?_ ?_ ?_ fun _ => ?_)
        (along_cons (fun _ => piece ?_ ?_ ?_ ?_) (along_cons (fun _ => piece ?_ ?_ ?_ ?_)
          (along_cons (fun _ => piece ?_ ?_ ?_ fun _ => ?_) (along_cons (fun _ => piece ?_ ?_ ?_ ?_) trivial))))))
  all_goals decide +kernel

end Ev3duder
