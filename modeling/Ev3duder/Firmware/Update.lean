import Ev3duder.Firmware.Answers

namespace Ev3duder

open Data

/-! # The image that reaches the flash -/

theorem bootloaderSend_performs (length : Nat) (session : Session) :
    ∃ image err crc after, bootloaderSend length session = (some (err, crc), after) ∧
      image.length = length ∧ Performs (imageRequests image) session after (err = .unk) ∧
      (err = .unk → crc = crc32 0 image ∧
        (session.input.counts = [] → image = padded length session.input.rest)) := by
  obtain ⟨image, result, after, run, size, outcome⟩ := sendLoop_performs length
    { fwDownloadDataInit with packetLen := 1022, bytes := (session.junk 0).load 0 maxPayload }
    ⟨session.junk 1, 0⟩ 0 false 0 session.afterMalloc.afterMalloc rfl
  rw [bootloaderSend, fwDownloadData_alloc]
  rcases outcome with ⟨rfl, performed, exactly⟩ | ⟨err, rfl, known, performed⟩
  · refine ⟨image, .unk, crc32 0 image, after, ?_, size, performed, fun _ => ⟨rfl, fun counts => ?_⟩⟩
    · exact (Proc.bind_returned (malloc_run session)).trans
        ((Proc.bind_returned (malloc_run session.afterMalloc)).trans (Proc.bind_returned run))
    · exact exactly counts (by simp)
  · refine ⟨image, err, 0, after, ?_, size, ?_, fun unknown => absurd unknown known⟩
    · exact (Proc.bind_returned (malloc_run session)).trans
        ((Proc.bind_returned (malloc_run session.afterMalloc)).trans (Proc.bind_returned run))
    · rw [decide_eq_false known]
      exact performed

theorem exchanged_written {request : Request} {events : List Event} {passed : Bool}
    (exchanged : Exchanged request events passed) :
    events.filterMap Event.written = [(request.packet, request.packet.length)] := by
  cases exchanged <;> rfl

/-- A transfer that succeeds sent exactly the image, and its checksum is that of the image. -/
theorem bootloaderSend_image {session after : Session} {crc : UInt32} (complete : session.input.counts = [])
    (returned : bootloaderSend flashSize session = (some (.unk, crc), after)) :
    ∃ (events : List Event) (packets : List Bytes), after.log = session.log ++ events ∧
      events.filterMap Event.written = packets.map (fun packet => (packet, packet.length)) ∧
      (∀ packet ∈ packets, packet[0]? = some 0 ∧ packet[6]? = some 0xF2 ∧
        leValue ((packet.drop 1).take 2) + 3 = packet.length ∧ packet.length - 1 ≤ 1024) ∧
      (packets.map (List.drop 7)).flatten = session.input.rest.take flashSize ++
        List.replicate (flashSize - session.input.rest.length) 0 ∧
      crc.toBitVec = Crc.checksum crc32Poly (session.input.rest.take flashSize ++
        List.replicate (flashSize - session.input.rest.length) 0) := by
  obtain ⟨image, err, crc', after', run, size, ⟨events, log, script⟩, success⟩ :=
    bootloaderSend_performs flashSize session
  rw [returned] at run
  cases run
  obtain ⟨rfl, exactly⟩ := success rfl
  have content : image = session.input.rest.take flashSize ++
      List.replicate (flashSize - session.input.rest.length) 0 := exactly complete
  have written := (script.marks_prefix fun request _ part passed => exchanged_written).2 rfl
  refine ⟨events, (chunks maxPayload image).map fun block => Packet.toBytes (dataPacket block), log, ?_, ?_, ?_, ?_⟩
  · rw [written, imageRequests, List.map_map, List.map_map]
    rfl
  · intro packet member
    obtain ⟨block, inside, rfl⟩ := List.mem_map.mp member
    obtain ⟨_, small⟩ := chunks_block_length (by decide) inside
    have framed := dataPacket_framed small
    have length := Packet.count_eq framed
    have bound : block.length ≤ 1018 := small
    have tail : (Packet.tail (dataPacket block)).length = block.length + 4 := rfl
    have field : ((Packet.toBytes (dataPacket block)).drop 1).take 2 =
        leBytes 2 (Packet.packetLen (dataPacket block)).toNat := rfl
    have total : (Packet.toBytes (dataPacket block)).length = block.length + 7 := rfl
    rw [field, framed, tail, total, leValue_leBytes_of_lt (by omega)]
    exact ⟨rfl, rfl, by omega, by omega⟩
  · rw [List.map_map]
    have payload : (List.drop 7 ∘ fun block => Packet.toBytes (dataPacket block)) = id := rfl
    rw [payload, List.map_id, chunks_flatten (by decide), content]
  · rw [crc32_standard, content]

theorem bootloaderSend_image_short :
    ∃ crc after, bootloaderSend flashSize
        { writes := List.replicate 16095 0
          reads := List.replicate 16095 (.received [5, 0, 0, 0, 3, 0xF2, 0])
          input := { rest := [1, 2, 3] } } = (some (.unk, crc), after) ∧
      crc.toBitVec = Crc.checksum crc32Poly (List.take flashSize [1, 2, 3] ++
        List.replicate (flashSize - 3) 0) := by
  have served : Served Ready (16095 + 0)
      { writes := List.replicate 16095 0
        reads := List.replicate 16095 (.received [5, 0, 0, 0, 3, 0xF2, 0])
        input := { rest := [1, 2, 3] } } :=
    ⟨answeredBy_replicate (Int.le_refl 0) ⟨by decide, by decide, Or.inl rfl⟩, by simp⟩
  obtain ⟨⟨_, crc⟩, after, run, rfl, _⟩ :=
    (bootloaderSend_served (fun _ good => good) (by decide)).total served
  obtain ⟨_, _, _, _, _, _, checked⟩ := bootloaderSend_image rfl run
  exact ⟨crc, after, run, checked⟩

/-- The good answers to FW_GETCRC32: the local checksum, or the looped-back request. -/
def Verified (localCrc : UInt32) (result : ReadResult) : Prop :=
  result.type = some vmSysRq ∨
    (result.type = some vmOk ∧ leValue ((result.stored.drop 7).take 4) = localCrc.toNat)

def fwEraseFlash : SystemCmd := { fwEraseFlashInit with packetLen := 4 }
def fwGetCrc32 : FlashRegion :=
  { fwGetCrc32Init with
    packetLen := 12
    flashStart := UInt32.ofNat flashStart
    flashLength := UInt32.ofNat flashSize }
def fwStartApp : SystemCmd := { fwStartAppInit with packetLen := 4 }

theorem fwEraseFlash_alloc : packetAlloc fwEraseFlashInit 0 = some fwEraseFlash := rfl

theorem fwStartDownload_alloc :
    (packetAlloc fwStartDownloadInit 0).map (fun request =>
        { request with flashStart := UInt32.ofNat flashStart, flashLength := UInt32.ofNat flashSize }) =
      some (fwStartDownload flashStart flashSize) := rfl

theorem fwGetCrc32_alloc : packetAlloc fwGetCrc32Init 0 = some { fwGetCrc32Init with packetLen := 12 } := rfl

theorem fwStartApp_alloc : packetAlloc fwStartAppInit 0 = some fwStartApp := rfl

def eraseRequest : Request := bootloaderRequest fwEraseFlash systemReplySize (-1) Acknowledged
def startRequest : Request :=
  bootloaderRequest (fwStartDownload flashStart flashSize) systemReplySize (-1) Acknowledged
def crcRequest (localCrc : UInt32) : Request :=
  bootloaderRequest fwGetCrc32 fwGetCrc32ReplySize (-1) (Verified localCrc)
def startAppRequest : Request := bootloaderRequest fwStartApp systemReplySize timeout Acknowledged

/-- Everything that has to go well before the brick may be rebooted. -/
def guardedRequests (image : Bytes) : List Request :=
  [eraseRequest] ++ ([startRequest] ++ (imageRequests image ++ [crcRequest (crc32 0 image)]))

theorem checksumReply_run (localCrc : UInt32) (reply : Reply) (session : Session) :
    ∃ err remoteCrc after, checksumReply reply session = (some (err, remoteCrc), after) ∧
      after.log = session.log ∧
      ((err = .usbLoop ∨ (err = .unk ∧ localCrc = remoteCrc)) ↔ reply.memory 4 = vmSysRq ∨
        (reply.memory 4 = vmOk ∧ leValue (reply.memory.load 7 4) = localCrc.toNat)) := by
  rw [checksumReply, Proc.bind_returned (reply.type_run session)]
  by_cases looped : reply.memory 4 = vmSysRq
  · rw [if_pos looped]
    exact ⟨.usbLoop, 0, _, rfl, rfl, by simp [looped]⟩
  · rw [if_neg looped]
    by_cases refused : reply.memory 4 ≠ vmOk
    · rw [if_pos refused]
      exact ⟨.vm, 0, _, rfl, rfl, by simp [looped, refused]⟩
    · rw [if_neg refused]
      refine ⟨.unk, UInt32.ofNat (leValue (reply.memory.load 7 4)), _, rfl, rfl, ?_⟩
      have bound : leValue (reply.memory.load 7 4) < 2 ^ 32 := by
        have := leValue_lt (reply.memory.load 7 4)
        rwa [Memory.load_length] at this
      have same : localCrc = UInt32.ofNat (leValue (reply.memory.load 7 4)) ↔
          leValue (reply.memory.load 7 4) = localCrc.toNat := by
        rw [← UInt32.toNat_inj, UInt32.toNat_ofNat', Nat.mod_eq_of_lt bound]
        exact eq_comm
      have accepted : reply.memory 4 = vmOk := Classical.not_not.mp refused
      have apart : vmOk ≠ vmSysRq := by decide
      simp [accepted, same, apart]

theorem bootloaderChecksum_performs (localCrc : UInt32) (session : Session) :
    ∃ err remoteCrc after, bootloaderChecksum flashStart flashSize session = (some (err, remoteCrc), after) ∧
      Performs [crcRequest localCrc] session after (err = .usbLoop ∨ (err = .unk ∧ localCrc = remoteCrc)) := by
  rw [bootloaderChecksum, fwGetCrc32_alloc]
  rcases exchange_performs fwGetCrc32 (crcRequest localCrc) rfl rfl "Unable to write FW_GETCRC32."
    ⟨session.junk 0, 0⟩ "Unable to read FW_GETCRC32" session.afterMalloc with
    ⟨after, run, _, failed⟩ | ⟨run, performed⟩
  · exact ⟨.comm, 0, after, (Proc.bind_returned (malloc_run session)).trans (Proc.bind_returned run), failed⟩
  · obtain ⟨err, remoteCrc, after, judged, log, verdict⟩ := checksumReply_run localCrc
      ((⟨session.junk 0, 0⟩ : Reply).receive session.afterMalloc.readResult)
      (session.afterMalloc.afterExchange fwGetCrc32 (crcRequest localCrc).size (crcRequest localCrc).milliseconds)
    refine ⟨err, remoteCrc, after,
      ((Proc.bind_returned (malloc_run session)).trans (Proc.bind_returned run)).trans judged, ?_⟩
    refine (performed _ fun full => ?_).of_log log
    have long : 11 ≤ session.afterMalloc.readResult.stored.length := full
    have field : ((⟨session.junk 0, 0⟩ : Reply).receive session.afterMalloc.readResult).memory.load 7 4 =
        (session.afterMalloc.readResult.stored.drop 7).take 4 := Memory.load_store (by omega)
    rw [decide_eq_true_iff, verdict, field]
    simp only [crcRequest, bootloaderRequest, Verified,
      ReadResult.type_eq ⟨session.junk 0, 0⟩ (by omega : 4 < session.afterMalloc.readResult.stored.length),
      Option.some.injEq]

theorem bootloaderExit_performs (session : Session) :
    ∃ err after, bootloaderExit session = (some err, after) ∧
      Performs [startAppRequest] session after (err = .unk) := by
  obtain ⟨err, after, run, _, performed⟩ := bootloaderStep_performs fwStartApp rfl "Unable to write FW_STARTAPP."
    "Unable to read FW_STARTAPP" "`FW_STARTAPP` was denied." timeout 0 session
  rw [bootloaderExit, fwStartApp_alloc, Proc.bind_returned run]
  cases err with
  | unk => exact ⟨.unk, _, rfl, performed.of_log rfl⟩
  | _ => exact ⟨_, after, rfl, performed⟩

theorem bootloaderVerify_performs (localCrc : UInt32) (session : Session) :
    ∃ err after, bootloaderVerify localCrc session = (some err, after) ∧
      Performs ([crcRequest localCrc] ++ [startAppRequest]) session after (err = .unk) := by
  obtain ⟨err, remoteCrc, middle, checked, verified⟩ := bootloaderChecksum_performs localCrc session
  obtain ⟨last, after, rebooted, performed⟩ := bootloaderExit_performs middle
  rw [bootloaderVerify, Proc.bind_returned checked]
  by_cases passed : err = .usbLoop ∨ (err = .unk ∧ localCrc = remoteCrc)
  · rw [decide_eq_true passed] at verified
    refine ⟨last, after, ?_, verified.trans performed⟩
    rcases passed with rfl | ⟨rfl, same⟩
    · exact rebooted
    · exact (congrFun (if_neg (not_not_intro same)) middle).trans rebooted
  · rw [decide_eq_false passed] at verified
    cases err with
    | usbLoop => exact absurd (Or.inl rfl) passed
    | unk =>
        refine ⟨.io, middle, ?_, verified.stop⟩
        exact congrFun (if_pos fun same => passed (Or.inr ⟨rfl, same⟩)) middle
    | _ => exact ⟨_, middle, rfl, verified.stop⟩

theorem installScript_eq (image : Bytes) :
    guardedRequests image ++ [startAppRequest] = [eraseRequest] ++ ([startRequest] ++
      (imageRequests image ++ ([crcRequest (crc32 0 image)] ++ [startAppRequest]))) := by
  simp only [guardedRequests, List.append_assoc]

/-- An update that gets past the transfer goes on with the checksum of the padded file; one that does not stops
there. -/
theorem bootloaderInstall_transfers (session : Session) :
    ∃ image err after, bootloaderInstall session = (some err, after) ∧ image.length = flashSize ∧
      (((session.input.counts = [] → image = padded flashSize session.input.rest) ∧
          Performs (guardedRequests image ++ [startAppRequest]) session after (err = .unk)) ∨
        (err ≠ .unk ∧ Performs ([eraseRequest] ++ ([startRequest] ++ imageRequests image)) session after false)) := by
  obtain ⟨erase, erasedAt, erased, erasedInput, eraseRun⟩ := bootloaderStep_performs fwEraseFlash rfl
    "Unable to write FW_ERASEFLASH." "Unable to read FW_ERASEFLASH" "`FW_ERASEFLASH` was denied." (-1) 2 session
  obtain ⟨start, startedAt, started, startedInput, startRun⟩ := bootloaderStep_performs
    (fwStartDownload flashStart flashSize) rfl "Unable to write FW_START_DOWNLOAD."
    "Unable to read FW_START_DOWNLOAD" "`FW_START_DOWNLOAD` was denied." (-1) 2 erasedAt
  obtain ⟨image, send, crc, sentAt, sent, size, sendRun, success⟩ :=
    bootloaderSend_performs flashSize startedAt
  obtain ⟨last, after, verified, verifyRun⟩ := bootloaderVerify_performs crc sentAt
  rw [bootloaderInstall, bootloaderErase, fwEraseFlash_alloc, Proc.bind_returned erased]
  simp only [installScript_eq]
  by_cases eraseOk : erase = .unk
  · subst eraseOk
    simp only [bootloaderStart, fwStartDownload_alloc]
    rw [Proc.bind_returned started]
    by_cases startOk : start = .unk
    · subst startOk
      simp only
      rw [Proc.bind_returned sent]
      by_cases sendOk : send = .unk
      · subst sendOk
        obtain ⟨rfl, exactly⟩ := success rfl
        rw [startedInput, erasedInput] at exactly
        exact ⟨image, last, after, verified, size,
          Or.inl ⟨exactly, eraseRun.trans (startRun.trans (sendRun.trans verifyRun))⟩⟩
      · rw [decide_eq_false sendOk] at sendRun
        refine ⟨image, send, sentAt, ?_, size, Or.inr ⟨sendOk, eraseRun.trans (startRun.trans sendRun)⟩⟩
        cases send <;> first | rfl | exact absurd rfl sendOk
    · rw [decide_eq_false startOk] at startRun
      refine ⟨image, start, startedAt, ?_, size, Or.inr ⟨startOk, eraseRun.trans startRun.stop⟩⟩
      cases start <;> first | rfl | exact absurd rfl startOk
  · rw [decide_eq_false eraseOk] at eraseRun
    refine ⟨image, erase, erasedAt, ?_, size, Or.inr ⟨eraseOk, eraseRun.stop⟩⟩
    cases erase <;> first | rfl | exact absurd rfl eraseOk

theorem bootloaderInstall_performs (session : Session) :
    ∃ image err after, bootloaderInstall session = (some err, after) ∧ image.length = flashSize ∧
      Performs (guardedRequests image ++ [startAppRequest]) session after (err = .unk) := by
  obtain ⟨image, err, after, run, size, ⟨_, performed⟩ | ⟨failed, stopped⟩⟩ := bootloaderInstall_transfers session
  · exact ⟨image, err, after, run, size, performed⟩
  · refine ⟨image, err, after, run, size, ?_⟩
    have later : guardedRequests image ++ [startAppRequest] =
        ([eraseRequest] ++ ([startRequest] ++ imageRequests image)) ++
          ([crcRequest (crc32 0 image)] ++ [startAppRequest]) := by
      simp only [guardedRequests, List.append_assoc]
    rw [decide_eq_false failed, later]
    exact stopped.stop

end Ev3duder
