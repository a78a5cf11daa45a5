import Ev3duder.Firmware.Update

namespace Ev3duder

open Data

/-! # When the brick is rebooted -/

def Event.startsApp : Event → Bool
  | .write packet _ _ => packet[6]? = some 0xF4
  | .read .. => false

def Event.failed (localCrc : UInt32) : Event → Prop
  | .write _ _ res => res < 0
  | .read size _ result =>
      result.res ≤ 0 ∨ ¬ Acknowledged result ∨ (size = fwGetCrc32ReplySize ∧ ¬ Verified localCrc result)

def Event.full : Event → Prop
  | .write .. => True
  | .read size _ result => 0 < result.res → size ≤ result.stored.length

/-- Every request was taken and got an answer that lets the next one follow. -/
inductive AllPassed : List Request → List Event → Prop where
  | nil : AllPassed [] []
  | cons {request script res result log} (written : 0 ≤ res) (read : 0 < result.res)
      (accepted : request.accepts result) (others : AllPassed script log) :
      AllPassed (request :: script) (.write request.packet request.packet.length res ::
        .read request.size request.milliseconds result :: log)

def FullExchange (request : Request) (events : List Event) (passed : Bool) : Prop :=
  Exchanged request events passed ∧ ∀ event ∈ events, event.full

theorem FullExchange.passed {request : Request} {events : List Event}
    (exchange : FullExchange request events true) :
    ∃ res result, 0 ≤ res ∧ 0 < result.res ∧ request.accepts result ∧
      events = [.write request.packet request.packet.length res,
        .read request.size request.milliseconds result] := by
  obtain ⟨exchanged, full⟩ := exchange
  cases exchanged with
  | @judged res result _ written read verdict =>
      have filled : Event.full (.read request.size request.milliseconds result) := full _ (by simp)
      have long : request.size ≤ result.stored.length := filled read
      exact ⟨res, result, written, read, (verdict long).mp rfl, rfl⟩

theorem allPassed {script : List Request} {events : List Event} (run : Script FullExchange script events true) :
    AllPassed script events := by
  generalize succeeded : true = done at run
  induction run with
  | finished => exact .nil
  | passed here others ih =>
      obtain ⟨res, result, written, read, accepted, rfl⟩ := here.passed
      exact .cons written read accepted (ih succeeded)
  | stopped here => cases succeeded

theorem installRequests_accept {image : Bytes} {request : Request}
    (member : request ∈ guardedRequests image ++ [startAppRequest]) :
    (request.size = systemReplySize ∧ request.accepts = Acknowledged) ∨
      request = crcRequest (crc32 0 image) := by
  simp only [guardedRequests, imageRequests, List.mem_append, List.mem_singleton, List.mem_map] at member
  rcases member with (rfl | rfl | ⟨block, _, rfl⟩ | rfl) | rfl
  · exact Or.inl ⟨rfl, rfl⟩
  · exact Or.inl ⟨rfl, rfl⟩
  · exact Or.inl ⟨rfl, rfl⟩
  · exact Or.inr rfl
  · exact Or.inl ⟨rfl, rfl⟩

theorem guardedRequests_cmd {image : Bytes} {request : Request} (member : request ∈ guardedRequests image) :
    request.packet[6]? ≠ some 0xF4 := by
  simp only [guardedRequests, imageRequests, List.mem_append, List.mem_singleton, List.mem_map] at member
  rcases member with rfl | rfl | ⟨block, _, rfl⟩ | rfl
  · decide
  · decide
  · intro same
    cases same
  · intro same
    cases same

theorem guardedRequests_quiet {image : Bytes} {request : Request} (member : request ∈ guardedRequests image)
    {part : List Event} {passed : Bool} (exchanged : Exchanged request part passed) :
    ∀ event ∈ part, ¬ event.startsApp = true := by
  have other := guardedRequests_cmd member
  cases exchanged <;> simp [Event.startsApp, other]

theorem passed_clean {image : Bytes} {request : Request}
    (member : request ∈ guardedRequests image ++ [startAppRequest]) {part : List Event}
    (exchange : FullExchange request part true) : ∀ event ∈ part, ¬ event.failed (crc32 0 image) := by
  obtain ⟨res, result, written, read, accepted, rfl⟩ := exchange.passed
  have acknowledged : Acknowledged result ∧
      (request.size = fwGetCrc32ReplySize → Verified (crc32 0 image) result) := by
    rcases installRequests_accept member with ⟨size, accepts⟩ | rfl
    · rw [accepts] at accepted
      refine ⟨accepted, fun other => ?_⟩
      rw [size] at other
      cases other
    · refine ⟨?_, fun _ => accepted⟩
      rcases accepted with looped | ⟨answered, _⟩
      · exact Or.inr looped
      · exact Or.inl answered
  intro event inside
  simp only [List.mem_cons, List.not_mem_nil, or_false] at inside
  rcases inside with rfl | rfl
  · exact Int.not_lt.mpr written
  · rintro (silent | denied | ⟨size, wrong⟩)
    · exact absurd read (Int.not_lt.mpr silent)
    · exact denied acknowledged.1
    · exact wrong (acknowledged.2 size)

theorem stopped_quiet {request : Request} {head tail : List Event} {event : Event} {localCrc : UInt32}
    (exchanged : Exchanged request (head ++ event :: tail) false) (failed : event.failed localCrc) :
    ∀ later ∈ tail, later.written = none := by
  generalize all : head ++ event :: tail = events at exchanged
  cases exchanged with
  | unwritten =>
      cases head with
      | nil => simp_all
      | cons first head => simp at all
  | unread written | judged written =>
      match head, all with
      | [], all =>
          rw [List.nil_append, List.cons.injEq] at all
          obtain ⟨rfl, _⟩ := all
          exact absurd written (Int.not_le.mpr failed)
      | [_], all => simp_all
      | _ :: _ :: _, all => simp at all

theorem exchanged_startsApp {request : Request} {events : List Event} {passed : Bool}
    (exchanged : Exchanged request events passed) : events.countP Event.startsApp ≤ 1 := by
  cases exchanged <;> grind [Event.startsApp]

theorem startsApp_first {request : Request} {head tail : List Event} {event : Event} {passed : Bool}
    (exchanged : Exchanged request (head ++ event :: tail) passed) (starts : event.startsApp = true) :
    head = [] := by
  generalize all : head ++ event :: tail = events at exchanged
  match head, all with
  | [], _ => rfl
  | [_], all => cases exchanged <;> simp_all [Event.startsApp]
  | _ :: _ :: _, all => cases exchanged <;> simp at all

/-- VM_OK with a checksum behind it, whatever was asked. -/
def vouch (flash : Bytes) : ReadResult := .received ([9, 0, 0, 0, vmOk, 0xF5, 0] ++ leBytes 4 (crc32 0 flash).toNat)

def Vouched (flash : Bytes) : Nat → Session → Prop := Served (· = vouch flash)

section Vouched

variable {flash : Bytes} {count : Nat}

theorem vouch_length (flash : Bytes) : (vouch flash).stored.length = fwGetCrc32ReplySize := by
  simp [vouch, ReadResult.stored, fwGetCrc32ReplySize]

theorem vouch_type (flash : Bytes) : (vouch flash).type = some vmOk := rfl

theorem vouch_checksum (flash : Bytes) : leValue (((vouch flash).stored.drop 7).take 4) = (crc32 0 flash).toNat := by
  have field : ((vouch flash).stored.drop 7).take 4 = leBytes 4 (crc32 0 flash).toNat :=
    List.take_of_length_le (by simp [vouch, ReadResult.stored])
  rw [field, leValue_leBytes_of_lt (crc32 0 flash).toNat_lt]

theorem vouch_ready (result : ReadResult) (same : result = vouch flash) : Ready result := by
  have length := vouch_length flash
  rw [same]
  refine ⟨?_, ?_, Or.inl (vouch_type flash)⟩
  · change 0 < ((vouch flash).stored.length : Int)
    rw [length]
    decide
  · rw [length]
    decide

theorem checksumReply_vouched (reply : Reply) {event : Event} :
    Proc.Ensures (fun session => Vouched flash count session ∧ event ∈ session.log)
      (checksumReply (reply.receive (vouch flash)))
      (fun outcome session => outcome = (.unk, crc32 0 flash) ∧ Vouched flash count session ∧
        event ∈ session.log) (fun _ => False) := by
  rintro session ⟨served, member⟩
  have length := vouch_length flash
  have type : (reply.receive (vouch flash)).memory 4 = vmOk := rfl
  have field : (reply.receive (vouch flash)).memory.load 7 4 = ((vouch flash).stored.drop 7).take 4 :=
    Memory.load_store (by rw [length]; decide)
  rw [Proc.Ends, checksumReply, Proc.bind_returned (Reply.type_run _ session), type, if_neg (by decide),
    if_neg (by decide)]
  refine ⟨?_, served.of_link ⟨rfl, rfl, rfl⟩, member⟩
  rw [Prod.mk.injEq, field, vouch_checksum, UInt32.ofNat_toNat]
  exact ⟨rfl, rfl⟩

theorem bootloaderExit_vouched :
    Proc.Ensures (Vouched flash (count + 1)) bootloaderExit
      (fun err session => err = .unk ∧ Vouched flash count session) (fun _ => False) := by
  rw [bootloaderExit, fwStartApp_alloc]
  refine Proc.ensures_bind (bootloaderStep_served vouch_ready fwStartApp _ _ _ _ _) fun err => ?_
  rintro session ⟨rfl, served⟩
  exact ⟨rfl, served.of_link ⟨rfl, rfl, rfl⟩⟩

/-- A checksum that is not the one of the file ends the update behind the reply that brought it. -/
theorem bootloaderVerify_vouched (localCrc : UInt32) :
    Proc.Ensures (Vouched flash 2) (bootloaderVerify localCrc)
      (fun err session => Vouched flash 0 session ∧ (localCrc = crc32 0 flash → err = .unk) ∧
        (localCrc ≠ crc32 0 flash →
          err = .io ∧ Event.read fwGetCrc32ReplySize (-1) (vouch flash) ∈ session.log)) (fun _ => False) := by
  have checked : Proc.Ensures (Vouched flash 2) (bootloaderChecksum flashStart flashSize)
      (fun outcome session => outcome = (.unk, crc32 0 flash) ∧ Vouched flash 1 session ∧
        Event.read fwGetCrc32ReplySize (-1) (vouch flash) ∈ session.log) (fun _ => False) := by
    rw [bootloaderChecksum, fwGetCrc32_alloc]
    refine Proc.ensures_bind malloc_served fun heap => ?_
    refine Proc.ensures_bind (exchange_served vouch_ready fwGetCrc32 _ ⟨heap, 0⟩ _ _ _) fun step => ?_
    rintro session ⟨_, rfl, rfl, heard, served⟩
    exact checksumReply_vouched ⟨heap, 0⟩ session ⟨served, heard⟩
  refine Proc.ensures_bind checked ?_
  rintro _ session ⟨rfl, served, heard⟩
  by_cases same : localCrc = crc32 0 flash
  · have rebooted := bootloaderExit_vouched session (show Vouched flash (0 + 1) session from served)
    simp only [if_neg (not_not_intro same)]
    refine rebooted.mono (fun err after done => ?_) fun _ dead => dead
    exact ⟨done.2, fun _ => done.1, fun other => absurd same other⟩
  · have left : Served (· = vouch flash) (1 + 0) session := served
    simp only [if_pos same]
    exact ⟨left.fewer, fun equal => absurd equal same, fun _ => ⟨rfl, heard⟩⟩

/-- With such a brick the whole file is sent, and the checksum decides. -/
theorem bootloaderInstall_vouched {session : Session} (served : Vouched flash (count + 4) session)
    (plain : session.input.counts = []) (enough : flashSize ≤ count * maxPayload) :
    ∃ err after, bootloaderInstall session = (some err, after) ∧ Vouched flash 0 after ∧
      (crc32 0 (padded flashSize session.input.rest) = crc32 0 flash → err = .unk) ∧
      (crc32 0 (padded flashSize session.input.rest) ≠ crc32 0 flash →
        err = .io ∧ Event.read fwGetCrc32ReplySize (-1) (vouch flash) ∈ after.log) := by
  obtain ⟨erase, erasedAt, erased, erasedInput, _⟩ := bootloaderStep_performs fwEraseFlash rfl
    "Unable to write FW_ERASEFLASH." "Unable to read FW_ERASEFLASH" "`FW_ERASEFLASH` was denied." (-1) 2 session
  obtain ⟨rfl, erasedServed⟩ := (bootloaderStep_served vouch_ready fwEraseFlash _ _ _ _ _).returned served erased
  obtain ⟨start, startedAt, started, startedInput, _⟩ := bootloaderStep_performs
    (fwStartDownload flashStart flashSize) rfl "Unable to write FW_START_DOWNLOAD."
    "Unable to read FW_START_DOWNLOAD" "`FW_START_DOWNLOAD` was denied." (-1) 2 erasedAt
  obtain ⟨rfl, startedServed⟩ :=
    (bootloaderStep_served vouch_ready (fwStartDownload flashStart flashSize) _ _ _ _ _).returned erasedServed started
  obtain ⟨image, send, crc, sentAt, sent, _, _, success⟩ := bootloaderSend_performs flashSize startedAt
  obtain ⟨rfl, sentServed⟩ := (bootloaderSend_served vouch_ready enough).returned startedServed sent
  obtain ⟨rfl, content⟩ := success rfl
  obtain ⟨err, after, verified, left, decided⟩ :=
    (bootloaderVerify_vouched (crc32 0 image)).total (show Vouched flash 2 sentAt from sentServed)
  rw [startedInput, erasedInput] at content
  rw [content plain] at verified decided
  refine ⟨err, after, ?_, left, decided⟩
  rw [bootloaderInstall, bootloaderErase, fwEraseFlash_alloc, Proc.bind_returned erased]
  simp only [bootloaderStart, fwStartDownload_alloc]
  rw [Proc.bind_returned started]
  simp only
  rw [Proc.bind_returned sent, content plain]
  exact verified

end Vouched

/-- All packets are taken, and every reply vouches for `flash`. -/
def Session.vouched (flash : Bytes) : Session where
  writes := List.replicate (16095 + 4) 1025
  reads := List.replicate (16095 + 4) (vouch flash)

theorem vouched_served (flash : Bytes) : Vouched flash (16095 + 4) (.vouched flash) :=
  ⟨answeredBy_replicate (by decide) rfl, fun _ member => absurd member List.not_mem_nil⟩

theorem exchanged_full {image flash : Bytes} {request : Request}
    (member : request ∈ guardedRequests image ++ [startAppRequest]) {part : List Event} {passed : Bool}
    (exchanged : Exchanged request part passed) :
    ∀ event ∈ part, event.answer = some (vouch flash) → event.full := by
  have asked : request.size ≤ (vouch flash).stored.length := by
    rw [vouch_length]
    rcases installRequests_accept member with ⟨size, _⟩ | rfl
    · rw [size]
      decide
    · exact Nat.le_refl _
  cases exchanged <;> grind [Event.answer, Event.full]

theorem vouched_full (flash : Bytes) : ∀ event ∈ (bootloaderInstall (.vouched flash)).2.log, event.full := by
  obtain ⟨_, after, run, served, _⟩ := bootloaderInstall_vouched (vouched_served flash) rfl (by decide)
  obtain ⟨image, _, _, again, _, events, log, script⟩ := bootloaderInstall_performs (.vouched flash)
  have fits := script.forall_events fun request member _ _ => @exchanged_full image flash request member _ _
  rw [run] at again ⊢
  cases again
  intro event member
  cases same : event with
  | write packet length res => trivial
  | read size milliseconds result =>
      have inside : event ∈ events := by
        rw [log] at member
        exact member
      rw [← same]
      refine fits event inside ?_
      rw [same, ← served.heard event member result (by rw [same]; rfl)]
      rfl

/-- For every firmware file and every brick with full replies: the brick is rebooted at most once, and only
when everything before went well; nothing follows a failure; success means that everything succeeded. -/
theorem bootloaderInstall_gated (session : Session) (fresh : session.log = [])
    (full : ∀ event ∈ (bootloaderInstall session).2.log, event.full) :
    ∃ image, image.length = flashSize ∧
      (bootloaderInstall session).2.log.filterMap Event.written <+:
        (guardedRequests image ++ [startAppRequest]).map (fun request => (request.packet, request.packet.length)) ∧
      (bootloaderInstall session).2.log.countP Event.startsApp ≤ 1 ∧
      (∀ before event after, (bootloaderInstall session).2.log = before ++ event :: after →
        event.startsApp = true → AllPassed (guardedRequests image) before) ∧
      (∀ before event after, (bootloaderInstall session).2.log = before ++ event :: after →
        event.failed (crc32 0 image) → ∀ later ∈ after, later.written = none) ∧
      ((bootloaderInstall session).1 = some .unk →
        AllPassed (guardedRequests image ++ [startAppRequest]) (bootloaderInstall session).2.log) := by
  obtain ⟨image, err, last, run, size, events, log, script⟩ := bootloaderInstall_performs session
  rw [fresh, List.nil_append] at log
  rw [run] at full ⊢
  simp only [log] at full ⊢
  have strict := script.with_events full
  refine ⟨image, size, (script.marks_prefix fun _ _ _ _ => exchanged_written).1, ?_, ?_, ?_, ?_⟩
  · rcases script.append_cases with ⟨stopped, _⟩ | ⟨early, late, rfl, passed, reboot⟩
    · have none := stopped.forall_events fun request member _ _ => guardedRequests_quiet member
      rw [List.countP_eq_zero.mpr none]
      exact Nat.zero_le _
    · have none := passed.forall_events fun request member _ _ => guardedRequests_quiet member
      rw [List.countP_append, List.countP_eq_zero.mpr none, Nat.zero_add]
      exact exchanged_startsApp reboot.of_single
  · rintro before event after rfl reboots
    obtain ⟨early, late, rfl, passed, reboot⟩ := strict.reached
      (reboots : (fun event : Event => event.startsApp = true) event)
      fun request member _ _ exchange => guardedRequests_quiet member exchange.1
    rw [startsApp_first reboot.of_single.1 reboots, List.append_nil]
    exact allPassed passed
  · rintro before event after rfl failed
    exact strict.quiet_after_failure failed (fun _ member _ exchange => passed_clean member exchange)
      fun _ _ _ _ _ exchange failed => stopped_quiet exchange.1 failed
  · intro succeeded
    rw [decide_eq_true (Option.some.inj succeeded)] at strict
    exact allPassed strict

theorem bootloaderInstall_gated_vouched :
    (bootloaderInstall (.vouched (padded flashSize []))).1 = some .unk ∧
      (bootloaderInstall (.vouched (padded flashSize []))).2.log.countP Event.startsApp ≤ 1 ∧
      ∃ image, AllPassed (guardedRequests image ++ [startAppRequest])
        (bootloaderInstall (.vouched (padded flashSize []))).2.log := by
  obtain ⟨err, after, run, _, same, _⟩ :=
    bootloaderInstall_vouched (vouched_served (padded flashSize [])) rfl (by decide)
  have succeeded : (bootloaderInstall (.vouched (padded flashSize []))).1 = some .unk := by rw [run, same rfl]
  obtain ⟨image, _, _, once, _, _, passed⟩ := bootloaderInstall_gated (.vouched (padded flashSize [])) rfl
    (vouched_full (padded flashSize []))
  exact ⟨succeeded, once, image, passed succeeded⟩

end Ev3duder
