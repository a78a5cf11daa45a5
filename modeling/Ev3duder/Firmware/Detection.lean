import Ev3duder.Data.Burst
import Ev3duder.Firmware.Safety

namespace Ev3duder

open Data

/-! # What the checksum before the reboot finds -/

/-- The answer to FW_GETCRC32 carries the checksum of what the flash holds. -/
def Event.reports (flash : Bytes) : Event → Prop
  | .write .. => True
  | .read size _ result => size = fwGetCrc32ReplySize → 0 < result.res →
      result.type = some vmOk ∧ leValue ((result.stored.drop 7).take 4) = (crc32 0 flash).toNat

theorem crc32Poly_top : crc32Poly.getLsbD (32 - 1) = true := by decide

theorem crc32_burst {first second : Bytes} (burst : Crc.Burst 32 first second) : crc32 0 first ≠ crc32 0 second := by
  intro same
  have checked := congrArg UInt32.toBitVec same
  rw [crc32_standard, crc32_standard] at checked
  exact Crc.checksum_burst (by decide) crc32Poly_top burst checked

theorem uploadRequests_quiet {image : Bytes} {request : Request}
    (member : request ∈ [eraseRequest] ++ ([startRequest] ++ imageRequests image)) {part : List Event} {passed : Bool}
    (exchanged : Exchanged request part passed) : ∀ event ∈ part, ¬ event.startsApp = true := by
  have guarded : request ∈ guardedRequests image := by
    simp only [guardedRequests, List.mem_append] at member ⊢
    rcases member with erase | start | data
    · exact Or.inl erase
    · exact Or.inr (Or.inl start)
    · exact Or.inr (Or.inr (Or.inl data))
  exact guardedRequests_quiet guarded exchanged

theorem crcRequest_quiet {localCrc : UInt32} {part : List Event} {passed : Bool}
    (exchanged : Exchanged (crcRequest localCrc) part passed) : ∀ event ∈ part, ¬ event.startsApp = true := by
  have other : (crcRequest localCrc).packet[6]? ≠ some 0xF4 := by
    intro same
    cases same
  cases exchanged <;> simp [Event.startsApp, other]

/-- A reply that tells the checksum of another content does not let the update go on. -/
theorem crcRequest_refused {image flash : Bytes} {events : List Event} {passed : Bool}
    (exchange : FullExchange (crcRequest (crc32 0 image)) events passed)
    (honest : ∀ event ∈ events, event.reports flash) (apart : crc32 0 flash ≠ crc32 0 image) : passed = false := by
  cases passed with
  | false => rfl
  | true =>
      obtain ⟨res, result, _, read, accepted, rfl⟩ := exchange.passed
      have reported : Event.reports flash (.read (crcRequest (crc32 0 image)).size
          (crcRequest (crc32 0 image)).milliseconds result) := honest _ (by simp)
      obtain ⟨answered, checksum⟩ := reported rfl read
      rcases accepted with looped | ⟨_, same⟩
      · rw [answered] at looped
        nomatch looped
      · exact absurd (UInt32.toNat_inj.mp (checksum.symm.trans same)) apart

/-- A brick that tells the true checksum of a flash which differs from the padded file in one stretch of at most 32 bits
is not rebooted, and the update fails. -/
theorem bootloaderInstall_detects {flash : Bytes} (session : Session) (fresh : session.log = [])
    (plain : session.input.counts = []) (full : ∀ event ∈ (bootloaderInstall session).2.log, event.full)
    (honest : ∀ event ∈ (bootloaderInstall session).2.log, event.reports flash)
    (burst : Crc.Burst 32 flash (padded flashSize session.input.rest)) :
    (∀ event ∈ (bootloaderInstall session).2.log, ¬ event.startsApp = true) ∧
      ∃ err, (bootloaderInstall session).1 = some err ∧ err ≠ .unk := by
  obtain ⟨image, err, last, run, size, outcome⟩ := bootloaderInstall_transfers session
  rw [run] at full honest ⊢
  rcases outcome with ⟨content, events, log, script⟩ | ⟨failed, events, log, script⟩
  · rw [fresh, List.nil_append] at log
    rw [log] at full honest ⊢
    rw [content plain] at script
    have strict := (script.with_events full).with_events honest
    have split : guardedRequests (padded flashSize session.input.rest) ++ [startAppRequest] =
        ([eraseRequest] ++ ([startRequest] ++ imageRequests (padded flashSize session.input.rest))) ++
          ([crcRequest (crc32 0 (padded flashSize session.input.rest))] ++ [startAppRequest]) := by
      simp only [guardedRequests, List.append_assoc]
    rw [split] at strict
    rcases strict.append_cases with ⟨stopped, done⟩ | ⟨early, late, rfl, passed, verified⟩
    · exact ⟨stopped.forall_events fun _ member _ _ exchange => uploadRequests_quiet member exchange.1.1,
        err, rfl, of_decide_eq_false done⟩
    · have uploaded := passed.forall_events fun _ member _ _ exchange => uploadRequests_quiet member exchange.1.1
      rcases verified.append_cases with ⟨stopped, done⟩ | ⟨checked, _, rfl, accepted, _⟩
      · have refused := stopped.of_single
        refine ⟨?_, err, rfl, of_decide_eq_false done⟩
        intro event member
        rcases List.mem_append.mp member with before | behind
        · exact uploaded event before
        · exact crcRequest_quiet refused.1.1 event behind
      · have impossible := crcRequest_refused accepted.of_single.1 accepted.of_single.2 (crc32_burst burst)
        cases impossible
  · rw [fresh, List.nil_append] at log
    rw [log]
    exact ⟨script.forall_events fun _ member _ _ exchange => uploadRequests_quiet member exchange, err, rfl, failed⟩

theorem vouched_reports (flash : Bytes) :
    ∀ event ∈ (bootloaderInstall (.vouched flash)).2.log, event.reports flash := by
  obtain ⟨_, after, run, served, _⟩ := bootloaderInstall_vouched (vouched_served flash) rfl (by decide)
  rw [run]
  intro event member
  cases event with
  | write packet length res => trivial
  | read size milliseconds result =>
      rw [served.heard _ member result rfl]
      exact fun _ _ => ⟨vouch_type flash, vouch_checksum flash⟩

/-- One bit of the flash is set where the file, of no bytes, has none. -/
theorem bootloaderInstall_detects_bit :
    ∃ flash, .read fwGetCrc32ReplySize (-1) (vouch flash) ∈ (bootloaderInstall (.vouched flash)).2.log ∧
      (∀ event ∈ (bootloaderInstall (.vouched flash)).2.log, ¬ event.startsApp = true) ∧
      ∃ err, (bootloaderInstall (.vouched flash)).1 = some err ∧ err ≠ .unk := by
  obtain ⟨flash, burst⟩ : ∃ flash, Crc.Burst 32 flash (padded flashSize []) := by
    have length : flashSize = (flashSize - 1) + 1 := by decide
    have empty : padded flashSize [] = 0 :: List.replicate (flashSize - 1) 0 := by
      rw [padded_nil, length, List.replicate_succ]
      rfl
    have differs : 1 :: List.replicate (flashSize - 1) 0 ≠ (0 :: List.replicate (flashSize - 1) 0 : Bytes) := by
      intro same
      exact absurd (List.cons.inj same).1 (by decide)
    rw [empty]
    exact ⟨_, differs, [], Crc.byteBits 1, Crc.byteBits 0, Crc.bits (List.replicate (flashSize - 1) 0), rfl, rfl, rfl,
      by decide⟩
  obtain ⟨_, after, run, _, _, checked⟩ := bootloaderInstall_vouched (vouched_served flash) rfl (by decide)
  refine ⟨flash, ?_, bootloaderInstall_detects (.vouched flash) rfl rfl (vouched_full flash) (vouched_reports flash)
    burst⟩
  rw [run]
  exact (checked (crc32_burst burst).symm).2

end Ev3duder
