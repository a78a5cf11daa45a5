import Ev3duder.Data.Triples
import Ev3duder.Firmware.Install

namespace Ev3duder

open Data

/-! # Replies that let the update go on -/

/-- The coming `count` requests are taken and answered well, as every one before them was. -/
structure Served (good : ReadResult → Prop) (count : Nat) (session : Session) : Prop where
  coming : AnsweredBy good session.writes session.reads count
  heard : ∀ event ∈ session.log, ∀ result, event.answer = some result → good result

def Ready (result : ReadResult) : Prop :=
  0 < result.res ∧ systemReplySize ≤ result.stored.length ∧ Acknowledged result

section Served

variable {good : ReadResult → Prop} {count more : Nat} {session after : Session}

theorem Served.of_link (served : Served good count session) (link : session.SameLink after) :
    Served good count after := by
  refine ⟨?_, ?_⟩
  · rw [link.writes, link.reads]
    exact served.coming
  · rw [link.log]
    exact served.heard

theorem Served.fewer (served : Served good (count + more) session) : Served good more session :=
  ⟨fun index bound => served.coming index (by omega), served.heard⟩

theorem exchange_served {τ : Type} [Packet τ] (ready : ∀ result, good result → Ready result) (request : τ)
    (writeError : String) (reply : Reply) (size : Nat) (milliseconds : Int) (readError : String) :
    Proc.Ensures (Served good (count + 1)) (exchange request writeError reply size milliseconds readError)
      (fun step session => ∃ result, step = .ok (reply.receive result) ∧ good result ∧
        Event.read size milliseconds result ∈ session.log ∧ Served good count session)
      (fun _ => False) := by
  intro session served
  obtain ⟨⟨written, answered⟩, others⟩ := answeredBy_succ.mp served.coming
  rw [Proc.Ends, exchange_answered session written (ready _ answered).1]
  refine ⟨session.readResult, rfl, answered, ?_, others, ?_⟩
  · rw [Session.afterExchange_log]
    simp
  · intro event member result heard
    rw [Session.afterExchange_log, List.mem_append] at member
    rcases member with before | here
    · exact served.heard event before result heard
    · simp only [List.mem_cons, List.not_mem_nil, or_false] at here
      rcases here with rfl | rfl
      · cases heard
      · cases heard
        exact answered

theorem malloc_served : Proc.Ensures (Served good count) malloc (fun _ => Served good count) (fun _ => False) :=
  Proc.ensures_run malloc_run fun _ served => served.of_link ⟨rfl, rfl, rfl⟩

theorem bootloaderReply_served (ready : ∀ result, good result → Ready result) (reply : Reply) {result : ReadResult}
    (answered : good result) (more : Nat) (deniedError : String) :
    Proc.Ensures (Served good count) (bootloaderReply (reply.receive result) more deniedError)
      (fun err session => err = .unk ∧ Served good count session) (fun _ => False) := by
  intro session served
  obtain ⟨_, full, acknowledged⟩ := ready _ answered
  obtain ⟨err, after, run, link, _, verdict⟩ := bootloaderReply_run (reply.receive result) more deniedError session
  rw [Proc.Ends, run]
  exact ⟨verdict.mpr ((acknowledged_iff reply full).mp acknowledged), served.of_link link⟩

theorem bootloaderStep_served {τ : Type} [Packet τ] (ready : ∀ result, good result → Ready result) (request : τ)
    (writeError readError deniedError : String) (milliseconds : Int) (more : Nat) :
    Proc.Ensures (Served good (count + 1))
      (bootloaderStep (some request) writeError readError deniedError milliseconds more)
      (fun err session => err = .unk ∧ Served good count session) (fun _ => False) := by
  refine Proc.ensures_bind malloc_served fun heap => ?_
  refine Proc.ensures_bind (exchange_served ready request writeError ⟨heap, 0⟩ _ _ _) fun step => ?_
  rintro session ⟨result, rfl, answered, _, served⟩
  exact bootloaderReply_served ready _ answered more deniedError session served

theorem fillBlock_served (payload : Bytes) (thisBlock : Nat) (ended : Bool) :
    Proc.Ensures (Served good count) (fillBlock payload thisBlock ended) (fun _ => Served good count)
      (fun _ => False) := by
  intro session served
  obtain ⟨filled, stopped, after, run, link, _⟩ := fillBlock_run payload thisBlock ended session
  rw [Proc.Ends, run]
  exact served.of_link link

/-- `count` answers are enough for as many blocks; those behind them are left to what follows the image. -/
theorem sendLoop_served (ready : ∀ result, good result → Ready result) (total : Nat) (request : SystemCmd)
    (reply : Reply) (sent : Nat) (ended : Bool) (crc : UInt32) (enough : total - sent ≤ count * maxPayload) :
    Proc.Ensures (Served good (count + more)) (sendLoop total request reply sent ended crc)
      (fun result session => ∃ final, result = .ok final ∧ Served good more session) (fun _ => False) := by
  induction count generalizing request reply sent ended crc with
  | zero =>
      rw [sendLoop, if_neg (by omega)]
      exact Proc.ensures_pure fun session served => ⟨crc, rfl, served.fewer⟩
  | succ count ih =>
      rw [sendLoop]
      refine Proc.ensures_ite (fun further => ?_) fun _ =>
        Proc.ensures_pure fun session served => ⟨crc, rfl, served.fewer⟩
      generalize block_eq : (if total - sent ≤ maxPayload then total - sent else maxPayload) = thisBlock
      have bounds := nextBlock_bounds (by omega) block_eq
      simp only [block_eq]
      rw [show count + 1 + more = (count + more) + 1 by omega]
      refine Proc.ensures_bind (fillBlock_served request.bytes thisBlock ended) ?_
      rintro ⟨payload, stopped⟩
      refine Proc.ensures_bind (exchange_served ready _ _ reply _ _ _) fun step => ?_
      rintro session ⟨result, rfl, answered, _, served⟩
      refine Proc.ends_bind (bootloaderReply_served ready reply answered _ _ session served) ?_
      rintro _ judged ⟨rfl, left⟩
      refine ih _ _ (sent + thisBlock) _ _ ?_ judged left
      rw [Nat.succ_mul] at enough
      omega

theorem bootloaderSend_served (ready : ∀ result, good result → Ready result)
    (enough : flashSize ≤ count * maxPayload) :
    Proc.Ensures (Served good (count + more)) (bootloaderSend flashSize)
      (fun outcome session => outcome.1 = .unk ∧ Served good more session) (fun _ => False) := by
  rw [bootloaderSend, fwDownloadData_alloc]
  refine Proc.ensures_bind malloc_served fun payload => ?_
  refine Proc.ensures_bind malloc_served fun heap => ?_
  refine Proc.ensures_bind (sendLoop_served ready flashSize _ ⟨heap, 0⟩ 0 false 0 (by omega)) fun result => ?_
  rintro session ⟨final, rfl, served⟩
  exact ⟨rfl, served⟩

end Served

end Ev3duder
