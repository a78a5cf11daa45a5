import Ev3duder.Commands.Fetched
import Ev3duder.Commands.Simple

namespace Ev3duder

open Data

/-! # The handle map

`closehnd` asks the brick to close one handle after the other, and marks which of them it says were open.
-/

/-- The handles from `start` on and below `stop`. -/
def handlesIn (start stop : Int) : List UInt8 :=
  (List.range' start.toNat ((min stop 256).toNat - start.toNat)).map UInt8.ofNat

/-- A reply with the type `VM_OK` says that the handle was open. -/
def mark (type : UInt8) : Bytes := if type = vmOk then ascii "*" else ascii "_"

/-- A full row ends with a line break. -/
def mapRow (row : List UInt8) : Bytes := row.flatMap mark ++ if row.length = 16 then ascii "\n" else []

def handleMap (types : List UInt8) : Bytes := ascii "Handle map:\n" ++ (chunks 16 types).flatMap mapRow

/-- The marks as the loop writes them, which counts them. -/
def marks (count : Nat) : List UInt8 → Bytes
  | [] => []
  | type :: types => mark type ++ (if (count + 1) % 16 = 0 then ascii "\n" else []) ++ marks (count + 1) types

theorem marks_append (count : Nat) (front back : List UInt8) :
    marks count (front ++ back) = marks count front ++ marks (count + front.length) back := by
  induction front generalizing count with
  | nil => rfl
  | cons type front ih =>
      rw [List.cons_append, marks, marks, ih, List.length_cons, Nat.add_assoc count 1, Nat.add_comm 1]
      simp only [List.append_assoc]

/-- Up to the end of a row. -/
theorem marks_row {count : Nat} {row : List UInt8} (within : count % 16 + row.length ≤ 16) (nonempty : row ≠ []) :
    marks count row = row.flatMap mark ++ if count % 16 + row.length = 16 then ascii "\n" else [] := by
  induction row generalizing count with
  | nil => exact absurd rfl nonempty
  | cons type row ih =>
      rw [List.length_cons] at within ⊢
      rw [marks, List.flatMap_cons]
      cases row with
      | nil =>
          have same : (count + 1) % 16 = 0 ↔ count % 16 + (0 + 1) = 16 := by omega
          simp only [marks, List.flatMap_nil, List.append_nil, List.length_nil, same]
      | cons next row =>
          rw [List.length_cons] at within ⊢
          have inside : (count + 1) % 16 = count % 16 + 1 := by omega
          rw [if_neg (by omega), List.append_nil, ih (by rw [List.length_cons]; omega) nofun, List.length_cons, inside,
            Nat.add_assoc, Nat.add_comm 1, List.append_assoc]

theorem marks_rows {count : Nat} (whole : count % 16 = 0) (types : List UInt8) :
    marks count types = (chunks 16 types).flatMap mapRow := by
  induction types using chunks_induction (by decide : 0 < 16) generalizing count with
  | empty => rw [chunks_nil, marks, List.flatMap_nil]
  | block types nonempty ih =>
      have front : types.take 16 ≠ [] := by simpa using nonempty
      have size := List.length_take_le 16 types
      have row := marks_row (show count % 16 + (types.take 16).length ≤ 16 by omega) front
      rw [whole, Nat.zero_add] at row
      rw [chunks_cons (by decide) nonempty, List.flatMap_cons, mapRow, ← row]
      by_cases full : (types.take 16).length = 16
      · rw [← ih (show (count + (types.take 16).length) % 16 = 0 by omega), ← marks_append, List.take_append_drop]
      · rw [List.length_take] at full
        have last : types.length ≤ 16 := by omega
        rw [List.drop_of_length_le last, List.take_of_length_le last, chunks_nil, List.flatMap_nil, List.append_nil]

def closeRequest (handle : UInt8) : CloseHandle := { closeHandleInit with packetLen := 5, handle }

theorem closeRequest_handed (handle : UInt8) :
    Packet.handed (closeRequest handle) = Packet.toBytes (closeRequest handle) :=
  Packet.handed_eq rfl

section Loop

variable {request : CloseHandle} {stop hnd : Nat} {session : Session}

theorem closehndLoop_step (framed : ∃ handle, request = closeRequest handle) (reply : Reply) (below : hnd < stop)
    (count : Nat) :
    closehndLoop request reply stop hnd count session =
      (exchange (closeRequest (UInt8.ofNat hnd)) "Unable to write CLOSE_HANDLE." reply closeHandleReplySize timeout
          "Unable to read CLOSE_HANDLE" >>= fun step =>
        match step with
        | .error err => return err
        | .ok reply => do
            let type ← reply.type
            fwrite (if type = vmOk then ascii "*" else ascii "_")
            fwrite (if (count + 1) % 16 = 0 then ascii "\n" else [])
            closehndLoop (closeRequest (UInt8.ofNat hnd)) reply stop (hnd + 1 : Nat) (count + 1)) session := by
  obtain ⟨last, rfl⟩ := framed
  have number : UInt8.ofInt (hnd : Int) = UInt8.ofNat hnd := by
    apply UInt8.toNat_inj.mp
    simp only [UInt8.ofInt, UInt8.toNat_ofNat']
    omega
  rw [closehndLoop, if_pos (Int.ofNat_lt.mpr below), number]
  rfl

/-- One pass of the loop on an answer. -/
theorem closehndLoop_answered (framed : ∃ handle, request = closeRequest handle) (reply : Reply) (below : hnd < stop)
    (count : Nat) (answered : 0 ≤ session.writeResult ∧ 0 < session.readResult.res) :
    ∃ middle, closehndLoop request reply stop hnd count session =
        closehndLoop (closeRequest (UInt8.ofNat hnd)) (reply.receive session.readResult) stop (hnd + 1 : Nat)
          (count + 1) middle ∧
      middle.writes = session.writes.tail ∧ middle.reads = session.reads.tail ∧
      middle.output = session.output ++ (mark ((reply.receive session.readResult).memory 4) ++
        if (count + 1) % 16 = 0 then ascii "\n" else []) ∧
      packetsOf middle.log = packetsOf session.log ++ [Packet.toBytes (closeRequest (UInt8.ofNat hnd))] := by
  have handed := exchange_hands (closeRequest (UInt8.ofNat hnd)) "Unable to write CLOSE_HANDLE." reply
    closeHandleReplySize timeout "Unable to read CLOSE_HANDLE" session
  rw [exchange_answered session answered.1 answered.2, closeRequest_handed] at handed
  rw [closehndLoop_step framed reply below, Proc.bind_returned (exchange_answered session answered.1 answered.2)]
  simp only []
  rw [Proc.bind_returned (Reply.type_run _ _)]
  exact ⟨_, rfl, rfl, rfl, List.append_assoc .., handed⟩

theorem closehndLoop_unanswered (framed : ∃ handle, request = closeRequest handle) (reply : Reply) (below : hnd < stop)
    (count : Nat) (failed : ¬ (0 ≤ session.writeResult ∧ 0 < session.readResult.res)) :
    ∃ last, closehndLoop request reply stop hnd count session = (some .comm, last) ∧ last.output = session.output ∧
      packetsOf last.log = packetsOf session.log ++ [Packet.toBytes (closeRequest (UInt8.ofNat hnd))] := by
  obtain ⟨last, ran⟩ := exchange_failed (closeRequest (UInt8.ofNat hnd)) "Unable to write CLOSE_HANDLE." reply
    closeHandleReplySize timeout "Unable to read CLOSE_HANDLE" session failed
  have handed := exchange_hands (closeRequest (UInt8.ofNat hnd)) "Unable to write CLOSE_HANDLE." reply
    closeHandleReplySize timeout "Unable to read CLOSE_HANDLE" session
  have quiet := exchange_output (closeRequest (UInt8.ofNat hnd)) "Unable to write CLOSE_HANDLE." reply
    closeHandleReplySize timeout "Unable to read CLOSE_HANDLE" session
  rw [ran] at handed quiet
  rw [closehndLoop_step framed reply below, Proc.bind_returned ran]
  exact ⟨last, rfl, quiet, by rw [handed, closeRequest_handed]⟩

/-- From any handle on, with what is left of the range: up to the first exchange that fails, if one does. -/
theorem closehndLoop_runs (size hnd : Nat) {request : CloseHandle} (framed : ∃ handle, request = closeRequest handle)
    (reply : Reply) (count : Nat) (session : Session) :
    ∃ done last, done ≤ size ∧ Answered session.writes session.reads done ∧
      (done < size → ¬ Answered session.writes session.reads (done + 1)) ∧
      closehndLoop request reply (hnd + size : Nat) hnd count session =
        (some (if done = size then .unk else .comm), last) ∧
      last.output = session.output ++
        marks count ((List.range done).map fun index => (reply.after session.reads (index + 1)).memory 4) ∧
      packetsOf last.log = packetsOf session.log ++
        (((List.range' hnd size).map UInt8.ofNat).take (done + 1)).map fun handle =>
          Packet.toBytes (closeRequest handle) := by
  induction size generalizing hnd request reply count session with
  | zero =>
      have ends : closehndLoop request reply (hnd + 0 : Nat) hnd count session =
          failWith "`closehnd` was successful." .unk session := by
        rw [closehndLoop, if_neg (by omega)]
      exact ⟨0, _, Nat.le_refl 0, answeredBy_zero _ _ _, fun more => absurd more (Nat.lt_irrefl 0), ends,
        (List.append_nil _).symm, (List.append_nil _).symm⟩
  | succ size ih =>
      have below : hnd < hnd + (size + 1) := by omega
      rw [List.range'_succ, List.map_cons]
      by_cases answered : 0 ≤ session.writeResult ∧ 0 < session.readResult.res
      · obtain ⟨middle, pass, writes, reads, marked, handed⟩ :=
          closehndLoop_answered framed reply below count answered
        obtain ⟨done, last, within, others, stops, run, output, packets⟩ :=
          ih (hnd + 1) ⟨_, rfl⟩ (reply.receive session.readResult) (count + 1) middle
        rw [writes, reads] at others stops
        rw [reads] at output
        refine ⟨done + 1, last, Nat.succ_le_succ within, answeredBy_succ.mpr ⟨answered, others⟩, ?_, ?_, ?_, ?_⟩
        · exact fun more all => stops (Nat.lt_of_succ_lt_succ more) (answeredBy_succ.mp all).2
        · rw [show hnd + (size + 1) = hnd + 1 + size by omega] at pass ⊢
          rw [pass, run]
          simp only [Nat.add_right_cancel_iff]
        · rw [output, marked, List.range_succ_eq_map, List.map_cons, List.map_map, marks]
          simp only [List.append_assoc]
          rfl
        · rw [packets, handed, List.take_succ_cons, List.map_cons, List.append_assoc]
          rfl
      · obtain ⟨last, run, output, packets⟩ := closehndLoop_unanswered framed reply below count answered
        refine ⟨0, last, Nat.zero_le _, answeredBy_zero _ _ _, ?_, run, ?_, packets⟩
        · exact fun _ all => answered (answeredBy_succ.mp all).1
        · exact output.trans (List.append_nil _).symm

end Loop

theorem handlesIn_ascending (start stop : Int) :
    (handlesIn start stop).Pairwise (fun first second => first < second) := by
  rw [handlesIn, List.pairwise_map]
  refine List.Pairwise.imp_of_mem ?_ List.pairwise_lt_range'
  intro first second _ member less
  rw [List.mem_range'_1] at member
  rw [UInt8.lt_iff_toNat_lt, UInt8.toNat_ofNat', UInt8.toNat_ofNat']
  omega

theorem mem_handlesIn {start stop : Int} {handle : UInt8} :
    handle ∈ handlesIn start stop ↔ start ≤ handle.toNat ∧ (handle.toNat : Int) < stop := by
  have small := handle.toNat_lt
  simp only [handlesIn, List.mem_map, List.mem_range'_1]
  constructor
  · rintro ⟨index, range, rfl⟩
    rw [UInt8.toNat_ofNat']
    omega
  · intro range
    exact ⟨handle.toNat, by omega, UInt8.ofNat_toNat⟩

/-- Clamped to the handles there are, the range is the same. -/
theorem closehndLoop_clamped (request : CloseHandle) (reply : Reply) (start stop : Int) (count : Nat) :
    closehndLoop request reply (if 256 < stop then 256 else stop) (if start < 0 then 0 else start) count =
      closehndLoop request reply (start.toNat + ((min stop 256).toNat - start.toNat) : Nat) start.toNat count := by
  have low : (if start < 0 then 0 else start) = (start.toNat : Int) := by
    split <;> omega
  rw [low]
  by_cases empty : min stop 256 ≤ start.toNat
  · rw [closehndLoop, if_neg (by split <;> omega), closehndLoop, if_neg (by omega)]
  · have high : (if 256 < stop then 256 else stop) =
        ((start.toNat + ((min stop 256).toNat - start.toNat) : Nat) : Int) := by
      split <;> omega
    rw [high]

/-- The handles of the range are asked for in ascending order, up to the first one whose exchange fails, and the map has
a mark for each answer: a star exactly where the type in the reply buffer is then `VM_OK`. -/
theorem closehnd_maps (start stop : Int) (writes : List Int) (reads : List ReadResult) (junk : Nat → Memory) :
    let session : Session := { writes, reads, junk }
    let run := closehnd start stop session
    (∀ handle, handle ∈ handlesIn start stop ↔ start ≤ handle.toNat ∧ (handle.toNat : Int) < stop) ∧
    (handlesIn start stop).Pairwise (fun first second => first < second) ∧
    ∃ count, count ≤ (handlesIn start stop).length ∧ Answered writes reads count ∧
      (count < (handlesIn start stop).length → ¬ Answered writes reads (count + 1)) ∧
      run.1 = some (if count = (handlesIn start stop).length then .unk else .comm) ∧
      run.2.output = handleMap ((List.range count).map fun index => (session.buffer index).memory 4) ∧
      packetsOf run.2.log =
        ((handlesIn start stop).take (count + 1)).map fun handle => Packet.toBytes (closeRequest handle) := by
  intro session run
  have alloc : packetAlloc closeHandleInit 0 = some (closeRequest 0) := rfl
  have length : (handlesIn start stop).length = (min stop 256).toNat - start.toNat := by
    rw [handlesIn, List.length_map, List.length_range']
  obtain ⟨count, last, within, answered, stops, ends, output, packets⟩ :=
    closehndLoop_runs ((min stop 256).toNat - start.toNat) start.toNat ⟨0, rfl⟩ ⟨junk 0, 0⟩ 0
      (fwrite (ascii "Handle map:\n") session.afterMalloc).2
  have whole : run = (some (if count = (min stop 256).toNat - start.toNat then .unk else .comm), last) := by
    rw [← ends, ← closehndLoop_clamped]
    show closehnd start stop session = _
    rw [closehnd, alloc]
    rfl
  rw [length, whole]
  refine ⟨fun handle => mem_handlesIn, handlesIn_ascending start stop, count, within, answered, stops, rfl, ?_, packets⟩
  rw [output, marks_rows rfl]
  rfl

end Ev3duder
