import Ev3duder.Commands.Download
import Ev3duder.Commands.Vm
import Ev3duder.Firmware.Bootloader
import Ev3duder.Transport.Serial

namespace Ev3duder

open Data

/-! # Reply buffers and the packets that are received into them

`bt_read` takes the length of a packet from the peer.  What it does with a given stream depends on how the coming
reads bring the two bytes of the length, and then the rest.
-/

/-- How a run of reads ends that asks for a number of bytes, each read for all that is still missing. -/
inductive Stop where
  | full | ended | failed | waiting
deriving DecidableEq, Repr

structure Arrival where
  stop : Stop
  count : Nat
  left : Answers
deriving DecidableEq, Repr

/-- What the kernel's answers make of `pending` bytes when `need` bytes are asked for. -/
def arrival (hungUp : Bool) : Answers → (pending need : Nat) → Arrival
  | answers, _, 0 => ⟨.full, 0, answers⟩
  | [], pending, need + 1 =>
      if need < pending then ⟨.full, need + 1, []⟩ else ⟨if hungUp then .ended else .waiting, pending, []⟩
  | answer :: later, pending, need + 1 =>
      if answer < 0 then ⟨.failed, 0, later⟩
      else if pending = 0 ∧ hungUp = false then ⟨.waiting, 0, answer :: later⟩
      else if answer.toNat = 0 ∨ pending = 0 then ⟨.ended, 0, later⟩
      else
        let piece := min (min answer.toNat (need + 1)) pending
        let rest := arrival hungUp later (pending - piece) (need + 1 - piece)
        { rest with count := piece + rest.count }

def fill (fd : ReadEnd) (goal : Nat) (received : Bytes) : Bytes × Stop × ReadEnd :=
  if received.length < goal then
    match _ : fd.read (goal - received.length) with
    | none => (received, .waiting, fd)
    | some (ret, bytes, fd) =>
        if ret = 0 then (received ++ bytes, .ended, fd)
        else if ret = -1 then (received ++ bytes, .failed, fd)
        else fill fd goal (received ++ bytes)
  else (received, .full, fd)
termination_by fd.answers.length + fd.pending.length
decreasing_by exact ReadEnd.read_shrinks (by assumption) (by omega) (by omega)

/-- The bytes that `bt_read(fd, buf, count, milliseconds)` stores from `buf[0]` on, and its return value if it
returns. -/
def btReadStored (fd : ReadEnd) (count : Nat) (milliseconds : Int) : Bytes × Option Int :=
  if 0 ≤ milliseconds ∧ fd.ready = false then ([], some 0)
  else
    match fill fd 2 [] with
    | (received, .waiting, _) => (received, none)
    | (received, .ended, _) => (received, some (-1))
    | (received, .failed, _) => (received, some (-1))
    | (received, .full, fd) =>
        let packetLen := 2 + leValue (received.take 2)
        if 2 * count < packetLen then (received, some (-1))
        else
          match fill fd packetLen received with
          | (received, .waiting, _) => (received, none)
          | (received, .failed, _) => (received, some (-1))
          | (received, .ended, _) => (received, some received.length)
          | (received, .full, _) => (received, some received.length)

theorem fill_done (fd : ReadEnd) {goal : Nat} {received : Bytes} (all : received.length = goal) :
    fill fd goal received = (received, .full, fd) := by
  rw [fill, if_neg (by omega)]

section Fill

variable {fd after : ReadEnd} {goal : Nat} {received : Bytes}

theorem fill_waiting (short : received.length < goal) (call : fd.read (goal - received.length) = none) :
    fill fd goal received = (received, .waiting, fd) := by
  rw [fill, if_pos short, call]

theorem fill_failed (short : received.length < goal)
    (call : fd.read (goal - received.length) = some (-1, [], after)) :
    fill fd goal received = (received, .failed, after) := by
  rw [fill, if_pos short, call]
  simp

theorem fill_ended (short : received.length < goal)
    (call : fd.read (goal - received.length) = some (0, [], after)) :
    fill fd goal received = (received, .ended, after) := by
  rw [fill, if_pos short, call]
  simp

/-- One read that transfers something: the loop goes on with what it left. -/
theorem fill_step {piece : Nat} {bytes : Bytes} (short : received.length < goal) (positive : 0 < piece)
    (call : fd.read (goal - received.length) = some ((piece : Int), bytes, after)) :
    fill fd goal received = fill after goal (received ++ bytes) := by
  rw [fill, if_pos short, call]
  simp only [if_neg (show ¬ (piece : Int) = 0 by omega), if_neg (show ¬ (piece : Int) = -1 by omega)]

theorem fill_drained (hungUp : Bool) (short : received.length < goal) :
    fill ⟨[], hungUp, []⟩ goal received = (received, if hungUp then .ended else .waiting, ⟨[], hungUp, []⟩) := by
  cases hungUp with
  | false => exact fill_waiting short rfl
  | true =>
      refine fill_ended short ?_
      simp [ReadEnd.read]

end Fill

theorem ReadEnd.read_delivers {pending : Bytes} (waiting : pending ≠ []) (hungUp : Bool) (count : Nat) :
    ReadEnd.read ⟨pending, hungUp, []⟩ count =
      some (((min count pending.length : Nat) : Int), pending.take (min count pending.length),
        (⟨pending.drop (min count pending.length), hungUp, []⟩ : ReadEnd)) := by
  simp only [ReadEnd.read, waiting, false_and, if_false, Nat.min_self, List.length_take, ← List.take_eq_take_min,
    ← List.drop_eq_drop_min]

theorem ReadEnd.read_answers {pending : Bytes} {hungUp : Bool} {answer : Int} (later : Answers)
    (accepted : ¬ answer < 0) (goes : ¬ (pending = [] ∧ hungUp = false)) (count : Nat) :
    ReadEnd.read ⟨pending, hungUp, answer :: later⟩ count =
      some (((min (min answer.toNat count) pending.length : Nat) : Int),
        pending.take (min (min answer.toNat count) pending.length),
        (⟨pending.drop (min (min answer.toNat count) pending.length), hungUp, later⟩ : ReadEnd)) := by
  simp only [ReadEnd.read, accepted, goes, if_false, List.length_take, ← List.take_eq_take_min,
    ← List.drop_eq_drop_min]

/-- What `fill` leaves is told by the arrival: the bytes received, why it stopped, and what is left. -/
def FillArrives (hungUp : Bool) (answers : Answers) (pending received : Bytes) (goal : Nat) : Prop :=
  fill ⟨pending, hungUp, answers⟩ goal received =
    (received ++ pending.take (arrival hungUp answers pending.length (goal - received.length)).count,
      (arrival hungUp answers pending.length (goal - received.length)).stop,
      ⟨pending.drop (arrival hungUp answers pending.length (goal - received.length)).count, hungUp,
        (arrival hungUp answers pending.length (goal - received.length)).left⟩)

section Arrives

variable {hungUp : Bool} {answers : Answers} {pending received : Bytes} {goal : Nat}

theorem fillArrives_done (all : received.length = goal) : FillArrives hungUp answers pending received goal := by
  have none : goal - received.length = 0 := by omega
  rw [FillArrives, fill_done _ all, none]
  cases answers with
  | nil => simp [arrival]
  | cons answer later => simp [arrival]

theorem fillArrives_nil (short : received.length < goal) : FillArrives hungUp [] pending received goal := by
  unfold FillArrives
  generalize missing : goal - received.length = need
  obtain ⟨less, rfl⟩ : ∃ less, need = less + 1 := ⟨need - 1, by omega⟩
  by_cases drained : pending = []
  · subst drained
    rw [fill_drained hungUp short]
    simp [arrival]
  · have positive := List.length_pos_iff.mpr drained
    have call := ReadEnd.read_delivers drained hungUp (goal - received.length)
    have some : 0 < min (goal - received.length) pending.length := by omega
    rw [fill_step short some call, missing, arrival]
    by_cases enough : less < pending.length
    · rw [Nat.min_eq_left (by omega), if_pos enough, fill_done]
      simp only [List.length_append, List.length_take]
      omega
    · rw [Nat.min_eq_right (by omega), if_neg enough, List.drop_length, fill_drained]
      simp only [List.length_append, List.length_take]
      omega

/-- One answer: the read fails, waits, brings nothing, or brings a piece and the loop goes on. -/
theorem fillArrives_cons (answer : Int) (short : received.length < goal)
    (goesOn : ∀ pending received, received.length ≤ goal → FillArrives hungUp answers pending received goal) :
    FillArrives hungUp (answer :: answers) pending received goal := by
  unfold FillArrives
  generalize missing : goal - received.length = need
  obtain ⟨less, rfl⟩ : ∃ less, need = less + 1 := ⟨need - 1, by omega⟩
  rw [arrival]
  by_cases negative : answer < 0
  · have call : ReadEnd.read ⟨pending, hungUp, answer :: answers⟩ (goal - received.length) =
        some (-1, [], ⟨pending, hungUp, answers⟩) := by
      simp only [ReadEnd.read, if_pos negative]
    rw [fill_failed short call, if_pos negative]
    simp
  by_cases waits : pending = [] ∧ hungUp = false
  · have call : ReadEnd.read ⟨pending, hungUp, answer :: answers⟩ (goal - received.length) = none := by
      simp only [ReadEnd.read, if_neg negative, if_pos waits]
    rw [fill_waiting short call, if_neg negative, if_pos (by simp [waits])]
    simp
  have goes : ¬ (pending.length = 0 ∧ hungUp = false) := by rwa [List.length_eq_zero_iff]
  have call := ReadEnd.read_answers answers negative waits (goal - received.length)
  rw [if_neg negative, if_neg goes]
  by_cases nothing : answer.toNat = 0 ∨ pending.length = 0
  · have none : min (min answer.toNat (goal - received.length)) pending.length = 0 := by omega
    rw [none] at call
    rw [if_pos nothing, fill_ended short call]
    simp
  have some : 0 < min (min answer.toNat (goal - received.length)) pending.length := by omega
  have length : (received ++ pending.take (min (min answer.toNat (less + 1)) pending.length)).length =
      received.length + min (min answer.toNat (less + 1)) pending.length := by
    simp only [List.length_append, List.length_take]
    omega
  have left : goal - (received.length + min (min answer.toNat (less + 1)) pending.length) =
      less + 1 - min (min answer.toNat (less + 1)) pending.length := by omega
  rw [if_neg nothing, fill_step short some call, missing, goesOn _ _ (by rw [length]; omega), length, left,
    List.length_drop, List.append_assoc, ← List.take_add, List.drop_drop]

end Arrives

theorem fill_arrival (hungUp : Bool) (answers : Answers) (pending received : Bytes) {goal : Nat}
    (room : received.length ≤ goal) : FillArrives hungUp answers pending received goal := by
  induction answers generalizing pending received with
  | nil =>
      rcases Nat.eq_or_lt_of_le room with all | short
      · exact fillArrives_done all
      · exact fillArrives_nil short
  | cons answer later ih =>
      rcases Nat.eq_or_lt_of_le room with all | short
      · exact fillArrives_done all
      · exact fillArrives_cons answer short ih

theorem ReadEnd.read_result {fd after : ReadEnd} {count : Nat} {ret : Int} {bytes : Bytes}
    (call : fd.read count = some (ret, bytes, after)) :
    (ret = -1 ∧ bytes = []) ∨ (ret = bytes.length ∧ bytes.length ≤ count) := by
  unfold ReadEnd.read at call
  cases answers : fd.answers with
  | nil =>
      simp only [answers] at call
      split at call
      · cases call
      · cases call
        refine Or.inr ⟨rfl, ?_⟩
        simp only [List.length_take]
        omega
  | cons answer later =>
      simp only [answers] at call
      split at call
      · cases call
        exact Or.inl ⟨rfl, rfl⟩
      · split at call
        · cases call
        · cases call
          refine Or.inr ⟨rfl, ?_⟩
          simp only [List.length_take]
          omega

theorem headerLoop_fill (fd : ReadEnd) (received : Bytes) (short : received.length < 2) :
    headerLoop fd received =
      match fill fd 2 received with
      | (_, .waiting, _) => none
      | (received, .ended, fd) => some (-1, received, fd)
      | (received, .failed, fd) => some (-1, received, fd)
      | (received, .full, fd) => some (2, received, fd) := by
  generalize measure : fd.answers.length + fd.pending.length = count
  induction count using Nat.strongRecOn generalizing fd received with
  | ind count ih =>
    cases call : fd.read (2 - received.length) with
    | none =>
        rw [headerLoop, call, fill_waiting short call]
    | some result =>
        obtain ⟨ret, bytes, after⟩ := result
        rw [headerLoop, call, fill, if_pos short, call]
        rcases fd.read_result call with ⟨rfl, rfl⟩ | ⟨rfl, bound⟩
        · rfl
        · by_cases ended : (bytes.length : Int) = 0
          · simp only [if_pos ended, if_pos (Int.le_of_eq ended)]
          · have shrinks := ReadEnd.read_shrinks call (by omega) ended
            simp only [if_neg ended, if_neg (show ¬ (bytes.length : Int) ≤ 0 by omega),
              if_neg (show ¬ (bytes.length : Int) = -1 by omega)]
            by_cases more : (received ++ bytes).length ≠ 2
            · rw [if_pos more]
              rw [List.length_append] at more
              exact ih _ (by omega) after (received ++ bytes) (by rw [List.length_append]; omega) rfl
            · rw [if_neg more, fill_done after (by omega)]

theorem bodyLoop_fill (fd : ReadEnd) (packetLen : Nat) (received : Bytes) :
    bodyLoop fd packetLen received =
      match fill fd packetLen received with
      | (_, .waiting, _) => none
      | (received, .failed, fd) => some (-1, received, fd)
      | (received, .ended, fd) => some (received.length, received, fd)
      | (received, .full, fd) => some (received.length, received, fd) := by
  generalize measure : fd.answers.length + fd.pending.length = count
  induction count using Nat.strongRecOn generalizing fd received with
  | ind count ih =>
    rw [bodyLoop, fill]
    by_cases short : received.length < packetLen
    · rw [if_pos short, if_pos short]
      cases call : fd.read (packetLen - received.length) with
      | none => rfl
      | some result =>
          obtain ⟨ret, bytes, after⟩ := result
          simp only
          by_cases ended : ret = 0
          · rw [if_pos ended, if_pos ended]
          · by_cases failed : ret = -1
            · rw [if_neg ended, if_neg ended, if_pos failed, if_pos failed]
            · have shrinks := ReadEnd.read_shrinks call failed ended
              rw [if_neg ended, if_neg ended, if_neg failed, if_neg failed]
              exact ih _ (by omega) after (received ++ bytes) rfl
    · rw [if_neg short, if_neg short]

/-- A call that returns has left exactly these bytes in the buffer. -/
theorem btRead_stored (fd : ReadEnd) (buf : Memory) (count : Nat) (milliseconds : Int) :
    (btRead fd buf count milliseconds).map (fun call => (call.1, call.2.1)) =
      (btReadStored fd count milliseconds).2.map fun ret =>
        (ret, buf.store (btReadStored fd count milliseconds).1) := by
  rw [btRead, btReadStored]
  by_cases idle : 0 ≤ milliseconds ∧ fd.ready = false
  · rw [if_pos idle, if_pos idle]
    rfl
  · rw [if_neg idle, if_neg idle, headerLoop_fill fd [] (by decide)]
    rcases fill fd 2 [] with ⟨received, stop, after⟩
    cases stop with
    | waiting => rfl
    | ended => rfl
    | failed => rfl
    | full =>
        simp only [show ¬ (2 : Int) = -1 by decide, if_false]
        by_cases large : 2 * count < 2 + leValue (received.take 2)
        · rw [if_pos large, if_pos large]
          rfl
        · rw [if_neg large, if_neg large, bodyLoop_fill]
          rcases fill after (2 + leValue (received.take 2)) received with ⟨all, stop, last⟩
          cases stop <;> rfl

theorem arrival_count (hungUp : Bool) (answers : Answers) (pending need : Nat) :
    (arrival hungUp answers pending need).count ≤ pending ∧ (arrival hungUp answers pending need).count ≤ need ∧
      ((arrival hungUp answers pending need).stop = .full ↔ (arrival hungUp answers pending need).count = need) := by
  induction answers generalizing pending need with
  | nil =>
      cases need with
      | zero => simp [arrival]
      | succ need =>
          rw [arrival]
          by_cases enough : need < pending
          · rw [if_pos enough]
            simp only [and_true]
            omega
          · rw [if_neg enough]
            cases hungUp <;> simp <;> omega
  | cons answer later ih =>
      cases need with
      | zero => simp [arrival]
      | succ need =>
          rw [arrival]
          split
          · simp
          · split
            · simp
            · split
              · simp
              · have step := ih (pending - min (min answer.toNat (need + 1)) pending)
                  (need + 1 - min (min answer.toNat (need + 1)) pending)
                dsimp only
                refine ⟨by omega, by omega, ?_⟩
                rw [step.2.2]
                omega

namespace ReadEnd

/-- How the two bytes of the length come in, and then the rest of the packet they announce. -/
def lengthArrival (fd : ReadEnd) : Arrival := arrival fd.hungUp fd.answers fd.pending.length 2

def announced (fd : ReadEnd) : Nat := 2 + leValue (fd.pending.take 2)

def restArrival (fd : ReadEnd) : Arrival :=
  arrival fd.hungUp fd.lengthArrival.left (fd.pending.length - 2) (fd.announced - 2)

theorem lengthArrival_count (fd : ReadEnd) :
    fd.lengthArrival.count ≤ fd.pending.length ∧ fd.lengthArrival.count ≤ 2 ∧
      (fd.lengthArrival.stop = .full ↔ fd.lengthArrival.count = 2) :=
  arrival_count fd.hungUp fd.answers fd.pending.length 2

theorem restArrival_count (fd : ReadEnd) :
    fd.restArrival.count ≤ fd.pending.length - 2 ∧ fd.restArrival.count ≤ fd.announced - 2 ∧
      (fd.restArrival.stop = .full ↔ fd.restArrival.count = fd.announced - 2) :=
  arrival_count fd.hungUp fd.lengthArrival.left (fd.pending.length - 2) (fd.announced - 2)

end ReadEnd

theorem fill_lengthArrival (fd : ReadEnd) :
    fill fd 2 [] = (fd.pending.take fd.lengthArrival.count, fd.lengthArrival.stop,
      ⟨fd.pending.drop fd.lengthArrival.count, fd.hungUp, fd.lengthArrival.left⟩) :=
  fill_arrival fd.hungUp fd.answers fd.pending [] (show ([] : Bytes).length ≤ 2 by decide)

theorem btReadStored_unannounced {fd : ReadEnd} (missing : fd.lengthArrival.stop ≠ .full) (count : Nat)
    (milliseconds : Int) :
    (btReadStored fd count milliseconds).1.length < 2 ∧
      ∀ ret, (btReadStored fd count milliseconds).2 = some ret → ret ≤ 0 := by
  obtain ⟨_, bound, full⟩ := fd.lengthArrival_count
  have short : (fd.pending.take fd.lengthArrival.count).length < 2 := by
    have below : fd.lengthArrival.count ≠ 2 := fun all => missing (full.mpr all)
    rw [List.length_take]
    omega
  rw [btReadStored]
  by_cases idle : 0 ≤ milliseconds ∧ fd.ready = false
  · rw [if_pos idle]
    simp
  · rw [if_neg idle, fill_lengthArrival]
    cases stop : fd.lengthArrival.stop with
    | full => exact absurd stop missing
    | waiting => exact ⟨short, by simp⟩
    | ended => exact ⟨short, by simp⟩
    | failed => exact ⟨short, by simp⟩

section Announced

variable {fd : ReadEnd} (complete : fd.lengthArrival.stop = .full)

include complete

theorem ReadEnd.length_pending : 2 ≤ fd.pending.length := by
  obtain ⟨available, _, full⟩ := fd.lengthArrival_count
  rw [full.mp complete] at available
  exact available

theorem ReadEnd.length_received : (fd.pending.take 2).length = 2 := by
  have enough := ReadEnd.length_pending complete
  rw [List.length_take]
  omega

theorem fill_length :
    fill fd 2 [] = (fd.pending.take 2, .full, ⟨fd.pending.drop 2, fd.hungUp, fd.lengthArrival.left⟩) := by
  obtain ⟨_, _, full⟩ := fd.lengthArrival_count
  rw [fill_lengthArrival, full.mp complete, complete]

theorem ReadEnd.length_ready (milliseconds : Int) : ¬ (0 ≤ milliseconds ∧ fd.ready = false) := by
  have enough := ReadEnd.length_pending complete
  have nonempty : fd.pending ≠ [] := List.length_pos_iff.mp (by omega)
  simp [ReadEnd.ready, nonempty]

theorem btReadStored_refused {count : Nat} (large : 2 * count < fd.announced) (milliseconds : Int) :
    btReadStored fd count milliseconds = (fd.pending.take 2, some (-1)) := by
  rw [btReadStored, if_neg (ReadEnd.length_ready complete milliseconds), fill_length complete]
  simp only [List.take_take, Nat.min_self]
  exact if_pos large

theorem btReadStored_accepted {count : Nat} (small : ¬ 2 * count < fd.announced) (milliseconds : Int) :
    (btReadStored fd count milliseconds).1.length = 2 + fd.restArrival.count ∧
      (btReadStored fd count milliseconds).2 =
        match fd.restArrival.stop with
        | .waiting => none
        | .failed => some (-1)
        | .ended => some ((2 + fd.restArrival.count : Nat) : Int)
        | .full => some ((2 + fd.restArrival.count : Nat) : Int) := by
  have enough := ReadEnd.length_pending complete
  have length := ReadEnd.length_received complete
  have rest := fill_arrival fd.hungUp fd.lengthArrival.left (fd.pending.drop 2) (fd.pending.take 2)
    (show (fd.pending.take 2).length ≤ fd.announced by rw [length]; exact Nat.le_add_right _ _)
  rw [FillArrives, length, List.length_drop] at rest
  have stored : (fd.pending.take 2 ++ (fd.pending.drop 2).take fd.restArrival.count).length =
      2 + fd.restArrival.count := by
    have available := fd.restArrival_count.1
    simp only [List.length_append, List.length_take, List.length_drop]
    omega
  change fill _ _ _ =
    (fd.pending.take 2 ++ (fd.pending.drop 2).take fd.restArrival.count, fd.restArrival.stop, _) at rest
  have call : btReadStored fd count milliseconds =
      match fill ⟨fd.pending.drop 2, fd.hungUp, fd.lengthArrival.left⟩ fd.announced (fd.pending.take 2) with
      | (received, .waiting, _) => (received, none)
      | (received, .failed, _) => (received, some (-1))
      | (received, .ended, _) => (received, some received.length)
      | (received, .full, _) => (received, some received.length) := by
    rw [btReadStored, if_neg (ReadEnd.length_ready complete milliseconds), fill_length complete]
    simp only [List.take_take, Nat.min_self]
    exact if_neg small
  rw [call, rest]
  cases fd.restArrival.stop with
  | waiting => exact ⟨stored, rfl⟩
  | failed => exact ⟨stored, rfl⟩
  | ended => exact ⟨stored, by rw [← stored]⟩
  | full => exact ⟨stored, by rw [← stored]⟩

end Announced

/-- Where a reply is received over a serial port or a socket, with what the length of the buffer depends on. -/
inductive ReplyCall where
  | rm | mkdir_ | up | closehnd | dl | ls | run | vmexec (globals : Nat) | bridge

def writeBufSize : Nat := 65540

/-- The count handed to `ev3_read_timeout`. -/
def ReplyCall.count : ReplyCall → Nat
  | .rm => systemReplySize
  | .mkdir_ => systemReplySize
  | .up => beginDownloadReplySize
  | .closehnd => closeHandleReplySize
  | .dl => dlRetrieval.fileChunksz
  | .ls => lsRetrieval.fileChunksz
  | .run => runReplySize
  | .vmexec globals => vmReplySize + globals
  | .bridge => writeBufSize

/-- The size of the buffer; `run` asks for two bytes more than its union has. -/
def ReplyCall.size : ReplyCall → Nat
  | .run => 1024
  | call => call.count

theorem ReplyCall.size_enough (call : ReplyCall) : 2 ≤ call.size := by
  cases call with
  | vmexec globals =>
      simp only [ReplyCall.size, ReplyCall.count, vmReplySize]
      omega
  | _ => decide

/-- What a reception has to do: stay inside the buffer, refuse a packet that does not fit, and not pass off a part
of a packet as a packet. -/
structure ReceivesSafely (fd : ReadEnd) (buf : Memory) (count size : Nat) (milliseconds : Int) : Prop where
  within : (btReadStored fd count milliseconds).1.length ≤ size
  refused : 2 ≤ (btReadStored fd count milliseconds).1.length → size < fd.announced →
    (btRead fd buf count milliseconds).map Prod.fst = some (-1)
  whole : ∀ ret, (btRead fd buf count milliseconds).map Prod.fst = some ret → 0 < ret →
    ret = fd.announced ∧ (btReadStored fd count milliseconds).1.length = fd.announced

/-- A packet that comes in as far as `bt_read` reads it: either it fits and the stream does not end inside it, or a
read fails before the buffer is full. -/
def PacketFits (fd : ReadEnd) (count size : Nat) : Prop :=
  fd.lengthArrival.stop = .full → fd.announced ≤ 2 * count →
    if fd.announced ≤ size then fd.restArrival.stop ≠ .ended
    else fd.restArrival.stop = .failed ∧ 2 + fd.restArrival.count ≤ size

theorem btRead_result (fd : ReadEnd) (buf : Memory) (count : Nat) (milliseconds : Int) :
    (btRead fd buf count milliseconds).map Prod.fst = (btReadStored fd count milliseconds).2 := by
  have stored := congrArg (Option.map Prod.fst) (btRead_stored fd buf count milliseconds)
  rw [Option.map_map, Option.map_map] at stored
  simpa [Function.comp_def] using stored

section Accepted

variable {fd : ReadEnd} {buf : Memory} {count size : Nat} {milliseconds : Int}

theorem packetFits_accepted (complete : fd.lengthArrival.stop = .full) (small : ¬ 2 * count < fd.announced) :
    PacketFits fd count size ↔
      if fd.announced ≤ size then fd.restArrival.stop ≠ .ended
      else fd.restArrival.stop = .failed ∧ 2 + fd.restArrival.count ≤ size :=
  ⟨fun fits => fits complete (by omega), fun fits _ _ => fits⟩

/-- A packet whose length is let through is received safely only if it fits. -/
theorem packetFits_of_receivesSafely (complete : fd.lengthArrival.stop = .full) (small : ¬ 2 * count < fd.announced)
    (safe : ReceivesSafely fd buf count size milliseconds) : PacketFits fd count size := by
  obtain ⟨within, refused, whole⟩ := safe
  obtain ⟨stored, returned⟩ := btReadStored_accepted complete small milliseconds
  obtain ⟨_, bound, full⟩ := fd.restArrival_count
  have header : 2 ≤ fd.announced := Nat.le_add_right _ _
  rw [packetFits_accepted complete small]
  rw [stored] at within refused whole
  rw [btRead_result, returned] at refused whole
  cases stop : fd.restArrival.stop with
  | waiting =>
      simp only [stop] at refused
      rw [if_pos]
      · decide
      · exact Nat.le_of_not_lt fun large => by simpa using refused (by omega) large
  | failed =>
      split
      · decide
      · exact ⟨rfl, within⟩
  | ended =>
      simp only [stop] at whole full
      have partly := whole _ rfl (by omega)
      exact absurd (full.mpr (by omega)) (by decide)
  | full =>
      rw [if_pos]
      · decide
      · have all := full.mp stop
        omega

theorem receivesSafely_of_packetFits (complete : fd.lengthArrival.stop = .full)
    (small : ¬ 2 * count < fd.announced) (fits : PacketFits fd count size) :
    ReceivesSafely fd buf count size milliseconds := by
  obtain ⟨stored, returned⟩ := btReadStored_accepted complete small milliseconds
  obtain ⟨_, bound, full⟩ := fd.restArrival_count
  have header : 2 ≤ fd.announced := Nat.le_add_right _ _
  have result := btRead_result fd buf count milliseconds
  rw [returned] at result
  rw [packetFits_accepted complete small] at fits
  refine ⟨?_, ?_, ?_⟩
  · rw [stored]
    split at fits
    · omega
    · exact fits.2
  · intro _ large
    rw [if_neg (by omega)] at fits
    rw [result, fits.1]
  · intro ret received positive
    rw [result] at received
    rw [stored]
    split at fits
    · cases stop : fd.restArrival.stop with
      | waiting => simp [stop] at received
      | failed =>
          simp only [stop, Option.some.injEq] at received
          omega
      | ended => exact absurd stop fits
      | full =>
          have all := full.mp stop
          simp only [stop, Option.some.injEq] at received
          omega
    · simp only [fits.1, Option.some.injEq] at received
      omega

/-- A packet whose length is not let through is refused with nothing but its length stored. -/
theorem receivesSafely_refused (enough : 2 ≤ size) (complete : fd.lengthArrival.stop = .full)
    (large : 2 * count < fd.announced) : ReceivesSafely fd buf count size milliseconds := by
  have refused := btReadStored_refused complete large milliseconds
  have result := btRead_result fd buf count milliseconds
  rw [refused] at result
  refine ⟨?_, fun _ _ => result, ?_⟩
  · rw [refused, ReadEnd.length_received complete]
    exact enough
  · intro ret returned positive
    rw [result, Option.some.injEq] at returned
    omega

end Accepted

theorem receivesSafely_iff (fd : ReadEnd) (buf : Memory) {count size : Nat} (enough : 2 ≤ size) (milliseconds : Int) :
    ReceivesSafely fd buf count size milliseconds ↔ PacketFits fd count size := by
  by_cases complete : fd.lengthArrival.stop = .full
  · by_cases large : 2 * count < fd.announced
    · exact iff_of_true (receivesSafely_refused enough complete large) fun _ bound => absurd large (by omega)
    · exact ⟨packetFits_of_receivesSafely complete large, receivesSafely_of_packetFits complete large⟩
  · obtain ⟨stored, returned⟩ := btReadStored_unannounced complete count milliseconds
    refine iff_of_true ⟨by omega, fun announced => absurd announced (by omega), ?_⟩
      fun arrived => absurd arrived complete
    intro ret received positive
    rw [btRead_result] at received
    exact absurd (returned ret received) (by omega)

theorem replyCall_receivesSafely_iff (call : ReplyCall) (fd : ReadEnd) (buf : Memory) (milliseconds : Int) :
    ReceivesSafely fd buf call.count call.size milliseconds ↔ PacketFits fd call.count call.size :=
  receivesSafely_iff fd buf call.size_enough milliseconds

/-- A reply to `rm` that announces fourteen bytes goes into a buffer of seven, one of 1025 bytes into the 1024 of
`run`, and five bytes pass for the seven that were announced when the stream ends behind them. -/
theorem replyCall_overflows :
    ¬ ReceivesSafely ⟨[12, 0] ++ List.replicate 12 7, false, []⟩ (fun _ => 0) ReplyCall.rm.count ReplyCall.rm.size
        timeout ∧
      ¬ ReceivesSafely ⟨[255, 3] ++ List.replicate 1023 7, false, []⟩ (fun _ => 0) ReplyCall.run.count
        ReplyCall.run.size timeout ∧
      ¬ ReceivesSafely ⟨[5, 0, 0, 0, 3], true, []⟩ (fun _ => 0) ReplyCall.rm.count ReplyCall.rm.size timeout := by
  rw [receivesSafely_iff _ _ (by decide), receivesSafely_iff _ _ (by decide), receivesSafely_iff _ _ (by decide)]
  unfold PacketFits
  refine ⟨by decide, ?_, by decide⟩
  decide +kernel

end Ev3duder
