import Ev3duder.Data.Framing

namespace Ev3duder

open Data

/-! # The serial port and the TCP socket

Both move packets through `write` and `read` calls that may transfer less than they are asked for.  How much the
kernel transfers is not the program's choice: a descriptor carries the answers of its coming calls.
-/

/-- The answer to one call: negative for a failure, otherwise the most that it transfers.  After the last
answer of a list every call transfers what it is asked for. -/
abbrev Answers := List Int

structure WriteEnd where
  written : Bytes
  answers : Answers
deriving DecidableEq, Repr

structure ReadEnd where
  pending : Bytes
  hungUp : Bool
  answers : Answers
deriving DecidableEq, Repr

def WriteEnd.write (fd : WriteEnd) (buf : Bytes) : Int × WriteEnd :=
  match fd.answers with
  | [] => (buf.length, { fd with written := fd.written ++ buf })
  | answer :: later =>
      if answer < 0 then (-1, { fd with answers := later })
      else (min answer buf.length, { written := fd.written ++ buf.take answer.toNat, answers := later })

/-- Number of bytes, or `-1`, with the bytes that were stored; nothing when the call never returns, because no
byte is left and none is ever going to come. -/
def ReadEnd.read (fd : ReadEnd) (count : Nat) : Option (Int × Bytes × ReadEnd) :=
  let deliver (limit : Nat) (later : Answers) :=
    if fd.pending = [] ∧ fd.hungUp = false then none
    else
      let bytes := fd.pending.take (min limit count)
      some ((bytes.length : Int), bytes, { fd with pending := fd.pending.drop (min limit count), answers := later })
  match fd.answers with
  | [] => deliver count []
  | answer :: later =>
      if answer < 0 then some (-1, [], { fd with answers := later })
      else deliver answer.toNat later

/-- `FD_ISSET` after `select`: a read would not wait. -/
def ReadEnd.ready (fd : ReadEnd) : Bool := fd.pending ≠ [] || fd.hungUp

theorem WriteEnd.write_shrinks {fd : WriteEnd} {buf : Bytes} (failed : ¬ (fd.write buf).1 = -1)
    (more : 0 < buf.length) :
    (fd.write buf).2.answers.length + (buf.length - (fd.write buf).1.toNat) < fd.answers.length + buf.length := by
  unfold WriteEnd.write at failed ⊢
  cases answers : fd.answers with
  | nil => simpa using more
  | cons answer later =>
      simp only [answers] at failed ⊢
      by_cases negative : answer < 0
      · rw [if_pos negative] at failed
        exact absurd rfl failed
      · rw [if_neg negative]
        simp only [List.length_cons]
        omega

theorem ReadEnd.read_shrinks {fd after : ReadEnd} {count : Nat} {ret : Int} {bytes : Bytes}
    (call : fd.read count = some (ret, bytes, after)) (failed : ¬ ret = -1) (ended : ¬ ret = 0) :
    after.answers.length + after.pending.length < fd.answers.length + fd.pending.length := by
  unfold ReadEnd.read at call
  cases answers : fd.answers with
  | nil =>
      simp only [answers] at call
      by_cases waits : fd.pending = [] ∧ fd.hungUp = false
      · simp [waits] at call
      · rw [if_neg waits, Option.some.injEq, Prod.mk.injEq, Prod.mk.injEq] at call
        obtain ⟨rfl, rfl, rfl⟩ := call
        simp only [List.length_take, List.length_drop] at ended ⊢
        omega
  | cons answer later =>
      simp only [answers] at call
      by_cases negative : answer < 0
      · rw [if_pos negative, Option.some.injEq, Prod.mk.injEq, Prod.mk.injEq] at call
        exact absurd call.1.symm failed
      · rw [if_neg negative] at call
        by_cases waits : fd.pending = [] ∧ fd.hungUp = false
        · simp [waits] at call
        · rw [if_neg waits, Option.some.injEq, Prod.mk.injEq, Prod.mk.injEq] at call
          obtain ⟨rfl, rfl, rfl⟩ := call
          simp only [List.length_drop, List.length_cons]
          omega

theorem WriteEnd.write_failed (fd : WriteEnd) {buf : Bytes} (failed : (fd.write buf).1 = -1) :
    (fd.write buf).2.written = fd.written := by
  unfold WriteEnd.write at failed ⊢
  cases answers : fd.answers with
  | nil =>
      simp only [answers] at failed
      omega
  | cons answer later =>
      simp only [answers] at failed ⊢
      split at failed
      · simp only [*, ↓reduceIte]
      · omega

theorem WriteEnd.write_transfers (fd : WriteEnd) {buf : Bytes} (failed : ¬ (fd.write buf).1 = -1) :
    ∃ count, count ≤ buf.length ∧ (fd.write buf).1 = count ∧
      (fd.write buf).2.written = fd.written ++ buf.take count := by
  unfold WriteEnd.write at failed ⊢
  cases answers : fd.answers with
  | nil => exact ⟨buf.length, Nat.le_refl _, rfl, by simp⟩
  | cons answer later =>
      simp only [answers] at failed ⊢
      by_cases negative : answer < 0
      · exact absurd (by rw [if_pos negative]) failed
      · refine ⟨min answer.toNat buf.length, Nat.min_le_right _ _, ?_⟩
        simp only [if_neg negative, ← List.take_eq_take_min, and_true]
        omega

/-- The loop of `bt_write`: another `write` for what is not sent yet, until one fails. -/
def writeLoop (fd : WriteEnd) (buf : Bytes) (sent : Nat) : Nat × WriteEnd :=
  if sent < buf.length then
    let call := fd.write (buf.drop sent)
    if call.1 = -1 then (sent, call.2) else writeLoop call.2 buf (sent + call.1.toNat)
  else (sent, fd)
termination_by fd.answers.length + (buf.length - sent)
decreasing_by
  have step := WriteEnd.write_shrinks ‹_› (by simp only [List.length_drop]; omega)
  simp only [List.length_drop] at step
  omega

/-- `bt_write(fd, buf, count)` for the `count` bytes of `buf`: the first of them, the HID report number, stays
behind. -/
def btWrite (fd : WriteEnd) (buf : Bytes) : Int × WriteEnd :=
  let (sent, fd) := writeLoop fd (buf.drop 1) 0
  (sent, fd)

def tcpWrite : WriteEnd → Bytes → Int × WriteEnd := btWrite

/-- The first loop of `bt_read`: the two bytes of the length.  `received` is the start of the buffer. -/
def headerLoop (fd : ReadEnd) (received : Bytes) : Option (Int × Bytes × ReadEnd) :=
  match call : fd.read (2 - received.length) with
  | none => none
  | some (ret, bytes, fd) =>
      let received := received ++ bytes
      if ret ≤ 0 then some (-1, received, fd)
      else if received.length ≠ 2 then headerLoop fd received
      else some (2, received, fd)
termination_by fd.answers.length + fd.pending.length
decreasing_by exact ReadEnd.read_shrinks call (by omega) (by omega)

/-- The second loop of `bt_read`: the rest of a packet of `packetLen` bytes. -/
def bodyLoop (fd : ReadEnd) (packetLen : Nat) (received : Bytes) : Option (Int × Bytes × ReadEnd) :=
  if received.length < packetLen then
    match call : fd.read (packetLen - received.length) with
    | none => none
    | some (ret, bytes, fd) =>
        let received := received ++ bytes
        if ret = 0 then some (received.length, received, fd)
        else if ret = -1 then some (-1, received, fd)
        else bodyLoop fd packetLen received
  else some (received.length, received, fd)
termination_by fd.answers.length + fd.pending.length
decreasing_by exact ReadEnd.read_shrinks call (by omega) (by omega)

/-- `bt_read(fd, buf, count, milliseconds)`: its return value and the buffer it leaves.  Only the wait for the
first byte is limited. -/
def btRead (fd : ReadEnd) (buf : Memory) (count : Nat) (milliseconds : Int) : Option (Int × Memory × ReadEnd) :=
  if 0 ≤ milliseconds ∧ fd.ready = false then some (0, buf, fd)
  else
    match headerLoop fd [] with
    | none => none
    | some (ret, received, fd) =>
        if ret = -1 then some (-1, buf.store received, fd)
        else
          let packetLen := 2 + leValue (received.take 2)
          if 2 * count < packetLen then some (-1, buf.store received, fd)
          else
            match bodyLoop fd packetLen received with
            | none => none
            | some (ret, received, fd) => some (ret, buf.store received, fd)

def tcpRead : ReadEnd → Memory → Nat → Int → Option (Int × Memory × ReadEnd) := btRead

/-- No call fails or ends the stream, however little it transfers. -/
def Progress (answers : Answers) : Prop := ∀ answer ∈ answers, 0 < answer

theorem Progress.nil : Progress [] := by
  intro answer member
  cases member

theorem WriteEnd.write_progress {fd : WriteEnd} (progress : Progress fd.answers) {buf : Bytes} (more : buf ≠ []) :
    ∃ count later, 0 < count ∧ count ≤ buf.length ∧ Progress later ∧
      fd.write buf = ((count : Int), ⟨fd.written ++ buf.take count, later⟩) := by
  have positive := List.length_pos_iff.mpr more
  unfold WriteEnd.write
  cases answers : fd.answers with
  | nil =>
      refine ⟨buf.length, [], positive, Nat.le_refl _, Progress.nil, ?_⟩
      simp
  | cons answer later =>
      rw [answers] at progress
      have answerPositive := progress answer List.mem_cons_self
      refine ⟨min answer.toNat buf.length, later, by omega, by omega,
        fun other member => progress other (List.mem_cons_of_mem _ member), ?_⟩
      simp only [if_neg (Int.not_lt.mpr (Int.le_of_lt answerPositive)), ← List.take_eq_take_min, Prod.mk.injEq,
        and_true]
      omega

theorem ReadEnd.read_progress {fd : ReadEnd} (progress : Progress fd.answers) (waiting : fd.pending ≠ [])
    {count : Nat} (more : 0 < count) :
    ∃ transferred later, 0 < transferred ∧ transferred ≤ count ∧ transferred ≤ fd.pending.length ∧ Progress later ∧
      fd.read count = some ((transferred : Int), fd.pending.take transferred,
        ⟨fd.pending.drop transferred, fd.hungUp, later⟩) := by
  have positive := List.length_pos_iff.mpr waiting
  have deliver : ¬ (fd.pending = [] ∧ fd.hungUp = false) := fun both => waiting both.1
  unfold ReadEnd.read
  cases answers : fd.answers with
  | nil =>
      refine ⟨min count fd.pending.length, [], by omega, by omega, by omega, Progress.nil, ?_⟩
      simp only [if_neg deliver, Nat.min_self, List.length_take, ← List.take_eq_take_min, ← List.drop_eq_drop_min]
  | cons answer later =>
      rw [answers] at progress
      have answerPositive := progress answer List.mem_cons_self
      refine ⟨min (min answer.toNat count) fd.pending.length, later, by omega, by omega, by omega,
        fun other member => progress other (List.mem_cons_of_mem _ member), ?_⟩
      simp only [if_neg (Int.not_lt.mpr (Int.le_of_lt answerPositive)), if_neg deliver, List.length_take,
        ← List.take_eq_take_min, ← List.drop_eq_drop_min]

theorem writeLoop_sends (fd : WriteEnd) (progress : Progress fd.answers) (buf : Bytes) (sent : Nat)
    (within : sent ≤ buf.length) :
    ∃ later, Progress later ∧ writeLoop fd buf sent = (buf.length, ⟨fd.written ++ buf.drop sent, later⟩) := by
  generalize remaining : buf.length - sent = count
  induction count using Nat.strongRecOn generalizing fd sent with
  | ind count ih =>
    rw [writeLoop]
    by_cases more : sent < buf.length
    · have unsent : buf.drop sent ≠ [] := by
        apply List.length_pos_iff.mp
        simp only [List.length_drop]
        omega
      obtain ⟨piece, later, positive, fits, progress, call⟩ := fd.write_progress progress unsent
      rw [List.length_drop] at fits
      obtain ⟨final, progress, rest⟩ := ih (buf.length - (sent + piece)) (by omega)
        ⟨fd.written ++ (buf.drop sent).take piece, later⟩ progress (sent + piece) (by omega) rfl
      refine ⟨final, progress, ?_⟩
      rw [if_pos more, call, if_neg (by omega), Int.toNat_natCast, rest, List.append_assoc, ← List.drop_drop,
        List.take_append_drop]
    · have all : sent = buf.length := by omega
      refine ⟨fd.answers, progress, ?_⟩
      rw [if_neg more, all, List.drop_length, List.append_nil]

theorem pieces (received pending : Bytes) (transferred length : Nat)
    (fits : received.length + transferred ≤ length) :
    (received ++ pending.take transferred) ++
          (pending.drop transferred).take (length - (received.length + transferred)) =
        received ++ pending.take (length - received.length) ∧
      (pending.drop transferred).drop (length - (received.length + transferred)) =
        pending.drop (length - received.length) := by
  have whole : transferred + (length - (received.length + transferred)) = length - received.length := by omega
  constructor
  · rw [List.append_assoc, ← List.take_add, whole]
  · rw [List.drop_drop, whole]

theorem headerLoop_fills (fd : ReadEnd) (progress : Progress fd.answers) (received : Bytes)
    (short : received.length < 2) (enough : 2 - received.length ≤ fd.pending.length) :
    ∃ later, Progress later ∧
      headerLoop fd received = some (2, received ++ fd.pending.take (2 - received.length),
        ⟨fd.pending.drop (2 - received.length), fd.hungUp, later⟩) := by
  generalize missing : 2 - received.length = count
  induction count using Nat.strongRecOn generalizing fd received with
  | ind count ih =>
    have waiting : fd.pending ≠ [] := by
      apply List.length_pos_iff.mp
      omega
    obtain ⟨transferred, later, positive, fits, available, progress, call⟩ :=
      fd.read_progress progress waiting (show 0 < 2 - received.length by omega)
    have length : (received ++ fd.pending.take transferred).length = received.length + transferred := by
      simp only [List.length_append, List.length_take]
      omega
    obtain ⟨front, back⟩ := pieces received fd.pending transferred 2 (by omega)
    rw [headerLoop, call]
    simp only [if_neg (show ¬ (transferred : Int) ≤ 0 by omega), length]
    by_cases more : received.length + transferred ≠ 2
    · obtain ⟨final, progress, rest⟩ := ih (2 - (received.length + transferred)) (by omega)
        ⟨fd.pending.drop transferred, fd.hungUp, later⟩ progress
        (received ++ fd.pending.take transferred) (by omega)
        (by simp only [length, List.length_drop]; omega) (by rw [length])
      refine ⟨final, progress, ?_⟩
      rw [if_pos more, rest, front, back, missing]
    · have all : transferred = count := by omega
      refine ⟨later, progress, ?_⟩
      rw [if_neg more, all]

theorem bodyLoop_fills (fd : ReadEnd) (progress : Progress fd.answers) (packetLen : Nat) (received : Bytes)
    (short : received.length ≤ packetLen) (enough : packetLen - received.length ≤ fd.pending.length) :
    ∃ later, Progress later ∧
      bodyLoop fd packetLen received = some ((packetLen : Int),
        received ++ fd.pending.take (packetLen - received.length),
        ⟨fd.pending.drop (packetLen - received.length), fd.hungUp, later⟩) := by
  generalize missing : packetLen - received.length = count
  induction count using Nat.strongRecOn generalizing fd received with
  | ind count ih =>
    rw [bodyLoop]
    by_cases more : received.length < packetLen
    · have waiting : fd.pending ≠ [] := by
        apply List.length_pos_iff.mp
        omega
      obtain ⟨transferred, later, positive, fits, available, progress, call⟩ :=
        fd.read_progress progress waiting (show 0 < packetLen - received.length by omega)
      have length : (received ++ fd.pending.take transferred).length = received.length + transferred := by
        simp only [List.length_append, List.length_take]
        omega
      obtain ⟨front, back⟩ := pieces received fd.pending transferred packetLen (by omega)
      obtain ⟨final, progress, rest⟩ := ih (packetLen - (received.length + transferred)) (by omega)
        ⟨fd.pending.drop transferred, fd.hungUp, later⟩ progress
        (received ++ fd.pending.take transferred) (by omega)
        (by simp only [length, List.length_drop]; omega) (by rw [length])
      refine ⟨final, progress, ?_⟩
      rw [if_pos more, call]
      simp only [if_neg (show ¬ (transferred : Int) = 0 by omega), if_neg (show ¬ (transferred : Int) = -1 by omega)]
      rw [rest, front, back, missing]
    · have all : received.length = packetLen := by omega
      have none : count = 0 := by omega
      refine ⟨fd.answers, progress, ?_⟩
      rw [if_neg more, none, all, List.take_zero, List.append_nil, List.drop_zero]

/-- A packet as the commands hand it over: the HID report number, the length of the body, and the body. -/
structure HidPacket where
  hid : UInt8
  body : Bytes
  bound : body.length < 65536

def HidPacket.frame (packet : HidPacket) : Bytes := leBytes 2 packet.body.length ++ packet.body

def HidPacket.bytes (packet : HidPacket) : Bytes := packet.hid :: packet.frame

theorem HidPacket.frame_length (packet : HidPacket) : packet.frame.length = packet.body.length + 2 := by
  simp only [HidPacket.frame, List.length_append, leBytes_length, Nat.add_comm]

theorem HidPacket.framed (packet : HidPacket) : Framed packet.frame := by
  have front : packet.frame.take 2 = leBytes 2 packet.body.length :=
    List.take_left' (leBytes_length 2 packet.body.length)
  constructor
  · rw [packet.frame_length]
    omega
  · rw [front, leValue_leBytes_of_lt packet.bound, packet.frame_length]

theorem btWrite_packet {fd : WriteEnd} (progress : Progress fd.answers) (packet : HidPacket) :
    ∃ later, Progress later ∧
      btWrite fd packet.bytes = ((packet.frame.length : Int), ⟨fd.written ++ packet.frame, later⟩) := by
  obtain ⟨later, progress, sent⟩ := writeLoop_sends fd progress packet.frame 0 (Nat.zero_le _)
  refine ⟨later, progress, ?_⟩
  rw [List.drop_zero] at sent
  simp only [btWrite, HidPacket.bytes, List.drop_succ_cons, List.drop_zero, sent]

/-- One call takes exactly one frame off the stream, whatever follows it. -/
theorem btRead_frame {fd : ReadEnd} (progress : Progress fd.answers) {frame rest : Bytes} (framed : Framed frame)
    (stream : fd.pending = frame ++ rest) (buf : Memory) (count : Nat) (fits : frame.length ≤ count)
    (milliseconds : Int) :
    ∃ later, Progress later ∧
      btRead fd buf count milliseconds = some ((frame.length : Int), buf.store frame, ⟨rest, fd.hungUp, later⟩) := by
  obtain ⟨header, length⟩ := framed
  have pendingLength : fd.pending.length = frame.length + rest.length := by rw [stream, List.length_append]
  have nonempty : fd.pending ≠ [] := by
    apply List.length_pos_iff.mp
    omega
  have ready : ¬ (0 ≤ milliseconds ∧ fd.ready = false) := by
    simp [ReadEnd.ready, nonempty]
  obtain ⟨middle, progress, first⟩ := headerLoop_fills fd progress [] (by simp)
    (by simp only [List.length_nil]; omega)
  have headerBytes : fd.pending.take 2 = frame.take 2 := by
    rw [stream, List.take_append_of_le_length header]
  have headerLength : (frame.take 2).length = 2 := List.length_take_of_le (by omega)
  obtain ⟨later, progress, second⟩ := bodyLoop_fills ⟨fd.pending.drop 2, fd.hungUp, middle⟩ progress
    frame.length (frame.take 2) (by omega)
    (by simp only [headerLength, List.length_drop]; omega)
  have whole : frame.take 2 ++ (fd.pending.drop 2).take (frame.length - 2) = frame := by
    rw [← headerBytes, ← List.take_add, Nat.add_sub_cancel' header, stream, List.take_left]
  have left : (fd.pending.drop 2).drop (frame.length - 2) = rest := by
    rw [List.drop_drop, Nat.add_sub_cancel' header, stream, List.drop_left]
  refine ⟨later, progress, ?_⟩
  simp only [List.length_nil, Nat.sub_zero, List.nil_append, headerBytes] at first
  simp only [headerLength, whole, left] at second
  rw [btRead, if_neg ready, first]
  simp only [if_neg (show ¬ (2 : Int) = -1 by decide), List.take_take, Nat.min_self, Nat.add_comm 2, length,
    if_neg (show ¬ 2 * count < frame.length by omega), second]

def btWriteAll (fd : WriteEnd) : List Bytes → List Int × WriteEnd
  | [] => ([], fd)
  | buf :: rest =>
      let (ret, fd) := btWrite fd buf
      let (rets, fd) := btWriteAll fd rest
      (ret :: rets, fd)

structure ReadCall where
  buf : Memory
  count : Nat
  milliseconds : Int

def btReadAll (fd : ReadEnd) : List ReadCall → Option (List (Int × Memory) × ReadEnd)
  | [] => some ([], fd)
  | call :: rest => do
      let (ret, buf, fd) ← btRead fd call.buf call.count call.milliseconds
      let (results, fd) ← btReadAll fd rest
      return ((ret, buf) :: results, fd)

theorem btWriteAll_packets (fd : WriteEnd) (progress : Progress fd.answers) (packets : List HidPacket) :
    ∃ later, btWriteAll fd (packets.map HidPacket.bytes) =
      (packets.map fun packet => (packet.body.length : Int) + 2,
        ⟨fd.written ++ (packets.map HidPacket.frame).flatten, later⟩) := by
  induction packets generalizing fd with
  | nil => exact ⟨fd.answers, by simp [btWriteAll]⟩
  | cons packet packets ih =>
      obtain ⟨middle, progress, first⟩ := btWrite_packet progress packet
      obtain ⟨later, rest⟩ := ih ⟨fd.written ++ packet.frame, middle⟩ progress
      refine ⟨later, ?_⟩
      simp only [List.map_cons, btWriteAll, first, rest, packet.frame_length, List.flatten_cons, List.append_assoc,
        Int.natCast_add, Int.cast_ofNat_Int]

theorem btReadAll_frames (fd : ReadEnd) (progress : Progress fd.answers) (packets : List HidPacket)
    (stream : fd.pending = (packets.map HidPacket.frame).flatten) (calls : List ReadCall)
    (enough : calls.length ≤ packets.length)
    (fits : ∀ pair ∈ packets.zip calls, pair.1.body.length + 2 ≤ pair.2.count) :
    ∃ later, btReadAll fd calls =
      some ((packets.zip calls).map fun pair => ((pair.1.body.length : Int) + 2, pair.2.buf.store pair.1.frame),
        ⟨((packets.drop calls.length).map HidPacket.frame).flatten, fd.hungUp, later⟩) := by
  induction calls generalizing fd packets with
  | nil =>
      refine ⟨fd.answers, ?_⟩
      simp only [btReadAll, List.zip_nil_right, List.map_nil, List.length_nil, List.drop_zero, ← stream]
  | cons call calls ih =>
      cases packets with
      | nil => simp at enough
      | cons packet packets =>
          rw [List.map_cons, List.flatten_cons] at stream
          rw [List.zip_cons_cons] at fits
          have room := fits (packet, call) List.mem_cons_self
          obtain ⟨middle, progress, first⟩ := btRead_frame progress packet.framed stream call.buf call.count
            (by rw [packet.frame_length]; exact room) call.milliseconds
          obtain ⟨later, rest⟩ := ih ⟨(packets.map HidPacket.frame).flatten, fd.hungUp, middle⟩ progress packets rfl
            (Nat.le_of_succ_le_succ enough) fun pair member => fits pair (List.mem_cons_of_mem _ member)
          refine ⟨later, ?_⟩
          simp only [btReadAll, first, rest, Option.bind_eq_bind, Option.bind_some, Option.pure_def, List.zip_cons_cons,
            List.map_cons, List.length_cons, List.drop_succ_cons, packet.frame_length, Int.natCast_add,
            Int.cast_ofNat_Int]

/-- Whatever pieces the kernel cuts the stream into on both sides, the packets come out as they went in. -/
theorem bt_round_trip (packets : List HidPacket) (writes reads : Answers) (writesProgress : Progress writes)
    (readsProgress : Progress reads) (hungUp : Bool) (calls : List ReadCall) (enough : calls.length ≤ packets.length)
    (fits : ∀ pair ∈ packets.zip calls, pair.1.body.length + 2 ≤ pair.2.count) :
    ∃ wire writesLeft readsLeft,
      btWriteAll ⟨[], writes⟩ (packets.map HidPacket.bytes) =
        (packets.map fun packet => (packet.body.length : Int) + 2, ⟨wire, writesLeft⟩) ∧
      btReadAll ⟨wire, hungUp, reads⟩ calls =
        some ((packets.zip calls).map fun pair => ((pair.1.body.length : Int) + 2, pair.2.buf.store pair.1.frame),
          ⟨((packets.drop calls.length).map HidPacket.frame).flatten, hungUp, readsLeft⟩) := by
  obtain ⟨writesLeft, sent⟩ := btWriteAll_packets ⟨[], writes⟩ writesProgress packets
  obtain ⟨readsLeft, received⟩ := btReadAll_frames ⟨(packets.map HidPacket.frame).flatten, hungUp, reads⟩
    readsProgress packets rfl calls enough fits
  rw [List.nil_append] at sent
  exact ⟨_, writesLeft, readsLeft, sent, received⟩

theorem bt_round_trip_pieces :
    ∃ wire writesLeft readsLeft,
      btWriteAll ⟨[], [1, 3]⟩ [[0, 3, 0, 7, 8, 9], [0, 0, 0]] = ([5, 2], ⟨wire, writesLeft⟩) ∧
      btReadAll ⟨wire, false, [1, 1, 2]⟩ [⟨fun _ => 0, 5, 500⟩] =
        some ([(5, Memory.store (fun _ => 0) [3, 0, 7, 8, 9])], ⟨[0, 0], false, readsLeft⟩) := by
  have run := bt_round_trip [⟨0, [7, 8, 9], by decide⟩, ⟨0, [], by decide⟩] [1, 3] [1, 1, 2]
    (by unfold Progress; decide) (by unfold Progress; decide) false [⟨fun _ => 0, 5, 500⟩] (by simp) (by simp)
  simpa [HidPacket.bytes, HidPacket.frame, leBytes] using run

end Ev3duder
