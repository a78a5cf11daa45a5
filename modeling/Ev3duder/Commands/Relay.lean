import Ev3duder.Commands.Tunnel

namespace Ev3duder

open Data

/-! # Modes that pass on what comes in -/

/-- The packets of `tunnel_mode` over the link. -/
def tunnelWrites : List Submission → Command Unit
  | [] => return ()
  | submission :: submissions => do
      let _ ← ev3Write submission.packet submission.packet.length
      tunnelWrites submissions

def tunnel : Command Err := do
  let stack ← malloc
  let input ← Proc.gets fun session : Session => session.input.rest
  tunnelWrites (tunnelMode stack input).1
  return (tunnelMode stack input).2

def listenSize : Nat := 1280

/-- The buffer is zero before each `hid_read`, so the text in it ends at the first NUL of the report or behind it; a
full report without NUL lets `printf` go on behind the buffer. -/
def listenLoop : Command Err := fun session =>
  let report := session.readResult
  let after := session.afterRead listenSize (-1)
  if _positive : 0 < report.res then
    if listenSize ≤ report.stored.length ∧ 0 ∉ report.stored then (none, after)
    else
      let text := ascii (toString report.res) ++ ascii " bytes read.\n" ++
        (ascii "[" ++ report.stored.takeWhile (· ≠ 0) ++ ascii "]\n")
      listenLoop { after with output := after.output ++ text }
  else (some .unk, after)
termination_by session => session.reads.length
decreasing_by
  rename_i session _
  exact Session.reads_shorter _positive

def sendBufferSize : Nat := 1023

def sendoutLoop (input : Bytes) : Command Err := do
  match _ : fgets (sendBufferSize - 1) input with
  | none => return .unk
  | some (line, left) => do
      let text := line.takeWhile (· ≠ 0)
      let written ← ev3Write (0 :: text) (text.length + 1)
      fwrite (ascii (toString written) ++ ascii " bytes read.\n")
      sendoutLoop left
termination_by input.length
decreasing_by exact fgets_shorter (show 1 < sendBufferSize - 1 by decide) ‹_›

def sendout : Command Err := do
  let input ← Proc.gets fun session : Session => session.input.rest
  sendoutLoop input

/-- The pieces that `fgets` makes of the input for `sendout`: lines, unless one does not fit the buffer. -/
structure Pieces (input : Bytes) (lines : List Bytes) : Prop where
  whole : lines.flatten = input
  within : ∀ line ∈ lines, line ≠ [] ∧ line.length ≤ 1021 ∧ 10 ∉ line.dropLast
  cut : ∀ line ∈ lines.dropLast, line.getLast? = some 10 ∨ line.length = 1021

theorem fgetsTake_piece (room : Nat) (input : Bytes) :
    10 ∉ (fgetsTake room input).1.dropLast ∧ ((fgetsTake room input).2 = [] ∨
      (fgetsTake room input).1.getLast? = some 10 ∨ (fgetsTake room input).1.length = room) := by
  induction room generalizing input with
  | zero => exact ⟨List.not_mem_nil, .inr (.inr rfl)⟩
  | succ room ih =>
      cases input with
      | nil => exact ⟨List.not_mem_nil, .inl rfl⟩
      | cons char input =>
          rw [fgetsTake]
          split
          · exact ⟨List.not_mem_nil, .inr (.inl rfl)⟩
          · rename_i plain
            have piece := ih input
            generalize fgetsTake room input = taken at piece
            obtain ⟨line, left⟩ := taken
            obtain ⟨inner, ends⟩ := piece
            cases line with
            | nil => exact ⟨List.not_mem_nil, by simpa [plain, eq_comm] using ends⟩
            | cons next line =>
                refine ⟨?_, by simpa using ends⟩
                rw [List.dropLast_cons_of_ne_nil (List.cons_ne_nil next line), List.mem_cons, not_or]
                exact ⟨Ne.symm plain, inner⟩

theorem Pieces.cons {input line left : Bytes} {lines : List Bytes}
    (got : fgets (sendBufferSize - 1) input = some (line, left)) (pieces : Pieces left lines) :
    Pieces input (line :: lines) := by
  have shorter := fgets_shorter (by decide) got
  obtain ⟨inner, ends⟩ := fgetsTake_piece (sendBufferSize - 1 - 1) input
  have whole := fgetsTake_split (sendBufferSize - 1 - 1) input
  have short := fgetsTake_length (sendBufferSize - 1 - 1) input
  rw [fgets] at got
  split at got
  · cases got
  cases got
  refine ⟨by rw [List.flatten_cons, pieces.whole]; exact whole, ?_, ?_⟩
  · rintro line (_ | ⟨_, member⟩)
    · refine ⟨fun none => ?_, short, inner⟩
      rw [none, List.nil_append] at whole
      rw [whole] at shorter
      exact Nat.lt_irrefl _ shorter
    · exact pieces.within line member
  · intro line member
    cases lines with
    | nil => cases member
    | cons next lines =>
        rw [List.dropLast_cons_of_ne_nil (List.cons_ne_nil next lines), List.mem_cons] at member
        rcases member with rfl | member
        · refine ends.resolve_left fun none => ?_
          have rest := pieces.whole
          rw [none, List.flatten_cons, List.append_eq_nil_iff] at rest
          exact (pieces.within next List.mem_cons_self).1 rest.1
        · exact pieces.cut line member

def Event.payload : Event → Bytes
  | .write packet _ _ => packet.drop 1
  | .read .. => []

/-- What `printf` says about a write. -/
def Event.report : Event → Bytes
  | .write _ _ res => ascii (toString res) ++ ascii " bytes read.\n"
  | .read .. => []

/-- One write for each piece, which ends before the first NUL of it. -/
def sentEvents : List Int → List Bytes → List Event
  | _, [] => []
  | writes, line :: lines =>
      let text := line.takeWhile (· ≠ 0)
      .write (0 :: text) (text.length + 1) (writes.headD (-1)) :: sentEvents writes.tail lines

theorem sentEvents_payload (writes : List Int) (lines : List Bytes) :
    (sentEvents writes lines).flatMap Event.payload = lines.flatMap fun line => line.takeWhile (· ≠ 0) := by
  induction lines generalizing writes with
  | nil => rfl
  | cons line lines ih =>
      rw [sentEvents, List.flatMap_cons, List.flatMap_cons, ih]
      rfl

theorem texts_whole_iff (lines : List Bytes) :
    (lines.flatMap fun line => line.takeWhile (· ≠ 0)) = lines.flatten ↔ 0 ∉ lines.flatten := by
  constructor
  · intro same member
    rw [← same] at member
    obtain ⟨line, _, inside⟩ := List.mem_flatMap.mp member
    exact (cstr line).noNul inside
  · intro noNul
    have texts : lines.map (fun line => line.takeWhile (· ≠ 0)) = lines.map id := by
      refine List.map_congr_left fun line member => ?_
      have plain : ∀ byte ∈ line, decide (byte ≠ 0) = true := by
        intro byte inside
        refine decide_eq_true fun zero => noNul ?_
        rw [← zero]
        exact List.mem_flatten.mpr ⟨line, member, inside⟩
      simpa using @List.takeWhile_append_of_pos _ _ line [] plain
    rw [List.flatMap_def, texts, List.map_id]

theorem sendoutLoop_end {input : Bytes} (none : fgets (sendBufferSize - 1) input = none) :
    sendoutLoop input = pure .unk := by
  rw [sendoutLoop]
  split <;> simp_all

theorem sendoutLoop_line {input line left : Bytes} (got : fgets (sendBufferSize - 1) input = some (line, left)) :
    sendoutLoop input = (do
      let written ← ev3Write (0 :: line.takeWhile (· ≠ 0)) ((line.takeWhile (· ≠ 0)).length + 1)
      fwrite (ascii (toString written) ++ ascii " bytes read.\n")
      sendoutLoop left) := by
  rw [sendoutLoop]
  split <;> simp_all

theorem sendoutLoop_sends (input : Bytes) (session : Session) : ∃ lines last, Pieces input lines ∧
    sendoutLoop input session = (some .unk, last) ∧ last.log = session.log ++ sentEvents session.writes lines ∧
      last.output = session.output ++ (sentEvents session.writes lines).flatMap Event.report := by
  generalize size : input.length = length
  induction length using Nat.strongRecOn generalizing input session with
  | ind length ih =>
      cases got : fgets (sendBufferSize - 1) input with
      | none =>
          have empty : input = [] := by
            rw [fgets] at got
            split at got
            · assumption
            · cases got
          subst empty
          exact ⟨[], session, ⟨rfl, List.forall_mem_nil _, List.forall_mem_nil _⟩,
            congrFun (sendoutLoop_end got) session, (List.append_nil _).symm, (List.append_nil _).symm⟩
      | some taken =>
          obtain ⟨line, left⟩ := taken
          have shorter := fgets_shorter (show 1 < sendBufferSize - 1 by decide) got
          let sent := session.afterWrite (0 :: line.takeWhile (· ≠ 0)) ((line.takeWhile (· ≠ 0)).length + 1)
          obtain ⟨lines, last, pieces, run, log, output⟩ := ih left.length (by omega) left
            (fwrite (ascii (toString session.writeResult) ++ ascii " bytes read.\n") sent).2 rfl
          refine ⟨line :: lines, last, pieces.cons got, (congrFun (sendoutLoop_line got) session).trans run, ?_, ?_⟩
          · rw [log, sentEvents]
            refine (List.append_assoc session.log [_] _).trans (congrArg (session.log ++ ·) ?_)
            rw [List.singleton_append]
            exact congrArg (· :: _) (congrArg (Event.write · _ _) (List.take_of_length_le (Nat.le_refl _)))
          · rw [output, sentEvents, List.flatMap_cons]
            show (session.output ++ _) ++ _ = _
            rw [List.append_assoc]
            rfl

/-- Whatever the writes return, `sendout` passes on its input piece by piece, and all of it exactly when it has no
NUL. -/
theorem sendout_relays (session : Session) : ∃ lines last, Pieces session.input.rest lines ∧
    sendout session = (some .unk, last) ∧ last.log = session.log ++ sentEvents session.writes lines ∧
      last.output = session.output ++ (sentEvents session.writes lines).flatMap Event.report ∧
      ((sentEvents session.writes lines).flatMap Event.payload = session.input.rest ↔ 0 ∉ session.input.rest) := by
  obtain ⟨lines, last, pieces, run, log, output⟩ := sendoutLoop_sends session.input.rest session
  refine ⟨lines, last, pieces, run, log, output, ?_⟩
  rw [sentEvents_payload, ← pieces.whole]
  exact texts_whole_iff lines

/-- `printf` finds the end of the text in the buffer. -/
def ReadResult.shown (report : ReadResult) : Bool :=
  report.stored.length < listenSize || report.stored.contains 0

def ReadResult.text (report : ReadResult) : Bytes :=
  ascii (toString report.res) ++ ascii " bytes read.\n" ++
    (ascii "[" ++ report.stored.takeWhile (· ≠ 0) ++ ascii "]\n")

/-- The reports until the first read that brings none. -/
def heardReports (reads : List ReadResult) : List ReadResult := reads.takeWhile fun report => decide (0 < report.res)

theorem listenLoop_pass {session : Session} (positive : 0 < session.readResult.res) :
    listenLoop session =
      if session.readResult.shown then
        listenLoop { session.afterRead listenSize (-1) with output := session.output ++ session.readResult.text }
      else (none, session.afterRead listenSize (-1)) := by
  rw [listenLoop, dif_pos positive]
  have negated : (listenSize ≤ session.readResult.stored.length ∧ 0 ∉ session.readResult.stored) ↔
      ¬ session.readResult.shown = true := by
    simp [ReadResult.shown]
  by_cases shown : session.readResult.shown = true
  · rw [if_pos shown, if_neg fun outside => negated.mp outside shown]
    rfl
  · rw [if_neg shown, if_pos (negated.mpr shown)]

/-- `listen_mode` prints one report after the other up to the first read that brings none, and dies exactly on a report
that fills the buffer without a NUL in it. -/
theorem listenLoop_prints (session : Session) :
    (listenLoop session).1 = (if (heardReports session.reads).all ReadResult.shown then some .unk else none) ∧
      (listenLoop session).2.output = session.output ++
        ((heardReports session.reads).takeWhile ReadResult.shown).flatMap ReadResult.text := by
  generalize read : session.reads = reads
  induction reads generalizing session with
  | nil =>
      have silent : ¬ 0 < session.readResult.res := by
        rw [Session.readResult, read]
        decide
      rw [listenLoop, dif_neg silent]
      exact ⟨rfl, (List.append_nil _).symm⟩
  | cons report reads ih =>
      have answer : session.readResult = report := by rw [Session.readResult, read, List.headD_cons]
      by_cases positive : 0 < report.res
      · have left : (session.afterRead listenSize (-1)).reads = reads := by
          show session.reads.tail = reads
          rw [read, List.tail_cons]
        have front : heardReports (report :: reads) = report :: heardReports reads :=
          List.takeWhile_cons_of_pos (decide_eq_true positive)
        rw [listenLoop_pass (by rwa [answer]), answer, front, List.all_cons, List.takeWhile_cons]
        by_cases shown : report.shown = true
        · obtain ⟨result, output⟩ := ih
            { session.afterRead listenSize (-1) with output := session.output ++ report.text } left
          rw [if_pos shown, if_pos shown, shown, Bool.true_and, List.flatMap_cons, ← List.append_assoc]
          exact ⟨result, output⟩
        · rw [if_neg shown, if_neg shown, Bool.eq_false_iff.mpr shown, Bool.false_and]
          exact ⟨rfl, (List.append_nil _).symm⟩
      · have front : heardReports (report :: reads) = [] :=
          List.takeWhile_cons_of_neg (by simpa using positive)
        rw [listenLoop, dif_neg (by rwa [answer]), front]
        exact ⟨rfl, (List.append_nil _).symm⟩

end Ev3duder
