import Ev3duder.Data.Bytes

namespace Ev3duder.Data

/-! Streams of frames that begin with their own length: two little-endian bytes that count what follows them. -/

/-- A frame that begins with the right length. -/
def Framed (frame : Bytes) : Prop := 2 ≤ frame.length ∧ leValue (frame.take 2) + 2 = frame.length

instance (frame : Bytes) : Decidable (Framed frame) := by
  unfold Framed
  infer_instance

/-- What a receiver makes of a stream that it cuts by the lengths it finds. -/
def splitFrames (stream : Bytes) : Option (List Bytes) :=
  if stream = [] then some []
  else if 2 ≤ stream.length ∧ leValue (stream.take 2) + 2 ≤ stream.length then
    (splitFrames (stream.drop (leValue (stream.take 2) + 2))).map (stream.take (leValue (stream.take 2) + 2) :: ·)
  else none
termination_by stream.length
decreasing_by
  simp only [List.length_drop]
  omega

@[simp] theorem splitFrames_nil : splitFrames [] = some [] := by
  rw [splitFrames, if_pos rfl]

theorem splitFrames_append {frame : Bytes} (framed : Framed frame) (stream : Bytes) :
    splitFrames (frame ++ stream) = (splitFrames stream).map (frame :: ·) := by
  obtain ⟨header, length⟩ := framed
  have nonempty : frame ++ stream ≠ [] := by
    intro none
    rw [(List.append_eq_nil_iff.mp none).1] at header
    simp at header
  have front : leValue ((frame ++ stream).take 2) + 2 = frame.length := by
    rw [List.take_append_of_le_length header, length]
  rw [splitFrames, if_neg nonempty, front, if_pos (by simp only [List.length_append]; omega), List.take_left,
    List.drop_left]

theorem splitFrames_flatten {frames : List Bytes} (framed : ∀ frame ∈ frames, Framed frame) :
    splitFrames frames.flatten = some frames := by
  induction frames with
  | nil => simp
  | cons frame frames ih =>
      rw [List.flatten_cons, splitFrames_append (framed frame List.mem_cons_self),
        ih fun other member => framed other (List.mem_cons_of_mem _ member)]
      rfl

/-- The frames of a stream that its first `count` bytes complete. -/
def framesWithin : List Bytes → Nat → List Bytes
  | [], _ => []
  | frame :: rest, count => if frame.length ≤ count then frame :: framesWithin rest (count - frame.length) else []

theorem framesWithin_short {frame : Bytes} {rest : List Bytes} {count : Nat} (short : count < frame.length) :
    framesWithin (frame :: rest) count = [] := by
  rw [framesWithin, if_neg (by omega)]

theorem framesWithin_append (done rest : List Bytes) (count : Nat) :
    framesWithin (done ++ rest) (done.flatten.length + count) = done ++ framesWithin rest count := by
  induction done with
  | nil => simp
  | cons frame done ih =>
      have left : (frame :: done).flatten.length + count - frame.length = done.flatten.length + count := by
        rw [List.flatten_cons, List.length_append]
        omega
      rw [List.cons_append, framesWithin, left, ih, if_pos]
      · rfl
      · rw [List.flatten_cons, List.length_append]
        omega

theorem framesWithin_begins (frames : List Bytes) (count : Nat) : framesWithin frames count <+: frames := by
  induction frames generalizing count with
  | nil => exact List.prefix_refl _
  | cons frame rest ih =>
      rw [framesWithin]
      split
      · exact (List.prefix_cons_inj _).mpr (ih _)
      · exact List.nil_prefix

theorem framesWithin_all (frames : List Bytes) : framesWithin frames frames.flatten.length = frames := by
  have all := framesWithin_append frames [] 0
  rwa [List.append_nil, Nat.add_zero, framesWithin, List.append_nil] at all

end Ev3duder.Data
