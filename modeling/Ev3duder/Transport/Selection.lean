import Ev3duder.Commands.Simple
import Ev3duder.Transport.Serial

namespace Ev3duder

open Data

/-! # Which transport a command gets, and what its write results mean

`main` points `ev3_write` at one of three functions.  The commands take a negative result for a failure; the bridge
takes anything below the count it asked for as one.
-/

structure Switches where
  select : Bool
  hid : Bool
  serial : Bool
  tcp : Bool

/-- Which of the calls `hid_open`, `bt_open` and `tcp_open` of `main` succeed; `hidFw` is the one for a brick in
firmware update mode. -/
structure Opened where
  hid : Bool
  bt : Bool
  tcp : Bool
  hidFw : Bool

inductive CommandKind where
  | offline | online | firmware
deriving DecidableEq, Repr

/-- The transport `main` selects; nothing when the command needs none, or when no brick is found. -/
def selectTransport (switches : Switches) (opened : Opened) : CommandKind → Option Transport
  | .offline => none
  | .online =>
      if (switches.hid || !switches.select) && opened.hid then some .usb
      else if (switches.serial || !switches.select) && opened.bt then some .serial
      else if (switches.tcp || !switches.select) && opened.tcp then some .tcp
      else none
  | .firmware => if opened.hidFw then some .usb else none

/-- The function behind `ev3_write`. -/
def Transport.write (hidWrite : WriteEnd → Bytes → Int × WriteEnd) : Transport → WriteEnd → Bytes → Int × WriteEnd
  | .usb => hidWrite
  | .serial => btWrite
  | .tcp => tcpWrite

/-- What of a buffer goes over the link: the HID report number only over USB. -/
def Transport.payload : Transport → Bytes → Bytes
  | .usb, buf => buf
  | .serial, buf => buf.drop 1
  | .tcp, buf => buf.drop 1

def Transmitted (payload : Bytes) (before after : WriteEnd) : Prop := after.written = before.written ++ payload

/-- What HIDAPI promises of `hid_write`. -/
structure HidWriteContract (hidWrite : WriteEnd → Bytes → Int × WriteEnd) : Prop where
  full : ∀ fd buf, Transmitted buf fd (hidWrite fd buf).2 → (hidWrite fd buf).1 = buf.length
  failed : ∀ fd buf, ¬ Transmitted buf fd (hidWrite fd buf).2 → (hidWrite fd buf).1 = -1

/-- A write result that both kinds of callers read correctly. -/
structure MeansOutcome (payload buf : Bytes) (before : WriteEnd) (call : Int × WriteEnd) : Prop where
  failed : ¬ Transmitted payload before call.2 → call.1 < 0
  full : Transmitted payload before call.2 → (buf.length : Int) ≤ call.1

theorem writeLoop_result (fd : WriteEnd) (buf : Bytes) (sent : Nat) (within : sent ≤ buf.length) :
    ∃ total, sent ≤ total ∧ total ≤ buf.length ∧ (writeLoop fd buf sent).1 = total ∧
      (writeLoop fd buf sent).2.written = fd.written ++ (buf.drop sent).take (total - sent) := by
  generalize measure : fd.answers.length + (buf.length - sent) = count
  induction count using Nat.strongRecOn generalizing fd sent with
  | ind count ih =>
    rw [writeLoop]
    by_cases more : sent < buf.length
    · rw [if_pos more]
      by_cases failed : (fd.write (buf.drop sent)).1 = -1
      · refine ⟨sent, Nat.le_refl _, within, ?_⟩
        simp only [if_pos failed, Nat.sub_self, List.take_zero, List.append_nil, true_and]
        exact fd.write_failed failed
      · have shrinks := WriteEnd.write_shrinks failed (by simp only [List.length_drop]; omega)
        obtain ⟨piece, fits, result, written⟩ := fd.write_transfers failed
        rw [List.length_drop] at shrinks fits
        have moved : (fd.write (buf.drop sent)).1.toNat = piece := by omega
        rw [moved] at shrinks
        obtain ⟨total, low, high, returned, rest⟩ := ih _ (by omega) (fd.write (buf.drop sent)).2 (sent + piece)
          (by omega) rfl
        refine ⟨total, by omega, high, ?_⟩
        simp only [if_neg failed, moved]
        refine ⟨returned, ?_⟩
        have whole : total - sent = piece + (total - (sent + piece)) := by omega
        rw [rest, written, List.append_assoc, ← List.drop_drop, whole, List.take_add]
    · exact ⟨sent, Nat.le_refl _, within, by rw [if_neg more], by rw [if_neg more]; simp⟩

/-- `bt_write` returns how many bytes went out, whether or not the loop ended with a failure. -/
theorem btWrite_result (fd : WriteEnd) (buf : Bytes) :
    ∃ sent, sent ≤ buf.length - 1 ∧ (btWrite fd buf).1 = (sent : Int) ∧
      (btWrite fd buf).2.written = fd.written ++ (buf.drop 1).take sent := by
  obtain ⟨sent, _, within, result, written⟩ := writeLoop_result fd (buf.drop 1) 0 (Nat.zero_le _)
  rw [List.length_drop] at within
  refine ⟨sent, within, ?_, ?_⟩
  · simp only [btWrite, result]
  · rw [List.drop_zero, Nat.sub_zero] at written
    simp only [btWrite, written]

theorem btWrite_misleads (fd : WriteEnd) {buf : Bytes} (nonempty : buf ≠ []) :
    ¬ MeansOutcome (buf.drop 1) buf fd (btWrite fd buf) := by
  rintro ⟨failed, full⟩
  obtain ⟨sent, within, result, written⟩ := btWrite_result fd buf
  have positive := List.length_pos_iff.mpr nonempty
  by_cases all : Transmitted (buf.drop 1) fd (btWrite fd buf).2
  · have enough := full all
    omega
  · have negative := failed all
    omega

theorem hidWrite_means {hidWrite : WriteEnd → Bytes → Int × WriteEnd} (contract : HidWriteContract hidWrite)
    (fd : WriteEnd) (buf : Bytes) : MeansOutcome buf buf fd (hidWrite fd buf) where
  failed := by
    intro missing
    rw [contract.failed fd buf missing]
    decide
  full := by
    intro all
    exact Int.le_of_eq (contract.full fd buf all).symm

theorem write_result_means_outcome_iff {hidWrite : WriteEnd → Bytes → Int × WriteEnd}
    (contract : HidWriteContract hidWrite) (transport : Transport) (fd : WriteEnd) {buf : Bytes}
    (nonempty : buf ≠ []) :
    MeansOutcome (transport.payload buf) buf fd (transport.write hidWrite fd buf) ↔ transport = .usb := by
  cases transport with
  | usb => exact iff_of_true (hidWrite_means contract fd buf) rfl
  | serial => exact iff_of_false (btWrite_misleads fd nonempty) (by decide)
  | tcp => exact iff_of_false (btWrite_misleads fd nonempty) (by decide)

/-- An interrupt transfer that goes out as a whole or not at all. -/
def hidTransfer (fd : WriteEnd) (buf : Bytes) : Int × WriteEnd :=
  if fd.answers.headD 0 < 0 ∧ buf ≠ [] then (-1, { fd with answers := fd.answers.tail })
  else (buf.length, { written := fd.written ++ buf, answers := fd.answers.tail })

theorem hidTransfer_contract : HidWriteContract hidTransfer where
  full := by
    intro fd buf all
    unfold hidTransfer at all ⊢
    by_cases failed : fd.answers.headD 0 < 0 ∧ buf ≠ []
    · rw [if_pos failed] at all
      exact absurd (List.append_right_eq_self.mp (Eq.symm all)) failed.2
    · rw [if_neg failed]
  failed := by
    intro fd buf missing
    unfold hidTransfer at missing ⊢
    by_cases failed : fd.answers.headD 0 < 0 ∧ buf ≠ []
    · rw [if_pos failed]
    · rw [if_neg failed] at missing
      exact absurd rfl missing

theorem write_result_means_outcome_serial :
    MeansOutcome (Transport.serial.payload [0, 1, 0, 7]) [0, 1, 0, 7] ⟨[], [2]⟩
      (Transport.serial.write hidTransfer ⟨[], [2]⟩ [0, 1, 0, 7]) ↔ Transport.serial = .usb :=
  write_result_means_outcome_iff hidTransfer_contract .serial ⟨[], [2]⟩ (by decide)

/-- A serial port that fails after two of three bytes: the result is not negative.  And one that takes all of
them: the result is below the count. -/
theorem btWrite_hides_failure :
    selectTransport ⟨true, false, true, false⟩ ⟨false, true, false, false⟩ .online = some .serial ∧
      Transport.serial.write hidTransfer ⟨[], [2, -1]⟩ [0, 1, 0, 7] = (2, ⟨[1, 0], []⟩) ∧
      Transport.serial.write hidTransfer ⟨[], []⟩ [0, 1, 0, 7] = (3, ⟨[1, 0, 7], []⟩) ∧
      ¬ MeansOutcome (Transport.serial.payload [0, 1, 0, 7]) [0, 1, 0, 7] ⟨[], [2, -1]⟩
        (Transport.serial.write hidTransfer ⟨[], [2, -1]⟩ [0, 1, 0, 7]) ∧
      ¬ MeansOutcome (Transport.serial.payload [0, 1, 0, 7]) [0, 1, 0, 7] ⟨[], []⟩
        (Transport.serial.write hidTransfer ⟨[], []⟩ [0, 1, 0, 7]) := by
  exact ⟨rfl, by decide +kernel, by decide +kernel, btWrite_misleads ⟨[], [2, -1]⟩ (by decide),
    btWrite_misleads ⟨[], []⟩ (by decide)⟩

end Ev3duder
