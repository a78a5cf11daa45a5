import Ev3duder.Commands.Returns

namespace Ev3duder

open Data

/-! # What `vmexec` accepts and what it sends -/

def VmAccepts (code : Bytes) (locals globals : Int) (useReply : Bool) : Prop :=
  (1 ≤ code.length ∧ code.length ≤ 1017) ∧ max locals 0 ≤ 63 ∧ max globals 0 ≤ if useReply then 1019 else 1023

/-- The header, from whose `alloc` both counts can be recovered, and all of the bytecode behind it. -/
def VmEncodes (code : Bytes) (locals globals : Int) (useReply : Bool) (packet : Bytes) (count : Nat) : Prop :=
  count = packet.length ∧ count ≤ 1 + 1024 ∧ ∃ alloc : UInt16,
    packet = [0x00] ++ leBytes 2 (code.length + 5) ++ leBytes 2 0 ++ [if useReply then 0x00 else 0x80] ++
      leBytes 2 alloc.toNat ++ code ∧
    ((alloc >>> 10).toNat : Int) = max locals 0 ∧ ((alloc &&& 0x3FF).toNat : Int) = max globals 0

/-- One request for what is accepted, and an error and no request for everything else. -/
structure VmMeets (code : Bytes) (locals globals : Int) (useReply : Bool) (run : Option Err × Session) : Prop where
  accepted : VmAccepts code locals globals useReply → ∃ packet count,
    run.2.log.filterMap Event.written = [(packet, count)] ∧ VmEncodes code locals globals useReply packet count
  rejected : ¬ VmAccepts code locals globals useReply →
    run.2.log.filterMap Event.written = [] ∧ ∃ err, run.1 = some err ∧ err ≠ .unk

theorem alloc_fields {locals globals : Nat} (few : locals ≤ 63) (small : globals ≤ 1023) :
    (UInt16.ofNat (locals * 2 ^ 10 ||| globals) >>> 10).toNat = locals ∧
      (UInt16.ofNat (locals * 2 ^ 10 ||| globals) &&& 0x3FF).toNat = globals := by
  have sum : locals * 2 ^ 10 ||| globals = 2 ^ 10 * locals + globals := by
    rw [Nat.two_pow_add_eq_or_of_lt (by omega), Nat.mul_comm]
  have word : (UInt16.ofNat (locals * 2 ^ 10 ||| globals)).toNat = 2 ^ 10 * locals + globals := by
    rw [UInt16.toNat_ofNat', sum]
    omega
  constructor
  · rw [UInt16.toNat_shiftRight, word, Nat.shiftRight_eq_div_pow]
    show (2 ^ 10 * locals + globals) / 2 ^ 10 = locals
    omega
  · have mask : (0x3FF : UInt16).toNat = 2 ^ 10 - 1 := rfl
    rw [UInt16.toNat_and, word, mask, Nat.and_two_pow_sub_one_eq_mod]
    omega

section Runs

variable {out : VmOutput} {locals globals : Int} {useReply : Bool} {code : Bytes} {session : Session}

theorem follows_vmexecReply {property : Event → Prop}
    (read : ∀ size milliseconds result, property (.read size milliseconds result)) (out : VmOutput) (globals : Nat) :
    Follows property (vmexecReply out globals) := by
  refine follows_bind (follows_quiet fun _ => ⟨_, _, rfl, rfl⟩) fun heap => ?_
  refine follows_bind (follows_read read _ _ _) fun answer => follows_ite (follows_failWith _ _) ?_
  refine follows_bind (follows_quiet fun _ => ⟨_, _, rfl, rfl⟩) fun replyType => ?_
  refine follows_ite (follows_quiet fun _ => ⟨_, _, rfl, rfl⟩) ?_
  cases out <;> exact follows_quiet fun _ => ⟨_, _, rfl, rfl⟩

theorem freadToEnd_run (input : session.input = { rest := code }) :
    freadToEnd maxBytecodes session = (some (code.take maxBytecodes, decide (code.length < maxBytecodes)),
      { session with input := session.input.afterRead maxBytecodes }) := by
  have transfer : session.input.transfer maxBytecodes = min maxBytecodes code.length := by
    rw [input, File.transfer]
    show min (min maxBytecodes maxBytecodes) code.length = _
    rw [Nat.min_self]
  have ended : (min maxBytecodes code.length < maxBytecodes ∧ min maxBytecodes code.length = code.length) ↔
      code.length < maxBytecodes := by
    omega
  rw [freadToEnd, transfer, input, ← List.take_eq_take_min, decide_eq_decide.mpr ended]

theorem vmexecSend_rejects (out : VmOutput) (locals globals : Int) (useReply : Bool) (session : Session)
    (rejected : ¬ (1 ≤ code.length ∧ code.length < maxBytecodes)) :
    vmexecSend out locals globals useReply (code.take maxBytecodes) (decide (code.length < maxBytecodes)) session =
      (some .io, session) := by
  unfold vmexecSend
  by_cases short : code.length < maxBytecodes
  · have empty : (code.take maxBytecodes).length = 0 := by
      rw [List.length_take]
      omega
    rw [if_neg (by simp [short]), if_pos empty]
    rfl
  · rw [if_pos (by simp [short])]
    rfl

theorem vmexecSend_writes (out : VmOutput) (locals globals : Int) (useReply : Bool)
    (inside : 1 ≤ code.length ∧ code.length < maxBytecodes) (fresh : session.log = []) :
    (vmexecSend out locals globals useReply (code.take maxBytecodes) (decide (code.length < maxBytecodes))
      session).2.log.filterMap Event.written =
        [((Packet.toBytes (vmexecRequest { executeFileInit with packetLen := 1022 } code locals globals useReply)).take
            (Packet.count (vmexecRequest { executeFileInit with packetLen := 1022 } code locals globals useReply)),
          Packet.count (vmexecRequest { executeFileInit with packetLen := 1022 } code locals globals useReply))] := by
  have whole : code.take maxBytecodes = code := List.take_of_length_le (Nat.le_of_lt inside.2)
  unfold vmexecSend
  rw [whole, if_neg (by simp [inside.2]), if_neg (by omega)]
  generalize vmexecRequest { executeFileInit with packetLen := 1022 } code locals globals useReply = request
  have rest : Follows (fun event => event.written = none) (
      if session.writeResult < 0 then failWith "Unable to write VM_CMD." .comm
      else if ¬ useReply then failWith "`vmexec` was successful." .unk
      else vmexecReply out globals.toNat) :=
    follows_ite (follows_failWith _ _)
      (follows_ite (follows_failWith _ _) (follows_vmexecReply (fun _ _ _ => rfl) out globals.toNat))
  obtain ⟨value, after, run, events, log, reads⟩ :=
    rest (session.afterWrite (Packet.toBytes request) (Packet.count request))
  have none : events.filterMap Event.written = [] := List.filterMap_eq_nil_iff.mpr reads
  rw [Proc.bind_returned (writePacket_run request session), run, log, Session.afterWrite_log, fresh,
    List.filterMap_append, none]
  rfl

theorem vmexecRequest_encodes (inside : code.length ≤ 1017) (few : max locals 0 ≤ 63)
    (small : max globals 0 ≤ 1023) :
    VmEncodes code locals globals useReply
      (Packet.handed (vmexecRequest { executeFileInit with packetLen := 1022 } code (max locals 0) (max globals 0)
        useReply))
      (Packet.count (vmexecRequest { executeFileInit with packetLen := 1022 } code (max locals 0) (max globals 0)
        useReply)) := by
  have fields := @alloc_fields (max locals 0).toNat (max globals 0).toNat (by omega) (by omega)
  have len : (UInt16.ofNat (code.length + Packet.size VmCmd - prefixSize)).toNat = code.length + 5 := by
    rw [UInt16.toNat_ofNat']
    show (code.length + 8 - 3) % 2 ^ 16 = _
    omega
  generalize request_eq : vmexecRequest { executeFileInit with packetLen := 1022 } code (max locals 0) (max globals 0)
    useReply = request
  have bytes : Packet.toBytes request = [0x00] ++ leBytes 2 (code.length + 5) ++ leBytes 2 0 ++
      [if useReply then 0x00 else 0x80] ++
        leBytes 2 (UInt16.ofNat ((max locals 0).toNat * 2 ^ 10 ||| (max globals 0).toNat)).toNat ++ code := by
    rw [← request_eq, ← len]
    simp only [List.cons_append, List.nil_append, List.append_assoc]
    rfl
  have framed : (Packet.packetLen request).toNat = (Packet.tail request).length := by
    rw [← request_eq]
    refine len.trans ?_
    simp [Packet.tail, vmexecRequest]
    omega
  have count := Packet.count_eq framed
  rw [Packet.handed_eq framed, count]
  refine ⟨rfl, ?_, _, bytes, ?_, ?_⟩
  · rw [← count, Packet.count, ← request_eq]
    show (UInt16.ofNat (code.length + Packet.size VmCmd - prefixSize)).toNat + 3 ≤ _
    omega
  · rw [fields.1]
    omega
  · rw [fields.2]
    omega

end Runs

/-- `vmexec` keeps to its limits but for the longest bytecode it is meant to take: reading all of it does not yet
touch the end of the file. -/
theorem vmexec_meets_iff (out : VmOutput) (locals globals : Int) (useReply : Bool) (code : Bytes) (writes : List Int)
    (reads : List ReadResult) (junk : Nat → Memory) :
    VmMeets code locals globals useReply
        (vmexec out locals globals useReply { writes, reads, junk, input := { rest := code } }) ↔
      ¬ (code.length = 1017 ∧ max locals 0 ≤ 63 ∧ max globals 0 ≤ if useReply then 1019 else 1023) := by
  by_cases limits : max locals 0 ≤ 63 ∧ max globals 0 ≤ if useReply then 1019 else 1023
  · have small : max globals 0 ≤ 1023 := by
      have bound := limits.2
      split at bound <;> omega
    have most : maxBytecodes = 1017 := rfl
    rw [vmexec_limited out limits.1 limits.2, Proc.bind_returned (freadToEnd_run rfl)]
    by_cases inside : 1 ≤ code.length ∧ code.length < maxBytecodes
    · refine iff_of_true ⟨fun _ => ⟨_, _, vmexecSend_writes out _ _ useReply inside rfl, ?_⟩, fun rejected => ?_⟩ ?_
      · exact vmexecRequest_encodes (by omega) limits.1 small
      · exact absurd ⟨⟨inside.1, by omega⟩, limits⟩ rejected
      · omega
    · rw [vmexecSend_rejects out _ _ useReply _ inside]
      constructor
      · rintro meets ⟨longest, _⟩
        obtain ⟨packet, count, none, _⟩ := meets.accepted ⟨⟨by omega, by omega⟩, limits⟩
        cases none
      · intro other
        refine ⟨fun accepted => ?_, fun _ => ⟨rfl, .io, rfl, by decide⟩⟩
        have bounds := accepted.1
        exact absurd ⟨by omega, limits⟩ other
  · rw [vmexec_unlimited out limits]
    refine iff_of_true ⟨fun accepted => absurd accepted.2 limits, fun _ => ⟨rfl, .arg, rfl, by decide⟩⟩ ?_
    exact fun longest => limits longest.2

theorem vmexec_refuses_longest :
    ¬ VmMeets (List.replicate 1017 0x01) 0 0 false
      (vmexec .none 0 0 false { writes := [1025], reads := [], input := { rest := List.replicate 1017 0x01 } }) := by
  intro meets
  have length : (List.replicate 1017 (0x01 : UInt8)).length = 1017 := List.length_replicate
  generalize List.replicate 1017 (0x01 : UInt8) = code at meets length
  have most : maxBytecodes = 1017 := rfl
  rw [vmexec_limited .none (by decide) (by decide), Proc.bind_returned (freadToEnd_run rfl),
    vmexecSend_rejects .none _ _ false _ (by omega)] at meets
  obtain ⟨packet, count, none, _⟩ := meets.accepted ⟨⟨by omega, by omega⟩, by decide, by decide⟩
  cases none

end Ev3duder
