import Ev3duder.Transport.Serial

namespace Ev3duder

open Data

/-! # The two readings of a socket

In the build for POSIX `tcp_read` is `bt_read`.  The one for Windows leaves out a first byte, as the writing side does
for the HID report number, and takes whatever one `recv` brings.
-/

/-- `recv`, which takes its length as an `int` and refuses a negative one. -/
def Windows.recv (sock : ReadEnd) (len : Int) : Option (Int × Bytes × ReadEnd) :=
  if len < 0 then some (-1, [], sock) else sock.read len.toNat

/-- `count--`, and then `count` as an `int`. -/
def Windows.recvLength (count : Nat) : Int := (UInt32.ofNat count - 1).toInt32.toInt

/-- `buf++; count--;` and then `recv(sock, buf, count, 0)`. -/
def Windows.tcpRead (sock : ReadEnd) (buf : Memory) (count : Nat) (_milliseconds : Int) :
    Option (Int × Memory × ReadEnd) :=
  match recv sock (recvLength count) with
  | none => none
  | some (ret, bytes, sock) => some (ret, buf.storeAt 1 bytes, sock)

/-- The calls of a program one after the other, with either reading. -/
def readAll (read : ReadEnd → Memory → Nat → Int → Option (Int × Memory × ReadEnd)) (fd : ReadEnd) :
    List ReadCall → Option (List (Int × Memory))
  | [] => some []
  | call :: rest =>
      match read fd call.buf call.count call.milliseconds with
      | none => none
      | some (ret, buf, fd) => (readAll read fd rest).map ((ret, buf) :: ·)

/-- What a call asks for. -/
def ReadCall.asks (call : ReadCall) : Nat × Int := (call.count, call.milliseconds)

/-- Each packet in its own call, from the front of the buffer, and its length returned. -/
def onePacketEach (packets : List HidPacket) (calls : List ReadCall) : List (Int × Memory) :=
  (packets.zip calls).map fun pair => ((pair.1.body.length : Int) + 2, pair.2.buf.store pair.1.frame)

/-- Two sockets bring the same packets, each in pieces of its own.  Whatever the buffers held, both programs get the
packets one by one from the front of their buffers, and the same ones. -/
structure ReadAlike (packets : List HidPacket) (hungUp : Bool) (recvs reads : Answers) (asked : List (Nat × Int)) :
    Prop where
  packet : ∀ calls : List ReadCall, calls.map ReadCall.asks = asked →
    readAll Windows.tcpRead ⟨(packets.map HidPacket.frame).flatten, hungUp, recvs⟩ calls =
      some (onePacketEach packets calls)
  same : ∀ calls : List ReadCall, calls.map ReadCall.asks = asked →
    readAll Windows.tcpRead ⟨(packets.map HidPacket.frame).flatten, hungUp, recvs⟩ calls =
      readAll tcpRead ⟨(packets.map HidPacket.frame).flatten, hungUp, reads⟩ calls

theorem windows_tcpRead_front {sock after : ReadEnd} {buf filled : Memory} {count : Nat} {milliseconds ret : Int}
    (read : Windows.tcpRead sock buf count milliseconds = some (ret, filled, after)) : filled 0 = buf 0 := by
  rw [Windows.tcpRead] at read
  cases brought : Windows.recv sock (Windows.recvLength count) with
  | none => simp [brought] at read
  | some result =>
      rw [brought] at read
      cases read
      exact Memory.storeAt_before _ Nat.zero_lt_one

theorem HidPacket.store_front (packet : HidPacket) (buf : Memory) :
    buf.store packet.frame 0 = UInt8.ofNat packet.body.length := by
  have front : packet.frame[0]? = some (UInt8.ofNat packet.body.length) := rfl
  rw [Memory.store, front, Option.getD_some]

/-- The first byte of a packet is never where the other reading puts it. -/
theorem readAlike_iff (packets : List HidPacket) (hungUp : Bool) (recvs reads : Answers) (asked : List (Nat × Int)) :
    ReadAlike packets hungUp recvs reads asked ↔ asked = [] := by
  constructor
  · intro alike
    cases asked with
    | nil => rfl
    | cons ask asked =>
        -- A buffer that holds anything but the first byte of the first packet.
        let other : UInt8 := ((packets.head?.map fun packet => UInt8.ofNat packet.body.length).getD 0) + 1
        have run := alike.packet (⟨fun _ => other, ask.1, ask.2⟩ :: asked.map fun ask => ⟨fun _ => 0, ask.1, ask.2⟩)
          (by simp [ReadCall.asks, Function.comp_def])
        rw [readAll] at run
        split at run
        · cases run
        · rename_i ret filled after read
          have front := windows_tcpRead_front read
          obtain ⟨results, _, same⟩ := Option.map_eq_some_iff.mp run
          cases packets with
          | nil => cases same
          | cons packet packets =>
              have stored : filled = Memory.store (fun _ => other) packet.frame :=
                congrArg Prod.snd (List.cons.inj same).1
              rw [stored, packet.store_front] at front
              simp [other] at front
  · intro same
    subst same
    constructor <;>
    · intro calls none
      cases List.map_eq_nil_iff.mp none
      simp [readAll, onePacketEach]

/-- Three bytes of a reply in a buffer that was zero: they lie one place too far up. -/
theorem readAlike_shifted : ¬ ReadAlike [⟨0, [7, 0, 2], by decide⟩] false [] [] [(5, 500)] := by
  intro alike
  have run := alike.packet [⟨fun _ => 0, 5, 500⟩] rfl
  have bytes := congrArg (fun results => results.map fun results => results.map fun result => result.2.load 0 5) run
  exact absurd bytes (by decide +kernel)

end Ev3duder
