import Ev3duder.Commands.Simple
import Ev3duder.Data.Run

namespace Ev3duder

open Data

/-! # `bridge_mode`: a brick behind a TCP server

One client at a time sends a request line, is answered, and from then on packets go both ways.  What the sockets and
the brick answer during one pass of the loop is given to the pass; everything the bridge does is kept in a log.
-/

inductive NetState where
  | notConnected | connected | closed
deriving DecidableEq, Repr

inductive TcpState where
  | idle | waitOnStart | waitOnLength | waitOnOnlyChunk
deriving DecidableEq, Repr

inductive BridgeEvent where
  /-- A client is connected. -/
  | accepted
  /-- What one `read` from the client brings; nothing at the end of the stream. -/
  | received (bytes : Bytes)
  | readFailed
  | closed
  /-- The client's request was found. -/
  | unlocked
  /-- One call of `ev3_read_timeout`. -/
  | reply (result : ReadResult)
  /-- One call of `ev3_write`: the bytes at the buffer, the count, and what the call returned. -/
  | packet (buf : Bytes) (count : Nat) (res : Int)
  /-- One `write` to the client: the bytes offered and what the call returned. -/
  | wrote (bytes : Bytes) (res : Int)
deriving DecidableEq, Repr

structure Bridge where
  netConnection : NetState
  tcpRead : TcpState
  tcpReadBufPointer : UInt32
  tcpTotalLength : UInt32
  tcpRestLen : UInt32
  readBuf : Memory
  writeBuf : Memory
  writeLen : Int
  writePos : Int
  log : List BridgeEvent

/-- Before the first pass: both sockets are open, the static buffers are zero. -/
def Bridge.started : Bridge where
  netConnection := .notConnected
  tcpRead := .idle
  tcpReadBufPointer := 0
  tcpTotalLength := 0
  tcpRestLen := 0
  readBuf := fun _ => 0
  writeBuf := fun _ => 0
  writeLen := 0
  writePos := 0
  log := []

/-- What the outside answers during one pass of the loop. -/
structure Pass where
  /-- A beacon is due and cannot be sent. -/
  beaconFails : Bool := false
  accepts : Bool := false
  reply : ReadResult := .received []
  readReady : Bool := false
  /-- What a `read` from the client brings, cut to what it asks for: nothing but `some []` at the end of the stream. -/
  received : Option Bytes := some []
  /-- The most that the `write` of the answer transfers, negative for a failure. -/
  answerTaken : Int := 16
  /-- What `ev3_write` returns for a count. -/
  packetTaken : Nat → Int := fun count => count
  writeReady : Bool := false
  replyTaken : Int := 0

/-- `sizeof(ReadBuf)` and `sizeof(WriteBuf)`. -/
def bridgeBufSize : Nat := 65540

def requestText : Bytes := ascii "ET /target?sn="

def acceptText : Bytes := ascii "Accept:EV340\r\n\r\n"

def Bridge.event (event : BridgeEvent) : Proc Bridge Unit :=
  Proc.modify fun bridge => { bridge with log := bridge.log ++ [event] }

/-- `hexdump(buf, len)` prints nothing in a build without debug output, but it reads `len` bytes where there are
`room`. -/
def hexdump (room len : Nat) : Proc Bridge Unit :=
  if room < len then Proc.crash else pure ()

def cNetTcpClose : Proc Bridge Unit :=
  Proc.modify fun bridge => { bridge with netConnection := .notConnected, log := bridge.log ++ [.closed] }

def cNetUdpClose : Proc Bridge Unit :=
  Proc.modify fun bridge => { bridge with netConnection := .closed }

/-- `read(TcpConnectionSocket, &(Buffer[pointer]), count)`, where `Buffer` is `ReadBuf + 1`. -/
def readSocket (received : Option Bytes) (pointer : UInt32) (count : Nat) : Proc Bridge Int := fun bridge =>
  match received with
  | none => (some (-1), { bridge with log := bridge.log ++ [.readFailed] })
  | some bytes =>
      let bytes := bytes.take count
      if bridgeBufSize < 1 + pointer.toNat + bytes.length then (none, bridge)
      else
        (some bytes.length,
          { bridge with
            readBuf := bridge.readBuf.storeAt (1 + pointer.toNat) bytes
            log := bridge.log ++ [.received bytes] })

/-- `write(TcpConnectionSocket, ..)` of `length` bytes. -/
def socketWrite (taken : Int) (length : Nat) : Int := if taken < 0 then -1 else min taken length

/-- `cNetWriteTcp`, given the bytes that lie at `Buffer` and how far `Buffer` reaches. -/
def cNetWriteTcp (bytes : Bytes) (room : Nat) (taken : Int) : Proc Bridge UInt32 := fun bridge =>
  if bytes.length < 1 then (some 0, bridge)
  else if bridge.netConnection ≠ .connected then (some 0, bridge)
  else
    (do
      hexdump room bytes.length
      Bridge.event (.wrote bytes (socketWrite taken bytes.length))
      return UInt32.ofInt (socketWrite taken bytes.length)) bridge

/-- The string that `strstr` searches: what lies at `ReadBuf + 1` up to the first NUL. -/
def Bridge.buffered (bridge : Bridge) : Bytes := bridge.readBuf.cstring 1 (bridgeBufSize - 1)

/-- TCP_WAIT_ON_START. -/
def readStart (pass : Pass) : Proc Bridge UInt32 := do
  let dataRead ← readSocket pass.received 0 100
  hexdump (bridgeBufSize - 1) (UInt32.ofInt dataRead).toNat
  if dataRead = 0 then do
    cNetTcpClose
    return 0
  else do
    let buffer ← Proc.gets Bridge.buffered
    if strstr buffer requestText then do
      let _ ← cNetWriteTcp acceptText (acceptText.length + 1) pass.answerTaken
      Proc.modify fun bridge => { bridge with tcpRead := .waitOnLength, log := bridge.log ++ [.unlocked] }
      return 0
    else return 0

/-- TCP_WAIT_ON_LENGTH. -/
def readLength (pass : Pass) (length : UInt32) : Proc Bridge UInt32 := do
  if length < 2 then Proc.crash
  else do
    Proc.modify fun bridge => { bridge with tcpReadBufPointer := 0 }
    let dataRead ← readSocket pass.received 0 2
    if dataRead < 2 then do
      cNetTcpClose
      return UInt32.ofInt dataRead
    else do
      Proc.modify fun bridge =>
        let restLen := UInt32.ofNat ((bridge.readBuf 1).toNat + (bridge.readBuf 2).toNat * 256)
        { bridge with
          tcpRestLen := restLen
          tcpTotalLength := restLen + 2
          tcpRead := .waitOnOnlyChunk
          tcpReadBufPointer := bridge.tcpReadBufPointer + UInt32.ofInt dataRead }
      return 0

/-- TCP_WAIT_ON_ONLY_CHUNK. -/
def readChunk (pass : Pass) (length : UInt32) : Proc Bridge UInt32 := fun bridge =>
  if length < bridge.tcpTotalLength then (none, bridge)
  else
    (do
      let dataRead ← readSocket pass.received bridge.tcpReadBufPointer bridge.tcpRestLen.toNat
      if dataRead = 0 then do
        cNetTcpClose
        return 0
      else do
        Proc.modify fun bridge =>
          { bridge with tcpReadBufPointer := bridge.tcpReadBufPointer + UInt32.ofInt dataRead }
        if bridge.tcpRestLen = UInt32.ofInt dataRead then do
          Proc.modify fun bridge => { bridge with tcpRead := .waitOnLength }
          hexdump (bridgeBufSize - 1) bridge.tcpTotalLength.toNat
          return bridge.tcpTotalLength
        else do
          Proc.modify fun bridge => { bridge with tcpRestLen := bridge.tcpRestLen - UInt32.ofInt dataRead }
          hexdump (bridgeBufSize - 1) bridge.tcpTotalLength.toNat
          return 0) bridge

def cNetReadTcp (pass : Pass) (length : UInt32) : Proc Bridge UInt32 := fun bridge =>
  match bridge.tcpRead with
  | .idle => (some 0, bridge)
  | .waitOnStart => readStart pass bridge
  | .waitOnLength => readLength pass length bridge
  | .waitOnOnlyChunk => readChunk pass length bridge

/-- The packet that was read goes to the brick.  A brick that does not take it costs the client the connection. -/
def handOver (pass : Pass) (len : Int) : Proc Bridge Bool := do
  if 0 < len then do
    let buf ← Proc.gets fun bridge => bridge.readBuf.load 0 (len + 1).toNat
    let err := pass.packetTaken buf.length
    Bridge.event (.packet buf buf.length err)
    if err < len + 1 then do
      cNetTcpClose
      return false
    else return true
  else return true

/-- The read side of a pass; without success the pass ends here. -/
def readSide (pass : Pass) : Proc Bridge Bool := do
  if pass.readReady then do
    let len ← cNetReadTcp pass (UInt32.ofNat (bridgeBufSize - 1))
    handOver pass len.toInt32.toInt
  else return true

/-- A new reply is read once the last one is sent.  Its length is taken from its first two bytes, and all of it has
to be there. -/
def pumpReply (pass : Pass) : Proc Bridge Unit := fun bridge =>
  if bridge.writeLen ≤ 0 then
    let read := { bridge with
      writeBuf := bridge.writeBuf.store pass.reply.stored
      writeLen := pass.reply.res
      writePos := 0
      log := bridge.log ++ [.reply pass.reply] }
    if read.writeLen ≠ 0 then
      let realLen : Int := (read.writeBuf 0).toNat + 256 * (read.writeBuf 1).toNat + 2
      if realLen ≤ read.writeLen then (some (), { read with writeLen := realLen }) else (none, read)
    else (some (), read)
  else (some (), bridge)

/-- The write side of a pass.  After a close the descriptor that is tested is 0, which was never in the set. -/
def writeSide (pass : Pass) : Proc Bridge Unit := fun bridge =>
  if pass.writeReady ∧ 0 < bridge.writeLen then
    (do
      let bytes := bridge.writeBuf.load bridge.writePos.toNat (UInt32.ofInt bridge.writeLen).toNat
      let written ← cNetWriteTcp bytes (bridgeBufSize - bridge.writePos.toNat) pass.replyTaken
      let written := written.toInt32.toInt
      if 0 < written then
        Proc.modify fun bridge =>
          { bridge with writeLen := bridge.writeLen - written, writePos := bridge.writePos + written }
      else return ()) bridge
  else (some (), bridge)

/-- TCP_NOT_CONNECTED.  A beacon that cannot be sent closes the bridge, unless a client connects right then. -/
def awaitClient (pass : Pass) : Proc Bridge Unit := do
  if pass.beaconFails then cNetUdpClose
  if pass.accepts then
    Proc.modify fun bridge =>
      { bridge with tcpRead := .waitOnStart, netConnection := .connected, log := bridge.log ++ [.accepted] }

/-- TCP_CONNECTED. -/
def serveClient (pass : Pass) : Proc Bridge Unit := do
  pumpReply pass
  if ← readSide pass then writeSide pass

def bridgePass (pass : Pass) : Proc Bridge Unit := fun bridge =>
  match bridge.netConnection with
  | .notConnected => awaitClient pass bridge
  | .connected => serveClient pass bridge
  | .closed => (some (), bridge)

def Bridge.going (bridge : Bridge) : Bool := bridge.netConnection ≠ .closed

def bridgeLoop : List Pass → Proc Bridge Unit := passes Bridge.going bridgePass

/-- Without a result the loop is still running. -/
def bridgeMode (udp listening : Bool) (coming : List Pass) : Proc Bridge (Option Err) := do
  if ¬ udp ∨ ¬ listening then return some .io
  else do
    bridgeLoop coming
    let connection ← Proc.gets Bridge.netConnection
    if connection = .closed then do
      cNetTcpClose
      cNetUdpClose
      return some .unk
    else return none

end Ev3duder
