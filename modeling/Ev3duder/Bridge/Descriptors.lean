import Ev3duder.Bridge.Frames
import Ev3duder.Transport.Beacon

namespace Ev3duder

open Data BridgeEvent

/-! # The descriptors of the bridge

`bridge_mode` from its first call on: the socket of the beacon and its timer, the listening socket, and the descriptor
of the client.  Every call that opens, ends or uses one of them is kept, and so is every assignment to
`State.NetConnection`.
-/

inductive SocketEvent where
  /-- `setState(NetConnection, state)`. -/
  | net (state : NetState)
  | sendto (fd : Int) (text : Bytes) (res : Int)
  | accept (fd : Int)
  | shutdown (fd : Int)
  | close (fd : Int)
deriving DecidableEq, Repr

structure Host where
  bridge : Bridge
  udpSocketDescriptor : Int
  tcpConnectionSocket : Int
  tcpListenServer : Int
  start : Int
  sockets : List SocketEvent

/-- What one call of `cNetTransmitBeacon` meets: the time at the check, what `sendto` returns, and the time when the
timer is started again. -/
structure BeaconCall where
  now : Int := 0
  sent : Int := 67
  restarted : Int := 0

/-- What the initialisation meets, call by call. -/
structure HostStart where
  udpSocket : Int := 3
  broadcast : Int := 0
  beacon : BeaconCall := {}
  listenSocket : Int := 4
  bind : Int := 0
  listen : Int := 0

/-- What one pass of the loop meets: while it waits for a client, and while it serves one. -/
structure HostPass where
  beacon : BeaconCall := {}
  accept : Int := -1
  served : Pass := {}

namespace Host

/-- The static variables of a new process. -/
def fresh : Host where
  bridge := { Bridge.started with netConnection := .closed }
  udpSocketDescriptor := 0
  tcpConnectionSocket := 0
  tcpListenServer := 0
  start := 0
  sockets := []

def event (event : SocketEvent) : Proc Host Unit :=
  Proc.modify fun host => { host with sockets := host.sockets ++ [event] }

def setNetConnection (state : NetState) : Proc Host Unit :=
  Proc.modify fun host =>
    { host with bridge := { host.bridge with netConnection := state }, sockets := host.sockets ++ [.net state] }

/-- `cNetTcpClose` beside what the bridge itself has of it.  After a failed `shutdown` it reads what is left to no
end; it never calls `close`. -/
def tcpClosed (host : Host) : Host :=
  { host with
    tcpConnectionSocket := 0
    sockets := host.sockets ++ [.shutdown host.tcpConnectionSocket, .net .notConnected] }

def follow (host : Host) : BridgeEvent → Host
  | .closed => host.tcpClosed
  | _ => host

/-- Code of the bridge that changes descriptors by calls of `cNetTcpClose` alone, each of which is in its log. -/
def onBridge {α : Type} (code : Proc Bridge α) : Proc Host α := fun host =>
  let (result, bridge) := code host.bridge
  (result, (bridge.log.drop host.bridge.log.length).foldl follow { host with bridge := bridge })

def cNetTcpClose : Proc Host Unit := onBridge Ev3duder.cNetTcpClose

def cNetUdpClose : Proc Host Unit := do
  setNetConnection .closed
  let fd ← Proc.gets udpSocketDescriptor
  event (.close fd)

/-- `cNetCheckTimer() < BEACON_TIME`, with the difference cut to an `unsigned`. -/
def early (call : BeaconCall) (host : Host) : Bool := UInt32.ofInt (call.now - host.start) < 1

def cNetTransmitBeacon (call : BeaconCall) : Proc Host Unit := fun host =>
  if early call host then (some (), host)
  else
    (do
      event (.sendto host.udpSocketDescriptor bridgeBeacon.text call.sent)
      if call.sent < 0 then cNetUdpClose
      Proc.modify fun host => { host with start := call.restarted }) host

def cNetInitUdp (begin : HostStart) : Proc Host Bool := do
  Proc.modify fun host => { host with udpSocketDescriptor := begin.udpSocket }
  if begin.udpSocket < 0 then return false
  else if begin.broadcast < 0 then return false
  else do
    cNetTransmitBeacon begin.beacon
    setNetConnection .notConnected
    return true

def cNetInitTcpServer (begin : HostStart) : Proc Host Bool := do
  Proc.modify fun host => { host with bridge := { host.bridge with tcpRead := .idle } }
  let server ← Proc.gets tcpListenServer
  if server = 0 then do
    Proc.modify fun host => { host with tcpListenServer := begin.listenSocket }
    if begin.listenSocket < 0 then return false
    else if begin.bind < 0 then return false
    else return decide (0 ≤ begin.listen)
  else return decide (0 ≤ begin.listen)

def cNetWaitForTcpConnection (accept : Int) : Proc Host Bool := do
  Proc.modify fun host => { host with tcpConnectionSocket := accept }
  if accept < 0 then return false
  else do
    Proc.modify fun host =>
      { host with
        bridge := { host.bridge with tcpRead := .waitOnStart, log := host.bridge.log ++ [.accepted] }
        sockets := host.sockets ++ [.accept accept] }
    return true

/-- The body of the loop. -/
def bridgePass (pass : HostPass) : Proc Host Unit := fun host =>
  match host.bridge.netConnection with
  | .notConnected =>
      (do
        cNetTransmitBeacon pass.beacon
        if ← cNetWaitForTcpConnection pass.accept then setNetConnection .connected) host
  | .connected => onBridge (serveClient pass.served) host
  | .closed => (some (), host)

def going (host : Host) : Bool := host.bridge.going

def bridgeLoop : List HostPass → Proc Host Unit := passes going bridgePass

/-- `bridge_mode`; without a result the loop is still running. -/
def bridgeMode (begin : HostStart) (coming : List HostPass) : Proc Host (Option Err) := do
  if ¬ (← cNetInitUdp begin) then return some .io
  else if ¬ (← cNetInitTcpServer begin) then return some .io
  else do
    bridgeLoop coming
    if ← Proc.gets going then return none
    else do
      cNetTcpClose
      cNetUdpClose
      return some .unk

/-- A beacon is due and cannot be sent. -/
def beaconFails (call : BeaconCall) (host : Host) : Bool := !early call host && decide (call.sent < 0)

def beaconEvents (call : BeaconCall) (host : Host) : List SocketEvent :=
  if early call host then []
  else .sendto host.udpSocketDescriptor bridgeBeacon.text call.sent ::
    if call.sent < 0 then [.net .closed, .close host.udpSocketDescriptor] else []

/-- After a beacon. -/
def beaconed (call : BeaconCall) (host : Host) : Host :=
  { host with
    bridge := if beaconFails call host then host.bridge.shut else host.bridge
    start := if early call host then host.start else call.restarted
    sockets := host.sockets ++ beaconEvents call host }

theorem cNetUdpClose_run (host : Host) : cNetUdpClose host =
    (some (), { host with
      bridge := host.bridge.shut
      sockets := host.sockets ++ [.net .closed, .close host.udpSocketDescriptor] }) := by
  simp only [cNetUdpClose, setNetConnection, event, Proc.bind_apply, Proc.modify_apply, Proc.gets_apply,
    List.append_assoc]
  rfl

theorem cNetTransmitBeacon_run (call : BeaconCall) (host : Host) :
    cNetTransmitBeacon call host = (some (), host.beaconed call) := by
  rw [cNetTransmitBeacon]
  cases before : early call host with
  | true => simp [beaconed, beaconFails, beaconEvents, before]
  | false =>
      by_cases fails : call.sent < 0
      · simp [beaconed, beaconFails, beaconEvents, before, fails, event, Proc.bind_apply, cNetUdpClose_run]
      · simp [beaconed, beaconFails, beaconEvents, before, fails, event, Proc.bind_apply]

/-- After a pass without a client. -/
def waited (pass : HostPass) (host : Host) : Host :=
  let told := host.beaconed pass.beacon
  { told with
    bridge := if pass.accept < 0 then told.bridge else told.bridge.accepted
    tcpConnectionSocket := pass.accept
    sockets := told.sockets ++ if pass.accept < 0 then [] else [.accept pass.accept, .net .connected] }

theorem bridgePass_waits {host : Host} (waits : host.bridge.netConnection = .notConnected) (pass : HostPass) :
    bridgePass pass host = (some (), host.waited pass) := by
  rw [bridgePass, waits]
  simp only [cNetWaitForTcpConnection, setNetConnection, Proc.bind_apply, cNetTransmitBeacon_run, Proc.modify_apply,
    waited]
  by_cases none : pass.accept < 0
  · simp [none]
  · simp [none, Proc.bind_apply, Bridge.accepted]

theorem bridgePass_serves {host : Host} (connected : host.bridge.netConnection = .connected) (pass : HostPass) :
    bridgePass pass host = onBridge (serveClient pass.served) host := by
  rw [bridgePass, connected]

/-- Descriptors of clients are neither opened nor closed between two states, nor is anything sent. -/
def Quiet (before after : Host) : Prop :=
  ∃ events, after.sockets = before.sockets ++ events ∧
    ∀ event ∈ events, event = .net .notConnected ∨ ∃ fd, event = .shutdown fd

theorem Quiet.refl (host : Host) : Quiet host host := ⟨[], by simp, by simp⟩

theorem quiet_follow (events : List BridgeEvent) (host : Host) :
    Quiet host (events.foldl follow host) ∧ (events.foldl follow host).bridge = host.bridge := by
  induction events generalizing host with
  | nil => exact ⟨Quiet.refl host, rfl⟩
  | cons event events ih =>
      obtain ⟨⟨more, sockets, known⟩, bridge⟩ := ih (host.follow event)
      cases event with
      | closed =>
          refine ⟨⟨[.shutdown host.tcpConnectionSocket, .net .notConnected] ++ more, ?_, ?_⟩, bridge⟩
          · rw [List.foldl_cons, sockets, follow, tcpClosed, List.append_assoc]
          · intro event member
            rcases List.mem_append.mp member with closing | later
            · simp only [List.mem_cons, List.not_mem_nil, or_false] at closing
              exact closing.symm.imp_right fun down => ⟨_, down⟩
            · exact known event later
      | _ => exact ⟨⟨more, sockets, known⟩, bridge⟩

theorem onBridge_quiet {α : Type} (code : Proc Bridge α) (host : Host) :
    Quiet host (onBridge code host).2 ∧ (onBridge code host).2.bridge = (code host.bridge).2 ∧
      (onBridge code host).1 = (code host.bridge).1 := by
  obtain ⟨quiet, bridge⟩ := quiet_follow ((code host.bridge).2.log.drop host.bridge.log.length)
    { host with bridge := (code host.bridge).2 }
  exact ⟨quiet, bridge, rfl⟩

/-- The passes of the loop alone, without descriptors: what the outside does in them as the loop sees it. -/
def seen (pass : HostPass) (host : Host) : Pass :=
  { pass.served with beaconFails := beaconFails pass.beacon host, accepts := decide (0 ≤ pass.accept) }

/-- The bridge inside a host does what it does alone. -/
theorem bridgePass_bridge (pass : HostPass) (host : Host) :
    (bridgePass pass host).1 = (Ev3duder.bridgePass (seen pass host) host.bridge).1 ∧
      (bridgePass pass host).2.bridge = (Ev3duder.bridgePass (seen pass host) host.bridge).2 := by
  cases state : host.bridge.netConnection with
  | notConnected =>
      rw [bridgePass_waits state, bridgePass_notConnected state, awaitClient_run]
      refine ⟨rfl, ?_⟩
      simp only [waited, beaconed, seen]
      have order : pass.accept < 0 ∧ ¬ 0 ≤ pass.accept ∨ ¬ pass.accept < 0 ∧ 0 ≤ pass.accept := by omega
      rcases order with ⟨none, refused⟩ | ⟨some, taken⟩
      · by_cases fails : beaconFails pass.beacon host = true
        · simp [none, refused, fails]
        · simp [none, refused, fails]
      · by_cases fails : beaconFails pass.beacon host = true
        · simp [some, taken, fails, Bridge.shut, Bridge.accepted]
        · simp [some, taken, fails, Bridge.accepted]
  | connected =>
      obtain ⟨_, bridge, result⟩ := onBridge_quiet (serveClient pass.served) host
      rw [bridgePass_serves state, bridgePass_connected state]
      exact ⟨result, bridge⟩
  | closed =>
      rw [bridgePass, state, bridgePass_closed state]
      exact ⟨rfl, rfl⟩

/-- The socket of the beacon is open. -/
def HasUdp (begin : HostStart) : Prop := 0 ≤ begin.udpSocket ∧ 0 ≤ begin.broadcast

instance (begin : HostStart) : Decidable (HasUdp begin) := inferInstanceAs (Decidable (_ ∧ _))

def udpOpened (begin : HostStart) (host : Host) : Host := { host with udpSocketDescriptor := begin.udpSocket }

/-- After the first beacon. -/
def announcing (begin : HostStart) (host : Host) : Host :=
  let told := (host.udpOpened begin).beaconed begin.beacon
  { told with
    bridge := { told.bridge with netConnection := .notConnected }
    sockets := told.sockets ++ [.net .notConnected] }

theorem cNetInitUdp_run (begin : HostStart) (host : Host) : cNetInitUdp begin host =
    if HasUdp begin then (some true, host.announcing begin) else (some false, host.udpOpened begin) := by
  have order : (begin.udpSocket < 0 ∨ 0 ≤ begin.udpSocket ∧ ¬ begin.udpSocket < 0) ∧
      (begin.broadcast < 0 ∨ 0 ≤ begin.broadcast ∧ ¬ begin.broadcast < 0) := by omega
  rw [cNetInitUdp]
  rcases order with ⟨none | ⟨socket, some⟩, refused | ⟨broadcast, granted⟩⟩
  · simp [HasUdp, none, Int.not_le.mpr none, udpOpened, Proc.bind_apply]
  · simp [HasUdp, none, Int.not_le.mpr none, udpOpened, Proc.bind_apply]
  · simp [HasUdp, some, refused, Int.not_le.mpr refused, udpOpened, Proc.bind_apply]
  · simp [HasUdp, some, socket, broadcast, granted, udpOpened, announcing, setNetConnection, cNetTransmitBeacon_run,
      Proc.bind_apply]

/-- The socket for clients is open. -/
def Listens (begin : HostStart) : Prop := 0 ≤ begin.listenSocket ∧ 0 ≤ begin.bind ∧ 0 ≤ begin.listen

instance (begin : HostStart) : Decidable (Listens begin) := inferInstanceAs (Decidable (_ ∧ _ ∧ _))

def listening (begin : HostStart) (host : Host) : Host :=
  { host with bridge := { host.bridge with tcpRead := .idle }, tcpListenServer := begin.listenSocket }

theorem cNetInitTcpServer_run (begin : HostStart) {host : Host} (first : host.tcpListenServer = 0) :
    cNetInitTcpServer begin host = (some (decide (Listens begin)), host.listening begin) := by
  rw [cNetInitTcpServer]
  by_cases none : begin.listenSocket < 0
  · simp [Proc.bind_apply, first, none, Listens, listening, Int.not_le.mpr none]
  · by_cases unbound : begin.bind < 0
    · simp [Proc.bind_apply, first, none, unbound, Listens, listening, Int.not_le.mpr unbound]
    · simp [Proc.bind_apply, first, none, unbound, Listens, listening, Int.not_lt.mp none, Int.not_lt.mp unbound]

/-- The host when the loop begins. -/
def started (begin : HostStart) : Host := ((cNetInitUdp begin >>= fun _ => cNetInitTcpServer begin) fresh).2

theorem started_run (begin : HostStart) : started begin =
    (if HasUdp begin then fresh.announcing begin else fresh.udpOpened begin).listening begin := by
  rw [started]
  by_cases udp : HasUdp begin
  · have listens := @cNetInitTcpServer_run begin (fresh.announcing begin) rfl
    rw [Proc.bind_returned ((cNetInitUdp_run begin fresh).trans (if_pos udp)), listens, if_pos udp]
  · have listens := @cNetInitTcpServer_run begin (fresh.udpOpened begin) rfl
    rw [Proc.bind_returned ((cNetInitUdp_run begin fresh).trans (if_neg udp)), listens, if_neg udp]

end Host

end Ev3duder
