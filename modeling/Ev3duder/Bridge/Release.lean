import Ev3duder.Bridge.Descriptors
import Ev3duder.Bridge.Resilience

namespace Ev3duder

open Data BridgeEvent

/-! # How a session ends, and what becomes of its descriptor -/

/-- What `read` returns for a count. -/
def Pass.dataRead (pass : Pass) (count : Nat) : Int :=
  match pass.received with
  | none => -1
  | some bytes => (bytes.take count).length

/-- The bytes a read of the body brings go into the buffer. -/
def Bridge.takesBody (bridge : Bridge) (pass : Pass) : Prop :=
  bridge.tcpTotalLength ≤ UInt32.ofNat (bridgeBufSize - 1) ∧
    ∀ bytes, pass.received = some bytes →
      1 + bridge.tcpReadBufPointer.toNat + (bytes.take bridge.tcpRestLen.toNat).length ≤ bridgeBufSize

/-- The read side gives the client up: at the end of the stream, on a length that comes in part or not at all, and
when the brick does not take the packet that this read completes. -/
def Bridge.givesUp (bridge : Bridge) (pass : Pass) : Prop :=
  match bridge.tcpRead with
  | .idle => False
  | .waitOnStart => pass.received = some []
  | .waitOnLength => pass.dataRead 2 < 2
  | .waitOnOnlyChunk => bridge.takesBody pass ∧
      (pass.dataRead bridge.tcpRestLen.toNat = 0 ∨
        (bridge.tcpRestLen = UInt32.ofInt (pass.dataRead bridge.tcpRestLen.toNat) ∧
          0 < bridge.tcpTotalLength.toInt32.toInt ∧
          pass.packetTaken (bridge.tcpTotalLength.toInt32.toInt + 1).toNat <
            bridge.tcpTotalLength.toInt32.toInt + 1))

/-- A pass leaves the connected state: it comes to read, and gives the client up. -/
def Bridge.leaves (bridge : Bridge) (pass : Pass) : Prop :=
  pass.readReady = true ∧ (bridge.writeLen ≤ 0 → WholeReply pass.reply) ∧ bridge.givesUp pass

section Leaving

variable {pass : Pass} {bridge after : Bridge} {result : Option UInt32}

theorem dataRead_socket {pointer : UInt32} {count : Nat} {dataRead : Int}
    (call : readSocket pass.received pointer count bridge = (some dataRead, after)) :
    pass.dataRead count = dataRead ∧ after.netConnection = bridge.netConnection ∧
      ∀ bytes, pass.received = some bytes → 1 + pointer.toNat + (bytes.take count).length ≤ bridgeBufSize := by
  cases received : pass.received with
  | none =>
      rw [received] at call
      cases call
      exact ⟨by rw [Pass.dataRead, received], rfl, nofun⟩
  | some bytes =>
      rw [received, readSocket_run] at call
      simp only at call
      split at call
      · cases call
      · cases call
        refine ⟨by rw [Pass.dataRead, received], rfl, fun other same => ?_⟩
        cases same
        omega

/-- A read of the body that returns has stayed inside the buffer. -/
theorem takesBody_returned {value : UInt32} (state : bridge.tcpRead = .waitOnOnlyChunk)
    (call : cNetReadTcp pass (UInt32.ofNat (bridgeBufSize - 1)) bridge = (some value, after)) :
    bridge.takesBody pass := by
  rw [cNetReadTcp, state] at call
  simp only [readChunk] at call
  split at call
  · cases call
  · rename_i small
    obtain ⟨dataRead, read, socket, _⟩ := Proc.bind_inversion call
    exact ⟨UInt32.not_lt.mp small, (dataRead_socket socket).2.2⟩

/-- A packet that is not taken by the brick. -/
def Pass.refuses (pass : Pass) (value : UInt32) : Prop :=
  0 < value.toInt32.toInt ∧ pass.packetTaken (value.toInt32.toInt + 1).toNat < value.toInt32.toInt + 1

theorem refuses_nothing (pass : Pass) : ¬ pass.refuses 0 := fun refused => absurd refused.1 (by decide)

/-- The client is given up by the read itself or by a packet that is refused after it. -/
theorem netRead_connection {value : UInt32} (connected : bridge.netConnection = .connected)
    (call : cNetReadTcp pass (UInt32.ofNat (bridgeBufSize - 1)) bridge = (some value, after)) :
    (bridge.givesUp pass ↔ after.netConnection = .notConnected ∨ pass.refuses value) ∧
      (after.netConnection = .connected ∨ after.netConnection = .notConnected) := by
  have read : NetRead pass bridge (some value) after := by
    have cases : NetRead pass bridge _ _ := cNetReadTcp_cases connected
    rwa [call] at cases
  cases read with
  | idle state => simp [Bridge.givesUp, state, connected, refuses_nothing]
  | startEnded state ended => simp [Bridge.givesUp, state, ended, Bridge.dropped]
  | startFound state other more =>
      simp [Bridge.givesUp, state, other, more, connected, refuses_nothing, Bridge.answered, Bridge.stored]
  | startMissed state other more =>
      simp [Bridge.givesUp, state, other, more, connected, refuses_nothing, Bridge.stored]
  | lengthFailed state failed => simp [Bridge.givesUp, state, Pass.dataRead, failed, Bridge.dropped]
  | lengthShort state other short =>
      simp [Bridge.givesUp, state, Pass.dataRead, other, Bridge.dropped]
      omega
  | length state other complete =>
      simp [Bridge.givesUp, state, Pass.dataRead, other, connected, refuses_nothing, Bridge.announced, Bridge.stored]
      omega
  | chunkEnded state other ended =>
      simp [Bridge.givesUp, state, Pass.dataRead, other, ended, Bridge.dropped, takesBody_returned state call]
  | chunkDone state small socket more complete =>
      obtain ⟨dataRead, connection, _⟩ := dataRead_socket socket
      have gives : bridge.givesUp pass ↔ pass.refuses bridge.tcpTotalLength := by
        rw [Bridge.givesUp, state]
        simp only [dataRead]
        exact ⟨fun gives => (gives.2.resolve_left more).2,
          fun refused => ⟨takesBody_returned state call, Or.inr ⟨complete, refused⟩⟩⟩
      simp [gives, Bridge.advanced, connection, connected]
  | chunkPart state small socket more partly =>
      obtain ⟨dataRead, connection, _⟩ := dataRead_socket socket
      simp [Bridge.givesUp, state, dataRead, more, partly, Bridge.advanced, connection, connected, refuses_nothing]

/-- A read that does not return gives nobody up. -/
theorem givesUp_returns (connected : bridge.netConnection = .connected) (gives : bridge.givesUp pass) :
    ∃ value after, cNetReadTcp pass (UInt32.ofNat (bridgeBufSize - 1)) bridge = (some value, after) := by
  rcases call : cNetReadTcp pass (UInt32.ofNat (bridgeBufSize - 1)) bridge with ⟨_ | value, after⟩
  · have read : NetRead pass bridge none after := by
      have cases : NetRead pass bridge _ _ := cNetReadTcp_cases connected
      rwa [call] at cases
    cases read with
    | startFailed state failed => simp [Bridge.givesUp, state, failed] at gives
    | chunkTooLarge state large =>
        rw [Bridge.givesUp, state] at gives
        exact absurd gives.1.1 (UInt32.not_le.mpr large)
    | chunkOutside state other outside =>
        rw [Bridge.givesUp, state] at gives
        exact absurd (gives.1.2 _ other) (Nat.not_le.mpr outside)
  · exact ⟨value, after, rfl⟩

theorem handOver_connection (pass : Pass) {value : UInt32} {bridge : Bridge} :
    ∃ more after, handOver pass value.toInt32.toInt bridge = (some more, after) ∧
      (pass.refuses value → after.netConnection = .notConnected) ∧
      (¬ pass.refuses value → after.netConnection = bridge.netConnection) := by
  rw [handOver_run]
  by_cases some : 0 < value.toInt32.toInt
  · by_cases refused : pass.packetTaken (value.toInt32.toInt + 1).toNat < value.toInt32.toInt + 1
    · exact ⟨false, _, by rw [if_pos some, if_pos refused], fun _ => rfl, fun taken => absurd ⟨some, refused⟩ taken⟩
    · exact ⟨true, bridge.handed pass value.toInt32.toInt, by rw [if_pos some, if_neg refused],
        fun refuses => absurd refuses.2 refused, fun _ => rfl⟩
  · exact ⟨true, _, by rw [if_neg some], fun refuses => absurd refuses.1 some, fun _ => rfl⟩

theorem givesUp_same (same : SameReader bridge after) : after.givesUp pass ↔ bridge.givesUp pass := by
  simp only [Bridge.givesUp, Bridge.takesBody, same.tcpRead, same.total, same.pointer, same.restLen]

theorem readSide_gives_up (connected : bridge.netConnection = .connected) (ready : pass.readReady = true)
    (gives : bridge.givesUp pass) :
    ∃ more after, readSide pass bridge = (some more, after) ∧ after.netConnection = .notConnected := by
  obtain ⟨value, read, call⟩ := givesUp_returns connected gives
  obtain ⟨gone, _⟩ := netRead_connection connected call
  obtain ⟨more, after, run, refused, taken⟩ := @handOver_connection pass value read
  refine ⟨more, after, (readSide_returned ready call).trans run, ?_⟩
  by_cases refuses : pass.refuses value
  · exact refused refuses
  · exact (taken refuses).trans ((gone.mp gives).resolve_right refuses)

theorem readSide_keeps (connected : bridge.netConnection = .connected)
    (keeps : ¬ (pass.readReady = true ∧ bridge.givesUp pass)) {more : Bool}
    (run : readSide pass bridge = (some more, after)) : after.netConnection = .connected := by
  cases ready : pass.readReady with
  | false =>
      rw [readSide_idle ready] at run
      cases run
      exact connected
  | true =>
      rcases call : cNetReadTcp pass (UInt32.ofNat (bridgeBufSize - 1)) bridge with ⟨_ | value, read⟩
      · rw [readSide_died ready call] at run
        cases run
      · obtain ⟨gone, either⟩ := netRead_connection connected call
        have stays := fun lost => keeps ⟨ready, gone.mpr lost⟩
        obtain ⟨_, _, handed, _, taken⟩ := @handOver_connection pass value read
        rw [readSide_returned ready call, handed] at run
        cases run
        exact (taken fun refuses => stays (Or.inr refuses)).trans (either.resolve_right fun lost => stays (Or.inl lost))

theorem serveClient_leaves (connected : bridge.netConnection = .connected) (leaves : bridge.leaves pass) :
    ∃ after, serveClient pass bridge = (some (), after) ∧ after.netConnection = .notConnected := by
  obtain ⟨ready, whole, gives⟩ := leaves
  obtain ⟨pumped, pump⟩ := (pumpReply_survives pass bridge).mpr whole
  have same := (pumpReply_step pump).sameReader
  obtain ⟨more, read, run, gone⟩ := readSide_gives_up (same.connection.trans connected) ready
    ((givesUp_same same).mpr gives)
  refine ⟨read, ?_, gone⟩
  rw [serveClient, Proc.bind_returned pump, Proc.bind_returned run]
  cases more with
  | false => rfl
  | true =>
      rw [if_pos rfl]
      exact writeSide_unconnected (by rw [gone]; decide)

theorem serveClient_stays (connected : bridge.netConnection = .connected) (stays : ¬ bridge.leaves pass)
    (run : serveClient pass bridge = (some (), after)) : after.netConnection = .connected := by
  rw [serveClient] at run
  obtain ⟨_, pumped, pump, run⟩ := Proc.bind_inversion run
  have step := pumpReply_step pump
  obtain ⟨more, read, reading, run⟩ := Proc.bind_inversion run
  have kept := readSide_keeps (step.sameReader.connection.trans connected)
    (fun lost => stays ⟨lost.1, step.whole, (givesUp_same step.sameReader).mp lost.2⟩) reading
  cases more with
  | false =>
      cases run
      exact kept
  | true =>
      rw [if_pos rfl] at run
      have same := sameReader_writeSide pass read
      rw [run] at same
      exact same.connection.trans kept

end Leaving

/-- The descriptors that `accept` returned and that no `close` has released since. -/
def clientsAfter (clients : List Int) : SocketEvent → List Int
  | .accept fd => fd :: clients
  | .close fd => clients.erase fd
  | _ => clients

def openClients (events : List SocketEvent) : List Int := events.foldl clientsAfter []

namespace Host

/-- After the pass at most one client's descriptor is open, and a pass that leaves the connected state has released it
exactly once. -/
def Releases (host : Host) (pass : HostPass) : Prop :=
  ∀ after, bridgePass pass host = (some (), after) →
    (openClients after.sockets).length ≤ 1 ∧
      (host.bridge.netConnection = .connected → after.bridge.netConnection ≠ .connected →
        (after.sockets.drop host.sockets.length).count (.close host.tcpConnectionSocket) = 1)

/-- No pass gives up its client. -/
def KeepsClient (host : Host) (pass : HostPass) : Prop :=
  host.bridge.netConnection = .connected → ¬ host.bridge.leaves pass.served

/-- The descriptor of a client is open only while there is one. -/
def OneClient (host : Host) : Prop :=
  (openClients host.sockets).length ≤ if host.bridge.netConnection = .connected then 1 else 0

section Clients

variable {host after : Host} {pass : HostPass}

theorem openClients_quiet (quiet : Quiet host after) : openClients after.sockets = openClients host.sockets := by
  obtain ⟨events, sockets, known⟩ := quiet
  rw [sockets, openClients, openClients, List.foldl_append]
  generalize host.sockets.foldl clientsAfter [] = clients
  clear sockets
  induction events with
  | nil => rfl
  | cons event events ih =>
      rw [List.foldl_cons]
      rcases known event List.mem_cons_self with rfl | ⟨fd, rfl⟩
      · exact ih fun other member => known other (List.mem_cons_of_mem _ member)
      · exact ih fun other member => known other (List.mem_cons_of_mem _ member)

theorem quiet_releases (quiet : Quiet host after) (fd : Int) :
    (after.sockets.drop host.sockets.length).count (.close fd) = 0 := by
  obtain ⟨events, sockets, known⟩ := quiet
  rw [sockets, List.drop_left, List.count_eq_zero]
  intro member
  rcases known _ member with same | ⟨_, same⟩
  · cases same
  · cases same

theorem beaconEvents_clients (call : BeaconCall) (host : Host) :
    (beaconEvents call host).foldl clientsAfter [] = [] := by
  unfold beaconEvents
  split
  · rfl
  · split <;> rfl

theorem waited_clients (none : openClients host.sockets = []) :
    openClients (host.waited pass).sockets = if pass.accept < 0 then [] else [pass.accept] := by
  rw [openClients] at none
  simp only [waited, beaconed, openClients, List.foldl_append, none, beaconEvents_clients]
  split <;> rfl

theorem OneClient.none (one : OneClient host) (waits : host.bridge.netConnection ≠ .connected) :
    openClients host.sockets = [] := by
  rw [OneClient, if_neg waits] at one
  exact List.length_eq_zero_iff.mp (Nat.le_zero.mp one)

theorem OneClient.bound (one : OneClient host) : (openClients host.sockets).length ≤ 1 := by
  refine Nat.le_trans one ?_
  split <;> decide

theorem oneClient_waited (one : OneClient host) (waits : host.bridge.netConnection = .notConnected) (pass : HostPass) :
    OneClient (host.waited pass) := by
  rw [OneClient, waited_clients (one.none (by rw [waits]; decide))]
  by_cases refused : pass.accept < 0
  · rw [if_pos refused]
    exact Nat.zero_le _
  · have connected : (host.waited pass).bridge.netConnection = .connected := by
      simp only [waited, if_neg refused]
      rfl
    rw [if_neg refused, if_pos connected]
    exact Nat.le_refl 1

/-- A pass that keeps its client keeps its descriptor as well, the only one. -/
theorem oneClient_bridgePass (one : OneClient host) (keeps : KeepsClient host pass)
    (run : bridgePass pass host = (some (), after)) :
    OneClient after ∧ (host.bridge.netConnection = .connected → after.bridge.netConnection = .connected) := by
  cases state : host.bridge.netConnection with
  | notConnected =>
      rw [bridgePass_waits state] at run
      cases run
      exact ⟨oneClient_waited one state pass, fun other => by cases other⟩
  | connected =>
      obtain ⟨quiet, bridge, result⟩ := onBridge_quiet (serveClient pass.served) host
      rw [bridgePass_serves state] at run
      rw [run] at quiet bridge result
      have served : serveClient pass.served host.bridge = (some (), after.bridge) := Prod.ext result.symm bridge.symm
      have connected := serveClient_stays state (keeps state) served
      refine ⟨?_, fun _ => connected⟩
      rw [OneClient, openClients_quiet quiet, if_pos connected]
      exact one.bound
  | closed =>
      rw [bridgePass, state] at run
      cases run
      exact ⟨one, fun other => by cases other⟩

theorem releases_iff (one : OneClient host) : Releases host pass ↔ KeepsClient host pass := by
  constructor
  · intro releases connected leaves
    obtain ⟨after, run, gone⟩ := serveClient_leaves connected leaves
    obtain ⟨quiet, bridge, result⟩ := onBridge_quiet (serveClient pass.served) host
    rw [run] at bridge result
    have pass := bridgePass_serves connected pass
    have released := (releases _ (pass.trans (Prod.ext result rfl))).2 connected (by rw [bridge, gone]; decide)
    rw [quiet_releases quiet] at released
    cases released
  · intro keeps after run
    obtain ⟨one, stays⟩ := oneClient_bridgePass one keeps run
    exact ⟨one.bound, fun connected gone => absurd (stays connected) gone⟩

end Clients

theorem started_oneClient (begin : HostStart) : OneClient (started begin) := by
  have silent : openClients (started begin).sockets = [] := by
    rw [started_run]
    by_cases udp : HasUdp begin
    · simp only [if_pos udp, listening, announcing, beaconed, openClients, List.foldl_append]
      exact congrArg (fun clients => [SocketEvent.net .notConnected].foldl clientsAfter clients)
        (beaconEvents_clients begin.beacon (fresh.udpOpened begin))
    · rw [if_neg udp]
      rfl
  rw [OneClient, silent]
  exact Nat.zero_le _

end Host

/-- A descriptor of a client is released only by the end of the process: the loop keeps to one of them exactly as long
as it never gives a client up. -/
theorem bridge_releases_iff (begin : HostStart) (coming : List HostPass) :
    Along Host.going Host.bridgePass Host.Releases coming (Host.started begin) ↔
      Along Host.going Host.bridgePass Host.KeepsClient coming (Host.started begin) :=
  along_iff (fun _ _ _ one => Host.releases_iff one)
    (fun _ _ _ _ one keeps run => (Host.oneClient_bridgePass one keeps run).1) (Host.started_oneClient begin)

/-- A client that goes away, and a second one: two descriptors are open, and neither was closed. -/
theorem bridge_leaks :
    ¬ Along Host.going Host.bridgePass Host.Releases
        [{ accept := 5 }, { served := { readReady := true, received := some [] } }, { accept := 6 }]
        (Host.started {}) ∧
      openClients (Host.bridgeLoop [{ accept := 5 }, { served := { readReady := true, received := some [] } },
        { accept := 6 }] (Host.started {})).2.sockets = [6, 5] := by
  constructor
  · intro along
    have served := ((along rfl).2 _ rfl rfl).1 _ rfl
    exact absurd (served.2 rfl (by decide)) (by decide)
  · rfl

end Ev3duder
