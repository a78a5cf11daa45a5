import Ev3duder.Bridge.Release

namespace Ev3duder

open Data

/-! # How the bridge is closed -/

/-- What must not come behind the closing: another state, a client, or a beacon. -/
def SocketEvent.reopens : SocketEvent → Bool
  | .net state => state ≠ .closed
  | .sendto .. => true
  | .accept _ => true
  | _ => false

/-- Behind the first assignment of CLOSED there is nothing of the kind. -/
def ClosingFinal (events : List SocketEvent) : Prop :=
  ∀ before after, events = before ++ .net .closed :: after → ∀ event ∈ after, event.reopens = false

theorem closingFinal_of_open {events : List SocketEvent} (unclosed : .net .closed ∉ events) : ClosingFinal events := by
  intro before after whole
  subst whole
  exact absurd (by simp) unclosed

theorem not_closingFinal {events before after : List SocketEvent} {event : SocketEvent}
    (split : events = before ++ .net .closed :: after) (member : event ∈ after) (reopens : event.reopens = true) :
    ¬ ClosingFinal events := by
  intro closing
  rw [closing before after split event member] at reopens
  cases reopens

theorem ClosingFinal.front {events more : List SocketEvent} (closing : ClosingFinal (events ++ more)) :
    ClosingFinal events := by
  intro before after whole event member
  subst whole
  exact closing before (after ++ more) (by simp) event (List.mem_append_left _ member)

namespace Host

section Closing

variable {host after : Host} {pass : HostPass}

/-- The end of `bridge_mode`, when the loop is left. -/
def ending : Proc Host (Option Err) := do
  if ← Proc.gets going then return none
  else do
    cNetTcpClose
    cNetUdpClose
    return some .unk

theorem bridgeMode_starts {begin : HostStart} (udp : HasUdp begin) (listens : Listens begin) (coming : List HostPass) :
    bridgeMode begin coming fresh = (bridgeLoop coming >>= fun _ => ending) (started begin) := by
  have server := @cNetInitTcpServer_run begin (fresh.announcing begin) rfl
  rw [decide_eq_true listens] at server
  rw [bridgeMode, Proc.bind_returned ((cNetInitUdp_run begin fresh).trans (if_pos udp)), if_neg (by simp),
    Proc.bind_returned server, if_neg (by simp), started_run, if_pos udp]
  rfl

theorem bridgeMode_fails {begin : HostStart} (refused : ¬ (HasUdp begin ∧ Listens begin)) (coming : List HostPass) :
    ∃ after, bridgeMode begin coming fresh = (some (some .io), after) ∧ after.sockets = (started begin).sockets := by
  rw [bridgeMode]
  by_cases udp : HasUdp begin
  · have server := @cNetInitTcpServer_run begin (fresh.announcing begin) rfl
    rw [decide_eq_false fun listens => refused ⟨udp, listens⟩] at server
    refine ⟨(fresh.announcing begin).listening begin, ?_, by rw [started_run, if_pos udp]⟩
    rw [Proc.bind_returned ((cNetInitUdp_run begin fresh).trans (if_pos udp)), if_neg (by simp),
      Proc.bind_returned server, if_pos (by simp)]
    rfl
  · refine ⟨fresh.udpOpened begin, ?_, by rw [started_run, if_neg udp]; rfl⟩
    rw [Proc.bind_returned ((cNetInitUdp_run begin fresh).trans (if_neg udp)), if_pos (by simp)]
    rfl

/-- The loop goes on, and CLOSED was never assigned. -/
structure Unclosed (host : Host) : Prop where
  goes : host.bridge.netConnection ≠ .closed
  never : .net .closed ∉ host.sockets

/-- A beacon that is due in this pass can be sent. -/
def BeaconSent (host : Host) (pass : HostPass) : Prop :=
  host.bridge.netConnection = .notConnected → beaconFails pass.beacon host = false

theorem Quiet.never (quiet : Quiet host after) (never : .net .closed ∉ host.sockets) :
    .net .closed ∉ after.sockets := by
  obtain ⟨events, sockets, known⟩ := quiet
  rw [sockets, List.mem_append]
  intro seen
  rcases seen with before | member
  · exact never before
  · rcases known _ member with same | ⟨_, same⟩
    · cases same
    · cases same

theorem beaconEvents_sent {call : BeaconCall} (sent : beaconFails call host = false) :
    .net .closed ∉ beaconEvents call host := by
  unfold beaconEvents
  split
  · exact List.not_mem_nil
  · rename_i due
    have taken : ¬ call.sent < 0 := by simpa [beaconFails, due] using sent
    rw [if_neg taken]
    simp

theorem unclosed_waited (unclosed : Unclosed host) (sent : beaconFails pass.beacon host = false) :
    Unclosed (host.waited pass) := by
  constructor
  · simp only [waited, beaconed, sent]
    split
    · exact unclosed.goes
    · simp [Bridge.accepted]
  · simp only [waited, beaconed, List.mem_append, not_or]
    refine ⟨⟨unclosed.never, beaconEvents_sent sent⟩, ?_⟩
    split <;> simp

theorem serveClient_open {pass : Pass} {bridge after : Bridge} (connected : bridge.netConnection = .connected)
    (run : serveClient pass bridge = (some (), after)) : after.netConnection ≠ .closed := by
  by_cases leaves : bridge.leaves pass
  · obtain ⟨gone, left, notConnected⟩ := serveClient_leaves connected leaves
    rw [run] at left
    cases left
    rw [notConnected]
    decide
  · rw [serveClient_stays connected leaves run]
    decide

theorem unclosed_bridgePass (unclosed : Unclosed host) (sent : BeaconSent host pass) :
    Proc.Ends (bridgePass pass) host (fun _ => Unclosed) fun last => .net .closed ∉ last.sockets := by
  cases state : host.bridge.netConnection with
  | notConnected =>
      rw [Proc.Ends, bridgePass_waits state]
      exact unclosed_waited unclosed (sent state)
  | connected =>
      obtain ⟨quiet, bridge, result⟩ := onBridge_quiet (serveClient pass.served) host
      rw [Proc.Ends, bridgePass_serves state]
      rcases run : onBridge (serveClient pass.served) host with ⟨_ | _, after⟩
      · rw [run] at quiet
        exact quiet.never unclosed.never
      · rw [run] at quiet bridge result
        exact ⟨serveClient_open state (Prod.ext result.symm bridge.symm), quiet.never unclosed.never⟩
  | closed => exact absurd state unclosed.goes

/-- What is done to the sockets is only ever added to. -/
def Grows (before after : Host) : Prop := ∃ more, after.sockets = before.sockets ++ more

theorem Grows.trans {first second third : Host} (head : Grows first second) (tail : Grows second third) :
    Grows first third := by
  obtain ⟨more, front⟩ := head
  obtain ⟨rest, back⟩ := tail
  exact ⟨more ++ rest, by rw [back, front, List.append_assoc]⟩

theorem grows_bridgePass (pass : HostPass) (host : Host) : Grows host (bridgePass pass host).2 := by
  cases state : host.bridge.netConnection with
  | notConnected =>
      rw [bridgePass_waits state]
      exact ⟨_, List.append_assoc _ _ _⟩
  | connected =>
      obtain ⟨events, sockets, _⟩ := (onBridge_quiet (serveClient pass.served) host).1
      rw [bridgePass_serves state]
      exact ⟨events, sockets⟩
  | closed =>
      rw [bridgePass, state]
      exact ⟨[], (List.append_nil _).symm⟩

theorem grows_bridgeLoop (coming : List HostPass) (host : Host) : Grows host (bridgeLoop coming host).2 := by
  have along : Along going bridgePass (fun _ _ => True) coming host := along_of_forall fun _ _ _ => trivial
  exact passes_invariant (fun between pass _ grown _ => Grows.trans grown (grows_bridgePass pass between))
    ⟨[], (List.append_nil _).symm⟩ along

theorem ending_going (goes : host.bridge.netConnection ≠ .closed) : ending host = (some none, host) := by
  have more : going host = true := by simp [going, Bridge.going, goes]
  simp [ending, Proc.bind_apply, more]

theorem cNetTcpClose_run (host : Host) :
    cNetTcpClose host = (some (), ({ host with bridge := host.bridge.dropped } : Host).tcpClosed) := by
  have dropped : Ev3duder.cNetTcpClose host.bridge = (some (), host.bridge.dropped) := rfl
  have event : host.bridge.dropped.log.drop host.bridge.log.length = [.closed] := List.drop_left
  rw [cNetTcpClose, onBridge, dropped]
  simp only [event]
  rfl

/-- The state in which `bridge_mode` returns. -/
def ended (host : Host) : Host :=
  { host with
    bridge := host.bridge.dropped.shut
    tcpConnectionSocket := 0
    sockets := host.sockets ++ [.shutdown host.tcpConnectionSocket, .net .notConnected] ++
      [.net .closed, .close host.udpSocketDescriptor] }

theorem ending_closed (closed : host.bridge.netConnection = .closed) :
    ending host = (some (some .unk), host.ended) := by
  have stopped : going host = false := by simp [going, Bridge.going, closed]
  rw [ending, Proc.bind_returned (show Proc.gets going host = (some false, host) by rw [Proc.gets_apply, stopped]),
    if_neg (by decide), Proc.bind_returned (cNetTcpClose_run host), Proc.bind_returned (cNetUdpClose_run _)]
  rfl

theorem loop_next {rest : List HostPass} (goes : host.going = true) (run : bridgePass pass host = (some (), after)) :
    (bridgeLoop (pass :: rest) >>= fun _ => ending) host = (bridgeLoop rest >>= fun _ => ending) after := by
  rw [Proc.bind_apply, bridgeLoop, passes_next goes run]
  rfl

theorem loop_stopped {coming : List HostPass} (stopped : host.going = false) :
    (bridgeLoop coming >>= fun _ => ending) host = ending host := by
  have run : bridgeLoop coming host = (some (), host) := by
    cases coming with
    | nil => rfl
    | cons pass rest => exact passes_stopped stopped
  exact Proc.bind_returned run

theorem grows_ending (host : Host) : Grows host (ending host).2 := by
  by_cases closed : host.bridge.netConnection = .closed
  · rw [ending_closed closed]
    exact ⟨_, List.append_assoc _ _ _⟩
  · rw [ending_going closed]
    exact ⟨[], (List.append_nil _).symm⟩

theorem grows_loop (coming : List HostPass) (host : Host) :
    Grows host ((bridgeLoop coming >>= fun _ => ending) host).2 :=
  Proc.bind_keeps (grows_bridgeLoop coming host) fun _ between _ grown => grown.trans (grows_ending between)

theorem waited_failed (fails : beaconFails pass.beacon host = true) : ∃ before, (host.waited pass).sockets =
    before ++ .net .closed :: .close host.udpSocketDescriptor ::
      if pass.accept < 0 then [] else [.accept pass.accept, .net .connected] := by
  simp only [beaconFails, Bool.and_eq_true, Bool.not_eq_true', decide_eq_true_eq] at fails
  refine ⟨host.sockets ++ [.sendto host.udpSocketDescriptor bridgeBeacon.text pass.beacon.sent], ?_⟩
  simp only [waited, beaconed, beaconEvents, fails, if_true, List.append_assoc]
  simp

/-- Closing is final only as long as no beacon is lost. -/
theorem beaconSent_of_closing {rest : List HostPass} (goes : host.going = true)
    (closing : ClosingFinal ((bridgeLoop (pass :: rest) >>= fun _ => ending) host).2.sockets) :
    BeaconSent host pass := by
  intro waits
  cases fails : beaconFails pass.beacon host with
  | false => rfl
  | true =>
      obtain ⟨before, sockets⟩ := waited_failed fails
      rw [loop_next goes (bridgePass_waits waits pass)] at closing
      by_cases refused : pass.accept < 0
      · -- The loop is left, and its last `cNetTcpClose` takes CLOSED back.
        have closed : (host.waited pass).bridge.netConnection = .closed := by
          simp only [waited, beaconed, fails, if_pos refused]
          rfl
        rw [if_pos refused] at sockets
        rw [loop_stopped (by simp [going, Bridge.going, closed]), ending_closed closed] at closing
        simp only [ended, sockets, List.append_assoc, List.cons_append, List.nil_append] at closing
        refine absurd closing (not_closingFinal rfl ?_ (show SocketEvent.reopens (.net .notConnected) = true from rfl))
        exact List.mem_cons_of_mem _ (List.mem_cons_of_mem _ List.mem_cons_self)
      · obtain ⟨more, grown⟩ := grows_loop rest (host.waited pass)
        rw [grown] at closing
        rw [if_neg refused] at sockets
        exact absurd closing.front (not_closingFinal sockets (List.mem_cons_of_mem _ List.mem_cons_self) rfl)

theorem along_of_closing {coming : List HostPass} (unclosed : Unclosed host)
    (closing : ClosingFinal ((bridgeLoop coming >>= fun _ => ending) host).2.sockets) :
    Along going bridgePass BeaconSent coming host := by
  induction coming generalizing host with
  | nil => trivial
  | cons pass rest ih =>
      intro goes
      have sent := beaconSent_of_closing goes closing
      refine ⟨sent, fun after run => ?_⟩
      have ends := unclosed_bridgePass unclosed sent
      rw [Proc.Ends, run] at ends
      rw [loop_next goes run] at closing
      exact ih ends closing

theorem loop_never {coming : List HostPass} (unclosed : Unclosed host)
    (sent : Along going bridgePass BeaconSent coming host) :
    .net .closed ∉ ((bridgeLoop coming >>= fun _ => ending) host).2.sockets := by
  have loop : Proc.Ends (bridgeLoop coming) host (fun _ => Unclosed) fun last => .net .closed ∉ last.sockets :=
    passes_ends (fun _ _ _ unclosed sent => unclosed_bridgePass unclosed sent) unclosed sent
  refine Proc.Ends.always (Proc.ends_bind loop fun _ last unclosed => ?_) fun _ => id
  rw [Proc.Ends, ending_going unclosed.goes]
  exact unclosed.never

/-- The bridge was closed, and that was the end of the loop. -/
def Shut (host : Host) : Prop :=
  host.bridge.netConnection = .closed ∧
    ∃ before fd, host.sockets = before ++ [.net .closed, .close fd] ∧ .net .closed ∉ before

theorem Shut.closing (shut : Shut host) : ClosingFinal host.sockets := by
  obtain ⟨_, before, fd, sockets, never⟩ := shut
  intro front back split event member
  rw [sockets] at split
  rcases List.append_eq_append_iff.mp split with ⟨between, _, same⟩ | ⟨between, rfl, same⟩
  · cases between with
    | nil =>
        cases same
        cases List.mem_singleton.mp member
        rfl
    | cons first rest => cases rest <;> simp at same
  · cases between with
    | nil =>
        cases same
        cases List.mem_singleton.mp member
        rfl
    | cons first rest =>
        cases (List.cons.inj same).1
        exact absurd (List.mem_append_right _ List.mem_cons_self) never

/-- No client comes in the pass in which a beacon is lost. -/
def LosesAlone (host : Host) (pass : HostPass) : Prop :=
  host.bridge.netConnection = .notConnected → beaconFails pass.beacon host = true → pass.accept < 0

theorem losesAlone_of_closing {rest : List HostPass} (goes : host.going = true)
    (closing : ClosingFinal (bridgeLoop (pass :: rest) host).2.sockets) : LosesAlone host pass := by
  intro waits fails
  obtain ⟨before, sockets⟩ := waited_failed fails
  rw [bridgeLoop, passes_next goes (bridgePass_waits waits pass)] at closing
  refine Int.not_le.mp fun taken => ?_
  obtain ⟨more, grown⟩ := grows_bridgeLoop rest (host.waited pass)
  rw [bridgeLoop] at grown
  rw [grown] at closing
  rw [if_neg (Int.not_lt.mpr taken)] at sockets
  exact not_closingFinal sockets (List.mem_cons_of_mem _ List.mem_cons_self) rfl closing.front

theorem shut_waited (unclosed : Unclosed host) (fails : beaconFails pass.beacon host = true)
    (refused : pass.accept < 0) : Shut (host.waited pass) := by
  have due := fails
  simp only [beaconFails, Bool.and_eq_true, Bool.not_eq_true', decide_eq_true_eq] at due
  refine ⟨?_, host.sockets ++ [.sendto host.udpSocketDescriptor bridgeBeacon.text pass.beacon.sent],
    host.udpSocketDescriptor, ?_, ?_⟩
  · simp only [waited, beaconed, fails, if_pos refused]
    rfl
  · simp [waited, beaconed, beaconEvents, due, refused]
  · simp [unclosed.never]

theorem along_stopped {meets : Host → HostPass → Prop} {coming : List HostPass} (stopped : host.going = false) :
    Along going bridgePass meets coming host := by
  cases coming with
  | nil => trivial
  | cons pass rest => exact fun goes => by rw [stopped] at goes; cases goes

theorem losesAlone_along {coming : List HostPass} (unclosed : Unclosed host)
    (closing : ClosingFinal (bridgeLoop coming host).2.sockets) : Along going bridgePass LosesAlone coming host := by
  induction coming generalizing host with
  | nil => trivial
  | cons pass rest ih =>
      intro goes
      have alone := losesAlone_of_closing goes closing
      refine ⟨alone, fun after run => ?_⟩
      by_cases lost : host.bridge.netConnection = .notConnected ∧ beaconFails pass.beacon host = true
      · obtain ⟨waits, fails⟩ := lost
        have shut := shut_waited unclosed fails (alone waits fails)
        rw [bridgePass_waits waits] at run
        cases run
        exact along_stopped (by simp [going, Bridge.going, shut.1])
      · have sent : BeaconSent host pass := fun waits => Bool.eq_false_iff.mpr fun fails => lost ⟨waits, fails⟩
        have ends := unclosed_bridgePass unclosed sent
        rw [Proc.Ends, run] at ends
        rw [bridgeLoop, passes_next goes run] at closing
        exact ih ends closing

theorem closing_of_losesAlone {coming : List HostPass} (unclosed : Unclosed host)
    (alone : Along going bridgePass LosesAlone coming host) : ClosingFinal (bridgeLoop coming host).2.sockets := by
  have ends : Proc.Ends (bridgeLoop coming) host (fun _ last => Unclosed last ∨ Shut last)
      fun last => ClosingFinal last.sockets := by
    refine passes_ends (fun host pass goes either alone => ?_) (Or.inl unclosed) alone
    rcases either with unclosed | shut
    · by_cases lost : host.bridge.netConnection = .notConnected ∧ beaconFails pass.beacon host = true
      · obtain ⟨waits, fails⟩ := lost
        rw [Proc.Ends, bridgePass_waits waits]
        exact Or.inr (shut_waited unclosed fails (alone waits fails))
      · have sent : BeaconSent host pass := fun waits => Bool.eq_false_iff.mpr fun fails => lost ⟨waits, fails⟩
        exact (unclosed_bridgePass unclosed sent).mono (fun _ _ => Or.inl) fun _ => closingFinal_of_open
    · simp [going, Bridge.going, shut.1] at goes
  refine ends.always fun last either => ?_
  rcases either with unclosed | shut
  · exact closingFinal_of_open unclosed.never
  · exact shut.closing

end Closing

/-- In the whole run CLOSED is the last state, nothing is accepted or sent behind it, and `bridge_mode` returns. -/
structure Final (outcome : Option (Option Err) × Host) : Prop where
  closing : ClosingFinal outcome.2.sockets
  returns : .net .closed ∈ outcome.2.sockets → ∃ err, outcome.1 = some (some err)

/-- Every beacon that is due can be sent: the first one, and those of the passes without a client. -/
def BeaconsSent (begin : HostStart) (coming : List HostPass) : Prop :=
  (HasUdp begin → beaconFails begin.beacon (fresh.udpOpened begin) = false) ∧
    (HasUdp begin → Listens begin → Along going bridgePass BeaconSent coming (started begin))

section Starting

variable {begin : HostStart}

theorem started_unclosed (sent : HasUdp begin → beaconFails begin.beacon (fresh.udpOpened begin) = false) :
    .net .closed ∉ (started begin).sockets := by
  rw [started_run]
  by_cases udp : HasUdp begin
  · have silent := beaconEvents_sent (sent udp)
    simp only [if_pos udp, listening, announcing, beaconed, List.mem_append, not_or]
    exact ⟨⟨List.not_mem_nil, silent⟩, by simp⟩
  · rw [if_neg udp]
    exact List.not_mem_nil

theorem started_open (udp : HasUdp begin) : (started begin).bridge.netConnection ≠ .closed := by
  rw [started_run, if_pos udp]
  exact nofun

/-- A first beacon that is lost has closed the bridge before it starts. -/
theorem started_failed (udp : HasUdp begin) (fails : beaconFails begin.beacon (fresh.udpOpened begin) = true) :
    ¬ ClosingFinal (started begin).sockets := by
  have due := fails
  simp only [beaconFails, Bool.and_eq_true, Bool.not_eq_true', decide_eq_true_eq] at due
  have sockets : (started begin).sockets = [.sendto begin.udpSocket bridgeBeacon.text begin.beacon.sent] ++
      .net .closed :: [.close begin.udpSocket, .net .notConnected] := by
    rw [started_run, if_pos udp]
    simp only [listening, announcing, beaconed, beaconEvents, due, if_true]
    rfl
  exact not_closingFinal sockets (List.mem_cons_of_mem _ List.mem_cons_self) rfl

theorem grows_bridgeMode (begin : HostStart) (coming : List HostPass) :
    Grows (started begin) (bridgeMode begin coming fresh).2 := by
  by_cases starts : HasUdp begin ∧ Listens begin
  · rw [bridgeMode_starts starts.1 starts.2]
    exact grows_loop coming _
  · obtain ⟨after, run, sockets⟩ := bridgeMode_fails starts coming
    rw [run]
    exact ⟨[], by rw [sockets, List.append_nil]⟩

end Starting

end Host

/-- Closing is final in exactly those runs in which the bridge is never closed: the first beacon that cannot be sent
sets CLOSED, and something later always takes it back. -/
theorem bridge_closing_iff (begin : HostStart) (coming : List HostPass) :
    Host.Final (Host.bridgeMode begin coming Host.fresh) ↔ Host.BeaconsSent begin coming := by
  constructor
  · intro final
    have first : Host.HasUdp begin → Host.beaconFails begin.beacon (Host.fresh.udpOpened begin) = false := by
      intro udp
      cases fails : Host.beaconFails begin.beacon (Host.fresh.udpOpened begin) with
      | false => rfl
      | true =>
          obtain ⟨more, grown⟩ := Host.grows_bridgeMode begin coming
          have closing := final.closing
          rw [grown] at closing
          exact absurd closing.front (Host.started_failed udp fails)
    refine ⟨first, fun udp listens => ?_⟩
    have closing := final.closing
    rw [Host.bridgeMode_starts udp listens] at closing
    exact Host.along_of_closing ⟨Host.started_open udp, Host.started_unclosed first⟩ closing
  · intro held
    obtain ⟨first, later⟩ := held
    have never : .net .closed ∉ (Host.bridgeMode begin coming Host.fresh).2.sockets := by
      by_cases starts : Host.HasUdp begin ∧ Host.Listens begin
      · obtain ⟨udp, listens⟩ := starts
        rw [Host.bridgeMode_starts udp listens]
        exact Host.loop_never ⟨Host.started_open udp, Host.started_unclosed first⟩ (later udp listens)
      · obtain ⟨after, run, sockets⟩ := Host.bridgeMode_fails starts coming
        rw [run, sockets]
        exact Host.started_unclosed first
    exact ⟨closingFinal_of_open never, fun closed => absurd closed never⟩

/-- Before the last two calls of `bridge_mode` it is one client that reopens a closed bridge: the one that is accepted
in the very pass in which the beacon is lost.  The first beacon has its own: `cNetInitUdp` assigns the state after
it. -/
theorem bridgeLoop_closing_iff {begin : HostStart} (udp : Host.HasUdp begin) (coming : List HostPass) :
    ClosingFinal (Host.bridgeLoop coming (Host.started begin)).2.sockets ↔
      Host.beaconFails begin.beacon (Host.fresh.udpOpened begin) = false ∧
        Along Host.going Host.bridgePass Host.LosesAlone coming (Host.started begin) := by
  constructor
  · intro closing
    cases fails : Host.beaconFails begin.beacon (Host.fresh.udpOpened begin) with
    | true =>
        obtain ⟨more, grown⟩ := Host.grows_bridgeLoop coming (Host.started begin)
        rw [grown] at closing
        exact absurd closing.front (Host.started_failed udp fails)
    | false =>
        exact ⟨rfl, Host.losesAlone_along ⟨Host.started_open udp, Host.started_unclosed fun _ => fails⟩ closing⟩
  · intro held
    obtain ⟨sent, alone⟩ := held
    exact Host.closing_of_losesAlone ⟨Host.started_open udp, Host.started_unclosed fun _ => sent⟩ alone

/-- A first beacon that is lost, and then a client; a beacon that is lost as a client comes; and one that is lost
while nobody comes. -/
theorem bridge_reopens :
    ¬ Host.Final (Host.bridgeMode { beacon := { now := 100, sent := -1 } } [{ accept := 5 }] Host.fresh) ∧
    ¬ Host.Final (Host.bridgeMode {} [{ beacon := { now := 100, sent := -1 }, accept := 5 }] Host.fresh) ∧
    ¬ Host.Final (Host.bridgeMode {} [{ beacon := { now := 100, sent := -1 } }] Host.fresh) := by
  refine ⟨fun final => ?_, fun final => ?_, fun final => ?_⟩
  · have closing := final.closing [.sendto 3 bridgeBeacon.text (-1)]
      [.close 3, .net .notConnected, .accept 5, .net .connected] rfl
    exact absurd (closing (.accept 5) (by decide)) (by decide)
  · have closing := final.closing [.net .notConnected, .sendto 3 bridgeBeacon.text (-1)]
      [.close 3, .accept 5, .net .connected] rfl
    exact absurd (closing (.accept 5) (by decide)) (by decide)
  · have closing := final.closing [.net .notConnected, .sendto 3 bridgeBeacon.text (-1)]
      [.close 3, .shutdown (-1), .net .notConnected, .net .closed, .close 3] rfl
    exact absurd (closing (.net .notConnected) (by decide)) (by decide)

end Ev3duder
