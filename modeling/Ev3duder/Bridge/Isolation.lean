import Ev3duder.Bridge.Replies
import Ev3duder.Bridge.Unlock

namespace Ev3duder

open Data BridgeEvent

/-! # One client's replies are not the next one's

The position in a reply belongs to no connection, and the pump does not ask whether the client is unlocked.
-/

/-- What the current client was sent: nothing until its request was found, and then the answer and the replies that
were delivered since it connected, in order; only the last of them may be incomplete. -/
structure SessionIsolated (log : List BridgeEvent) : Prop where
  silent : .unlocked ∉ sinceAccepted log → outgoingBytes log = []
  order : outgoingBytes log <+: acceptText ++ (repliesDelivered log).flatten

/-- The read side of the pass finds the request of a waiting connection. -/
def Bridge.finds (bridge : Bridge) (pass : Pass) : Prop :=
  pass.readReady = true ∧ ∃ bytes, pass.received = some bytes ∧ bytes ≠ [] ∧
    strstr (bridge.stored 0 (bytes.take 100)).buffered requestText = true

/-- The connection still waits for its request behind the read side of the pass. -/
def Bridge.keepsWaiting (bridge : Bridge) (pass : Pass) : Prop :=
  pass.readReady = true → ∃ bytes, pass.received = some bytes ∧ bytes ≠ [] ∧
    strstr (bridge.stored 0 (bytes.take 100)).buffered requestText = false

/-- A client connects only when no rest of a reply is left; its answer goes out whole; and while it waits for its
request, nothing goes out. -/
structure KeepsApart (bridge : Bridge) (pass : Pass) : Prop where
  settled : bridge.netConnection = .notConnected → pass.accepts = true → bridge.writeLen ≤ 0
  answered : bridge.netConnection = .connected → bridge.tcpRead = .waitOnStart → bridge.finds pass →
    (acceptText.length : Int) ≤ pass.answerTaken
  held : bridge.netConnection = .connected → bridge.tcpRead = .waitOnStart → bridge.keepsWaiting pass →
    pass.writeReady = true → 0 < pass.replyTaken → bridge.writeLen ≤ 0 ∧ pass.reply.res ≤ 0

/-- Before the request: nothing was sent. -/
structure Waiting (bridge : Bridge) : Prop where
  pumped : Pumped [] bridge
  silent : outgoingBytes bridge.log = []
  locked : .unlocked ∉ sinceAccepted bridge.log

/-- After it: the answer was sent. -/
structure Serving (bridge : Bridge) : Prop where
  pumped : Pumped acceptText bridge
  unlocked : .unlocked ∈ sinceAccepted bridge.log

theorem Waiting.isolated {bridge : Bridge} (waiting : Waiting bridge) : SessionIsolated bridge.log :=
  ⟨fun _ => waiting.silent, waiting.silent ▸ List.nil_prefix⟩

theorem Serving.isolated {bridge : Bridge} (serving : Serving bridge) : SessionIsolated bridge.log :=
  ⟨fun locked => absurd serving.unlocked locked, serving.pumped.sent_begins⟩

/-- The invariant of the loop. -/
structure Apart (bridge : Bridge) : Prop where
  isolated : SessionIsolated bridge.log
  state : bridge.netConnection = .connected →
    (bridge.tcpRead = .waitOnStart ∧ Waiting bridge) ∨ (bridge.unlocked = true ∧ Serving bridge)

theorem reading_inert {event : BridgeEvent} (reading : event.reading = true) :
    event ≠ .accepted ∧ event ≠ .unlocked := by
  constructor
  · rintro rfl
    cases reading
  · rintro rfl
    cases reading

theorem Reads.since {before after : Bridge} (reads : Reads before after) :
    .unlocked ∈ sinceAccepted after.log ↔ .unlocked ∈ sinceAccepted before.log := by
  obtain ⟨events, log, reading⟩ := reads.events
  have others : ∀ event ∈ events, event ≠ .accepted := fun event member => (reading_inert (reading event member)).1
  rw [log, sinceAccepted_append others, List.mem_append]
  refine or_iff_left fun member => ?_
  exact (reading_inert (reading _ member)).2 rfl

theorem Waiting.reads {before after : Bridge} (waiting : Waiting before) (reads : Reads before after) :
    Waiting after := by
  obtain ⟨events, log, reading⟩ := reads.events
  refine ⟨waiting.pumped.reads reads, ?_, fun unlocked => waiting.locked (reads.since.mp unlocked)⟩
  rw [log, (quiet_reading before.log reading).1]
  exact waiting.silent

theorem Serving.reads {before after : Bridge} (serving : Serving before) (reads : Reads before after) :
    Serving after :=
  ⟨serving.pumped.reads reads, reads.since.mpr serving.unlocked⟩

section Isolation

variable {pass : Pass} {bridge : Bridge}

theorem since_reply {reply : ReadResult} {len : Int} :
    .unlocked ∈ sinceAccepted (bridge.filled reply len).log ↔ .unlocked ∈ sinceAccepted bridge.log := by
  change _ ∈ sinceAccepted (bridge.log ++ [.reply reply]) ↔ _
  rw [sinceAccepted_snoc (by simp)]
  simp

theorem outgoing_reply (reply : ReadResult) (len : Int) :
    outgoingBytes (bridge.filled reply len).log = outgoingBytes bridge.log := by
  change outgoingBytes (bridge.log ++ [.reply reply]) = _
  rw [outgoingBytes_snoc (by simp)]
  exact List.append_nil _

/-- A reply over which the process dies is sent to nobody. -/
theorem SessionIsolated.filled (isolated : SessionIsolated bridge.log) (reply : ReadResult) (len : Int) :
    SessionIsolated (bridge.filled reply len).log := by
  refine ⟨fun locked => ?_, ?_⟩
  · rw [outgoing_reply]
    exact isolated.silent fun unlocked => locked (since_reply.mpr unlocked)
  · rw [outgoing_reply]
    change _ <+: acceptText ++ (repliesDelivered (bridge.log ++ [.reply reply])).flatten
    rw [repliesDelivered_snoc (by simp), List.flatten_append, ← List.append_assoc]
    exact isolated.order.trans (List.prefix_append _ _)

theorem Serving.apart (serving : Serving bridge) (unlocked : bridge.unlocked = true) : Apart bridge :=
  ⟨serving.isolated, fun _ => Or.inr ⟨unlocked, serving⟩⟩

theorem Waiting.apart (waiting : Waiting bridge) (state : bridge.tcpRead = .waitOnStart) : Apart bridge :=
  ⟨waiting.isolated, fun _ => Or.inl ⟨state, waiting⟩⟩

theorem serving_writeSide (serving : Serving bridge) (connected : bridge.netConnection = .connected)
    (unlocked : bridge.unlocked = true) :
    Proc.Ends (writeSide pass) bridge (fun _ => Apart) fun after => SessionIsolated after.log := by
  obtain ⟨after, run, pumped, _, same⟩ := pumped_writeSide pass serving.pumped connected
  obtain ⟨events, len, pos, wrote, known⟩ := writeSide_writes pass bridge
  have others : ∀ event ∈ events, event ≠ .accepted := by
    intro event member
    obtain ⟨bytes, res, rfl⟩ := known event member
    exact nofun
  have since : .unlocked ∈ sinceAccepted after.log := by
    rw [run] at wrote
    have log : after.log = bridge.log ++ events := congrArg Bridge.log wrote
    rw [log, sinceAccepted_append others]
    exact List.mem_append_left _ serving.unlocked
  rw [Proc.Ends, run]
  exact Serving.apart ⟨pumped, since⟩ (by rw [Bridge.unlocked, same]; exact unlocked)

theorem waiting_writeSide (waiting : Waiting bridge) (connected : bridge.netConnection = .connected)
    (state : bridge.tcpRead = .waitOnStart)
    (held : pass.writeReady = true → 0 < pass.replyTaken → bridge.writeLen ≤ 0) :
    Proc.Ends (writeSide pass) bridge (fun _ => Apart) fun after => SessionIsolated after.log := by
  by_cases busy : pass.writeReady = true ∧ 0 < bridge.writeLen
  · obtain ⟨ready, more⟩ := busy
    have refused : ¬ 0 < pass.replyTaken := fun takes => absurd (held ready takes) (by omega)
    have nothing : (socketWrite pass.replyTaken bridge.writeLen.toNat).toNat = 0 := by
      unfold socketWrite
      split <;> omega
    rw [Proc.Ends, writeSide_sends connected ready more waiting.pumped.inside]
    refine Waiting.apart ⟨pumped_sent waiting.pumped more _, ?_, ?_⟩ state
    · change outgoingBytes (bridge.log ++ [.wrote bridge.owed _]) = []
      rw [outgoingBytes_snoc (by simp), BridgeEvent.outgoing, nothing, List.take_zero, waiting.silent]
      rfl
    · change _ ∉ sinceAccepted (bridge.log ++ [.wrote bridge.owed _])
      rw [sinceAccepted_snoc (by simp)]
      simpa using waiting.locked
  · rw [Proc.Ends, writeSide_idle busy]
    exact waiting.apart state

theorem serving_sides (serving : Serving bridge) (connected : bridge.netConnection = .connected)
    (unlocked : bridge.unlocked = true) :
    Proc.Ends (readSide pass >>= fun goes => if goes then writeSide pass else pure ()) bridge
      (fun _ => Apart) fun after => SessionIsolated after.log := by
  have reads : Reads bridge (readSide pass bridge).2 := by
    rcases readSide_reads connected with reads | ⟨_, state, _⟩
    · exact reads
    · simp [Bridge.unlocked, state] at unlocked
  have began := (Proc.ends_of_after reads).mono (fun _ _ => id) fun after reads => (serving.reads reads).isolated
  refine Proc.ends_bind began fun goes after reads => ?_
  have served := serving.reads reads
  by_cases still : after.netConnection = .connected
  · have kept := (reads.connection still).2.1.trans unlocked
    cases goes with
    | false => exact served.apart kept
    | true => exact serving_writeSide served still kept
  · have gone : Apart after := ⟨served.isolated, fun connected => absurd connected still⟩
    cases goes with
    | false => exact gone
    | true =>
        rw [Proc.Ends, if_pos rfl, writeSide_unconnected still]
        exact gone

theorem Waiting.answered (waiting : Waiting bridge) {taken : Int} (whole : (acceptText.length : Int) ≤ taken)
    (bytes : Bytes) : Serving ((bridge.stored 0 bytes).answered taken) := by
  have stored : Waiting (bridge.stored 0 bytes) := waiting.reads (reads_stored 0 bytes)
  obtain ⟨inside, earlier, current, replies, single, outgoing, owed⟩ := stored.pumped
  have all : socketWrite taken acceptText.length = acceptText.length := by
    unfold socketWrite
    rw [if_neg (by omega)]
    omega
  have log : ((bridge.stored 0 bytes).answered taken).log =
      (bridge.stored 0 bytes).log ++ [.wrote acceptText acceptText.length] ++ [.unlocked] := by
    rw [Bridge.answered, all]
  refine ⟨⟨inside, earlier, current, ?_, single, ?_, owed⟩, ?_⟩
  · rw [log, repliesDelivered_snoc (by simp), repliesDelivered_snoc (by simp), replies]
    simp [BridgeEvent.replied]
  · have none := stored.silent
    rw [outgoing, List.nil_append, List.append_eq_nil_iff] at none
    rw [log, outgoingBytes_snoc (by simp), outgoingBytes_snoc (by simp), stored.silent]
    change [] ++ acceptText.take ((acceptText.length : Int)).toNat ++ [] = acceptText ++ earlier.flatten ++
      current.flatten.take (bridge.stored 0 bytes).writePos.toNat
    rw [none.1, none.2, Int.toNat_natCast, List.take_length]
    simp
  · rw [log, sinceAccepted_snoc (by simp)]
    simp

/-- A pass that returns with the connection still waiting has read nothing, or bytes without the request. -/
theorem keepsWaiting_of_still {goes : Bool} {after : Bridge} (state : bridge.tcpRead = .waitOnStart)
    (connected : bridge.netConnection = .connected) (run : readSide pass bridge = (some goes, after))
    (still : after.netConnection = .connected) (waits : after.tcpRead = .waitOnStart) : bridge.keepsWaiting pass := by
  rcases readSide_start pass state connected with ⟨idle, _⟩ | died | gone | ⟨bytes, _, received, more, ends⟩
  · exact fun ready => absurd (idle.symm.trans ready) (by decide)
  · rw [run] at died
    cases died
  · rw [run] at gone
    cases still.symm.trans gone
  · refine fun _ => ⟨bytes, received, more, ?_⟩
    rw [run, Prod.mk.injEq] at ends
    cases found : strstr (bridge.stored 0 (bytes.take 100)).buffered requestText with
    | false => rfl
    | true =>
        rw [found, if_pos rfl] at ends
        rw [ends.2] at waits
        cases waits

theorem waiting_sides (waiting : Waiting bridge) (connected : bridge.netConnection = .connected)
    (state : bridge.tcpRead = .waitOnStart)
    (whole : bridge.finds pass → (acceptText.length : Int) ≤ pass.answerTaken)
    (held : bridge.keepsWaiting pass → pass.writeReady = true → 0 < pass.replyTaken → bridge.writeLen ≤ 0) :
    Proc.Ends (readSide pass >>= fun goes => if goes then writeSide pass else pure ()) bridge
      (fun _ => Apart) fun after => SessionIsolated after.log := by
  rcases readSide_reads connected with reads | ⟨bytes, _, ready, received, more, found, run⟩
  · rcases run : readSide pass bridge with ⟨_ | goes, after⟩
    · rw [run] at reads
      rw [Proc.Ends, Proc.bind_died run]
      exact (waiting.reads reads).isolated
    · rw [run] at reads
      have waited := waiting.reads reads
      rw [Proc.Ends, Proc.bind_returned run]
      by_cases still : after.netConnection = .connected
      · have kept := (reads.connection still).2.2 state
        have keeps := keepsWaiting_of_still state connected run still kept
        cases goes with
        | false => exact waited.apart kept
        | true => exact waiting_writeSide waited still kept (reads.writeLen ▸ held keeps)
      · have gone : Apart after := ⟨waited.isolated, fun connected => absurd connected still⟩
        cases goes with
        | false => exact gone
        | true =>
            rw [if_pos rfl, writeSide_unconnected still]
            exact gone
  · have taken := whole ⟨ready, bytes, received, more, found⟩
    rw [Proc.Ends, Proc.bind_returned run]
    exact serving_writeSide (waiting.answered taken _) connected (unlocked_length rfl)

theorem Waiting.filled {len : Int} (waiting : Waiting bridge) (pumped : Pumped [] (bridge.filled pass.reply len)) :
    Waiting (bridge.filled pass.reply len) :=
  ⟨pumped, (outgoing_reply _ _).trans waiting.silent, fun unlocked => waiting.locked (since_reply.mp unlocked)⟩

theorem apart_serveClient (apart : Apart bridge) (connected : bridge.netConnection = .connected)
    (keeps : KeepsApart bridge pass) :
    Proc.Ends (serveClient pass) bridge (fun _ => Apart) fun after => SessionIsolated after.log := by
  rcases apart.state connected with ⟨state, waiting⟩ | ⟨unlocked, serving⟩
  · refine Proc.ends_bind ((pumpReply_cases pass bridge).mono (fun _ _ => id) fun after torn =>
      torn.1 ▸ waiting.isolated.filled _ _) fun _ after step => ?_
    have pumps := pumped_pump waiting.pumped step
    rcases step.kept with rfl | ⟨len, rfl, bound⟩
    · exact waiting_sides waiting connected state (keeps.answered connected state) fun waits ready takes =>
        (keeps.held connected state waits ready takes).1
    · exact waiting_sides (waiting.filled pumps) connected state (keeps.answered connected state)
        fun waits ready takes => Int.le_trans bound (keeps.held connected state waits ready takes).2
  · refine Proc.ends_bind ((pumpReply_cases pass bridge).mono (fun _ _ => id) fun after torn =>
      torn.1 ▸ serving.isolated.filled _ _) fun _ after step => ?_
    have pumps := pumped_pump serving.pumped step
    rcases step.kept with rfl | ⟨len, rfl, _⟩
    · exact serving_sides serving connected unlocked
    · exact serving_sides ⟨pumps, since_reply.mpr serving.unlocked⟩ connected unlocked

theorem waiting_accepted (drained : bridge.writeLen ≤ 0) : Waiting bridge.accepted := by
  refine ⟨⟨fun more => absurd drained (Int.not_le.mpr more), [], [], ?_, Nat.zero_le 1, ?_, ?_⟩, ?_, ?_⟩
  · simp [repliesDelivered, Bridge.accepted]
  · simp [outgoingBytes, Bridge.accepted]
  · have none : bridge.writeLen.toNat = 0 := by omega
    simp [Bridge.owed, Bridge.accepted, none, Memory.load]
  · simp [outgoingBytes, Bridge.accepted]
  · simp [Bridge.accepted]

theorem apart_awaitClient (apart : Apart bridge) (waits : bridge.netConnection = .notConnected)
    (keeps : KeepsApart bridge pass) :
    Proc.Ends (awaitClient pass) bridge (fun _ => Apart) fun after => SessionIsolated after.log := by
  rw [Proc.Ends, awaitClient_run]
  cases accepts : pass.accepts with
  | true => exact (waiting_accepted (keeps.settled waits accepts)).apart rfl
  | false =>
      cases pass.beaconFails with
      | true => exact ⟨apart.isolated, fun connected => absurd connected bridge.shut_unconnected⟩
      | false => exact apart

end Isolation

theorem started_apart : Apart Bridge.started :=
  ⟨⟨fun _ => rfl, List.nil_prefix⟩, fun connected => nomatch connected⟩

theorem bridge_sessions_isolated (coming : List Pass)
    (keeps : Along Bridge.going bridgePass KeepsApart coming Bridge.started) :
    SessionIsolated (bridgeLoop coming Bridge.started).2.log := by
  have run : Proc.Ends (bridgeLoop coming) Bridge.started (fun _ => Apart) fun after => SessionIsolated after.log := by
    refine passes_ends ?_ started_apart keeps
    intro bridge pass goes apart keeps
    exact bridgePass_ends goes (fun waits => apart_awaitClient apart waits keeps)
      fun connected => apart_serveClient apart connected keeps
  exact run.always fun _ apart => apart.isolated

/-- While the served client asks, the brick delivers a reply of four bytes. -/
def repliedClient : List Pass :=
  [{ accepts := true }, { readReady := true, received := some firstRequest, reply := .received [2, 0, 5, 6] }]

theorem bridge_sessions_isolated_replied :
    SessionIsolated (bridgeLoop repliedClient Bridge.started).2.log := by
  refine bridge_sessions_isolated repliedClient
    fun _ => ⟨?_, fun after _ => along_of_forall fun bridge pass member => ?_⟩
  · exact ⟨fun _ _ => Int.le_refl 0, nofun, nofun⟩
  · rw [List.mem_singleton] at member
    subst member
    exact ⟨nofun, fun _ _ _ => Int.le_refl 16, fun _ _ _ => nofun⟩

/-- A reply goes to a client that has not asked yet. -/
def earlyReply : List Pass :=
  [{ accepts := true }, { reply := .received [2, 0, 5, 6], writeReady := true, replyTaken := 4 }]

/-- The first client takes two of four bytes and leaves; the next one asks, and gets the other two. -/
def splitReply : List Pass :=
  repliedClient ++ [{ writeReady := true, replyTaken := 2 }, { readReady := true }, { accepts := true },
    { readReady := true, received := some firstRequest, writeReady := true, replyTaken := 4 }]

theorem bridge_mixes_sessions :
    outgoingBytes (bridgeLoop earlyReply Bridge.started).2.log = [2, 0, 5, 6] ∧
      ¬ SessionIsolated (bridgeLoop earlyReply Bridge.started).2.log ∧
      outgoingBytes (bridgeLoop splitReply Bridge.started).2.log = acceptText ++ [5, 6] ∧
      repliesDelivered (bridgeLoop splitReply Bridge.started).2.log = [] ∧
      ¬ SessionIsolated (bridgeLoop splitReply Bridge.started).2.log := by
  have early : outgoingBytes (bridgeLoop earlyReply Bridge.started).2.log = [2, 0, 5, 6] := by decide +kernel
  have asked : .unlocked ∉ sinceAccepted (bridgeLoop earlyReply Bridge.started).2.log := by decide +kernel
  have late : outgoingBytes (bridgeLoop splitReply Bridge.started).2.log = acceptText ++ [5, 6] := by decide +kernel
  have none : repliesDelivered (bridgeLoop splitReply Bridge.started).2.log = [] := by decide +kernel
  refine ⟨early, fun isolated => ?_, late, none, fun isolated => ?_⟩
  · have silent := isolated.silent asked
    rw [early] at silent
    cases silent
  · have order := isolated.order
    rw [late, none] at order
    have short := order.length_le
    simp only [List.flatten_nil, List.append_nil, List.length_append, List.length_cons, List.length_nil] at short
    omega

end Ev3duder
