import Ev3duder.Bridge.History

namespace Ev3duder

open Data BridgeEvent

/-! # From the brick to the client

A reply goes out in as many writes as the socket needs; the next one is not read before.
-/

/-- What the client was sent is `head`, the earlier replies, and the current one as far as it got; the rest of the
current one is still in the buffer. -/
structure Pumped (head : Bytes) (bridge : Bridge) : Prop where
  inside : bridge.Inside
  split : ∃ earlier current, repliesDelivered bridge.log = earlier ++ current ∧ current.length ≤ 1 ∧
    outgoingBytes bridge.log = head ++ earlier.flatten ++ current.flatten.take bridge.writePos.toNat ∧
    bridge.owed = current.flatten.drop bridge.writePos.toNat

/-- Everything that was sent before is whole once nothing is owed. -/
theorem Pumped.drained {head : Bytes} {bridge : Bridge} (pumped : Pumped head bridge) (drained : bridge.writeLen ≤ 0) :
    outgoingBytes bridge.log = head ++ (repliesDelivered bridge.log).flatten := by
  obtain ⟨earlier, current, replies, _, outgoing, owed⟩ := pumped.split
  have none : bridge.owed = [] := by
    apply List.length_eq_zero_iff.mp
    rw [Bridge.owed, Memory.load_length]
    omega
  rw [none] at owed
  have whole : current.flatten.take bridge.writePos.toNat = current.flatten :=
    List.take_of_length_le (List.drop_eq_nil_iff.mp owed.symm)
  rw [outgoing, replies, whole, List.flatten_append, List.append_assoc]

theorem Pumped.sent_begins {head : Bytes} {bridge : Bridge} (pumped : Pumped head bridge) :
    outgoingBytes bridge.log <+: head ++ (repliesDelivered bridge.log).flatten := by
  obtain ⟨earlier, current, replies, _, outgoing, _⟩ := pumped.split
  rw [outgoing, replies, List.flatten_append, ← List.append_assoc]
  exact (List.prefix_append_right_inj _).mpr (List.take_prefix _ _)

theorem quiet_reading (log : List BridgeEvent) {events : List BridgeEvent}
    (reading : ∀ event ∈ events, event.reading = true) :
    outgoingBytes (log ++ events) = outgoingBytes log ∧ repliesDelivered (log ++ events) = repliesDelivered log := by
  induction events generalizing log with
  | nil => simp
  | cons event rest ih =>
      have here := reading event List.mem_cons_self
      have other : event ≠ .accepted := by
        rintro rfl
        cases here
      have silent : event.outgoing = [] ∧ event.replied = [] := by
        cases event with
        | reply => cases here
        | wrote => cases here
        | _ => exact ⟨rfl, rfl⟩
      obtain ⟨sent, replies⟩ := ih (log ++ [event]) fun event member =>
        reading event (List.mem_cons_of_mem _ member)
      rw [List.append_assoc, List.singleton_append] at sent replies
      rw [outgoingBytes_snoc other, silent.1, List.append_nil] at sent
      rw [repliesDelivered_snoc other, silent.2, List.append_nil] at replies
      exact ⟨sent, replies⟩

theorem Pumped.reads {head : Bytes} {before after : Bridge} (pumped : Pumped head before) (reads : Reads before after) :
    Pumped head after := by
  obtain ⟨events, log, reading⟩ := reads.events
  obtain ⟨sent, replies⟩ := quiet_reading before.log reading
  obtain ⟨inside, split⟩ := pumped
  rw [← log] at sent replies
  rw [← sent, ← replies] at split
  rw [Bridge.Inside, ← reads.writeLen, ← reads.writePos] at inside
  rw [Bridge.owed, ← reads.writeBuf, ← reads.writeLen, ← reads.writePos] at split
  exact ⟨inside, split⟩

section Pump

variable {head : Bytes} {pass : Pass} {bridge : Bridge}

/-- A new reply is in the buffer and nothing of it has gone out. -/
theorem pumped_filled {data : Bytes} (pumped : Pumped head bridge) (drained : bridge.writeLen ≤ 0) (more : data ≠ [])
    (whole : leValue (data.take 2) + 2 ≤ data.length)
    (inside : (bridge.filled (.received data) ((leValue (data.take 2) + 2 : Nat) : Int)).Inside) :
    Pumped head (bridge.filled (.received data) ((leValue (data.take 2) + 2 : Nat) : Int)) := by
  refine ⟨inside, repliesDelivered bridge.log, [trimmed data], ?_, Nat.le_refl 1, ?_, ?_⟩
  · change repliesDelivered (bridge.log ++ [.reply (.received data)]) = _
    rw [repliesDelivered_snoc (by simp)]
    simp [BridgeEvent.replied, more]
  · change outgoingBytes (bridge.log ++ [.reply (.received data)]) = _
    rw [outgoingBytes_snoc (by simp), pumped.drained drained]
    simp [BridgeEvent.outgoing, Bridge.filled]
  · have loaded : (bridge.writeBuf.store data).load 0 (leValue (data.take 2) + 2) = trimmed data :=
      Memory.load_store (by omega)
    change (bridge.writeBuf.store data).load 0 (((leValue (data.take 2) + 2 : Nat) : Int)).toNat = _
    rw [Int.toNat_natCast, loaded]
    simp [Bridge.filled]

theorem pumped_silent (pumped : Pumped head bridge) (drained : bridge.writeLen ≤ 0) :
    Pumped head (bridge.filled (.received []) 0) := by
  refine ⟨fun positive => absurd positive (Int.lt_irrefl 0), repliesDelivered bridge.log, [], ?_, Nat.zero_le 1, ?_, ?_⟩
  · change repliesDelivered (bridge.log ++ [.reply (.received [])]) = _
    rw [repliesDelivered_snoc (by simp)]
    rfl
  · change outgoingBytes (bridge.log ++ [.reply (.received [])]) = _
    rw [outgoingBytes_snoc (by simp), pumped.drained drained]
    simp [BridgeEvent.outgoing]
  · rfl

theorem pumped_pump {after : Bridge} (pumped : Pumped head bridge) (step : PumpStep pass bridge after) :
    Pumped head after := by
  have inside := inside_pump pumped.inside step
  cases step with
  | busy => exact pumped
  | silent drained => exact pumped_silent pumped drained
  | fresh drained _ more _ whole => exact pumped_filled pumped drained more whole inside

theorem pumped_sent (pumped : Pumped head bridge) (more : 0 < bridge.writeLen) (taken : Int) :
    Pumped head (bridge.sent (socketWrite taken bridge.writeLen.toNat)) := by
  obtain ⟨inside, earlier, current, replies, single, outgoing, owed⟩ := pumped
  obtain ⟨front, back⟩ := inside more
  obtain ⟨low, high⟩ := socketWrite_bounds taken bridge.writeLen.toNat
  generalize socketWrite taken bridge.writeLen.toNat = res at low high
  have moved : (bridge.writePos + max res 0).toNat = bridge.writePos.toNat + res.toNat := by omega
  refine ⟨inside_sent inside more res, earlier, current, ?_, single, ?_, ?_⟩
  · change repliesDelivered (bridge.log ++ [.wrote bridge.owed res]) = _
    rw [repliesDelivered_snoc (by simp), replies]
    simp [BridgeEvent.replied]
  · change outgoingBytes (bridge.log ++ [.wrote bridge.owed res]) = _
    rw [outgoingBytes_snoc (by simp), outgoing, BridgeEvent.outgoing, owed]
    simp only [Bridge.sent, moved, List.take_add, List.append_assoc]
  · have left : (bridge.writeLen - max res 0).toNat = bridge.writeLen.toNat - res.toNat := by omega
    have whole : bridge.writeLen.toNat = res.toNat + (bridge.writeLen.toNat - res.toNat) := by omega
    rw [Bridge.owed, whole, Memory.load_add] at owed
    have rest := congrArg (List.drop res.toNat) owed
    rw [List.drop_left' (Memory.load_length ..), List.drop_drop] at rest
    simpa only [Bridge.owed, Bridge.sent, moved, left] using rest

theorem pumped_writeSide (pass : Pass) (pumped : Pumped head bridge) (connected : bridge.netConnection = .connected) :
    ∃ after, writeSide pass bridge = (some (), after) ∧ Pumped head after ∧ after.netConnection = .connected ∧
      after.tcpRead = bridge.tcpRead := by
  by_cases busy : pass.writeReady = true ∧ 0 < bridge.writeLen
  · obtain ⟨ready, more⟩ := busy
    exact ⟨_, writeSide_sends connected ready more pumped.inside, pumped_sent pumped more _, connected, rfl⟩
  · exact ⟨bridge, writeSide_idle busy, pumped, connected, rfl⟩

end Pump

/-- The pass of an unlocked connection behind the pump: the client may send, may leave, and may take what is owed. -/
theorem pumped_sides {head : Bytes} {pass : Pass} {bridge : Bridge} (pumped : Pumped head bridge)
    (connected : bridge.netConnection = .connected) (unlocked : bridge.unlocked = true) :
    Proc.Ends (readSide pass >>= fun goes => if goes then writeSide pass else pure ()) bridge
      (fun _ after => Pumped head after ∧ (after.netConnection = .connected → after.unlocked = true))
      (Pumped head) := by
  have reads : Reads bridge (readSide pass bridge).2 := by
    rcases readSide_reads connected with reads | ⟨_, state, _⟩
    · exact reads
    · simp [Bridge.unlocked, state] at unlocked
  have began := (Proc.ends_of_after reads).mono (fun _ _ => id) fun after reads => pumped.reads reads
  refine Proc.ends_bind began fun goes after reads => ?_
  have kept : after.netConnection = .connected → after.unlocked = true := fun still =>
    (reads.connection still).2.1.trans unlocked
  cases goes with
  | false => exact ⟨pumped.reads reads, kept⟩
  | true =>
      by_cases still : after.netConnection = .connected
      · obtain ⟨final, run, pumps, _, same⟩ := pumped_writeSide pass (pumped.reads reads) still
        have ends : writeSide pass after = (some (), final) := run
        simp only [Proc.Ends, if_true, ends]
        exact ⟨pumps, fun _ => by rw [Bridge.unlocked, same]; exact kept still⟩
      · have ends : writeSide pass after = (some (), after) := writeSide_unconnected still
        simp only [Proc.Ends, if_true, ends]
        exact ⟨pumped.reads reads, kept⟩

theorem pumped_serveClient {head : Bytes} {pass : Pass} {bridge : Bridge} (pumped : Pumped head bridge)
    (connected : bridge.netConnection = .connected) (unlocked : bridge.unlocked = true)
    (whole : WholeReply pass.reply) :
    Proc.Ends (serveClient pass) bridge
      (fun _ after => Pumped head after ∧ (after.netConnection = .connected → after.unlocked = true))
      (Pumped head) := by
  refine Proc.ends_bind ((pumpReply_cases pass bridge).mono (fun _ _ => id) fun _ torn => absurd whole torn.2)
    fun _ after step => ?_
  have still : after.unlocked = true := by rw [Bridge.unlocked, step.tcpRead]; exact unlocked
  exact pumped_sides (pumped_pump pumped step) (step.connection.trans connected) still

/-- No client connects, and what the brick sends begins with whole frames. -/
def ServesOne (pass : Pass) : Prop := pass.accepts = false ∧ WholeReply pass.reply

/-- The bridge with an unlocked connection, nothing owed, and the log still to be written. -/
structure FreshSession (bridge : Bridge) : Prop where
  connected : bridge.netConnection = .connected
  unlocked : bridge.unlocked = true
  drained : bridge.writeLen = 0
  record : bridge.log = []

theorem FreshSession.pumped {bridge : Bridge} (fresh : FreshSession bridge) : Pumped [] bridge := by
  refine ⟨fun more => absurd fresh.drained (by omega), [], [], ?_, Nat.zero_le 1, ?_, ?_⟩
  · rw [fresh.record]
    rfl
  · rw [fresh.record]
    simp [outgoingBytes, sinceAccepted]
  · rw [Bridge.owed, fresh.drained]
    simp [Memory.load]

theorem bridge_pumps_replies {bridge : Bridge} (fresh : FreshSession bridge) (coming : List Pass)
    (serves : ∀ pass ∈ coming, ServesOne pass) : Pumped [] (bridgeLoop coming bridge).2 := by
  have along : Along Bridge.going bridgePass (fun _ pass => ServesOne pass) coming bridge :=
    along_of_forall fun _ pass member => serves pass member
  have run : Proc.Ends (bridgeLoop coming) bridge
      (fun _ after => Pumped [] after ∧ (after.netConnection = .connected → after.unlocked = true)) (Pumped []) := by
    refine passes_ends ?_ ⟨fresh.pumped, fun _ => fresh.unlocked⟩ along
    rintro bridge pass goes ⟨pumped, unlocked⟩ ⟨alone, whole⟩
    refine bridgePass_ends goes (fun _ => ?_) fun connected => ?_
    · rcases awaitClient_alone alone with waits | shuts
      · rw [Proc.Ends, waits]
        exact ⟨pumped, unlocked⟩
      · rw [Proc.Ends, shuts]
        exact ⟨⟨pumped.inside, pumped.split⟩, fun connected => absurd connected bridge.shut_unconnected⟩
    · exact pumped_serveClient pumped connected (unlocked connected) whole
  exact run.always fun _ => And.left

/-- A reply of four bytes that goes out in two writes with a failing one between them. -/
theorem bridge_pumps_replies_pieces :
    Pumped [] (bridgeLoop
      [{ reply := .received [2, 0, 5, 6, 9], writeReady := true, replyTaken := 3 },
        { writeReady := true, replyTaken := -1 }, { writeReady := true, replyTaken := 30 }]
      { Bridge.started with netConnection := .connected, tcpRead := .waitOnLength }).2 := by
  refine bridge_pumps_replies ⟨rfl, rfl, rfl, rfl⟩ _ fun pass member => ?_
  simp only [List.mem_cons, List.not_mem_nil, or_false] at member
  rcases member with rfl | rfl | rfl
  · exact ⟨rfl, Or.inr (by decide)⟩
  · exact ⟨rfl, Or.inl rfl⟩
  · exact ⟨rfl, Or.inl rfl⟩

end Ev3duder
