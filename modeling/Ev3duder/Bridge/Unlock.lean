import Ev3duder.Bridge.History

namespace Ev3duder

open Data BridgeEvent

/-! # Who unlocks the bridge

The request is searched for in the receive buffer, behind the bytes just read as well as in them.
-/

/-- Each time the request was found, the connection had delivered it. -/
def Earned (log : List BridgeEvent) : Prop :=
  ∀ before after, log = before ++ .unlocked :: after → requestText <:+: delivered before

structure UnlockEarned (bridge : Bridge) : Prop where
  log : Earned bridge.log
  state : bridge.netConnection = .connected → bridge.unlocked = true → requestText <:+: delivered bridge.log

theorem earned_nil : Earned [] := by
  intro before after split
  cases before <;> simp at split

theorem earned_snoc {log : List BridgeEvent} {event : BridgeEvent} :
    Earned (log ++ [event]) ↔ Earned log ∧ (event = .unlocked → requestText <:+: delivered log) := by
  constructor
  · intro earned
    refine ⟨fun before after split => earned before (after ++ [event]) (by simp [split]), ?_⟩
    rintro rfl
    exact earned log [] rfl
  · rintro ⟨earned, last⟩ before after split
    rcases List.eq_nil_or_concat after with rfl | ⟨front, final, rfl⟩
    · obtain ⟨rfl, same⟩ := List.append_inj' split rfl
      exact last (List.singleton_inj.mp same)
    · have moved : log ++ [event] = (before ++ .unlocked :: front) ++ [final] := by simpa using split
      obtain ⟨rfl, _⟩ := List.append_inj' moved rfl
      exact earned before front rfl

/-- Between the two no connection begins and none is unlocked. -/
structure Carries (before after : Bridge) : Prop where
  events : ∃ events, after.log = before.log ++ events ∧ ∀ event ∈ events, event ≠ .accepted ∧ event ≠ .unlocked
  connection : after.netConnection = .connected →
    before.netConnection = .connected ∧ after.unlocked = before.unlocked

theorem Reads.carries {before after : Bridge} (reads : Reads before after) : Carries before after := by
  obtain ⟨events, log, reading⟩ := reads.events
  refine ⟨⟨events, log, fun event member => ?_⟩, fun connected =>
    ⟨(reads.connection connected).1, (reads.connection connected).2.1⟩⟩
  have known := reading event member
  constructor
  · rintro rfl
    cases known
  · rintro rfl
    cases known

theorem earned_append {log events : List BridgeEvent} (earned : Earned log)
    (inert : ∀ event ∈ events, event ≠ .accepted ∧ event ≠ .unlocked) :
    Earned (log ++ events) ∧ delivered log <+: delivered (log ++ events) := by
  induction events generalizing log with
  | nil => simpa using earned
  | cons event rest ih =>
      obtain ⟨notAccepted, notUnlocked⟩ := inert event List.mem_cons_self
      have first : Earned (log ++ [event]) := earned_snoc.mpr ⟨earned, fun unlocked => absurd unlocked notUnlocked⟩
      obtain ⟨known, grows⟩ := ih first fun event member => inert event (List.mem_cons_of_mem _ member)
      rw [List.append_assoc, List.singleton_append] at known grows
      rw [delivered_snoc notAccepted] at grows
      exact ⟨known, (List.prefix_append _ _).trans grows⟩

theorem UnlockEarned.carried {before after : Bridge} (earned : UnlockEarned before) (carries : Carries before after) :
    UnlockEarned after := by
  obtain ⟨events, log, inert⟩ := carries.events
  obtain ⟨known, grows⟩ := earned_append earned.log inert
  rw [← log] at known grows
  refine ⟨known, fun connected unlocked => ?_⟩
  obtain ⟨begun, same⟩ := carries.connection connected
  exact (earned.state begun (same ▸ unlocked)).trans grows.isInfix

theorem pumpReply_after (pass : Pass) (bridge : Bridge) :
    (pumpReply pass bridge).2 = bridge ∨ ∃ len, (pumpReply pass bridge).2 = bridge.filled pass.reply len := by
  rw [pumpReply_run]
  split
  · split
    · split
      · exact Or.inr ⟨_, rfl⟩
      · exact Or.inr ⟨_, rfl⟩
    · exact Or.inr ⟨_, rfl⟩
  · exact Or.inl rfl

theorem carries_pumpReply (pass : Pass) (bridge : Bridge) : Carries bridge (pumpReply pass bridge).2 := by
  rcases pumpReply_after pass bridge with same | ⟨len, filled⟩
  · rw [same]
    exact (Reads.refl bridge).carries
  · rw [filled]
    exact ⟨⟨[.reply pass.reply], rfl, by simp⟩, fun connected => ⟨connected, rfl⟩⟩

theorem carries_writeSide (pass : Pass) (bridge : Bridge) : Carries bridge (writeSide pass bridge).2 := by
  obtain ⟨events, len, pos, after, known⟩ := writeSide_writes pass bridge
  rw [after]
  refine ⟨⟨events, rfl, fun event member => ?_⟩, fun connected => ⟨connected, rfl⟩⟩
  obtain ⟨bytes, res, rfl⟩ := known event member
  exact ⟨nofun, nofun⟩

/-- What earlier reads have left in the receive buffer behind its first `count` bytes, up to a NUL. -/
def Bridge.leftBehind (bridge : Bridge) (count : Nat) : Bytes :=
  bridge.readBuf.cstring (1 + count) (bridgeBufSize - 1 - count)

/-- What lies behind the bytes of a read holds the request, or goes on with it where they break off. -/
def Supplies (left read : Bytes) : Prop :=
  requestText <:+: left ∨
    ∃ front back, front ≠ [] ∧ back ≠ [] ∧ requestText = front ++ back ∧ front <:+ read ∧ back <+: left

/-- A read of the start brings a NUL or the request, or what earlier reads left behind its bytes adds nothing to
them. -/
def Unsupplied (bridge : Bridge) (pass : Pass) : Prop :=
  bridge.netConnection = .connected → bridge.tcpRead = .waitOnStart → pass.readReady = true →
    ∀ bytes, pass.received = some bytes → bytes ≠ [] →
      0 ∈ bytes.take 100 ∨ requestText <:+: bytes.take 100 ∨
        ¬ Supplies (bridge.leftBehind (bytes.take 100).length) (bytes.take 100)

theorem buffered_stored (bridge : Bridge) {read : Bytes} (fits : read.length ≤ bridgeBufSize - 1) :
    (bridge.stored 0 read).buffered =
      if 0 ∈ read then (cstr read).bytes else read ++ bridge.leftBehind read.length :=
  bridge.readBuf.cstring_storeAt 1 fits

/-- `strstr` finds the request in what was read, before a NUL, or with the help of what was left behind it. -/
theorem found_iff (bridge : Bridge) {read : Bytes} (fits : read.length ≤ bridgeBufSize - 1) :
    strstr (bridge.stored 0 read).buffered requestText = true ↔
      (0 ∈ read ∧ requestText <:+: (cstr read).bytes) ∨
        (0 ∉ read ∧ (requestText <:+: read ∨ Supplies (bridge.leftBehind read.length) read)) := by
  rw [strstr_iff, buffered_stored bridge fits]
  by_cases nul : 0 ∈ read
  · simp [nul]
  · simp only [nul, if_false, not_false_eq_true, true_and, false_and, false_or]
    exact List.infix_append_iff_ne_nil

theorem take_fits (bytes : Bytes) : (bytes.take 100).length ≤ bridgeBufSize - 1 :=
  Nat.le_trans (List.length_take_le 100 bytes) (by decide)

/-- Where nothing was supplied the request is found in the bytes of the read alone. -/
theorem Unsupplied.among {bridge : Bridge} {pass : Pass} {bytes : Bytes} (unsupplied : Unsupplied bridge pass)
    (connected : bridge.netConnection = .connected) (state : bridge.tcpRead = .waitOnStart)
    (ready : pass.readReady = true) (received : pass.received = some bytes) (more : bytes ≠ [])
    (found : strstr (bridge.stored 0 (bytes.take 100)).buffered requestText = true) :
    requestText <:+: bytes.take 100 := by
  rcases (found_iff bridge (take_fits bytes)).mp found with ⟨_, before⟩ | ⟨noNul, within | supplied⟩
  · exact before.trans (List.takeWhile_prefix _).isInfix
  · exact within
  · rcases unsupplied connected state ready bytes received more with nul | within | nothing
    · exact absurd nul noNul
    · exact within
    · exact absurd supplied nothing

theorem unlockEarned_answered {bridge : Bridge} {bytes : Bytes} (earned : UnlockEarned bridge)
    (among : requestText <:+: bytes) (taken : Int) : UnlockEarned ((bridge.stored 0 bytes).answered taken) := by
  have now : requestText <:+: delivered (bridge.log ++ [.received bytes]) := by
    rw [delivered_snoc (by simp)]
    exact among.trans (List.suffix_append _ _).isInfix
  have wrote : requestText <:+: delivered (bridge.log ++ [.received bytes] ++
      [.wrote acceptText (socketWrite taken acceptText.length)]) := by
    rw [delivered_snoc (by simp)]
    exact now.trans (List.prefix_append _ _).isInfix
  refine ⟨?_, fun _ _ => ?_⟩
  · exact earned_snoc.mpr ⟨earned_snoc.mpr ⟨earned_snoc.mpr ⟨earned.log, nofun⟩, nofun⟩, fun _ => wrote⟩
  · change requestText <:+: delivered (_ ++ [.unlocked])
    rw [delivered_snoc (by simp)]
    exact wrote.trans (List.prefix_append _ _).isInfix

theorem unlockEarned_readSide {pass : Pass} {bridge : Bridge} (earned : UnlockEarned bridge)
    (connected : bridge.netConnection = .connected) (unsupplied : Unsupplied bridge pass) :
    UnlockEarned (readSide pass bridge).2 := by
  rcases readSide_reads connected with reads | ⟨bytes, state, ready, received, more, found, run⟩
  · exact earned.carried reads.carries
  · rw [run]
    exact unlockEarned_answered earned (unsupplied.among connected state ready received more found) _

/-- The other reads of the start are answered without the request in them. -/
theorem readSide_supplied {pass : Pass} {bridge : Bridge} (connected : bridge.netConnection = .connected)
    (supplied : ¬ Unsupplied bridge pass) : ∃ bytes, pass.received = some bytes ∧ ¬ requestText <:+: bytes.take 100 ∧
      readSide pass bridge = (some true, (bridge.stored 0 (bytes.take 100)).answered pass.answerTaken) := by
  simp only [Unsupplied, not_forall, not_or, not_not] at supplied
  obtain ⟨_, state, ready, bytes, received, more, noNul, without, supplied⟩ := supplied
  have found := (found_iff bridge (take_fits bytes)).mpr (Or.inr ⟨noNul, Or.inr supplied⟩)
  refine ⟨bytes, received, without, ?_⟩
  have read : NetRead pass bridge _ _ := cNetReadTcp_cases connected
  rcases call : cNetReadTcp pass (UInt32.ofNat (bridgeBufSize - 1)) bridge with ⟨_ | len, after⟩
  · rw [call] at read
    cases read with
    | startFailed _ failed => cases received.symm.trans failed
    | chunkTooLarge other => cases state.symm.trans other
    | chunkOutside other => cases state.symm.trans other
  · rw [call] at read
    rw [readSide_returned ready call]
    cases read with
    | startFound _ again =>
        cases received.symm.trans again
        rfl
    | startMissed _ again _ missed =>
        cases received.symm.trans again
        cases found.symm.trans missed
    | startEnded _ ended =>
        cases received.symm.trans ended
        exact absurd rfl more
    | idle other => cases state.symm.trans other
    | lengthFailed other => cases state.symm.trans other
    | lengthShort other => cases state.symm.trans other
    | length other => cases state.symm.trans other
    | chunkEnded other => cases state.symm.trans other
    | chunkDone other => cases state.symm.trans other
    | chunkPart other => cases state.symm.trans other

theorem unlockEarned_serveClient {pass : Pass} {bridge : Bridge} (earned : UnlockEarned bridge)
    (connected : bridge.netConnection = .connected) (unsupplied : Unsupplied bridge pass) :
    UnlockEarned (serveClient pass bridge).2 := by
  refine Proc.bind_keeps (earned.carried (carries_pumpReply pass bridge)) fun _ pumped run pumpedEarned => ?_
  have pumping : UnlockEarned (readSide pass pumped).2 := by
    have after : pumped = (pumpReply pass bridge).2 := by rw [run]
    rcases pumpReply_after pass bridge with same | ⟨len, filled⟩
    · rw [same] at after
      subst after
      exact unlockEarned_readSide pumpedEarned connected unsupplied
    · rw [filled] at after
      subst after
      exact unlockEarned_readSide pumpedEarned connected unsupplied
  refine Proc.bind_keeps pumping fun goes read _ readEarned => ?_
  cases goes with
  | false => exact readEarned
  | true => exact readEarned.carried (carries_writeSide pass read)

theorem unlockEarned_awaitClient {pass : Pass} {bridge : Bridge} (earned : UnlockEarned bridge) :
    UnlockEarned (awaitClient pass bridge).2 := by
  rw [awaitClient_run]
  split
  · exact ⟨earned_snoc.mpr ⟨earned.log, nofun⟩, fun _ unlocked => absurd unlocked (show ¬ false = true by decide)⟩
  · split
    · exact ⟨earned.log, fun connected => absurd connected bridge.shut_unconnected⟩
    · exact earned

theorem bridge_unlock_earned (coming : List Pass)
    (unsupplied : Along Bridge.going bridgePass Unsupplied coming Bridge.started) :
    UnlockEarned (bridgeLoop coming Bridge.started).2 := by
  refine passes_invariant ?_ ⟨earned_nil, fun connected => nomatch connected⟩ unsupplied
  intro bridge pass _ earned meets
  cases state : bridge.netConnection with
  | notConnected =>
      rw [bridgePass_notConnected state]
      exact unlockEarned_awaitClient earned
  | connected =>
      rw [bridgePass_connected state]
      exact unlockEarned_serveClient earned state meets
  | closed =>
      rw [bridgePass_closed state]
      exact earned

def firstRequest : Bytes := ascii "GET /target?sn=1 VMTP1.0\nProtocol: EV3"

/-- A client that asks and is served. -/
def servedClient : List Pass := [{ accepts := true }, { readReady := true, received := some firstRequest }]

/-- One client after the other. -/
def servedClients : List Pass := servedClient ++ { readReady := true } :: servedClient

theorem bridge_unlock_earned_served : UnlockEarned (bridgeLoop servedClients Bridge.started).2 := by
  refine bridge_unlock_earned servedClients (along_of_forall fun bridge pass member => ?_)
  have three : pass = { accepts := true } ∨ pass = { readReady := true, received := some firstRequest } ∨
      pass = { readReady := true } := by
    simp only [servedClients, servedClient, List.cons_append, List.nil_append, List.mem_cons, List.not_mem_nil,
      or_false] at member
    grind
  rcases three with rfl | rfl | rfl
  · intro _ _ ready
    cases ready
  · intro _ _ _ bytes received _
    cases received
    exact Or.inr (Or.inl ((strstr_iff _ _).mp (by decide +kernel)))
  · intro _ _ _ bytes received more
    cases received
    exact absurd rfl more

/-- The served client leaves, and the next one sends a single byte: the rest of the first request is still in the
buffer behind it. -/
def staleRequest : List Pass :=
  servedClient ++ [{ readReady := true }, { accepts := true }, { readReady := true, received := some [120] }]

theorem bridge_unlocks_stale :
    (bridgeLoop staleRequest Bridge.started).2.netConnection = .connected ∧
      (bridgeLoop staleRequest Bridge.started).2.tcpRead = .waitOnLength ∧
      delivered (bridgeLoop staleRequest Bridge.started).2.log = [120] ∧
      ¬ UnlockEarned (bridgeLoop staleRequest Bridge.started).2 := by
  have connected : (bridgeLoop staleRequest Bridge.started).2.netConnection = .connected := by decide +kernel
  have reading : (bridgeLoop staleRequest Bridge.started).2.tcpRead = .waitOnLength := by decide +kernel
  have read : delivered (bridgeLoop staleRequest Bridge.started).2.log = [120] := by decide +kernel
  refine ⟨connected, reading, read, fun earned => ?_⟩
  have unlocked : (bridgeLoop staleRequest Bridge.started).2.unlocked = true := by simp [Bridge.unlocked, reading]
  have short := (earned.state connected unlocked).length_le
  rw [read] at short
  exact absurd short (by decide +kernel)

end Ev3duder
