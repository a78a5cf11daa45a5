import Ev3duder.Commands.Framing

namespace Ev3duder

open Data

/-! # Runs that return -/

/-- The command returns, and all that it writes or reads has the property. -/
def Follows (property : Event → Prop) {α : Type} (command : Command α) : Prop :=
  ∀ session, ∃ value after, command session = (some value, after) ∧ Session.Logs property session after

section Follows

variable {α β : Type} {property : Event → Prop}

theorem follows_quiet {command : Command α}
    (quiet : ∀ session, ∃ value after, command session = (some value, after) ∧ after.log = session.log) :
    Follows property command := by
  intro session
  obtain ⟨value, after, run, same⟩ := quiet session
  exact ⟨value, after, run, Session.Logs.of_same_log same⟩

theorem follows_return (value : α) : Follows property (return value) :=
  follows_quiet fun session => ⟨value, session, rfl, rfl⟩

theorem follows_bind {first : Command α} {next : α → Command β} (head : Follows property first)
    (tail : ∀ value, Follows property (next value)) : Follows property (first >>= next) := by
  intro session
  obtain ⟨value, middle, run, early⟩ := head session
  obtain ⟨result, after, rest, late⟩ := tail value middle
  exact ⟨result, after, (Proc.bind_returned run).trans rest, early.trans late⟩

theorem follows_ite {condition : Prop} [Decidable condition] {yes no : Command α}
    (whenTrue : Follows property yes) (whenFalse : Follows property no) :
    Follows property (if condition then yes else no) := by
  split
  · exact whenTrue
  · exact whenFalse

theorem follows_failWith (message : String) (err : Err) : Follows property (failWith message err) :=
  follows_quiet fun _ => ⟨_, _, rfl, rfl⟩

theorem follows_denied (reply : Reply) (more : Nat) (message : String) :
    Follows property (denied reply more message) :=
  follows_quiet fun _ => ⟨_, _, rfl, rfl⟩

theorem follows_read {property : Event → Prop}
    (read : ∀ size milliseconds result, property (.read size milliseconds result)) (reply : Reply) (size : Nat)
    (milliseconds : Int) : Follows property (ev3ReadTimeout reply size milliseconds) := by
  intro session
  have log : (session.afterRead size milliseconds).log =
      session.log ++ [.read size milliseconds session.readResult] := rfl
  exact ⟨_, _, rfl, Session.Logs.snoc log (read _ _ _)⟩

theorem follows_transact {buf : Bytes} {count size : Nat} {milliseconds : Int}
    (written : ∀ res, property (.write (buf.take count) count res))
    (read : ∀ result, property (.read size milliseconds result)) (writeError : String) (reply : Reply)
    (readError : String) :
    Follows property (transact buf count writeError reply size milliseconds readError) := by
  intro session
  have logged := logs_transact written read writeError reply readError session
  rw [transact_run] at logged ⊢
  split
  · rename_i refused
    rw [if_pos refused] at logged
    exact ⟨_, _, rfl, logged⟩
  · rename_i taken
    rw [if_neg taken] at logged
    split
    · rename_i silent
      rw [if_pos silent] at logged
      exact ⟨_, _, rfl, logged⟩
    · rename_i read
      rw [if_neg read] at logged
      exact ⟨_, _, rfl, logged⟩

theorem follows_continuingReply (kind : Retrieval) (reply : Reply) :
    Follows property (continuingReply kind reply) := by
  refine follows_bind (follows_quiet fun _ => ⟨_, _, rfl, rfl⟩) fun type => follows_ite ?_ ?_
  · exact follows_bind (follows_denied _ _ _) fun err => follows_return _
  · exact follows_quiet fun _ => ⟨_, _, rfl, rfl⟩

theorem follows_retrieveLoop {kind : Retrieval}
    (written : ∀ handle res, property (.write ((kind.more handle).take kind.moreSize) kind.moreSize res))
    (read : ∀ result, property (.read kind.fileChunksz timeout result)) (handle : UInt8)
    (reply : Reply) (readSoFar total : UInt32) :
    Follows property (retrieveLoop kind handle reply readSoFar total) := by
  intro session
  generalize left : session.reads.length = size
  induction size using Nat.strongRecOn generalizing handle reply readSoFar session with
  | ind size ih =>
    by_cases below : readSoFar < total
    · obtain ⟨step, after, asking, early⟩ := follows_transact (written handle) read
        ("Unable to write " ++ kind.continuing) reply ("Unable to read " ++ kind.continuing ++ "_REPLY") session
      rw [retrieveLoop, if_pos below]
      split <;> rename_i asked <;> rw [asking] at asked <;> cases asked
      · exact ⟨_, _, rfl, early⟩
      · rename_i got
        obtain ⟨use, last, judged, late⟩ := @follows_continuingReply property kind got after
        split <;> rename_i used <;> rw [judged] at used <;> cases used
        · exact ⟨_, _, rfl, early.trans late⟩
        · obtain ⟨value, final, run, rest⟩ := ih _ (by
            rw [continuingReply_reads judged, ← left]
            exact transact_reads asking) _ _ _ _ rfl
          exact ⟨value, final, run, (early.trans late).trans rest⟩
    · rw [retrieveLoop, if_neg below]
      exact ⟨_, _, rfl, Session.Logs.of_same_log rfl⟩

theorem follows_exchange {τ : Type} [Packet τ] {request : τ} {size : Nat} {milliseconds : Int}
    (written : ∀ res, property (.write (Packet.handed request) (Packet.count request) res))
    (read : ∀ result, property (.read size milliseconds result)) (writeError : String) (reply : Reply)
    (readError : String) : Follows property (exchange request writeError reply size milliseconds readError) :=
  follows_transact written read writeError reply readError

/-- The command byte of a packet that is long enough to hold it. -/
theorem upPacket_command {total finalSz i : Nat} {cd : ContinueDownload} (fileHandle : UInt8) (data : Bytes)
    (small : finalSz ≤ chunkSize) (long : 4 ≤ cd.packetLen.toNat) :
    4 ≤ (upPacket total finalSz i cd fileHandle data).packetLen.toNat ∧
      (Packet.handed (upPacket total finalSz i cd fileHandle data))[6]? = some cd.cmd := by
  have longer : 4 ≤ (upPacket total finalSz i cd fileHandle data).packetLen.toNat := by
    change 4 ≤ (if i = total - 1 then UInt16.ofNat (8 + finalSz - 3) else cd.packetLen).toNat
    have bound : finalSz ≤ 1000 := small
    split
    · rw [UInt16.toNat_ofNat']
      omega
    · exact long
  refine ⟨longer, ?_⟩
  have inside : 6 < Packet.count (upPacket total finalSz i cd fileHandle data) := by
    change 6 < (upPacket total finalSz i cd fileHandle data).packetLen.toNat + 3
    omega
  rw [List.getElem?_take_of_lt inside]
  rfl

theorem follows_upLoop {total finalSz : Nat} {cd : ContinueDownload} (small : finalSz ≤ chunkSize)
    (long : 4 ≤ cd.packetLen.toNat)
    (written : ∀ packet count res, packet[6]? = some cd.cmd → property (.write packet count res))
    (read : ∀ size milliseconds result, property (.read size milliseconds result)) (bdrep : Reply) (i : Nat) :
    Follows property (upLoop total finalSz cd bdrep i) := by
  generalize left : total - i = size
  induction size generalizing cd bdrep i with
  | zero =>
      rw [upLoop, if_neg (by omega)]
      exact follows_return _
  | succ size ih =>
      rw [upLoop, if_pos (by omega)]
      refine follows_bind (follows_quiet fun _ => ⟨_, _, rfl, rfl⟩) fun fileHandle => ?_
      refine follows_bind (follows_quiet fun _ => ⟨_, _, rfl, rfl⟩) fun data => ?_
      obtain ⟨longer, command⟩ := @upPacket_command total finalSz i cd fileHandle data small long
      refine follows_bind (follows_exchange (fun res => written _ _ _ command) (read _ _) _ _ _) fun step => ?_
      cases step with
      | error err => exact follows_return _
      | ok reply =>
          refine ih longer ?_ reply (i + 1) (by omega)
          exact written

theorem follows_upTransfer (written : ∀ packet count res, packet[6]? = some 0x93 → property (.write packet count res))
    (read : ∀ size milliseconds result, property (.read size milliseconds result)) (fsize : Nat) (bdrep : Reply) :
    Follows property (upTransfer fsize bdrep) := by
  have alloc : packetAlloc continueDownloadInit chunkSize =
      some { continueDownloadInit with packetLen := 1005 } := rfl
  unfold upTransfer
  rw [alloc]
  refine follows_bind (follows_quiet fun _ => ⟨_, _, rfl, rfl⟩) fun heap => ?_
  refine follows_bind (follows_upLoop (finalChunkSz_small fsize) ?_ written read _ _) fun step => ?_
  · exact (by decide : 4 ≤ (1005 : UInt16).toNat)
  · cases step with
    | error err => exact follows_return _
    | ok reply =>
        refine follows_bind (follows_quiet fun _ => ⟨_, _, rfl, rfl⟩) fun type => ?_
        exact follows_ite (follows_denied _ _ _) (follows_failWith _ _)

theorem follows_runOutput (read : ∀ size milliseconds result, property (.read size milliseconds result)) (reply : Reply)
    (len : UInt32) : Follows property (runOutput reply len) := by
  intro session
  generalize left : session.reads.length = size
  induction size using Nat.strongRecOn generalizing reply len session with
  | ind size ih =>
    obtain ⟨_, _, asked, here⟩ := follows_read read reply runReplySize 100 session
    cases asked
    rw [runOutput]
    simp only
    split
    · rename_i positive
      have shorter : session.reads.tail.length < size := left ▸ Session.reads_shorter positive
      obtain ⟨value, after, run, rest⟩ := ih _ shorter (reply.receive session.readResult) (len - 1000)
        (printString (reply.receive session.readResult) 0 (blockPrecision len) (session.afterRead runReplySize 100)).2
        rfl
      exact ⟨value, after, run, Session.Logs.trans here rest⟩
    · split
      · exact ⟨_, _, rfl, here⟩
      · exact ⟨_, _, rfl, here⟩

theorem follows_runReply (read : ∀ size milliseconds result, property (.read size milliseconds result))
    (transport : Transport) (reply : Reply) (stack : Memory) : Follows property (runReply transport reply stack) := by
  refine follows_ite ?_ (follows_failWith _ _)
  split
  · exact follows_failWith _ _
  · refine follows_bind (follows_quiet fun _ => ⟨_, _, rfl, rfl⟩) fun _ => ?_
    exact follows_runOutput read _ _

end Follows

end Ev3duder
