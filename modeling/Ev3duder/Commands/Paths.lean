import Ev3duder.Commands.Returns

namespace Ev3duder

open Data

/-! # Paths of every length -/

inductive PathCommand where
  | up (dst : CString)
  | dl (path : CString)
  | ls (path : CString)
  | rm (path : CString)
  | mkdir_ (path : CString)
  | run (transport : Transport) (exec : CString) (milliseconds : UInt32)

namespace PathCommand

def path : PathCommand → CString
  | .up dst => dst
  | .dl path | .ls path | .rm path | .mkdir_ path => path
  | .run _ exec _ => exec

/-- The bytes of the first request after its HID byte, the path's own bytes aside. -/
def around : PathCommand → Nat
  | .up _ => 11
  | .dl _ | .ls _ => 9
  | .rm _ | .mkdir_ _ => 7
  | .run .. => 21

end PathCommand

/-- `up` with its part after the accepted first reply left open. -/
def upWith (transfer : Nat → Reply → Command Err) (dst : CString) : Command Err := do
  let fsize ← Proc.gets fun session => session.input.rest.length
  if 0xFFFFFFFF < fsize then return .fTooBig
  else
    match packetAlloc beginDownloadInit (dst.bytes.length + 1) with
    | none => Proc.crash
    | some bd => do
        let bd := { bd with fileSize := UInt32.ofNat fsize, fileName := dst.bytes ++ [0] }
        let stack ← malloc
        match ← exchange bd "Unable to write BEGIN_DOWNLOAD." ⟨stack, 0⟩ beginDownloadReplySize timeout
            "Unable to read BEGIN_DOWNLOAD" with
        | .error err => return err
        | .ok bdrep => do
            let type ← bdrep.type
            if type = vmError then do
              let ret ← bdrep.ret
              setErrno ret.toNat
              failWith "BEGIN_DOWNLOAD was denied." .vm
            else transfer fsize bdrep

theorem up_with (dst : CString) : up dst = upWith upTransfer dst := rfl

/-- The null pointer is used as soon as there is a chunk to send. -/
def upTransferStarved (fsize : Nat) (bdrep : Reply) : Command Err :=
  if 0 < upChunks fsize then Proc.crash else upTransfer fsize bdrep

def upGranted (grants : Nat) (dst : CString) : Command Err :=
  match grants with
  | 0 => do
      let fsize ← Proc.gets fun session => session.input.rest.length
      if 0xFFFFFFFF < fsize then return .fTooBig else Proc.crash
  | 1 => upWith upTransferStarved dst
  | _ + 2 => up dst

def granted (grants : Nat) (command : Command Err) : Command Err :=
  match grants with
  | 0 => Proc.crash
  | _ + 1 => command

/-- `packet_alloc` also yields a null pointer when `malloc` does; `grants` is the number of its calls that get
memory. -/
def PathCommand.command (grants : Nat) : PathCommand → Command Err
  | .up dst => upGranted grants dst
  | .dl path => granted grants (Ev3duder.dl path)
  | .ls path => granted grants (Ev3duder.ls path)
  | .rm path => granted grants (Ev3duder.rm path)
  | .mkdir_ path => granted grants (Ev3duder.mkdir_ path)
  | .run transport exec milliseconds => granted grants (Ev3duder.run transport exec milliseconds)

/-- A well-framed request within the brick's limit that contains the path with its NUL. -/
structure CarriesPath (path : CString) (packet : Bytes) (count : Nat) : Prop where
  complete : path.bytes ++ [0] <:+: packet
  framed : WellFramed packet count
  small : count ≤ 1 + 1024

/-- Not another request with the command byte of `packet`. -/
def OtherThan (packet : Bytes) (event : Event) : Prop :=
  ∀ other count, event.written = some (other, count) → other[6]? ≠ packet[6]?

/-- The run hands over one request with the whole path, or it returns an error and has written nothing. -/
structure PathSafe (path : CString) (run : Option Err × Session) : Prop where
  alive : run.1 ≠ none
  handled : (∃ packet count later, run.2.log.filterMap Event.written = (packet, count) :: later ∧
      CarriesPath path packet count ∧ ∀ other ∈ later, other.1[6]? ≠ packet[6]?) ∨
    (run.2.log.filterMap Event.written = [] ∧ run.1 ≠ some .unk)

/-- The run returns, and begins with handing over `packet`; what follows is read or is other packets. -/
structure Begins (packet : Bytes) (count : Nat) (run : Option Err × Session) : Prop where
  alive : run.1 ≠ none
  log : ∃ res events, run.2.log = .write packet count res :: events ∧ ∀ event ∈ events, OtherThan packet event

section Begins

variable {path : CString} {packet : Bytes} {count : Nat} {run : Option Err × Session}

theorem Begins.written (begins : Begins packet count run) :
    ∃ later, run.2.log.filterMap Event.written = (packet, count) :: later ∧
      ∀ other ∈ later, other.1[6]? ≠ packet[6]? := by
  obtain ⟨res, events, log, others⟩ := begins.log
  refine ⟨events.filterMap Event.written, ?_, ?_⟩
  · rw [log, List.filterMap_cons]
    rfl
  · intro other member
    obtain ⟨event, inside, same⟩ := List.mem_filterMap.mp member
    exact others event inside other.1 other.2 same

theorem Begins.safe_iff (begins : Begins packet count run) (complete : path.bytes ++ [0] <:+: packet)
    (framed : WellFramed packet count) : PathSafe path run ↔ count ≤ 1 + 1024 := by
  obtain ⟨later, written, others⟩ := begins.written
  constructor
  · rintro ⟨_, ⟨first, size, rest, same, carries, _⟩ | ⟨none, _⟩⟩
    · rw [written, List.cons.injEq, Prod.mk.injEq] at same
      rw [same.1.2]
      exact carries.small
    · rw [written] at none
      cases none
  · intro small
    exact ⟨begins.alive, Or.inl ⟨packet, count, later, written, ⟨complete, framed, small⟩, others⟩⟩

theorem not_safe_of_crash (crashed : run.1 = none) : ¬ PathSafe path run := by
  intro safe
  exact safe.alive crashed

theorem otherThan_read (packet : Bytes) (size : Nat) (milliseconds : Int) (result : ReadResult) :
    OtherThan packet (.read size milliseconds result) := by
  intro other count written
  cases written

theorem otherThan_write {packet other : Bytes} {size : Nat} {res : Int} (differs : other[6]? ≠ packet[6]?) :
    OtherThan packet (.write other size res) := by
  intro written count same
  cases same
  exact differs

variable {τ : Type} [Packet τ] {request : τ} {next : Except Err Reply → Command Err} {reply : Reply} {size : Nat}
  {milliseconds : Int} {writeError readError : String} {session : Session}

/-- A first exchange, and a rest that returns whenever the brick has answered. -/
theorem begins_exchange (fresh : session.log = [])
    (failed : ∀ err after, ∃ last, next (.error err) after = (some err, last) ∧ last.log = after.log)
    (answered : 0 ≤ session.writeResult → 0 < session.readResult.res → ∃ value last,
      next (.ok (reply.receive session.readResult)) (session.afterExchange request size milliseconds) =
          (some value, last) ∧
        Session.Logs (OtherThan (Packet.handed request))
          (session.afterExchange request size milliseconds) last) :
    Begins (Packet.handed request) (Packet.count request)
      ((exchange request writeError reply size milliseconds readError >>= next) session) := by
  have ran := @exchange_run τ _ request writeError readError reply size milliseconds session
  by_cases refused : session.writeResult < 0
  · rw [if_pos refused] at ran
    obtain ⟨last, run, same⟩ := failed .comm _
    rw [Proc.bind_returned ran, run]
    refine ⟨Option.some_ne_none _, session.writeResult, [], ?_, fun _ member => absurd member List.not_mem_nil⟩
    rw [same]
    show (session.afterWrite _ _).log = _
    rw [Session.afterWrite_log, fresh]
    rfl
  · rw [if_neg refused] at ran
    by_cases silent : session.readResult.res ≤ 0
    · rw [if_pos silent] at ran
      obtain ⟨last, run, same⟩ := failed .comm _
      rw [Proc.bind_returned ran, run]
      refine ⟨Option.some_ne_none _, session.writeResult, [.read size milliseconds session.readResult], ?_, ?_⟩
      · rw [same]
        show (session.afterExchange request size milliseconds).log = _
        rw [Session.afterExchange_log, fresh]
        rfl
      · intro event member
        rw [List.mem_singleton] at member
        rw [member]
        exact otherThan_read _ _ _ _
    · rw [if_neg silent] at ran
      obtain ⟨value, last, run, events, log, others⟩ := answered (Int.not_lt.mp refused) (Int.not_le.mp silent)
      rw [Proc.bind_returned ran, run]
      refine ⟨Option.some_ne_none _, session.writeResult, .read size milliseconds session.readResult :: events, ?_, ?_⟩
      · rw [log, Session.afterExchange_log, fresh]
        rfl
      · intro event member
        rcases List.mem_cons.mp member with rfl | member
        · exact otherThan_read _ _ _ _
        · exact others event member

end Begins

section Commands

variable {path : CString} {session : Session}

theorem begins_safe_iff {τ : Type} [Packet τ] {request : τ} {run : Option Err × Session}
    (begins : Begins (Packet.handed request) (Packet.count request) run)
    (hid : Packet.hidLayer request = 0)
    (framed : (Packet.packetLen request).toNat = (Packet.tail request).length)
    (complete : path.bytes ++ [0] <:+: Packet.tail request) :
    PathSafe path run ↔ (Packet.tail request).length + 2 ≤ 1024 := by
  have inside : path.bytes ++ [0] <:+: Packet.handed request := by
    obtain ⟨front, back, same⟩ := complete
    refine ⟨Packet.hidLayer request :: (leBytes 2 (Packet.packetLen request).toNat ++ front), back, ?_⟩
    rw [Packet.handed_eq framed, Packet.toBytes, ← same]
    simp only [List.cons_append, List.append_assoc]
  rw [begins.safe_iff inside (wellFramed_packet hid (Nat.le_of_eq framed)), Packet.count, framed, prefixSize]
  omega

theorem pathCommand_safe_iff (init : SystemCmd) (hid : init.hidLayer = 0) (path : CString)
    (writeError readError deniedError success : String) (fresh : session.log = []) :
    PathSafe path (pathCommand init path writeError readError deniedError success session) ↔
      path.bytes.length + 7 ≤ 1024 := by
  by_cases fits : Packet.size SystemCmd + (path.bytes.length + 1) < 65535
  · have small : 7 + (path.bytes.length + 1) < 65535 := fits
    let request : SystemCmd := { init with
      packetLen := UInt16.ofNat (Packet.size SystemCmd + (path.bytes.length + 1) - prefixSize)
      bytes := path.bytes ++ [0] }
    have alloc : packetAlloc init (path.bytes.length + 1) = some { init with
        packetLen := UInt16.ofNat (Packet.size SystemCmd + (path.bytes.length + 1) - prefixSize) } := if_pos fits
    have length : (Packet.tail request).length = path.bytes.length + 5 := by
      simp [request, Packet.tail, CommandFields.tail]
      omega
    have framed : (Packet.packetLen request).toNat = (Packet.tail request).length := by
      refine (allocated_length fits).trans ?_
      rw [length]
      show 7 + (path.bytes.length + 1) - 3 = _
      omega
    have rest (reply : Reply) : Follows (OtherThan (Packet.handed request)) (do
        let type ← reply.type
        if type = vmError then denied reply 0 deniedError
        else failWith success .unk) :=
      follows_bind (follows_quiet fun _ => ⟨_, _, rfl, rfl⟩) fun type =>
        follows_ite (follows_denied _ _ _) (follows_failWith _ _)
    have begins : Begins (Packet.handed request) (Packet.count request)
        (pathCommand init path writeError readError deniedError success session) := by
      rw [pathCommand, alloc]
      refine Eq.mpr (congrArg (Begins _ _) (Proc.bind_returned (malloc_run session))) ?_
      exact begins_exchange fresh (fun err after => ⟨after, rfl, rfl⟩) fun _ _ => rest _ _
    rw [begins_safe_iff begins hid framed (List.IsSuffix.isInfix ⟨_, rfl⟩), length]
  · have null : packetAlloc init (path.bytes.length + 1) = none := if_neg fits
    have long : ¬ 7 + (path.bytes.length + 1) < 65535 := fits
    rw [pathCommand, null]
    exact iff_of_false (not_safe_of_crash rfl) (by omega)

theorem retrieve_safe_iff (kind : Retrieval) (path : CString) {request more : UInt8} (hid : kind.init.hidLayer = 0)
    (opening : kind.init.cmd = request) (continuing : ∀ handle, ((kind.more handle).take kind.moreSize)[6]? = some more)
    (differs : more ≠ request) (fresh : session.log = []) :
    PathSafe path (retrieve kind path session) ↔ path.bytes.length + 9 ≤ 1024 := by
  by_cases fits : Packet.size PathRequest + (path.bytes.length + 1) < 65535
  · have length : (Packet.tail (openingRequest kind path)).length = path.bytes.length + 7 := by
      simp [openingRequest, Packet.tail, CommandFields.tail]
      omega
    have framed := openingRequest_framed kind fits
    have command : (Packet.handed (openingRequest kind path))[6]? = some request := by
      rw [Packet.handed_eq framed, ← opening]
      rfl
    have other (handle : UInt8) (res : Int) : OtherThan (Packet.handed (openingRequest kind path))
        (.write ((kind.more handle).take kind.moreSize) kind.moreSize res) := by
      refine otherThan_write ?_
      rw [command, continuing handle]
      exact fun same => differs (Option.some.inj same)
    have rest (reply : Reply) :
        Follows (OtherThan (Packet.handed (openingRequest kind path))) (openingReply kind reply) := by
      refine follows_bind (follows_quiet fun _ => ⟨_, _, rfl, rfl⟩) fun type => follows_ite (follows_denied _ _ _) ?_
      refine follows_bind (follows_quiet fun _ => ⟨_, _, rfl, rfl⟩) fun packetLen => ?_
      refine follows_bind (follows_quiet fun _ => ⟨_, _, rfl, rfl⟩) fun bytes => ?_
      refine follows_bind (follows_quiet fun _ => ⟨_, _, rfl, rfl⟩) fun _ => ?_
      refine follows_bind (follows_quiet fun _ => ⟨_, _, rfl, rfl⟩) fun total => ?_
      refine follows_bind (follows_quiet fun _ => ⟨_, _, rfl, rfl⟩) fun handle => ?_
      exact follows_retrieveLoop other (fun _ => otherThan_read _ _ _ _) _ _ _ _
    have begins : Begins (Packet.handed (openingRequest kind path))
        (Packet.count (openingRequest kind path)) (retrieve kind path session) := by
      rw [retrieve_begins kind session fits]
      exact begins_exchange fresh (fun err after => ⟨after, rfl, rfl⟩) fun _ _ => rest _ _
    rw [begins_safe_iff begins hid framed (List.IsSuffix.isInfix ⟨_, rfl⟩), length]
  · have null : packetAlloc kind.init (path.bytes.length + 1) = none := if_neg fits
    have long : ¬ 9 + (path.bytes.length + 1) < 65535 := fits
    rw [retrieve, null]
    exact iff_of_false (not_safe_of_crash rfl) (by omega)

def runRequest (exec : CString) : VmCmd :=
  { executeFileInit with
    packetLen := UInt16.ofNat
      (Packet.size VmCmd + (run1.length + (exec.bytes.length + 1) + run2.length) - prefixSize)
    bytes := run1 ++ (exec.bytes ++ [0]) ++ run2 }

/-- What `run` does once its request is written. -/
def runAnswer (transport : Transport) (reply : Reply) (lenStack : Memory) (milliseconds : Int) : Command Err := do
  let (res, reply) ← ev3ReadTimeout reply runReplySize milliseconds
  if res < 0 then return .comm
  else do
    let packet ← reply.peek 0 vmReplySize
    if res = 0 ∨ packet = executeFileReplySuccess then failWith "`exec` has been successful." .unk
    else runReply transport reply lenStack

def runTimeout (milliseconds : UInt32) : Int :=
  (if milliseconds = 0 then UInt32.ofNat timeout.toNat else milliseconds).toInt32.toInt

theorem run_begins (transport : Transport) {exec : CString} (milliseconds : UInt32) (session : Session)
    (fits : Packet.size VmCmd + (run1.length + (exec.bytes.length + 1) + run2.length) < 65535) :
    run transport exec milliseconds session =
      (writePacket (runRequest exec) >>= fun res =>
        if res < 0 then return .comm
        else runAnswer transport ⟨session.junk 0, 0⟩ (session.junk 1) (runTimeout milliseconds))
        session.afterMalloc.afterMalloc := by
  have alloc : packetAlloc executeFileInit (run1.length + (exec.bytes.length + 1) + run2.length) =
      some { runRequest exec with bytes := [] } := if_pos fits
  rw [run, alloc]
  exact (Proc.bind_returned (malloc_run session)).trans (Proc.bind_returned (malloc_run session.afterMalloc))

theorem runRequest_framed {exec : CString}
    (fits : Packet.size VmCmd + (run1.length + (exec.bytes.length + 1) + run2.length) < 65535) :
    (Packet.packetLen (runRequest exec)).toNat = (Packet.tail (runRequest exec)).length ∧
      (Packet.tail (runRequest exec)).length = exec.bytes.length + 19 := by
  have length : (Packet.tail (runRequest exec)).length = exec.bytes.length + 19 := by
    simp [runRequest, Packet.tail, run1, run2]
    omega
  refine ⟨(allocated_length fits).trans ?_, length⟩
  rw [length]
  show 8 + (6 + (exec.bytes.length + 1) + 7) - 3 = _
  omega

theorem follows_runAnswer {property : Event → Prop}
    (read : ∀ size milliseconds result, property (.read size milliseconds result)) (transport : Transport)
    (reply : Reply) (lenStack : Memory) (milliseconds : Int) :
    Follows property (runAnswer transport reply lenStack milliseconds) := by
  refine follows_bind (follows_read read _ _ _) fun answer => follows_ite (follows_return _) ?_
  refine follows_bind (follows_quiet fun _ => ⟨_, _, rfl, rfl⟩) fun packet => ?_
  exact follows_ite (follows_failWith _ _) (follows_runReply read _ _ _)

theorem run_safe_iff (transport : Transport) (exec : CString) (milliseconds : UInt32) (fresh : session.log = []) :
    PathSafe exec (run transport exec milliseconds session) ↔ exec.bytes.length + 21 ≤ 1024 := by
  by_cases fits : Packet.size VmCmd + (run1.length + (exec.bytes.length + 1) + run2.length) < 65535
  · obtain ⟨framed, length⟩ := runRequest_framed fits
    have begins : Begins (Packet.handed (runRequest exec))
        (Packet.count (runRequest exec)) (run transport exec milliseconds session) := by
      have clean : session.afterMalloc.afterMalloc.log = [] := fresh
      rw [run_begins transport milliseconds session fits]
      generalize session.afterMalloc.afterMalloc = started at clean
      have logged : (started.afterWrite (Packet.toBytes (runRequest exec)) (Packet.count (runRequest exec))).log =
          [.write (Packet.handed (runRequest exec))
            (Packet.count (runRequest exec)) started.writeResult] := by
        rw [Session.afterWrite_log, clean]
        rfl
      obtain ⟨value, after, rest, events, log, others⟩ := follows_runAnswer
        (otherThan_read (Packet.handed (runRequest exec))) transport
        ⟨session.junk 0, 0⟩ (session.junk 1) (runTimeout milliseconds)
        (started.afterWrite (Packet.toBytes (runRequest exec)) (Packet.count (runRequest exec)))
      rw [Proc.bind_returned (writePacket_run (runRequest exec) started)]
      by_cases refused : started.writeResult < 0
      · rw [if_pos refused]
        exact ⟨Option.some_ne_none _, started.writeResult, [], logged, fun _ member => absurd member List.not_mem_nil⟩
      · rw [if_neg refused, rest]
        refine ⟨Option.some_ne_none _, started.writeResult, events, ?_, others⟩
        rw [log, logged]
        rfl
    have inside : exec.bytes ++ [0] <:+: run1 ++ (exec.bytes ++ [0]) ++ run2 := ⟨run1, run2, rfl⟩
    have last : run1 ++ (exec.bytes ++ [0]) ++ run2 <:+ Packet.tail (runRequest exec) := ⟨_, rfl⟩
    rw [begins_safe_iff begins rfl framed (inside.trans last.isInfix), length]
  · have null : packetAlloc executeFileInit (run1.length + (exec.bytes.length + 1) + run2.length) = none := if_neg fits
    have long : ¬ 8 + (6 + (exec.bytes.length + 1) + 7) < 65535 := fits
    rw [run, null]
    exact iff_of_false (not_safe_of_crash rfl) (by omega)

/-- The brick answers the first request and does not deny it. -/
def Session.UpAnswered (session : Session) : Prop :=
  0 ≤ session.writeResult ∧ 0 < session.readResult.res ∧ session.upOpening.memory 4 ≠ vmError

theorem upWith_begins (transfer : Nat → Reply → Command Err) {dst : CString}
    (small : session.input.rest.length ≤ 0xFFFFFFFF)
    (fits : Packet.size BeginDownload + (dst.bytes.length + 1) < 65535) :
    upWith transfer dst session =
      (exchange (beginDownload dst session.input.rest.length) "Unable to write BEGIN_DOWNLOAD."
          ⟨session.junk 0, 0⟩ beginDownloadReplySize timeout "Unable to read BEGIN_DOWNLOAD" >>= fun step =>
        match step with
        | .error err => return err
        | .ok bdrep => do
            let type ← bdrep.type
            if type = vmError then do
              let ret ← bdrep.ret
              setErrno ret.toNat
              failWith "BEGIN_DOWNLOAD was denied." .vm
            else transfer session.input.rest.length bdrep) session.afterMalloc := by
  have alloc : packetAlloc beginDownloadInit (dst.bytes.length + 1) = some { beginDownloadInit with
      packetLen := UInt16.ofNat (Packet.size BeginDownload + (dst.bytes.length + 1) - prefixSize) } := if_pos fits
  have size : Proc.gets (fun session : Session => session.input.rest.length) session =
      (some session.input.rest.length, session) := rfl
  rw [upWith, Proc.bind_returned size, if_neg (Nat.not_lt.mpr small), alloc]
  exact Proc.bind_returned (malloc_run session)

theorem upWith_answered (transfer : Nat → Reply → Command Err) {dst : CString}
    (small : session.input.rest.length ≤ 0xFFFFFFFF)
    (fits : Packet.size BeginDownload + (dst.bytes.length + 1) < 65535) (answered : session.UpAnswered) :
    upWith transfer dst session = transfer session.input.rest.length session.upOpening (session.upOpened dst) := by
  rw [upWith_begins transfer small fits, Proc.bind_returned
    (exchange_answered session.afterMalloc answered.1 answered.2.1)]
  exact (Proc.bind_returned upOpening_type).trans (congrFun (if_neg answered.2.2) _)

theorem upWith_safe_iff {transfer : Nat → Reply → Command Err} {dst : CString}
    (goes : session.UpAnswered → ∀ other : Bytes, other[6]? = some 0x92 →
      Follows (OtherThan other) (transfer session.input.rest.length session.upOpening))
    (fresh : session.log = []) (small : session.input.rest.length ≤ 0xFFFFFFFF) :
    PathSafe dst (upWith transfer dst session) ↔ dst.bytes.length + 11 ≤ 1024 := by
  by_cases fits : Packet.size BeginDownload + (dst.bytes.length + 1) < 65535
  · obtain ⟨framed, length⟩ := beginDownload_framed session.input.rest.length fits
    have command : (Packet.handed (beginDownload dst session.input.rest.length))[6]? = some 0x92 := by
      rw [Packet.handed_eq framed]
      rfl
    have begins : Begins (Packet.handed (beginDownload dst session.input.rest.length))
        (Packet.count (beginDownload dst session.input.rest.length)) (upWith transfer dst session) := by
      rw [upWith_begins transfer small fits]
      refine begins_exchange fresh (fun err after => ⟨after, rfl, rfl⟩) fun written read => ?_
      simp only
      rw [Proc.bind_returned upOpening_type]
      by_cases denied : session.upOpening.memory 4 = vmError
      · rw [if_pos denied]
        exact ⟨_, _, rfl, Session.Logs.of_same_log rfl⟩
      · rw [if_neg denied]
        obtain ⟨value, last, run, events, log, others⟩ := goes ⟨written, read, denied⟩ _ command (session.upOpened dst)
        exact ⟨value, last, run, events, log, others⟩
    rw [begins_safe_iff begins rfl framed (List.IsSuffix.isInfix ⟨_, rfl⟩), length]
  · have null : packetAlloc beginDownloadInit (dst.bytes.length + 1) = none := if_neg fits
    have long : ¬ 11 + (dst.bytes.length + 1) < 65535 := fits
    rw [upWith, Proc.bind_returned (Proc.gets_apply _ _), if_neg (Nat.not_lt.mpr small), null]
    exact iff_of_false (not_safe_of_crash rfl) (by omega)

theorem upChunks_pos {fsize : Nat} : 0 < upChunks fsize ↔ fsize ≠ 0 := by
  unfold upChunks chunkSize
  split <;> omega

theorem upTransferStarved_safe_iff (dst : CString) (fresh : session.log = [])
    (small : session.input.rest.length ≤ 0xFFFFFFFF) :
    PathSafe dst (upWith upTransferStarved dst session) ↔
      ¬ (session.UpAnswered ∧ session.input.rest ≠ []) ∧ dst.bytes.length + 11 ≤ 1024 := by
  by_cases used : session.UpAnswered ∧ session.input.rest ≠ []
  · have chunks : 0 < upChunks session.input.rest.length :=
      upChunks_pos.mpr fun none => used.2 (List.length_eq_zero_iff.mp none)
    have crashed : (upWith upTransferStarved dst session).1 = none := by
      by_cases fits : Packet.size BeginDownload + (dst.bytes.length + 1) < 65535
      · rw [upWith_answered upTransferStarved small fits used.1, upTransferStarved, if_pos chunks]
        rfl
      · have null : packetAlloc beginDownloadInit (dst.bytes.length + 1) = none := if_neg fits
        rw [upWith, Proc.bind_returned (Proc.gets_apply _ _), if_neg (Nat.not_lt.mpr small), null]
        rfl
    exact iff_of_false (not_safe_of_crash crashed) fun parts => parts.1 used
  · rw [upWith_safe_iff (fun answered other command => ?_) fresh small]
    · exact (and_iff_right used).symm
    · have none : ¬ 0 < upChunks session.input.rest.length := fun chunks =>
        used ⟨answered, fun empty => upChunks_pos.mp chunks (congrArg List.length empty)⟩
      rw [upTransferStarved, if_neg none]
      exact follows_upTransfer (fun packet count res chunk => otherThan_write (by rw [chunk, command]; decide))
        (otherThan_read other) _ _

theorem upGranted_safe_iff (grants : Nat) (dst : CString) (fresh : session.log = []) :
    PathSafe dst (upGranted grants dst session) ↔
      0xFFFFFFFF < session.input.rest.length ∨
        (2 ≤ grants ∨ grants = 1 ∧ ¬ (session.UpAnswered ∧ session.input.rest ≠ [])) ∧
          dst.bytes.length + 11 ≤ 1024 := by
  by_cases large : 0xFFFFFFFF < session.input.rest.length
  · have refused : upGranted grants dst session = (some .fTooBig, session) := by
      match grants with
      | 0 | 1 | _ + 2 => exact (Proc.bind_returned (Proc.gets_apply _ _)).trans (congrFun (if_pos large) session)
    refine iff_of_true ?_ (Or.inl large)
    rw [refused]
    exact ⟨Option.some_ne_none _, Or.inr ⟨by rw [fresh]; rfl, by simp⟩⟩
  · have small : session.input.rest.length ≤ 0xFFFFFFFF := Nat.not_lt.mp large
    rw [or_iff_right large]
    match grants with
    | 0 =>
        have crashed : upGranted 0 dst session = (none, session) :=
          (Proc.bind_returned (Proc.gets_apply _ _)).trans (congrFun (if_neg large) session)
        rw [crashed]
        exact iff_of_false (not_safe_of_crash rfl) (by omega)
    | 1 =>
        refine (upTransferStarved_safe_iff dst fresh small).trans (and_congr_left fun _ => ?_)
        simp
    | grants + 2 =>
        have goes := @upWith_safe_iff session upTransfer dst (fun _ other command =>
          follows_upTransfer (fun packet count res chunk => otherThan_write (by rw [chunk, command]; decide))
            (otherThan_read other) _ _) fresh small
        rw [← up_with] at goes
        exact goes.trans (and_iff_right (Or.inl (by omega))).symm

theorem granted_safe_iff {grants bound : Nat} {command : Command Err}
    (safe : PathSafe path (command session) ↔ path.bytes.length + bound ≤ 1024) :
    PathSafe path (granted grants command session) ↔ 1 ≤ grants ∧ path.bytes.length + bound ≤ 1024 := by
  cases grants with
  | zero => exact iff_of_false (not_safe_of_crash rfl) (by omega)
  | succ grants => exact safe.trans (and_iff_right (by omega)).symm

end Commands

/-- The command gives up before it allocates anything. -/
def PathCommand.Refuses (session : Session) : PathCommand → Prop
  | .up _ => 0xFFFFFFFF < session.input.rest.length
  | _ => False

/-- Every packet that the run comes to use gets its memory. -/
def PathCommand.Provided (grants : Nat) (session : Session) : PathCommand → Prop
  | .up _ => 2 ≤ grants ∨ grants = 1 ∧ ¬ (session.UpAnswered ∧ session.input.rest ≠ [])
  | _ => 1 ≤ grants

/-- A path is handled safely as long as its request keeps the brick's limit and there is memory for it. -/
theorem pathSafe_iff (command : PathCommand) (grants : Nat) (writes : List Int) (reads : List ReadResult)
    (junk : Nat → Memory) (input : File) :
    PathSafe command.path (command.command grants { writes, reads, junk, input }) ↔
      command.Refuses { writes, reads, junk, input } ∨
        command.Provided grants { writes, reads, junk, input } ∧
          command.path.bytes.length + command.around ≤ 1024 := by
  have only {condition : Prop} : condition ↔ False ∨ condition := (false_or condition).symm ▸ Iff.rfl
  cases command with
  | up dst => exact upGranted_safe_iff grants dst rfl
  | dl path =>
      have safe := @retrieve_safe_iff { writes, reads, junk, input } dlRetrieval path 0x94 0x95 rfl rfl
        (fun handle => rfl) (by decide) rfl
      exact (granted_safe_iff safe).trans only
  | ls path =>
      have safe := @retrieve_safe_iff { writes, reads, junk, input } lsRetrieval path 0x99 0x9A rfl rfl
        (fun handle => rfl) (by decide) rfl
      exact (granted_safe_iff safe).trans only
  | rm path => exact (granted_safe_iff (pathCommand_safe_iff deleteFileInit rfl path _ _ _ _ rfl)).trans only
  | mkdir_ path => exact (granted_safe_iff (pathCommand_safe_iff createDirInit rfl path _ _ _ _ rfl)).trans only
  | run transport exec milliseconds =>
      exact (granted_safe_iff (run_safe_iff transport exec milliseconds rfl)).trans only

def repeated (length : Nat) : CString :=
  ⟨List.replicate length 0x61, fun member => absurd (List.eq_of_mem_replicate member) (by decide)⟩

/-- 1018 bytes are too many for the brick, and 70000 are too many for `packet_alloc`. -/
theorem rm_long_paths :
    ¬ PathSafe (repeated 1018) (PathCommand.command 2 (.rm (repeated 1018)) { writes := [1026], reads := [] }) ∧
      (PathCommand.command 2 (.rm (repeated 70000)) { writes := [], reads := [] }).1 = none := by
  have length (size : Nat) : (repeated size).bytes.length = size := List.length_replicate
  have short (size : Nat) (safe : PathSafe (repeated size)
      (PathCommand.command 2 (.rm (repeated size)) { writes := [1026], reads := [] })) : size + 7 ≤ 1024 := by
    have bound := (@pathCommand_safe_iff { writes := [1026], reads := [] } deleteFileInit rfl (repeated size)
      _ _ _ _ rfl).mp safe
    rwa [length] at bound
  have crashes (size : Nat) (long : ¬ 7 + (size + 1) < 65535) :
      (PathCommand.command 2 (.rm (repeated size)) { writes := [], reads := [] }).1 = none := by
    have null : packetAlloc deleteFileInit ((repeated size).bytes.length + 1) = none := by
      rw [length]
      exact if_neg long
    show (Ev3duder.rm (repeated size) { writes := [], reads := [] }).1 = none
    rw [rm, pathCommand, null]
    rfl
  exact ⟨fun safe => absurd (short 1018 safe) (by decide), crashes 70000 (by decide)⟩

end Ev3duder
