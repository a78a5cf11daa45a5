import Ev3duder.Commands.Fetched

namespace Ev3duder

open Data

/-! # Whether retrievals advance -/

section Loop

variable {kind : Retrieval} {reply : Reply} {writes : List Int} {reads : List ReadResult} {readSoFar total : UInt32}

theorem progress_succ (reply : Reply) (reads : List ReadResult) (readSoFar : UInt32) (count : Nat) :
    progress reply reads readSoFar (count + 1) =
      progress reply reads readSoFar count + (continuingSize (reply.after reads (count + 1)).len).toUInt32 := by
  induction count generalizing reply reads readSoFar with
  | zero => rfl
  | succ count ih =>
      rw [progress, ih]
      rfl

/-- The loop completes `count` passes. -/
structure LoopGoes (reply : Reply) (writes : List Int) (reads : List ReadResult) (readSoFar total : UInt32)
    (count : Nat) : Prop where
  answered : Answered writes reads count
  accepted : ∀ index, index < count → (reply.after reads (index + 1)).memory 4 ≠ vmError
  below : ∀ index, index < count → progress reply reads readSoFar index < total

theorem loopGoes_zero : LoopGoes reply writes reads readSoFar total 0 :=
  ⟨answeredBy_zero _ _ _, by omega, by omega⟩

theorem loopGoes_succ {count : Nat} (below : readSoFar < total)
    (answered : 0 ≤ writes.headD (-1) ∧ 0 < (reads.headD (.received [])).res)
    (accepted : (reply.receive (reads.headD (.received []))).memory 4 ≠ vmError)
    (rest : LoopGoes (reply.receive (reads.headD (.received []))) writes.tail reads.tail
      (readSoFar + (continuingSize (reply.receive (reads.headD (.received []))).len).toUInt32) total count) :
    LoopGoes reply writes reads readSoFar total (count + 1) := by
  refine ⟨answeredBy_succ.mpr ⟨answered, rest.answered⟩, ?_, ?_⟩
  · intro index bound
    cases index with
    | zero => exact accepted
    | succ index => exact rest.accepted index (by omega)
  · intro index bound
    cases index with
    | zero => exact below
    | succ index => exact rest.below index (by omega)

/-- How the loop leaves the function after its last complete pass: with nothing more to get, with a request that is
refused, or with a reply that is none or an error. -/
inductive LoopLeaves (reply : Reply) (writes : List Int) (reads : List ReadResult) (readSoFar total : UInt32)
    (count : Nat) : List Event → Prop where
  | complete (reached : ¬ progress reply reads readSoFar count < total) :
      LoopLeaves reply writes reads readSoFar total count []
  | refused {packet : Bytes} {size : Nat} (below : progress reply reads readSoFar count < total)
      (failed : writes.getD count (-1) < 0) :
      LoopLeaves reply writes reads readSoFar total count [.write packet size (writes.getD count (-1))]
  | denied {packet : Bytes} {size chunk : Nat} {res milliseconds : Int}
      (below : progress reply reads readSoFar count < total)
      (failed : (reads.getD count (.received [])).res ≤ 0 ∨ (reply.after reads (count + 1)).memory 4 = vmError) :
      LoopLeaves reply writes reads readSoFar total count
        [.write packet size res, .read chunk milliseconds (reads.getD count (.received []))]

theorem loopLeaves_succ {count : Nat} {last : List Event}
    (leaves : LoopLeaves (reply.receive (reads.headD (.received []))) writes.tail reads.tail
      (readSoFar + (continuingSize (reply.receive (reads.headD (.received []))).len).toUInt32) total count last) :
    LoopLeaves reply writes reads readSoFar total (count + 1) last := by
  cases leaves with
  | complete reached => exact .complete reached
  | refused below failed =>
      rw [tail_getD] at failed ⊢
      exact .refused below failed
  | denied below failed =>
      rw [tail_getD] at failed ⊢
      exact .denied below failed

theorem retrieveLoop_leaves (kind : Retrieval) (handle : UInt8) {session : Session} (below : readSoFar < total)
    (stops : ¬ ((0 ≤ session.writeResult ∧ 0 < session.readResult.res) ∧
      (reply.receive session.readResult).memory 4 ≠ vmError)) :
    ∃ last, (retrieveLoop kind handle reply readSoFar total session).2.log = session.log ++ last ∧
      LoopLeaves reply session.writes session.reads readSoFar total 0 last := by
  have ran := @transact_run (kind.more handle) kind.moreSize kind.fileChunksz ("Unable to write " ++ kind.continuing)
    ("Unable to read " ++ kind.continuing ++ "_REPLY") reply timeout session
  rw [retrieveLoop, if_pos below]
  by_cases refused : session.writeResult < 0
  · rw [if_pos refused] at ran
    split <;> rename_i asked <;> rw [ran] at asked <;> cases asked
    refine ⟨_, Session.afterWrite_log session _ _, ?_⟩
    rw [Session.writeResult, List.headD_eq_getD] at refused ⊢
    exact .refused below refused
  · rw [if_neg refused] at ran
    by_cases silent : session.readResult.res ≤ 0
    · rw [if_pos silent] at ran
      split <;> rename_i asked <;> rw [ran] at asked <;> cases asked
      refine ⟨_, Session.afterTransact_log, ?_⟩
      rw [Session.readResult, List.headD_eq_getD] at silent ⊢
      exact .denied below (Or.inl silent)
    · rw [if_neg silent] at ran
      have error : (reply.receive session.readResult).memory 4 = vmError :=
        Classical.byContradiction fun accepted => stops ⟨⟨by omega, by omega⟩, accepted⟩
      split <;> rename_i asked <;> rw [ran] at asked <;> cases asked
      have kept := continuingReply_quiet kind (reply.receive session.readResult)
        (session.afterTransact (kind.more handle) kind.moreSize kind.fileChunksz timeout)
      obtain ⟨after, used⟩ := continuingReply_denied kind
        (session.afterTransact (kind.more handle) kind.moreSize kind.fileChunksz timeout) error
      rw [used] at kept
      split <;> rename_i other <;> rw [used] at other <;> cases other
      refine ⟨_, kept.trans Session.afterTransact_log, ?_⟩
      rw [Session.readResult, List.headD_eq_getD]
      exact .denied below (Or.inr error)

/-- Every run of the loop: some passes, and a way to leave. -/
theorem retrieveLoop_trace (kind : Retrieval) (handle : UInt8) (session : Session) :
    ∃ count last, LoopGoes reply session.writes session.reads readSoFar total count ∧
      (retrieveLoop kind handle reply readSoFar total session).2.log =
        session.log ++ passEvents kind reply handle session.writes session.reads count ++ last ∧
      LoopLeaves reply session.writes session.reads readSoFar total count last := by
  generalize left : session.reads.length = size
  induction size using Nat.strongRecOn generalizing handle reply readSoFar session with
  | ind size ih =>
    by_cases below : readSoFar < total
    · by_cases goes : (0 ≤ session.writeResult ∧ 0 < session.readResult.res) ∧
          (reply.receive session.readResult).memory 4 ≠ vmError
      · obtain ⟨answered, accepted⟩ := goes
        have shorter : (session.afterPass kind handle reply).reads.length < size :=
          left ▸ Session.reads_shorter answered.2
        obtain ⟨count, last, rest, logged, leaves⟩ := @ih _ shorter (reply.receive session.readResult)
          (readSoFar + (continuingSize (reply.receive session.readResult).len).toUInt32)
          ((reply.receive session.readResult).memory 7) (session.afterPass kind handle reply) rfl
        refine ⟨count + 1, last, loopGoes_succ below answered accepted rest, ?_, loopLeaves_succ leaves⟩
        rw [retrieveLoop_pass below answered accepted, logged, Session.afterPass_log, passEvents]
        simp only [List.append_assoc, List.cons_append, List.nil_append]
        rfl
      · obtain ⟨last, logged, leaves⟩ := retrieveLoop_leaves kind handle below goes
        refine ⟨0, last, loopGoes_zero, ?_, leaves⟩
        rw [logged, passEvents, List.append_nil]
    · obtain ⟨after, run, _, log⟩ := retrieveLoop_done kind handle reply session below
      refine ⟨0, [], loopGoes_zero, ?_, .complete below⟩
      rw [run, passEvents, List.append_nil, List.append_nil]
      exact log

end Loop

section Counts

variable {reply : Reply} {writes : List Int} {reads : List ReadResult} {readSoFar total : UInt32}

def requests (log : List Event) : Nat := (log.filterMap Event.written).length

def replies (log : List Event) : Nat := (log.filterMap Event.answer).length

theorem requests_append (front back : List Event) : requests (front ++ back) = requests front + requests back := by
  rw [requests, List.filterMap_append, List.length_append, requests, requests]

theorem replies_append (front back : List Event) : replies (front ++ back) = replies front + replies back := by
  rw [replies, List.filterMap_append, List.length_append, replies, replies]

theorem passEvents_counts (kind : Retrieval) (reply : Reply) (handle : UInt8) (writes : List Int)
    (reads : List ReadResult) (count : Nat) :
    requests (passEvents kind reply handle writes reads count) = count ∧
      replies (passEvents kind reply handle writes reads count) = count := by
  constructor
  · induction count generalizing reply handle writes reads with
    | zero => rfl
    | succ count ih =>
        rw [passEvents, requests, List.filterMap_cons, List.filterMap_cons]
        exact congrArg (· + 1) (ih _ _ _ _)
  · rw [replies, passEvents_answer, List.length_map, List.length_range]

/-- The loop asks once more exactly if something is missing, and what is read then is no good. -/
theorem LoopLeaves.counts {count : Nat} {last : List Event}
    (leaves : LoopLeaves reply writes reads readSoFar total count last) :
    (¬ progress reply reads readSoFar count < total ∧ requests last = 0 ∧ replies last = 0) ∨
      (progress reply reads readSoFar count < total ∧ requests last = 1 ∧
        (replies last = 0 ∨ replies last = 1 ∧ ¬ (0 < (reads.getD count (.received [])).res ∧
          (reply.after reads (count + 1)).memory 4 ≠ vmError))) := by
  cases leaves with
  | complete reached => exact Or.inl ⟨reached, rfl, rfl⟩
  | refused below failed => exact Or.inr ⟨below, rfl, Or.inl rfl⟩
  | denied below failed =>
      refine Or.inr ⟨below, rfl, Or.inr ⟨rfl, ?_⟩⟩
      rintro ⟨read, accepted⟩
      rcases failed with silent | error
      · omega
      · exact accepted error

/-- No more passes are possible than those made. -/
theorem LoopLeaves.last {count more : Nat} {last : List Event}
    (leaves : LoopLeaves reply writes reads readSoFar total count last)
    (goes : LoopGoes reply writes reads readSoFar total more) : more ≤ count := by
  apply Classical.byContradiction
  intro beyond
  have inside : count < more := Nat.not_le.mp beyond
  cases leaves with
  | complete reached => exact reached (goes.below count inside)
  | refused below failed => exact absurd (goes.answered count inside).1 (Int.not_le.mpr failed)
  | denied below failed =>
      rcases failed with silent | error
      · exact absurd (goes.answered count inside).2 (Int.not_lt.mpr silent)
      · exact goes.accepted count inside error

end Counts

/-- Exchange number `index` brings a reply that is no error. -/
structure Session.Brings (session : Session) (index : Nat) : Prop where
  written : 0 ≤ session.writes.getD index (-1)
  read : 0 < (session.reads.getD index (.received [])).res
  accepted : (session.buffer index).memory 4 ≠ vmError

/-- `read_so_far` after `index` passes. -/
def Session.soFar (session : Session) (index : Nat) : UInt32 :=
  progress session.opening session.reads.tail (openingSize session.opening.len) index

/-- A pass adds the length of the payload to `read_so_far`, which rises and does not wrap. -/
structure Session.Rises (session : Session) (index : Nat) : Prop where
  higher : (session.soFar index).toNat < (session.soFar (index + 1)).toNat
  sum : (session.soFar (index + 1)).toNat =
    (session.soFar index).toNat + (continuingSize (session.buffer (index + 1)).len).toNat

/-- After the first request there are no more than bytes were announced, and with every reply that is no error
`read_so_far` rises. -/
structure Advances (session : Session) (run : Option Err × Session) : Prop where
  requests : requests run.2.log ≤ 1 + session.opening.announced.toNat
  rises : ∀ index, index + 1 < replies run.2.log → 0 < (session.reads.getD (index + 1) (.received [])).res →
    (session.buffer (index + 1)).memory 4 ≠ vmError → session.Rises index

section Whole

variable {kind : Retrieval} {path : CString} {session : Session}

def Session.LoopGoes (session : Session) (count : Nat) : Prop :=
  Ev3duder.LoopGoes session.opening session.writes.tail session.reads.tail (openingSize session.opening.len)
    session.opening.announced count

theorem retrieve_trace (kind : Retrieval) (fresh : session.log = [])
    (fits : Packet.size PathRequest + (path.bytes.length + 1) < 65535) (first : session.Brings 0) :
    ∃ count last, session.LoopGoes count ∧ requests (retrieve kind path session).2.log = 1 + count + requests last ∧
      replies (retrieve kind path session).2.log = 1 + count + replies last ∧
      LoopLeaves session.opening session.writes.tail session.reads.tail (openingSize session.opening.len)
        session.opening.announced count last := by
  have answered : 0 ≤ session.writeResult ∧ 0 < session.readResult.res := by
    rw [Session.writeResult, Session.readResult, List.headD_eq_getD, List.headD_eq_getD]
    exact ⟨first.written, first.read⟩
  have accepted : session.opening.memory 4 ≠ vmError := opening_eq session ▸ first.accepted
  obtain ⟨count, last, goes, logged, leaves⟩ :=
    @retrieveLoop_trace session.opening (openingSize session.opening.len) session.opening.announced kind
      (session.opening.memory 11) (session.opened kind path)
  obtain ⟨asked, got⟩ := passEvents_counts kind session.opening (session.opening.memory 11)
    (session.opened kind path).writes (session.opened kind path).reads count
  refine ⟨count, last, goes, ?_, ?_, leaves⟩
  · rw [retrieve_opened kind session fits answered accepted, logged, Session.opened_log, fresh, requests_append,
      requests_append, asked]
    rfl
  · rw [retrieve_opened kind session fits answered accepted, logged, Session.opened_log, fresh, replies_append,
      replies_append, got]
    rfl

theorem retrieve_closed (kind : Retrieval) (fresh : session.log = [])
    (closed : ¬ (Packet.size PathRequest + (path.bytes.length + 1) < 65535 ∧ session.Brings 0)) :
    requests (retrieve kind path session).2.log ≤ 1 ∧ replies (retrieve kind path session).2.log ≤ 1 := by
  have clean : session.afterMalloc.log = [] := fresh
  by_cases fits : Packet.size PathRequest + (path.bytes.length + 1) < 65535
  · have ran := @exchange_run _ _ (openingRequest kind path) ("Unable to write " ++ kind.opening ++ ".")
      ("Unable to read " ++ kind.opening) ⟨session.junk 0, 0⟩ kind.fileChunksz timeout session.afterMalloc
    rw [retrieve_begins kind session fits]
    by_cases refused : session.afterMalloc.writeResult < 0
    · rw [if_pos refused] at ran
      rw [Proc.bind_returned ran]
      simp only [Proc.pure_apply, Session.afterWrite, clean, List.nil_append]
      exact ⟨Nat.le_refl 1, Nat.zero_le 1⟩
    · rw [if_neg refused] at ran
      by_cases silent : session.afterMalloc.readResult.res ≤ 0
      · rw [if_pos silent] at ran
        rw [Proc.bind_returned ran]
        simp only [Proc.pure_apply, Session.afterExchange_log, clean, List.nil_append]
        exact ⟨Nat.le_refl 1, Nat.le_refl 1⟩
      · rw [if_neg silent] at ran
        have error : session.opening.memory 4 = vmError := by
          apply Classical.byContradiction
          intro accepted
          refine closed ⟨fits, ?_, ?_, ?_⟩
          · rw [← List.headD_eq_getD]
            exact Int.not_lt.mp refused
          · rw [← List.headD_eq_getD]
            exact Int.not_le.mp silent
          · rw [← opening_eq]
            exact accepted
        obtain ⟨after, run, log⟩ := openingReply_denied kind session.opening
          (session.afterMalloc.afterExchange (openingRequest kind path) kind.fileChunksz timeout) error
        rw [Proc.bind_returned ran]
        show requests (openingReply kind session.opening _).2.log ≤ 1 ∧
          replies (openingReply kind session.opening _).2.log ≤ 1
        rw [run, log, Session.afterExchange_log, clean]
        exact ⟨Nat.le_refl 1, Nat.le_refl 1⟩
  · have null : packetAlloc kind.init (path.bytes.length + 1) = none := if_neg fits
    rw [retrieve, null]
    simp [fresh, requests, replies]

/-- The bytes that the first replies carry by their own account, without any wrapping. -/
def Session.counted (session : Session) (index : Nat) : Nat :=
  (openingSize session.opening.len).toNat +
    ((List.range index).map fun pass => (session.buffer (pass + 1)).len.toNat + 2 - continueUploadReplySize).sum

theorem counted_succ (session : Session) (index : Nat) :
    session.counted (index + 1) =
      session.counted index + ((session.buffer (index + 1)).len.toNat + 2 - continueUploadReplySize) := by
  rw [Session.counted, List.range_succ, List.map_append, List.sum_append, ← Nat.add_assoc]
  simp [Session.counted]

/-- Every reply that the loop asks for, being no error, has a payload of its own, and the sum stays below `2 ^ 32`. -/
def Session.Feeds (path : CString) (session : Session) : Prop :=
  Packet.size PathRequest + (path.bytes.length + 1) < 65535 → ∀ index,
    (∀ earlier, earlier ≤ index + 1 → session.Brings earlier) →
    (∀ earlier, earlier ≤ index → session.counted earlier < session.opening.announced.toNat) →
      7 ≤ (session.buffer (index + 1)).len.toNat ∧ session.counted (index + 1) < 2 ^ 32

theorem rise_iff (session : Session) (index : Nat) :
    session.Rises index ↔
      7 ≤ (session.buffer (index + 1)).len.toNat ∧
        (session.soFar index).toNat + ((session.buffer (index + 1)).len.toNat + 2 - continueUploadReplySize) <
          2 ^ 32 := by
  have step : session.soFar (index + 1) =
      session.soFar index + (continuingSize (session.buffer (index + 1)).len).toUInt32 := progress_succ _ _ _ _
  have bound : (session.buffer (index + 1)).len.toNat < 65536 := (session.buffer (index + 1)).len.toNat_lt
  have next := (session.soFar (index + 1)).toNat_lt
  have here := (session.soFar index).toNat_lt
  have unfolded : session.Rises index ↔ (session.soFar index).toNat < (session.soFar (index + 1)).toNat ∧
      (session.soFar (index + 1)).toNat =
        (session.soFar index).toNat + (continuingSize (session.buffer (index + 1)).len).toNat :=
    ⟨fun rises => ⟨rises.higher, rises.sum⟩, fun parts => ⟨parts.1, parts.2⟩⟩
  rw [unfolded]
  generalize (session.buffer (index + 1)).len = packetLen at *
  have header : continueUploadReplySize = 8 := rfl
  by_cases short : packetLen.toNat < 6
  · -- The length of the payload is computed as a number just below `2 ^ 64`.
    have huge : 2 ^ 32 ≤ (continuingSize packetLen).toNat := by
      have sum : (packetLen.toUInt64 + 2).toNat = packetLen.toNat + 2 := by
        rw [UInt64.toNat_add]
        change (packetLen.toNat + 2) % 2 ^ 64 = _
        omega
      rw [continuingSize, UInt64.toNat_sub, sum]
      have eight : (UInt64.ofNat continueUploadReplySize).toNat = 8 := rfl
      rw [eight]
      omega
    constructor
    · rintro ⟨higher, sum⟩
      omega
    · rintro ⟨long, _⟩
      omega
  · have size := @continuingSize_eq packetLen (by omega)
    rw [header] at size ⊢
    have wrapped : (session.soFar (index + 1)).toNat =
        ((session.soFar index).toNat + (packetLen.toNat + 2 - 8)) % 2 ^ 32 := by
      rw [step, UInt32.toNat_add, UInt64.toNat_toUInt32, size]
      omega
    rw [size]
    constructor
    · rintro ⟨higher, sum⟩
      omega
    · rintro ⟨long, small⟩
      omega

theorem Session.Rises.counted {index : Nat} (rises : session.Rises index)
    (here : (session.soFar index).toNat = session.counted index) :
    (session.soFar (index + 1)).toNat = session.counted (index + 1) := by
  obtain ⟨long, _⟩ := (rise_iff session index).mp rises
  have header : continueUploadReplySize = 8 := rfl
  rw [rises.sum, here, counted_succ, continuingSize_eq (by omega)]

/-- As long as it rises, `read_so_far` is what it is meant to be. -/
theorem soFar_counted {index : Nat} (rises : ∀ earlier, earlier < index → session.Rises earlier) :
    (session.soFar index).toNat = session.counted index := by
  induction index with
  | zero => rfl
  | succ index ih =>
      have here := ih fun earlier before => rises earlier (by omega)
      exact (rises index (by omega)).counted here

theorem soFar_ge {index : Nat} (rises : ∀ earlier, earlier < index → session.Rises earlier) :
    index ≤ (session.soFar index).toNat := by
  induction index with
  | zero => exact Nat.zero_le _
  | succ index ih =>
      have here := ih fun earlier before => rises earlier (by omega)
      have higher := (rises index (by omega)).higher
      omega

theorem loopGoes_iff {count : Nat} :
    session.LoopGoes count ↔ ∀ index, index < count →
      session.Brings (index + 1) ∧ (session.soFar index).toNat < session.opening.announced.toNat := by
  constructor
  · intro goes index inside
    have answered := goes.answered index inside
    rw [tail_getD, tail_getD] at answered
    exact ⟨⟨answered.1, answered.2, goes.accepted index inside⟩, UInt32.lt_iff_toNat_lt.mp (goes.below index inside)⟩
  · intro passes
    refine ⟨?_, ?_, ?_⟩
    · intro index inside
      rw [tail_getD, tail_getD]
      exact ⟨(passes index inside).1.written, (passes index inside).1.read⟩
    · intro index inside
      exact (passes index inside).1.accepted
    · intro index inside
      exact UInt32.lt_iff_toNat_lt.mpr (passes index inside).2

theorem advances_of_closed (kind : Retrieval) (fresh : session.log = [])
    (closed : ¬ (Packet.size PathRequest + (path.bytes.length + 1) < 65535 ∧ session.Brings 0)) :
    Advances session (retrieve kind path session) := by
  obtain ⟨asked, got⟩ := retrieve_closed kind fresh closed
  refine ⟨by omega, ?_⟩
  intro index answered
  omega

theorem feeds_of_advances {kind : Retrieval} (fresh : session.log = [])
    (advances : Advances session (retrieve kind path session)) : session.Feeds path := by
  intro fits index brings below
  obtain ⟨count, last, goes, _, got, leaves⟩ := retrieve_trace kind fresh fits (brings 0 (by omega))
  -- As the replies are good and the sum is too small, each of these passes is made, and so each rises.
  have made : ∀ passes, passes ≤ index + 1 →
      session.LoopGoes passes ∧ ∀ earlier, earlier < passes → session.Rises earlier := by
    intro passes
    induction passes with
    | zero =>
        intro _
        exact ⟨loopGoes_zero, by omega⟩
    | succ passes ih =>
        intro bound
        obtain ⟨before, rises⟩ := ih (by omega)
        have good := brings (passes + 1) bound
        have more : session.LoopGoes (passes + 1) := by
          rw [loopGoes_iff] at before ⊢
          intro earlier inside
          by_cases new : earlier = passes
          · subst new
            refine ⟨good, ?_⟩
            rw [soFar_counted rises]
            exact below earlier (by omega)
          · exact before earlier (by omega)
        have within := leaves.last more
        refine ⟨more, ?_⟩
        intro earlier inside
        by_cases new : earlier = passes
        · subst new
          exact advances.rises earlier (by omega) good.read good.accepted
        · exact rises earlier (by omega)
  have rises := (made (index + 1) (Nat.le_refl _)).2
  obtain ⟨long, _⟩ := (rise_iff session index).mp (rises index (by omega))
  refine ⟨long, ?_⟩
  rw [← soFar_counted rises]
  exact (session.soFar (index + 1)).toNat_lt

theorem rises_of_feeds {count : Nat} (feeds : session.Feeds path)
    (fits : Packet.size PathRequest + (path.bytes.length + 1) < 65535) (first : session.Brings 0)
    (goes : session.LoopGoes count) : ∀ index, index < count → session.Rises index := by
  have passes := loopGoes_iff.mp goes
  intro index
  induction index using Nat.strongRecOn with
  | ind index ih =>
      intro inside
      have before : ∀ earlier, earlier < index → session.Rises earlier := fun earlier less =>
        ih earlier less (by omega)
      have brings : ∀ earlier, earlier ≤ index + 1 → session.Brings earlier := by
        intro earlier within
        cases earlier with
        | zero => exact first
        | succ earlier => exact (passes earlier (by omega)).1
      have below : ∀ earlier, earlier ≤ index → session.counted earlier < session.opening.announced.toNat := by
        intro earlier within
        rw [← soFar_counted fun pass less => before pass (by omega)]
        exact (passes earlier (by omega)).2
      obtain ⟨long, small⟩ := feeds fits index brings below
      rw [counted_succ, ← soFar_counted before] at small
      exact (rise_iff session index).mpr ⟨long, small⟩

theorem advances_of_feeds (kind : Retrieval) (fresh : session.log = []) (feeds : session.Feeds path)
    (fits : Packet.size PathRequest + (path.bytes.length + 1) < 65535) (first : session.Brings 0) :
    Advances session (retrieve kind path session) := by
  obtain ⟨count, last, goes, asked, got, leaves⟩ := retrieve_trace kind fresh fits first
  have rises := rises_of_feeds feeds fits first goes
  have below := loopGoes_iff.mp goes
  constructor
  · rw [asked]
    rcases leaves.counts with ⟨_, none, _⟩ | ⟨missing, one, _⟩
    · cases count with
      | zero => omega
      | succ count =>
          have least := soFar_ge fun earlier (before : earlier < count) => rises earlier (by omega)
          have under := (below count (by omega)).2
          omega
    · have least := soFar_ge rises
      have under : (session.soFar count).toNat < session.opening.announced.toNat := UInt32.lt_iff_toNat_lt.mp missing
      omega
  · intro index answered read accepted
    rcases leaves.counts with ⟨_, _, none⟩ | ⟨_, _, none | ⟨one, bad⟩⟩
    · exact rises index (by omega)
    · exact rises index (by omega)
    · by_cases final : index = count
      · subst final
        rw [tail_getD] at bad
        exact absurd ⟨read, accepted⟩ bad
      · exact rises index (by omega)

theorem retrieve_advances (kind : Retrieval) (path : CString) (fresh : session.log = []) :
    Advances session (retrieve kind path session) ↔ session.Feeds path := by
  constructor
  · exact feeds_of_advances fresh
  · intro feeds
    by_cases opens : Packet.size PathRequest + (path.bytes.length + 1) < 65535 ∧ session.Brings 0
    · exact advances_of_feeds kind fresh feeds opens.1 opens.2
    · exact advances_of_closed kind fresh opens

/-- Both loops get on exactly if each further reply has a payload and the sum of the payloads needs no more than 32
bits. -/
theorem dl_ls_advance_iff (path : CString) (session : Session) (fresh : session.log = []) :
    (Advances session (dl path session) ↔ session.Feeds path) ∧
      (Advances session (ls path session) ↔ session.Feeds path) :=
  ⟨retrieve_advances dlRetrieval path fresh, retrieve_advances lsRetrieval path fresh⟩

theorem dl_ls_advance_two_replies :
    let session : Session := {
      writes := [0, 0]
      reads := [.received [11, 0, 0, 0, 3, 0x94, 0, 2, 0, 0, 0, 1, 0x68], .received [7, 0, 1, 0, 3, 0x95, 0, 1, 0x69]] }
    Advances session (dl (cstr [0x61]) session) ∧ Advances session (ls (cstr [0x61]) session) := by
  intro session
  have feeds : session.Feeds (cstr [0x61]) := by
    intro _ index _ below
    cases index with
    | zero => decide +kernel
    | succ index => exact absurd (below 1 (by omega)) (by decide +kernel)
  have both := dl_ls_advance_iff (cstr [0x61]) session rfl
  exact ⟨both.1.mpr feeds, both.2.mpr feeds⟩

/-- A brick that announces one byte and never sends it is asked for it as long as it answers. -/
theorem retrieve_empty_replies :
    ¬ ∀ (path : CString) (session : Session), session.log = [] →
      Advances session (dl path session) ∧ Advances session (ls path session) := by
  intro claim
  have asked := (claim (cstr [0x61]) {
    writes := [0, 0, 0, 0]
    reads := [.received [10, 0, 0, 0, 3, 0x94, 0, 1, 0, 0, 0, 1], .received [6, 0, 1, 0, 3, 0x95, 0, 1],
      .received [6, 0, 2, 0, 3, 0x95, 0, 1], .received [6, 0, 3, 0, 3, 0x95, 0, 1]] } rfl).1.requests
  revert asked
  decide +kernel

end Whole

end Ev3duder
