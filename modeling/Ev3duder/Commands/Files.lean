import Ev3duder.Commands.Brick

namespace Ev3duder

open Data

/-! # The brick as a store of files

What uploads, downloads and deletions are for: a map from names to contents, which any number of them keeps.
-/

/-- Contents under names, none of them longer than the protocol can say. -/
structure FileStore where
  files : Bytes → Option Bytes
  small : ∀ name content, files name = some content → content.length < 2 ^ 32

namespace FileStore

def put (store : FileStore) (name content : Bytes) (small : content.length < 2 ^ 32) : FileStore where
  files := Function.update store.files name (some content)
  small other kept found := by
    by_cases same : other = name
    · rw [same, Function.update_self] at found
      cases found
      exact small
    · rw [Function.update_of_ne same] at found
      exact store.small other kept found

def remove (store : FileStore) (name : Bytes) : FileStore where
  files := Function.update store.files name none
  small other kept found := by
    by_cases same : other = name
    · rw [same, Function.update_self] at found
      cases found
    · rw [Function.update_of_ne same] at found
      exact store.small other kept found

end FileStore

/-- An operation on the brick's files.  What is stored has a length that fits its field. -/
inductive FileOp where
  | up (path : CString) (content : Bytes) (small : content.length < 2 ^ 32)
  | dl (path : CString)
  | rm (path : CString)

/-- What the user sees of an operation: its status, and what it fetched. -/
structure Outcome where
  err : Err
  fetched : Option Bytes
  deriving DecidableEq

namespace FileOp

def path : FileOp → CString
  | .up path .. | .dl path | .rm path => path

def command : FileOp → Command Err
  | .up path .. => Ev3duder.up path
  | .dl path => Ev3duder.dl path
  | .rm path => Ev3duder.rm path

/-- The local file that is read. -/
def input : FileOp → Bytes
  | .up _ content _ => content
  | .dl _ | .rm _ => []

def apply (store : FileStore) : FileOp → FileStore
  | .up path content small => store.put path.bytes content small
  | .dl _ => store
  | .rm path => store.remove path.bytes

def outcome (store : FileStore) : FileOp → Outcome
  | .up .. => ⟨.unk, none⟩
  | .dl path =>
      match store.files path.bytes with
      | none => ⟨.vm, none⟩
      | some content => ⟨.unk, some content⟩
  | .rm path => ⟨if (store.files path.bytes).isSome then .unk else .vm, none⟩

/-- The brick has the name, and the path leaves the length field of every packet with a path room. -/
def Fits (names : CString → Prop) (op : FileOp) : Prop :=
  names op.path ∧ Packet.size BeginDownload + (op.path.bytes.length + 1) < 65535

end FileOp

def outcomes (store : FileStore) : List FileOp → List Outcome
  | [] => []
  | op :: ops => op.outcome store :: outcomes (op.apply store) ops

variable {σ : Type}

/-- The programs run one after the other against the brick. -/
inductive Serves (brick : Brick σ) : σ → List FileOp → List Outcome → σ → Prop where
  | done (state : σ) : Serves brick state [] [] state
  | next {state middle after : σ} {op : FileOp} {outcome : Outcome} {ops : List FileOp} {later : List Outcome}
      (conducted : Conducts brick state op.command op.input outcome.err outcome.fetched middle)
      (rest : Serves brick middle ops later after) : Serves brick state (op :: ops) (outcome :: later) after

section Refinement

variable {brick : Brick σ} (keeps : KeepsFiles brick)

/-- One operation on the brick is one operation on the store. -/
theorem KeepsFiles.op_refines (op : FileOp) {state : σ} {store : FileStore} (agree : brick.files state = store.files)
    (fits : op.Fits keeps.Names) :
    ∃ after, Conducts brick state op.command op.input (op.outcome store).err (op.outcome store).fetched after ∧
      brick.files after = (op.apply store).files := by
  obtain ⟨name, room⟩ := fits
  have room : 11 + (op.path.bytes.length + 1) < 65535 := room
  cases op with
  | up path content small =>
      obtain ⟨after, conducted, files⟩ := keeps.up_conducts state name small room
      rw [agree] at files
      exact ⟨after, conducted, files⟩
  | dl path =>
      have name : keeps.Names path := name
      have shorter : Packet.size PathRequest + (path.bytes.length + 1) < 65535 := by
        show 9 + (path.bytes.length + 1) < 65535
        simp only [FileOp.path] at room
        omega
      cases found : store.files path.bytes with
      | none =>
          obtain ⟨after, refused, same⟩ := keeps.dl_refused name (by rw [agree, found]) shorter
          refine ⟨after, ?_, same.trans agree⟩
          simpa only [FileOp.outcome, FileOp.command, FileOp.input, found] using refused
      | some content =>
          obtain ⟨after, fetched, same⟩ :=
            keeps.dl_conducts name (by rw [agree, found]) (store.small _ _ found) shorter
          refine ⟨after, ?_, same.trans agree⟩
          simpa only [FileOp.outcome, FileOp.command, FileOp.input, found] using fetched
  | rm path =>
      obtain ⟨after, deleted, files⟩ := keeps.rm_conducts state name (by
        show 7 + (path.bytes.length + 1) < 65535
        simp only [FileOp.path] at room
        omega)
      rw [agree] at deleted files
      exact ⟨after, deleted, files⟩

theorem KeepsFiles.serves_outcomes (ops : List FileOp) {state : σ} {store : FileStore}
    (agree : brick.files state = store.files) (fits : ∀ op ∈ ops, op.Fits keeps.Names) :
    ∃ after, Serves brick state ops (outcomes store ops) after ∧
      brick.files after = (ops.foldl FileOp.apply store).files := by
  induction ops generalizing state store with
  | nil => exact ⟨state, .done state, agree⟩
  | cons op ops ih =>
      obtain ⟨middle, conducted, kept⟩ := keeps.op_refines op agree (fits op List.mem_cons_self)
      obtain ⟨after, served, files⟩ := ih kept fun other member => fits other (List.mem_cons_of_mem _ member)
      exact ⟨after, .next conducted served, files⟩

end Refinement

section LastUpload

variable {store : FileStore} {path : CString} {content : Bytes}

/-- Downloads change nothing, other operations only what is under their own name. -/
theorem apply_other (op : FileOp) (other : op.path.bytes = path.bytes → op = .dl op.path) :
    (op.apply store).files path.bytes = store.files path.bytes := by
  cases op with
  | up name content small =>
      have different : path.bytes ≠ name.bytes := fun same => nomatch other same.symm
      exact Function.update_of_ne different _ _
  | dl name => rfl
  | rm name =>
      have different : path.bytes ≠ name.bytes := fun same => nomatch other same.symm
      exact Function.update_of_ne different _ _

theorem foldl_other (ops : List FileOp) (others : ∀ op ∈ ops, op.path.bytes = path.bytes → op = .dl op.path) :
    (ops.foldl FileOp.apply store).files path.bytes = store.files path.bytes := by
  induction ops generalizing store with
  | nil => rfl
  | cons op ops ih =>
      rw [List.foldl_cons, ih fun other member => others other (List.mem_cons_of_mem _ member),
        apply_other op (others op List.mem_cons_self)]

theorem outcomes_append (early late : List FileOp) :
    outcomes store (early ++ late) = outcomes store early ++ outcomes (early.foldl FileOp.apply store) late := by
  induction early generalizing store with
  | nil => rfl
  | cons op ops ih => exact congrArg (op.outcome store :: ·) ih

/-- In the store a download brings what was last put under its name. -/
theorem outcomes_last_upload (before between : List FileOp) (small : content.length < 2 ^ 32)
    (others : ∀ op ∈ between, op.path.bytes = path.bytes → op = .dl op.path) :
    ∃ earlier, outcomes store (before ++ [FileOp.up path content small] ++ between ++ [FileOp.dl path]) =
      earlier ++ [⟨.unk, some content⟩] := by
  have kept : ((before ++ [FileOp.up path content small] ++ between).foldl FileOp.apply store).files path.bytes =
      some content := by
    rw [List.foldl_append, foldl_other between others, List.foldl_append]
    exact Function.update_self _ _ _
  refine ⟨outcomes store (before ++ [FileOp.up path content small] ++ between), ?_⟩
  rw [outcomes_append, outcomes, FileOp.outcome, kept]
  rfl

end LastUpload

/-- A brick that has a single file open at a time, under the handle 0. -/
structure Shelf where
  files : Bytes → Option Bytes
  incoming : Bytes := []
  outgoing : Bytes := []

namespace Shelf

def reply (cmd : UInt8) (chunk : Bytes) : BrickReply := ⟨0, vmOk, cmd, 0, 0, chunk, by decide⟩

def refusal (cmd : UInt8) : Bytes := [5, 0, 0, 0, vmError, cmd, 5]

def name (operands : Bytes) : Bytes := (cstr operands).bytes

def open_ (shelf : Shelf) (path : Bytes) (count : Nat) : Shelf × Bytes :=
  match shelf.files path with
  | none => (shelf, refusal 0x94)
  | some content =>
      ({ shelf with outgoing := content.drop count }, (reply 0x94 (content.take count)).opening content.length)

def delete (shelf : Shelf) (path : Bytes) : Shelf × Bytes :=
  ({ shelf with files := Function.update shelf.files path none },
    if (shelf.files path).isSome then [5, 0, 0, 0, vmOk, 0x9C, 0] else refusal 0x9C)

/-- A file is there from its opening on, and grows with its chunks. -/
def step (shelf : Shelf) (packet : Bytes) : Shelf × Bytes :=
  match packet.drop 6 with
  | 0x92 :: operands =>
      ({ shelf with
          files := Function.update shelf.files (name (operands.drop 4)) (some [])
          incoming := name (operands.drop 4) }, (reply 0x92 []).continuing)
  | 0x93 :: 0 :: chunk =>
      ({ shelf with
          files := Function.update shelf.files shelf.incoming ((shelf.files shelf.incoming).map (· ++ chunk)) },
        (reply 0x93 []).continuing)
  | 0x94 :: operands => shelf.open_ (name (operands.drop 2)) (leValue (operands.take 2))
  | 0x95 :: 0 :: count =>
      ({ shelf with outgoing := shelf.outgoing.drop (leValue count) },
        (reply 0x95 (shelf.outgoing.take (leValue count))).continuing)
  | 0x9C :: operands => shelf.delete (name operands)
  | _ => (shelf, [])

end Shelf

def shelfBrick : Brick Shelf := ⟨Shelf.step, Shelf.files⟩

theorem shelf_name (path : CString) : Shelf.name (path.bytes ++ [0]) = path.bytes :=
  congrArg CString.bytes (cstr_terminated path [])

theorem shelf_asked (shelf : Shelf) (path : CString) {count : Nat} (small : count < 2 ^ 16) :
    shelf.step (systemCommand 0x94 (leBytes 2 count ++ (path.bytes ++ [0]))) = shelf.open_ path.bytes count := by
  have asked : shelf.step (systemCommand 0x94 (leBytes 2 count ++ (path.bytes ++ [0]))) =
      shelf.open_ (Shelf.name (path.bytes ++ [0])) (leValue (leBytes 2 count)) := rfl
  rw [asked, shelf_name, leValue_leBytes_of_lt small]

def Shelf.keepsFiles : KeepsFiles shelfBrick where
  Names _ := True
  Receives shelf handle coming := handle = 0 ∧ shelf.incoming = coming.path.bytes ∧
    shelf.files = Function.update coming.before coming.path.bytes (some coming.content)
  Sends shelf handle rest := handle = 0 ∧ shelf.outgoing = rest
  begin_download shelf path _ size _ := by
    refine ⟨Shelf.reply 0x92 [], _, rfl, rfl, rfl, shelf_name path, ?_⟩
    exact congrArg (fun name => Function.update shelf.files name (some [])) (shelf_name path)
  continue_download := by
    rintro shelf _ coming ⟨rfl, incoming, files⟩ chunk _ _ _
    refine ⟨Shelf.reply 0x93 [], _, rfl, rfl, rfl, rfl, incoming, ?_⟩
    show Function.update shelf.files shelf.incoming ((shelf.files shelf.incoming).map (· ++ chunk)) = _
    rw [incoming, files, Function.update_self, Function.update_idem]
    rfl
  received receives _ := receives.2.2
  begin_upload := by
    intro shelf path _ content kept count small
    refine ⟨Shelf.reply 0x94 (content.take count), content.drop count, { shelf with outgoing := content.drop count },
      List.take_append_drop count content, List.length_take_le count content, ?_, ⟨rfl, rfl⟩, rfl⟩
    have kept : shelf.files path.bytes = some content := kept
    refine (shelf_asked shelf path small).trans ?_
    rw [Shelf.open_, kept]
  continue_upload := by
    rintro shelf _ rest ⟨rfl, rfl⟩ more count positive small
    have nonempty := List.length_pos_iff.mpr more
    refine ⟨Shelf.reply 0x95 (shelf.outgoing.take count), shelf.outgoing.drop count,
      { shelf with outgoing := shelf.outgoing.drop count }, List.take_append_drop count shelf.outgoing, ?_,
      List.length_take_le count shelf.outgoing, ?_, ⟨rfl, rfl⟩, rfl⟩
    · show 1 ≤ (shelf.outgoing.take count).length
      rw [List.length_take]
      omega
    · have asked : shelf.step (systemCommand 0x95 (0 :: leBytes 2 count)) =
          ({ shelf with outgoing := shelf.outgoing.drop (leValue (leBytes 2 count)) },
            (Shelf.reply 0x95 (shelf.outgoing.take (leValue (leBytes 2 count)))).continuing) := rfl
      refine asked.trans ?_
      rw [leValue_leBytes_of_lt small]
  upload_missing := by
    intro shelf path _ missing count small
    refine ⟨Shelf.refusal 0x94, shelf, ?_, rfl, rfl⟩
    have missing : shelf.files path.bytes = none := missing
    refine (shelf_asked shelf path small).trans ?_
    rw [Shelf.open_, missing]
  delete_file := by
    intro shelf path _
    have asked : shelf.step (systemCommand 0x9C (path.bytes ++ [0])) = shelf.delete path.bytes :=
      congrArg shelf.delete (shelf_name path)
    cases kept : shelf.files path.bytes with
    | none =>
        refine ⟨Shelf.refusal 0x9C, vmError, (shelf.delete path.bytes).1, asked.trans ?_, rfl, iff_of_true rfl kept,
          rfl⟩
        rw [Shelf.delete, kept]
        rfl
    | some content =>
        refine ⟨[5, 0, 0, 0, vmOk, 0x9C, 0], vmOk, (shelf.delete path.bytes).1, asked.trans ?_, rfl, ?_, rfl⟩
        · rw [Shelf.delete, kept]
          rfl
        · refine iff_of_false (by decide) fun missing => ?_
          rw [show shelfBrick.files shelf path.bytes = some content from kept] at missing
          cases missing

end Ev3duder
