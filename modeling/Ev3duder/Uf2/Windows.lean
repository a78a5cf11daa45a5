import Ev3duder.Data.Lexical
import Ev3duder.Uf2.Storage

namespace Ev3duder.Windows

open Data
open Posix (slash dot dotDot Name Location Answer)

/-! # The Windows build of the extraction

Here `\` separates names as `/` does, and paths are resolved by their text before any file is looked at.
-/

inductive Api where
  | createDirectory (path : CString)
  | createFile (path : CString)
  | setFilePointer (position : Nat)
  | setEndOfFile
  | writeFile (bytes : Bytes)

/-- The answers may be any; after the last of them every call succeeds. -/
structure System where
  answers : List Answer
  log : List Api

def System.after (system : System) (api : Api) : System := ⟨system.answers.tail, system.log ++ [api]⟩

def call (api : Api) : Proc System Answer := fun system => (some (system.answers.headD .success), system.after api)

def isSeparator (char : UInt8) : Bool := char = slash ∨ char = backslash

def colon : UInt8 := 0x3A

def join : CString := ⟨[backslash], by decide⟩

/-- `_snprintf` into `dstlen` bytes, the last of which becomes the terminator. -/
def uf2Map (dstlen : Nat) (dstdir filename : CString) (usePaths : Bool) : CString :=
  (dstdir ++ join ++ uf2Folder filename usePaths ++ join ++ uf2Basename filename false).take (dstlen - 1)

def nextSlash (path : Bytes) (start : Nat) : Nat :=
  advance path (advance path start isSeparator) fun char => ¬ isSeparator char ∧ char ≠ 0

theorem nextSlash_le (path : Bytes) (start : Nat) : start ≤ nextSlash path start :=
  Nat.le_trans (Nat.le_add_right _ _) (Nat.le_add_right _ _)

/-- `!CreateDirectoryA(path, NULL) && GetLastError() != ERROR_ALREADY_EXISTS` -/
def mkdirFailed : Answer → Bool
  | .failure errno => errno ≠ .exist
  | _ => false

def uf2MkdirImpl (path : Bytes) (start : Nat) : Proc System Int :=
  if path.getD (nextSlash path start) 0 = 0 then return 0
  else if nextSlash path start = 2 ∧ path.getD 1 0 = colon then uf2MkdirImpl path (nextSlash path start + 1)
  else do
    let cut := path.set (nextSlash path start) 0
    let answer ← call (.createDirectory (cstr cut))
    if mkdirFailed answer then return -1
    else uf2MkdirImpl (cut.set (nextSlash path start) slash) (nextSlash path start + 1)
termination_by path.length - start
decreasing_by
  · have inside := inside_of_getD ‹_›
    have forward := nextSlash_le path start
    omega
  · have inside := inside_of_getD ‹_›
    have forward := nextSlash_le path start
    simp only [List.length_set]
    omega

def uf2MkdirFor (filename : CString) : Proc System Int := uf2MkdirImpl (filename.bytes ++ [0]) 0

def uf2WriteInto (realname : CString) (data : Bytes) (dataBytes fileOffset fileSize : UInt32) : Proc System Int := do
  match ← call (.createFile realname) with
  | .failure _ => return -1
  | _ =>
      match ← call (.setFilePointer fileSize.toNat) with
      | .failure _ => return -1
      | _ =>
          match ← call .setEndOfFile with
          | .failure _ => return -1
          | _ =>
              match ← call (.setFilePointer fileOffset.toNat) with
              | .failure _ => return -1
              | _ =>
                  let payload := data.take dataBytes.toNat
                  match ← call (.writeFile payload) with
                  | .failure _ => return -1
                  | .short real => if min real payload.length ≠ dataBytes.toNat then return -1 else return 0
                  | .success => return 0

/-- The loop of `uf2_unpack` over the blocks that it reads. -/
def uf2UnpackLoop (dstdir : CString) (usePaths : Bool) : List Uf2Block → Proc System Err
  | [] => return .unk
  | block :: blocks =>
      if block.Accepted then do
        let realname := uf2Map uf2RealnameSize dstdir block.name usePaths
        let ret ← uf2MkdirFor realname
        if ret < 0 then return .io
        else
          let ret ← uf2WriteInto realname (block.data.set 475 0) block.dataBytes block.fileOffset block.fileSize
          if ret < 0 then return .io else uf2UnpackLoop dstdir usePaths blocks
      else uf2UnpackLoop dstdir usePaths blocks

def uf2Unpack (stream : Bytes) (dstdir : CString) (usePaths : Bool) : Proc System (Err × String) := do
  let retval ← uf2UnpackLoop dstdir usePaths (uf2Blocks stream)
  return (retval, if retval = .unk then "`uf2 unpack` was successful." else "`uf2 unpack` has failed.")

/-- With every `\` read as `/` the walk over the directories is that of the POSIX build, but for a drive in front. -/
def unifyByte (char : UInt8) : UInt8 := if char = backslash then slash else char

theorem unifyByte_zero {char : UInt8} : unifyByte char = 0 ↔ char = 0 := by
  unfold unifyByte
  split
  · rename_i same
    rw [same]
    decide
  · exact Iff.rfl

theorem unifyByte_colon {char : UInt8} : unifyByte char = colon ↔ char = colon := by
  unfold unifyByte
  split
  · rename_i same
    rw [same]
    decide
  · exact Iff.rfl

theorem isSeparator_unify (char : UInt8) : isSeparator char = decide (unifyByte char = slash) := by
  unfold isSeparator unifyByte
  by_cases same : char = backslash
  · simp [same]
  · simp [same]

def unify (path : CString) : CString where
  bytes := path.bytes.map unifyByte
  noNul := by
    intro member
    obtain ⟨char, listed, zero⟩ := List.mem_map.mp member
    exact path.noNul (unifyByte_zero.mp zero ▸ listed)

theorem advance_map (path : Bytes) (start : Nat) (condition : UInt8 → Bool) :
    advance (path.map unifyByte) start condition = advance path start (condition ∘ unifyByte) := by
  rw [advance, advance, ← List.map_drop, List.takeWhile_map, List.length_map]

theorem nextSlash_unify (path : Bytes) (start : Nat) :
    nextSlash path start = Ev3duder.nextSlash (path.map unifyByte) start := by
  have first : (fun char : UInt8 => decide (char = slash)) ∘ unifyByte = isSeparator := by
    funext char
    exact (isSeparator_unify char).symm
  have second : (fun char : UInt8 => decide (char ≠ slash ∧ char ≠ 0)) ∘ unifyByte =
      fun char => decide (¬ isSeparator char ∧ char ≠ 0) := by
    funext char
    simp only [Function.comp_apply, isSeparator_unify, decide_eq_true_eq, ne_eq, unifyByte_zero]
  rw [nextSlash, Ev3duder.nextSlash, advance_map, advance_map, first, second]

theorem unify_cstr (bytes : Bytes) : unify (cstr bytes) = cstr (bytes.map unifyByte) := by
  apply CString.ext
  show (bytes.takeWhile (· ≠ 0)).map unifyByte = (bytes.map unifyByte).takeWhile (· ≠ 0)
  rw [List.takeWhile_map]
  congr 2
  funext char
  simp only [Function.comp_apply, ne_eq, unifyByte_zero]

/-- `C:` -/
def Drive (path : CString) : Prop := path.bytes.length = 2 ∧ path.bytes.getD 1 0 = colon

instance (path : CString) : Decidable (Drive path) := by
  unfold Drive
  infer_instance

/-- The directories that are made for a path, read with one separator. -/
def ancestors (path : CString) (start : Nat) : List CString :=
  (uf2Ancestors path start).filter fun ancestor => ¬ Drive ancestor

theorem getD_unify (path : Bytes) (index : Nat) :
    (path.map unifyByte).getD index 0 = unifyByte (path.getD index 0) := by
  rw [List.getD_eq_getElem?_getD, List.getD_eq_getElem?_getD, List.getElem?_map]
  cases path[index]? with
  | none => decide
  | some char => rfl

theorem drive_take {name : CString} {index : Nat} (inside : index < name.bytes.length) {path : Bytes}
    (same : path.map unifyByte = name.bytes ++ [0]) :
    Drive (name.take index) ↔ index = 2 ∧ path.getD 1 0 = colon := by
  have length : (name.take index).bytes.length = index := by
    rw [CString.take_bytes, List.length_take]
    omega
  rw [Drive, length]
  refine and_congr_right fun two => ?_
  have second : (name.take index).bytes.getD 1 0 = unifyByte (path.getD 1 0) := by
    rw [← getD_unify, same, CString.take_bytes, two, List.getD_eq_getElem?_getD, List.getD_eq_getElem?_getD,
      List.getElem?_take, if_pos (by decide), List.getElem?_append_left (by omega)]
  rw [second, unifyByte_colon]

theorem set_found {bytes : Bytes} {index : Nat} {char : UInt8} (found : bytes[index]? = some char) :
    bytes.set index char = bytes := by
  obtain ⟨inside, rfl⟩ := List.getElem?_eq_some_iff.mp found
  exact List.set_getElem_self inside

/-- The path that a call looks at. -/
def Api.path : Api → Option CString
  | .createDirectory path => some path
  | .createFile path => some path
  | _ => none

def asked (log : List Api) : List CString := (log.filterMap Api.path).map unify

theorem asked_after (system : System) (api : Api) :
    asked (system.after api).log = asked system.log ++ (api.path.toList).map unify := by
  rw [System.after, asked, List.filterMap_append, List.map_append, asked]
  cases kept : api.path <;> simp [kept]

/-- The paths asked for are the first of `paths`, and all of them where a good value is returned, as it is without a
refusal. -/
def Asks {α : Type} (paths : List CString) (good : α → Prop) (procedure : Proc System α) : Prop :=
  ∀ system, ∃ made, asked (procedure system).2.log = asked system.log ++ made ∧ made <+: paths ∧
    (∀ value, (procedure system).1 = some value → good value → made = paths) ∧
    (system.answers = [] →
      (∃ value, (procedure system).1 = some value ∧ good value) ∧ (procedure system).2.answers = [])

section Asks

variable {α β : Type} {good : α → Prop} {fine : β → Prop}

theorem asks_pure {value : α} (holds : good value) : Asks [] good (pure value) :=
  fun _ => ⟨[], (List.append_nil _).symm, List.nil_prefix, fun _ _ _ => rfl, fun quiet => ⟨⟨value, rfl, holds⟩, quiet⟩⟩

theorem asks_call (api : Api) {good : Answer → Prop} (success : good .success) :
    Asks (api.path.toList.map unify) good (call api) := by
  intro system
  refine ⟨_, asked_after system api, List.prefix_rfl, fun _ _ _ => rfl, fun quiet => ⟨⟨.success, ?_, success⟩, ?_⟩⟩
  · show some (system.answers.headD .success) = some .success
    rw [quiet]
    rfl
  · show system.answers.tail = []
    rw [quiet]
    rfl

theorem asks_bind {front back : List CString} {first : Proc System α} {next : α → Proc System β}
    (head : Asks front good first) (tail : ∀ value, good value → Asks back fine (next value))
    (lost : ∀ value, ¬ good value → ∀ system, ∃ other, ¬ fine other ∧ next value system = (some other, system)) :
    Asks (front ++ back) fine (first >>= next) := by
  intro system
  obtain ⟨made, logged, own, ends, passes⟩ := head system
  rcases run : first system with ⟨_ | value, middle⟩
  · rw [run] at logged passes
    rw [Proc.bind_died run]
    refine ⟨made, logged, own.trans (List.prefix_append front back), fun _ same => absurd same (by simp), ?_⟩
    intro quiet
    obtain ⟨⟨_, returned, _⟩, _⟩ := passes quiet
    cases returned
  · rw [run] at logged ends passes
    rw [Proc.bind_returned run]
    by_cases holds : good value
    · obtain rfl := ends value rfl holds
      obtain ⟨later, further, rest, done, goes⟩ := tail value holds middle
      refine ⟨made ++ later, ?_, (List.prefix_append_right_inj _).mpr rest, ?_, fun quiet => goes (passes quiet).2⟩
      · rw [further, logged, List.append_assoc]
      · intro result same fair
        rw [done result same fair]
    · obtain ⟨other, bad, stopped⟩ := lost value holds middle
      rw [stopped]
      refine ⟨made, logged, own.trans (List.prefix_append front back), ?_, ?_⟩
      · intro result same fair
        exact absurd (Option.some.inj same ▸ fair) bad
      · intro quiet
        obtain ⟨⟨_, same, whole⟩, _⟩ := passes quiet
        exact absurd (Option.some.inj same ▸ whole) holds

end Asks

/-- What `uf2_mkdir_for` and `uf2_write_into` return on success. -/
def Passed (ret : Int) : Prop := ¬ ret < 0

instance (ret : Int) : Decidable (Passed ret) := by
  unfold Passed
  infer_instance

theorem failed_lost {ret : Int} (failed : ¬ Passed ret) : ret < 0 := Classical.not_not.mp failed

theorem uf2MkdirImpl_asks {name : CString} {start : Nat} {path : Bytes}
    (same : path.map unifyByte = name.bytes ++ [0]) :
    Asks (ancestors name start) Passed (uf2MkdirImpl path start) := by
  unfold ancestors
  fun_induction uf2Ancestors name start generalizing path with
  | case1 start last =>
      have next := nextSlash_unify path start
      rw [same] at next
      have stop : path.getD (nextSlash path start) 0 = 0 := by
        rw [← unifyByte_zero, ← getD_unify, same, next]
        exact last
      rw [uf2MkdirImpl, if_pos stop]
      exact asks_pure (by decide)
  | case2 start more ih =>
      have next := nextSlash_unify path start
      rw [same] at next
      have goes : ¬ path.getD (nextSlash path start) 0 = 0 := by
        rw [← unifyByte_zero, ← getD_unify, same, next]
        exact more
      have found := nextSlash_slash more
      have inside := nextSlash_inside found
      rw [uf2MkdirImpl, if_neg goes, next]
      generalize Ev3duder.nextSlash (name.bytes ++ [0]) start = stop at *
      by_cases drive : Drive (name.take stop)
      · rw [if_pos ((drive_take inside same).mp drive), List.filter_cons_of_neg (by simpa using drive)]
        exact ih same
      · rw [if_neg fun skipped => drive ((drive_take inside same).mpr skipped),
          List.filter_cons_of_pos (by simpa using drive)]
        have made : unify (cstr (path.set stop 0)) = name.take stop := by
          rw [unify_cstr, List.map_set, same]
          exact cstr_cut inside
        have restored : ((path.set stop 0).set stop slash).map unifyByte = name.bytes ++ [0] := by
          rw [List.set_set, List.map_set, same]
          exact set_found found
        have asks := @asks_call (.createDirectory (cstr (path.set stop 0))) (fun answer => mkdirFailed answer ≠ true)
          (by decide)
        rw [Api.path, Option.toList_some, List.map_singleton, made] at asks
        refine asks_bind asks ?_ ?_
        · intro answer holds
          rw [if_neg holds]
          exact ih restored
        · intro answer failed system
          rw [if_pos (Classical.not_not.mp failed)]
          exact ⟨-1, by decide, rfl⟩

section Write

variable {next : Answer → Proc System Int}

theorem asks_try (api : Api) {paths : List CString} (refused : ∀ errno, next (.failure errno) = pure (-1))
    (goes : ∀ answer, ¬ answer.Fails → Asks paths Passed (next answer)) :
    Asks (api.path.toList.map unify ++ paths) Passed (call api >>= next) := by
  refine asks_bind (asks_call api fun ⟨errno, same⟩ => by cases same) goes ?_
  intro answer fails system
  obtain ⟨errno, rfl⟩ := Classical.not_not.mp fails
  rw [refused]
  exact ⟨-1, by decide, rfl⟩

/-- The last call of a function, whose answer is all that decides. -/
theorem asks_last (api : Api) (unseen : api.path = none) (ends : ∀ answer, ∃ ret, next answer = pure ret)
    (success : next .success = pure 0) : Asks [] Passed (call api >>= next) := by
  have asks := @asks_call api (fun answer => ∃ ret, Passed ret ∧ next answer = pure ret) ⟨0, by decide, success⟩
  rw [unseen] at asks
  refine asks_bind asks ?_ ?_
  · rintro answer ⟨ret, passed, same⟩
    rw [same]
    exact asks_pure passed
  · intro answer fails system
    obtain ⟨ret, same⟩ := ends answer
    exact ⟨ret, fun passed => fails ⟨ret, passed, same⟩, by rw [same]; rfl⟩

end Write

theorem uf2WriteInto_asks (realname : CString) (data : Bytes) (dataBytes fileOffset fileSize : UInt32) :
    Asks [unify realname] Passed (uf2WriteInto realname data dataBytes fileOffset fileSize) := by
  have last : Asks [] Passed (call (.writeFile (data.take dataBytes.toNat)) >>= fun answer =>
      match answer with
      | .failure _ => pure (-1)
      | .short real =>
          if min real (data.take dataBytes.toNat).length ≠ dataBytes.toNat then pure (-1) else pure 0
      | .success => (pure 0 : Proc System Int)) := by
    refine asks_last _ rfl ?_ rfl
    intro answer
    cases answer with
    | success => exact ⟨0, rfl⟩
    | failure errno => exact ⟨-1, rfl⟩
    | short real =>
        by_cases partly : min real (data.take dataBytes.toNat).length ≠ dataBytes.toNat
        · exact ⟨-1, if_pos partly⟩
        · exact ⟨0, if_neg partly⟩
  have go : ∀ {paths : List CString} {next : Proc System Int}, Asks paths Passed next → ∀ answer : Answer,
      ¬ answer.Fails → Asks paths Passed (match answer with
        | .failure _ => pure (-1)
        | _ => next) := by
    intro paths next asks answer passed
    cases answer with
    | success => exact asks
    | failure errno => exact absurd ⟨errno, rfl⟩ passed
    | short count => exact asks
  have fourth := asks_try (.setFilePointer fileOffset.toNat) (fun _ => rfl) (go last)
  have third := asks_try .setEndOfFile (fun _ => rfl) (go fourth)
  have second := asks_try (.setFilePointer fileSize.toNat) (fun _ => rfl) (go third)
  exact asks_try (.createFile realname) (fun _ => rfl) (go second)

section Loop

variable {dstdir : CString} {usePaths : Bool}

/-- The path of a block, read with one separator. -/
def target (dstdir : CString) (usePaths : Bool) (block : Uf2Block) : CString :=
  unify (uf2Map uf2RealnameSize dstdir block.name usePaths)

/-- The directories that a block needs, and its file. -/
def looksAt (dstdir : CString) (usePaths : Bool) (block : Uf2Block) : List CString :=
  ancestors (target dstdir usePaths block) 0 ++ [target dstdir usePaths block]

theorem uf2UnpackLoop_asks (blocks : List Uf2Block) :
    Asks ((blocks.filter fun block => block.Accepted).flatMap (looksAt dstdir usePaths)) (· = .unk)
      (uf2UnpackLoop dstdir usePaths blocks) := by
  induction blocks with
  | nil => exact asks_pure rfl
  | cons block blocks ih =>
      by_cases accepted : block.Accepted
      · rw [uf2UnpackLoop, if_pos accepted, List.filter_cons_of_pos (by simpa using accepted), List.flatMap_cons,
          looksAt, List.append_assoc]
        have unified : ((uf2Map uf2RealnameSize dstdir block.name usePaths).bytes ++ [0]).map unifyByte =
            (target dstdir usePaths block).bytes ++ [0] := List.map_append
        have stops : ∀ {next : Proc System Err} (ret : Int), ¬ Passed ret → ∀ system, ∃ other, ¬ other = Err.unk ∧
            (if ret < 0 then pure .io else next) system = (some other, system) := by
          intro next ret failed system
          rw [if_pos (failed_lost failed)]
          exact ⟨.io, by decide, rfl⟩
        refine asks_bind (uf2MkdirImpl_asks unified) (fun ret passed => ?_) stops
        rw [if_neg passed]
        refine asks_bind (uf2WriteInto_asks _ _ _ _ _) (fun ret passed => ?_) stops
        rw [if_neg passed]
        exact ih
      · rw [uf2UnpackLoop, if_neg accepted, List.filter_cons_of_neg (by simpa using accepted)]
        exact ih

theorem uf2Unpack_asks (stream : Bytes) (answers : List Answer) :
    asked (uf2Unpack stream dstdir usePaths ⟨answers, []⟩).2.log <+:
        (uf2Accepted stream).flatMap (looksAt dstdir usePaths) ∧
      (answers = [] → asked (uf2Unpack stream dstdir usePaths ⟨answers, []⟩).2.log =
        (uf2Accepted stream).flatMap (looksAt dstdir usePaths)) := by
  obtain ⟨made, logged, own, ends, passes⟩ := @uf2UnpackLoop_asks dstdir usePaths (uf2Blocks stream) ⟨answers, []⟩
  have world : (uf2Unpack stream dstdir usePaths ⟨answers, []⟩).2 =
      (uf2UnpackLoop dstdir usePaths (uf2Blocks stream) ⟨answers, []⟩).2 := by
    rcases loop : uf2UnpackLoop dstdir usePaths (uf2Blocks stream) ⟨answers, []⟩ with ⟨_ | retval, after⟩
    · rw [uf2Unpack, Proc.bind_died loop]
    · rw [uf2Unpack, Proc.bind_returned loop]
      rfl
  have whole : asked (uf2Unpack stream dstdir usePaths ⟨answers, []⟩).2.log = made := by
    rw [world, logged]
    rfl
  rw [whole]
  refine ⟨own, fun quiet => ?_⟩
  obtain ⟨⟨value, returned, unk⟩, _⟩ := passes quiet
  exact ends value returned unk

end Loop

def move (name : Name) : Move Name :=
  if name = [] ∨ name = dot then .stay else if name = dotDot then .up else .down name

theorem move_up {name : Name} (up : move name = .up) : name = dotDot := by
  unfold move at up
  split at up
  · cases up
  · split at up
    · assumption
    · cases up

def moves (path : Bytes) : List (Move Name) := (path.splitOn slash).map move

theorem moves_slash (front back : Bytes) : moves (front ++ slash :: back) = moves front ++ moves back := by
  rw [moves, List.splitOn_append_cons_self, List.map_append, moves, moves]

/-- The path is on the way to `dstdir`, or it goes on behind `dstdir` and does not come out above it again.  Both are
read with one separator; `root` is where `dstdir/` leads, from the root of its volume on.  Paths are read as names
and `..` alone: what the system makes of device names (`COM1`), of paths relative to a drive (`d:x`) and of UNC paths
(where `dstdir` is a lone separator) is not considered. -/
def Inside (root : Location) (dstdir path : CString) : Prop :=
  path.bytes <+: dstdir.bytes ∨
    dstdir.bytes ++ [slash] <+: path.bytes ∧
      root <+: Move.walk root (moves (path.bytes.drop (dstdir.bytes.length + 1)))

instance (root : Location) (dstdir path : CString) : Decidable (Inside root dstdir path) := by
  unfold Inside
  infer_instance

/-- Behind the directory the names of a block lead above it. -/
def climbs (folder basename : CString) : Bool := Move.climbs 0 (moves (unify (folder ++ join ++ basename)).bytes)

section Inside

variable {root : Location} {dstdir path : CString} {rest : Bytes}

theorem inside_behind (split : path.bytes = dstdir.bytes ++ slash :: rest) :
    Inside root dstdir path ↔ root <+: Move.walk root (moves rest) := by
  have longer : ¬ path.bytes <+: dstdir.bytes := by
    intro short
    have length := short.length_le
    rw [split, List.length_append, List.length_cons] at length
    omega
  have front : dstdir.bytes ++ [slash] <+: path.bytes := ⟨rest, by rw [split, List.append_assoc]; rfl⟩
  have behind : path.bytes.drop (dstdir.bytes.length + 1) = rest := by
    rw [split, ← List.drop_drop, List.drop_left]
    rfl
  rw [Inside, behind]
  constructor
  · rintro (short | ⟨_, kept⟩)
    · exact absurd short longer
    · exact kept
  · exact fun kept => Or.inr ⟨front, kept⟩

/-- Names that do not lead out keep the path and everything above it inside. -/
theorem inside_of_stays (split : path.bytes = dstdir.bytes ++ slash :: rest)
    (stays : root = [] ∨ Move.climbs 0 (moves rest) = false) :
    ∀ place ∈ ancestors path 0 ++ [path], Inside root dstdir place := by
  have below : ∀ {front back : Bytes}, rest = front ++ slash :: back ∨ rest = front →
      root <+: Move.walk root (moves front) := by
    intro front back cut
    rcases stays with rfl | stays
    · exact List.nil_prefix
    · have front : Move.climbs 0 (moves front) = false := by
        rcases cut with rfl | rfl
        · rw [moves_slash] at stays
          exact Move.climbs_front stays
        · exact stays
      have kept := @Move.walk_below _ root [] _ front
      rw [List.append_nil] at kept
      exact kept
  intro place member
  rcases List.mem_append.mp member with above | here
  · obtain ⟨_, last, same⟩ := uf2Ancestors_prefix (List.mem_of_mem_filter above)
    rcases List.append_eq_append_iff.mp (split.symm.trans same) with ⟨middle, longer, cut⟩ | ⟨middle, shorter, _⟩
    · cases middle with
      | nil => exact Or.inl ⟨[], by rw [longer, List.append_nil, List.append_nil]⟩
      | cons char middle =>
          rw [List.cons_append, List.cons.injEq] at cut
          obtain ⟨rfl, cut⟩ := cut
          exact (inside_behind longer).mpr (below (Or.inl cut))
    · exact Or.inl ⟨middle, shorter.symm⟩
  · rw [List.mem_singleton.mp here]
    exact (inside_behind split).mpr (@below rest [] (Or.inr rfl))

/-- The last name of a path that ends in `..`. -/
theorem ends_dotDot {before : Bytes} {front : List Name} (parts : before.splitOn slash = front ++ [dotDot]) :
    ∃ more, before = more ++ [0x2E] := by
  rcases last_slash before with free | ⟨first, base, rfl, free⟩
  · rw [List.splitOn_eq_singleton free] at parts
    have same := List.append_inj_right' (show [] ++ [before] = front ++ [dotDot] from parts) rfl
    exact ⟨[0x2E], by rw [List.singleton_inj.mp same]; rfl⟩
  · rw [List.splitOn_append_cons_self, List.splitOn_eq_singleton free] at parts
    have same := List.append_inj_right' parts rfl
    rw [List.singleton_inj.mp same]
    exact ⟨first ++ [slash, 0x2E], by simp [dotDot]⟩

/-- Names that lead out lead out at a directory that is asked for, or with the file itself. -/
theorem outside_of_climbs (split : path.bytes = dstdir.bytes ++ slash :: rest) (proper : root ≠ [])
    (leaves : Move.climbs 0 (moves rest) = true) :
    ∃ place ∈ ancestors path 0 ++ [path], ¬ Inside root dstdir place := by
  obtain ⟨front, back, parts, walked⟩ := @Move.climbs_split _ root [] _ leaves
  rw [List.append_nil] at walked
  have outside : ¬ root <+: Move.walk root (front ++ [.up]) := by
    rw [Move.walk_append, walked]
    intro kept
    have length := kept.length_le
    have positive := List.length_pos_iff.mpr proper
    simp only [Move.walk, List.foldl_cons, List.foldl_nil, Move.apply, List.length_dropLast] at length
    omega
  obtain ⟨names, later, same, rfl, tail⟩ := List.map_eq_append_iff.mp parts
  obtain ⟨name, later, rfl, up, rfl⟩ := List.map_eq_cons_iff.mp tail
  rw [move_up up] at same
  by_cases last : later = []
  · rw [last] at same
    refine ⟨path, List.mem_append_right _ List.mem_cons_self, fun inside => outside ?_⟩
    have kept := (inside_behind split).mp inside
    rw [moves, same, List.map_append] at kept
    exact kept
  · obtain ⟨before, behind, rfl, cut⟩ := splitOn_cut same last
    obtain ⟨more, ends⟩ := ends_dotDot cut
    have whole : path.bytes = (dstdir.bytes ++ slash :: before) ++ slash :: behind := by
      rw [split, List.append_assoc]
      rfl
    obtain ⟨place, bytes⟩ := name_before whole
    rw [← bytes] at whole
    have dotted : place.bytes = (dstdir.bytes ++ slash :: more) ++ [0x2E] := by
      rw [bytes, ends, List.append_assoc]
      rfl
    have above := uf2Ancestors_member dotted (by decide) whole (Nat.zero_le _)
    have kept : ¬ Drive place := by
      rintro ⟨two, second⟩
      rw [dotted, List.length_append, List.length_singleton] at two
      have one : (dstdir.bytes ++ slash :: more).length = 1 := by omega
      rw [dotted, List.getD_eq_getElem?_getD, List.getElem?_append_right (by omega), one] at second
      exact absurd second (by decide)
    refine ⟨place, List.mem_append_left _ (List.mem_filter.mpr ⟨above, by simpa using kept⟩), fun inside => outside ?_⟩
    have stays := (inside_behind bytes).mp inside
    rw [moves, cut, List.map_append] at stays
    exact stays

end Inside

/-- `dstdir\folder\basename` -/
def composed (dstdir : CString) (usePaths : Bool) (block : Uf2Block) : CString :=
  dstdir ++ join ++ uf2Folder block.name usePaths ++ join ++ uf2Basename block.name false

theorem target_bytes {dstdir : CString} {usePaths : Bool} {block : Uf2Block}
    (whole : (composed dstdir usePaths block).bytes.length ≤ 255) :
    (target dstdir usePaths block).bytes = (unify dstdir).bytes ++
      slash :: (unify (uf2Folder block.name usePaths ++ join ++ uf2Basename block.name false)).bytes := by
  have uncut : uf2Map uf2RealnameSize dstdir block.name usePaths = composed dstdir usePaths block :=
    CString.ext (List.take_of_length_le whole)
  rw [target, uncut, composed]
  simp [unify, join, unifyByte]

/-- No path that the Windows calls look at leads out of `dstdir`, whatever they answer, if and only if the names of no
block do so; out of the root of a volume nothing leads.  As for `Inside`, a path is its names and `..`: device names,
drive-relative and UNC paths are not considered. -/
theorem uf2Unpack_inside_iff (root : Location) (stream : Bytes) {dstdir : CString} (usePaths : Bool)
    (whole : ∀ block ∈ uf2Accepted stream, (composed dstdir usePaths block).bytes.length ≤ 255) :
    (∀ answers, ∀ path ∈ (uf2Unpack stream dstdir usePaths ⟨answers, []⟩).2.log.filterMap Api.path,
        Inside root (unify dstdir) (unify path)) ↔
      root = [] ∨ ∀ block ∈ uf2Accepted stream,
        climbs (uf2Folder block.name usePaths) (uf2Basename block.name false) = false := by
  constructor
  · intro inside
    by_cases top : root = []
    · exact Or.inl top
    · refine Or.inr fun block member => ?_
      apply Classical.byContradiction
      intro leaves
      obtain ⟨place, listed, outside⟩ := outside_of_climbs (target_bytes (whole block member)) top
        (by simpa [climbs] using leaves)
      have quiet := (@uf2Unpack_asks dstdir usePaths stream []).2 rfl
      have looked : place ∈ asked (uf2Unpack stream dstdir usePaths ⟨[], []⟩).2.log := by
        rw [quiet]
        exact List.mem_flatMap.mpr ⟨block, member, listed⟩
      obtain ⟨path, found, rfl⟩ := List.mem_map.mp looked
      exact outside (inside [] path found)
  · intro stays answers path found
    have looked : unify path ∈ asked (uf2Unpack stream dstdir usePaths ⟨answers, []⟩).2.log :=
      List.mem_map_of_mem found
    obtain ⟨block, member, listed⟩ :=
      List.mem_flatMap.mp ((@uf2Unpack_asks dstdir usePaths stream answers).1.subset looked)
    refine inside_of_stays (target_bytes (whole block member)) ?_ _ listed
    rcases stays with top | stays
    · exact Or.inl top
    · exact Or.inr (stays block member)

def windowsArchive (name : CString) : Bytes := (uf2FileBlock name 1 0 0 [7]).bytes

def insideName : CString := cstr [0x61, 0x5C, 0x78]

def climbingName : CString := cstr [0x2E, 0x2E, 0x5C, 0x78]

theorem uf2Unpack_inside_iff_folder :
    (uf2Accepted (windowsArchive insideName)).length = 1 ∧
      ∀ answers, ∀ path ∈ (uf2Unpack (windowsArchive insideName) targetDirectory false
        ⟨answers, []⟩).2.log.filterMap Api.path, Inside [[0x6F]] (unify targetDirectory) (unify path) := by
  have inside := @uf2Unpack_inside_iff [[0x6F]] (windowsArchive insideName) targetDirectory false (by decide +kernel)
  exact ⟨by decide +kernel, inside.mpr (Or.inr (by decide +kernel))⟩

/-- The file is `o\.\..\x`, which is `x` beside `o`. -/
theorem uf2Unpack_climbs :
    (∀ block ∈ uf2Accepted (windowsArchive climbingName), (composed targetDirectory false block).bytes.length ≤ 255) ∧
      ∃ path ∈ (uf2Unpack (windowsArchive climbingName) targetDirectory false ⟨[], []⟩).2.log.filterMap Api.path,
        ¬ Inside [[0x6F]] (unify targetDirectory) (unify path) := by
  refine ⟨by decide +kernel, ?_⟩
  decide +kernel

end Ev3duder.Windows
