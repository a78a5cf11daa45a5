import Ev3duder.Data.Patches

namespace Ev3duder.Posix

open Data

/-! Path resolution.

A file system maps locations, the names on the way down from the root, to files, directories and symbolic
links.  The root itself is always a directory.
-/

inductive Errno where
  | exist | noEnt | notDir | isDir | loop | other
deriving DecidableEq, Repr

abbrev Name := Bytes

abbrev Location := List Name

inductive Node where
  | file (content : Bytes)
  | directory
  | link (target : CString)
deriving DecidableEq, Repr

structure FileSystem where
  nodes : Location → Option Node
  cwd : Location

def slash : UInt8 := 0x2F

def dot : Name := [0x2E]

def dotDot : Name := [0x2E, 0x2E]

/-- Names that never stand for an entry of their own. -/
def Special (name : Name) : Prop := name = [] ∨ name = dot ∨ name = dotDot

instance (name : Name) : Decidable (Special name) := by
  unfold Special
  infer_instance

theorem Special.stays {name : Name} (special : Special name) (down : name ≠ dotDot) : name = [] ∨ name = dot := by
  rcases special with empty | single | up
  · exact Or.inl empty
  · exact Or.inr single
  · exact absurd up down

def components (path : CString) : List Name := path.bytes.splitOn slash

def origin (here : Location) (path : CString) : Location := if path.bytes.head? = some slash then [] else here

/-- How deep symbolic links may lead into one another. -/
def maxLinks : Nat := 40

namespace FileSystem

/-- One step of a path through the directory `here`, given how to follow a symbolic link. -/
def step (files : FileSystem) (follow : Location → CString → Except Errno Location) (here : Location) (name : Name) :
    Except Errno Location :=
  if name = [] ∨ name = dot then .ok here
  else if name = dotDot then .ok here.dropLast
  else
    match files.nodes (here ++ [name]) with
    | none => .error .noEnt
    | some (.file _) => .error .notDir
    | some .directory => .ok (here ++ [name])
    | some (.link target) => follow here target

def enter (files : FileSystem) : Nat → Location → Name → Except Errno Location
  | 0 => files.step fun _ _ => .error .loop
  | links + 1 => files.step fun here target => (components target).foldlM (files.enter links) (origin here target)

def walk (files : FileSystem) (here : Location) (names : List Name) : Except Errno Location :=
  names.foldlM (files.enter maxLinks) here

/-- The file or missing file that the names lead to, given how to follow a symbolic link at the end. -/
def finish (files : FileSystem) (follow : Location → CString → Except Errno Location) (here : Location)
    (names : List Name) : Except Errno Location := do
  let parent ← files.walk here names.dropLast
  let last := names.getLastD []
  if Special last then .error .isDir
  else
    match files.nodes (parent ++ [last]) with
    | some (.link target) => follow parent target
    | _ => .ok (parent ++ [last])

def resolve (files : FileSystem) : Nat → Location → List Name → Except Errno Location
  | 0 => files.finish fun _ _ => .error .loop
  | links + 1 => files.finish fun here target => files.resolve links (origin here target) (components target)

def locate (files : FileSystem) (path : CString) : Except Errno Location :=
  if path.bytes = [] then .error .noEnt
  else files.resolve maxLinks (origin files.cwd path) (components path)

def directory (files : FileSystem) (path : CString) : Except Errno Location :=
  if path.bytes = [] then .error .noEnt
  else files.walk (origin files.cwd path) (components path)

/-- Where a new directory would stand; the path does not end in a separator. -/
def vacant (files : FileSystem) (path : CString) : Except Errno Location :=
  if path.bytes = [] then .error .noEnt
  else do
    let parent ← files.walk (origin files.cwd path) (components path).dropLast
    let last := (components path).getLastD []
    if Special last then .error .exist
    else
      match files.nodes (parent ++ [last]) with
      | some _ => .error .exist
      | none => .ok (parent ++ [last])

/-- Every regular file and what it contains. -/
def contents (files : FileSystem) (location : Location) : Option Bytes :=
  match files.nodes location with
  | some (.file content) => some content
  | _ => none

def readFile (files : FileSystem) (path : CString) : Option Bytes :=
  match files.locate path with
  | .ok location => files.contents location
  | .error _ => none

def place (files : FileSystem) (path : CString) : Location :=
  match files.locate path with
  | .ok location => location
  | .error _ => []

def put (files : FileSystem) (location : Location) (node : Node) : FileSystem :=
  { files with nodes := fun other => if other = location then some node else files.nodes other }

@[simp] theorem put_same (files : FileSystem) (location : Location) (node : Node) :
    (files.put location node).nodes location = some node := if_pos rfl

theorem put_other (files : FileSystem) {location other : Location} (node : Node) (distinct : other ≠ location) :
    (files.put location node).nodes other = files.nodes other := if_neg distinct

theorem put_put (files : FileSystem) (location : Location) (first second : Node) :
    (files.put location first).put location second = files.put location second := by
  simp only [FileSystem.put, FileSystem.mk.injEq, and_true]
  funext other
  by_cases same : other = location
  · simp [same]
  · simp [same]

theorem walk_append (files : FileSystem) (here : Location) (front back : List Name) :
    files.walk here (front ++ back) = (files.walk here front >>= fun middle => files.walk middle back) := by
  simp only [walk, List.foldlM_append]

theorem walk_single (files : FileSystem) (here : Location) (name : Name) :
    files.walk here [name] = files.enter maxLinks here name := by
  simp [walk]

theorem bind_ok {ε α β : Type} {first : Except ε α} {next : α → Except ε β} {value : β} :
    (first >>= next) = .ok value ↔ ∃ inner, first = .ok inner ∧ next inner = .ok value := by
  cases first with
  | error failure => simp [bind, Except.bind]
  | ok inner => simp [bind, Except.bind]

theorem walk_append_ok {files : FileSystem} {here there : Location} {front back : List Name} :
    files.walk here (front ++ back) = .ok there ↔
      ∃ middle, files.walk here front = .ok middle ∧ files.walk middle back = .ok there := by
  rw [walk_append, bind_ok]

theorem step_stays (files : FileSystem) (follow : Location → CString → Except Errno Location) (here : Location)
    {name : Name} (stays : name = [] ∨ name = dot) : files.step follow here name = .ok here := if_pos stays

theorem step_up (files : FileSystem) (follow : Location → CString → Except Errno Location) (here : Location) :
    files.step follow here dotDot = .ok here.dropLast := by
  rw [step, if_neg (by decide), if_pos rfl]

theorem step_ordinary (files : FileSystem) (follow : Location → CString → Except Errno Location) (here : Location)
    {name : Name} (ordinary : ¬ Special name) :
    files.step follow here name =
      match files.nodes (here ++ [name]) with
      | none => .error .noEnt
      | some (.file _) => .error .notDir
      | some .directory => .ok (here ++ [name])
      | some (.link target) => follow here target := by
  simp only [Special, not_or] at ordinary
  rw [step, if_neg (not_or.mpr ⟨ordinary.1, ordinary.2.1⟩), if_neg ordinary.2.2]

theorem enter_step (files : FileSystem) (links : Nat) :
    ∃ follow, files.enter links = files.step follow := by
  cases links with
  | zero => exact ⟨_, rfl⟩
  | succ links => exact ⟨_, rfl⟩

theorem enter_exists {files : FileSystem} {links : Nat} {here there : Location} {name : Name}
    (entered : files.enter links here name = .ok there) (ordinary : ¬ Special name) :
    ∃ node, files.nodes (here ++ [name]) = some node := by
  obtain ⟨follow, same⟩ := files.enter_step links
  rw [same, files.step_ordinary follow here ordinary] at entered
  cases found : files.nodes (here ++ [name]) with
  | some node => exact ⟨node, rfl⟩
  | none =>
      rw [found] at entered
      cases entered

/-- Directories and symbolic links stay what they are, files stay files, and nothing becomes a link. -/
structure Extends (old new : FileSystem) : Prop where
  cwd : new.cwd = old.cwd
  directory : ∀ location, old.nodes location = some .directory → new.nodes location = some .directory
  file : ∀ location content, old.nodes location = some (.file content) →
    ∃ content, new.nodes location = some (.file content)
  link : ∀ location target, new.nodes location = some (.link target) ↔ old.nodes location = some (.link target)

theorem Extends.refl (files : FileSystem) : Extends files files :=
  ⟨rfl, fun _ same => same, fun _ content same => ⟨content, same⟩, fun _ _ => Iff.rfl⟩

theorem Extends.trans {first second third : FileSystem} (head : Extends first second) (tail : Extends second third) :
    Extends first third where
  cwd := tail.cwd.trans head.cwd
  directory location found := tail.directory location (head.directory location found)
  file location content found := by
    obtain ⟨middle, found⟩ := head.file location content found
    exact tail.file location middle found
  link location target := (tail.link location target).trans (head.link location target)

theorem foldlM_mono {α β ε : Type} {old new : β → α → Except ε β}
    (keeps : ∀ state item after, old state item = .ok after → new state item = .ok after) {items : List α}
    {state after : β} (run : items.foldlM old state = .ok after) : items.foldlM new state = .ok after := by
  induction items generalizing state with
  | nil => exact run
  | cons item items ih =>
      rw [List.foldlM_cons] at run ⊢
      obtain ⟨middle, first, rest⟩ := bind_ok.mp run
      exact bind_ok.mpr ⟨middle, keeps state item middle first, ih rest⟩

theorem Extends.step {old new : FileSystem} (extended : Extends old new)
    {oldFollow newFollow : Location → CString → Except Errno Location}
    (follows : ∀ here target there, oldFollow here target = .ok there → newFollow here target = .ok there)
    {here there : Location} {name : Name} (stepped : old.step oldFollow here name = .ok there) :
    new.step newFollow here name = .ok there := by
  by_cases special : Special name
  · rcases special with empty | single | rfl
    · rw [step_stays _ _ _ (Or.inl empty)] at stepped ⊢
      exact stepped
    · rw [step_stays _ _ _ (Or.inr single)] at stepped ⊢
      exact stepped
    · rw [step_up] at stepped ⊢
      exact stepped
  · rw [step_ordinary _ _ _ special] at stepped ⊢
    cases found : old.nodes (here ++ [name]) with
    | none =>
        rw [found] at stepped
        cases stepped
    | some node =>
        rw [found] at stepped
        cases node with
        | file content => cases stepped
        | directory =>
            rw [extended.directory _ found]
            exact stepped
        | link target =>
            rw [(extended.link _ target).mpr found]
            exact follows here target there stepped

theorem Extends.enter {old new : FileSystem} (extended : Extends old new) (links : Nat) {here there : Location}
    {name : Name} (entered : old.enter links here name = .ok there) : new.enter links here name = .ok there := by
  induction links generalizing here there name with
  | zero => exact extended.step (fun _ _ _ followed => followed) entered
  | succ links ih =>
      exact extended.step (fun _ _ _ followed => foldlM_mono (fun _ _ _ entered => ih entered) followed) entered

theorem Extends.walk {old new : FileSystem} (extended : Extends old new) {here there : Location} {names : List Name}
    (walked : old.walk here names = .ok there) : new.walk here names = .ok there :=
  foldlM_mono (fun _ _ _ entered => extended.enter maxLinks entered) walked

theorem foldlM_agree {α β ε : Type} {first second : β → α → Except ε β}
    (agree : ∀ state item one other, first state item = .ok one → second state item = .ok other → one = other)
    {items : List α} {state one other : β} (run : items.foldlM first state = .ok one)
    (again : items.foldlM second state = .ok other) : one = other := by
  induction items generalizing state with
  | nil => exact Except.ok.inj (run.symm.trans again)
  | cons item rest ih =>
      rw [List.foldlM_cons, bind_ok] at run again
      obtain ⟨middle, here, later⟩ := run
      obtain ⟨between, there, last⟩ := again
      cases agree state item middle between here there
      exact ih later last

/-- Whatever is made besides, a step that succeeds leads to the same place. -/
theorem step_agree {old first second : FileSystem} (one : Extends old first) (other : Extends old second)
    {firstFollow secondFollow : Location → CString → Except Errno Location}
    (follows : ∀ here target there place, firstFollow here target = .ok there →
      secondFollow here target = .ok place → there = place) {here there place : Location} {name : Name}
    (stepped : first.step firstFollow here name = .ok there) (again : second.step secondFollow here name = .ok place) :
    there = place := by
  by_cases special : Special name
  · rcases special with empty | single | rfl
    · rw [step_stays _ _ _ (Or.inl empty)] at stepped again
      exact Except.ok.inj (stepped.symm.trans again)
    · rw [step_stays _ _ _ (Or.inr single)] at stepped again
      exact Except.ok.inj (stepped.symm.trans again)
    · rw [step_up] at stepped again
      exact Except.ok.inj (stepped.symm.trans again)
  · rw [step_ordinary _ _ _ special] at stepped again
    have links : ∀ target, first.nodes (here ++ [name]) = some (.link target) ↔
        second.nodes (here ++ [name]) = some (.link target) := fun target =>
      (one.link _ target).trans (other.link _ target).symm
    rcases found : first.nodes (here ++ [name]) with _ | ⟨content⟩ | _ | target
    · rw [found] at stepped
      cases stepped
    · rw [found] at stepped
      cases stepped
    · rcases beside : second.nodes (here ++ [name]) with _ | ⟨content⟩ | _ | target
      · rw [beside] at again
        cases again
      · rw [beside] at again
        cases again
      · rw [found] at stepped
        rw [beside] at again
        exact Except.ok.inj (stepped.symm.trans again)
      · have linked := (links target).mpr beside
        rw [found] at linked
        cases linked
    · rw [(links target).mp found] at again
      rw [found] at stepped
      exact follows here target there place stepped again

theorem enter_agree {old first second : FileSystem} (one : Extends old first) (other : Extends old second)
    (links : Nat) {here there place : Location} {name : Name} (entered : first.enter links here name = .ok there)
    (again : second.enter links here name = .ok place) : there = place := by
  induction links generalizing here there place name with
  | zero => exact step_agree one other (fun _ _ _ _ followed => absurd followed (by simp)) entered again
  | succ links ih =>
      exact step_agree one other (fun _ _ _ _ followed after => foldlM_agree (fun _ _ _ _ => ih) followed after)
        entered again

theorem walk_agree {old first second : FileSystem} (one : Extends old first) (other : Extends old second)
    {here there place : Location} {names : List Name} (walked : first.walk here names = .ok there)
    (again : second.walk here names = .ok place) : there = place :=
  foldlM_agree (fun _ _ _ _ => enter_agree one other maxLinks) walked again

theorem finish_ok {files : FileSystem} {follow : Location → CString → Except Errno Location}
    {here location : Location} {names : List Name} :
    files.finish follow here names = .ok location ↔
      ∃ parent, files.walk here names.dropLast = .ok parent ∧ ¬ Special (names.getLastD []) ∧
        ((location = parent ++ [names.getLastD []] ∧ ∀ target, files.nodes location ≠ some (.link target)) ∨
          ∃ target, files.nodes (parent ++ [names.getLastD []]) = some (.link target) ∧
            follow parent target = .ok location) := by
  unfold finish
  rw [bind_ok]
  constructor
  · rintro ⟨parent, walked, found⟩
    by_cases special : Special (names.getLastD [])
    · rw [if_pos special] at found
      cases found
    · rw [if_neg special] at found
      refine ⟨parent, walked, special, ?_⟩
      rcases node : files.nodes (parent ++ [names.getLastD []]) with _ | ⟨content⟩ | _ | target <;> rw [node] at found
      · cases found
        exact Or.inl ⟨rfl, fun target => by rw [node]; simp⟩
      · cases found
        exact Or.inl ⟨rfl, fun target => by rw [node]; simp⟩
      · cases found
        exact Or.inl ⟨rfl, fun target => by rw [node]; simp⟩
      · exact Or.inr ⟨target, rfl, found⟩
  · rintro ⟨parent, walked, ordinary, ⟨rfl, plain⟩ | ⟨target, node, found⟩⟩
    · refine ⟨parent, walked, ?_⟩
      rw [if_neg ordinary]
      rcases node : files.nodes (parent ++ [names.getLastD []]) with _ | ⟨content⟩ | _ | target
      · rfl
      · rfl
      · rfl
      · exact absurd node (plain target)
    · refine ⟨parent, walked, ?_⟩
      rw [if_neg ordinary, node]
      exact found

theorem Extends.finish {old new : FileSystem} (extended : Extends old new)
    {oldFollow newFollow : Location → CString → Except Errno Location}
    (follows : ∀ here target there, oldFollow here target = .ok there → newFollow here target = .ok there)
    {here location : Location} {names : List Name} (found : old.finish oldFollow here names = .ok location) :
    new.finish newFollow here names = .ok location := by
  obtain ⟨parent, walked, ordinary, ⟨same, plain⟩ | ⟨target, node, found⟩⟩ := finish_ok.mp found
  · exact finish_ok.mpr ⟨parent, extended.walk walked, ordinary,
      Or.inl ⟨same, fun target node => plain target ((extended.link _ target).mp node)⟩⟩
  · exact finish_ok.mpr ⟨parent, extended.walk walked, ordinary,
      Or.inr ⟨target, (extended.link _ target).mpr node, follows parent target location found⟩⟩

theorem Extends.resolve {old new : FileSystem} (extended : Extends old new) (links : Nat) {here location : Location}
    {names : List Name} (found : old.resolve links here names = .ok location) :
    new.resolve links here names = .ok location := by
  induction links generalizing here names location with
  | zero => exact extended.finish (fun _ _ _ followed => followed) found
  | succ links ih => exact extended.finish (fun _ _ _ followed => ih followed) found

theorem locate_resolve {files : FileSystem} {path : CString} {location : Location}
    (found : files.locate path = .ok location) :
    path.bytes ≠ [] ∧ files.resolve maxLinks (origin files.cwd path) (components path) = .ok location := by
  unfold locate at found
  by_cases empty : path.bytes = []
  · rw [if_pos empty] at found
    cases found
  · rw [if_neg empty] at found
    exact ⟨empty, found⟩

/-- A path that leads somewhere does so by its last name, whatever becomes of a link there. -/
theorem locate_finish {files : FileSystem} {path : CString} {location : Location}
    (found : files.locate path = .ok location) :
    ∃ follow, files.finish follow (origin files.cwd path) (components path) = .ok location :=
  ⟨_, (locate_resolve found).2⟩

theorem Extends.locate {old new : FileSystem} (extended : Extends old new) {path : CString} {location : Location}
    (found : old.locate path = .ok location) : new.locate path = .ok location := by
  obtain ⟨nonempty, found⟩ := locate_resolve found
  rw [FileSystem.locate, if_neg nonempty, extended.cwd]
  exact extended.resolve maxLinks found

theorem Extends.directory_ok {old new : FileSystem} (extended : Extends old new) {path : CString}
    {location : Location} (found : old.directory path = .ok location) : new.directory path = .ok location := by
  unfold FileSystem.directory at found ⊢
  by_cases empty : path.bytes = []
  · rw [if_pos empty] at found
    cases found
  · rw [if_neg empty] at found ⊢
    rw [extended.cwd]
    exact extended.walk found

theorem resolve_plain {files : FileSystem} (links : Nat) {here location : Location} {names : List Name}
    (found : files.resolve links here names = .ok location) (target : CString) :
    files.nodes location ≠ some (.link target) := by
  induction links generalizing here names with
  | zero =>
      obtain ⟨parent, _, _, ⟨_, plain⟩ | ⟨_, _, followed⟩⟩ := finish_ok.mp found
      · exact plain target
      · cases followed
  | succ links ih =>
      obtain ⟨parent, _, _, ⟨_, plain⟩ | ⟨_, _, followed⟩⟩ := finish_ok.mp found
      · exact plain target
      · exact ih followed

theorem locate_plain {files : FileSystem} {path : CString} {location : Location}
    (found : files.locate path = .ok location) (target : CString) : files.nodes location ≠ some (.link target) :=
  resolve_plain maxLinks (locate_resolve found).2 target

theorem locate_parent {files : FileSystem} {path : CString} {location : Location}
    (found : files.locate path = .ok location) :
    ∃ parent, files.walk (origin files.cwd path) (components path).dropLast = .ok parent := by
  obtain ⟨follow, found⟩ := locate_finish found
  obtain ⟨parent, walked, _⟩ := finish_ok.mp found
  exact ⟨parent, walked⟩

theorem locate_ordinary {files : FileSystem} {path : CString} {location : Location}
    (found : files.locate path = .ok location) : ¬ Special ((components path).getLastD []) := by
  obtain ⟨follow, found⟩ := locate_finish found
  obtain ⟨_, _, ordinary, _⟩ := finish_ok.mp found
  exact ordinary

theorem locate_below {files : FileSystem} {path : CString} {parent : Location} {front : List Name} {last : Name}
    (split : components path = front ++ [last]) (nonempty : path.bytes ≠ [])
    (walked : files.walk (origin files.cwd path) front = .ok parent) (ordinary : ¬ Special last)
    (plain : ∀ target, files.nodes (parent ++ [last]) ≠ some (.link target)) :
    files.locate path = .ok (parent ++ [last]) := by
  have found : ∀ follow, files.finish follow (origin files.cwd path) (components path) = .ok (parent ++ [last]) := by
    intro follow
    rw [finish_ok, split, List.dropLast_concat, List.getLastD_concat]
    exact ⟨parent, walked, ordinary, Or.inl ⟨rfl, plain⟩⟩
  rw [locate, if_neg nonempty]
  exact found _

theorem locate_below_inv {files : FileSystem} {path : CString} {parent location : Location} {front : List Name}
    {last : Name} (split : components path = front ++ [last])
    (walked : files.walk (origin files.cwd path) front = .ok parent)
    (plain : ∀ target, files.nodes (parent ++ [last]) ≠ some (.link target))
    (found : files.locate path = .ok location) : location = parent ++ [last] ∧ ¬ Special last := by
  obtain ⟨follow, found⟩ := locate_finish found
  rw [finish_ok, split, List.dropLast_concat, List.getLastD_concat] at found
  obtain ⟨_, same, ordinary, ⟨rfl, _⟩ | ⟨target, node, _⟩⟩ := found
  · rw [walked] at same
    cases same
    exact ⟨rfl, ordinary⟩
  · rw [walked] at same
    cases same
    exact absurd node (plain target)

theorem components_split (path : CString) :
    components path = (components path).dropLast ++ [(components path).getLastD []] := by
  have some : components path ≠ [] := List.splitOn_ne_nil slash path.bytes
  have split := List.dropLast_concat_getLast some
  rw [List.getLastD_eq_getLast?, List.getLast?_eq_some_getLast some, Option.getD_some, split]

/-- The last name of the path is not that of a symbolic link. -/
def NotLink (files : FileSystem) (path : CString) : Prop :=
  ∀ parent target, files.walk (origin files.cwd path) (components path).dropLast = .ok parent →
    files.nodes (parent ++ [(components path).getLastD []]) ≠ some (.link target)

/-- Nor does it become one when directories and files are made. -/
def NeverLink (files : FileSystem) (path : CString) : Prop := ∀ later, files.Extends later → later.NotLink path

theorem NotLink.locate {files : FileSystem} {path : CString} (plain : files.NotLink path) {location : Location}
    (found : files.locate path = .ok location) :
    ∃ parent, files.walk (origin files.cwd path) (components path).dropLast = .ok parent ∧
      location = parent ++ [(components path).getLastD []] := by
  obtain ⟨parent, walked⟩ := locate_parent found
  exact ⟨parent, walked, (locate_below_inv (components_split path) walked (plain parent · walked) found).1⟩

/-- Once the path leads somewhere, nothing that could be made besides matters. -/
theorem neverLink_iff {old new : FileSystem} (extended : Extends old new) {path : CString} {location : Location}
    (found : new.locate path = .ok location) : old.NeverLink path ↔ new.NotLink path := by
  constructor
  · intro never
    exact never new extended
  · intro plain later grown parent target walked linked
    obtain ⟨here, reached⟩ := locate_parent found
    rw [extended.cwd] at reached
    rw [grown.cwd] at walked
    cases walk_agree extended grown reached walked
    refine plain parent target (by rw [extended.cwd]; exact reached) ?_
    exact (extended.link _ target).mpr ((grown.link _ target).mp linked)

theorem place_eq {files : FileSystem} {path : CString} {location : Location}
    (located : files.locate path = .ok location) : files.place path = location := by
  rw [place, located]

theorem vacant_inv {files : FileSystem} {path : CString} {location : Location}
    (vacant : files.vacant path = .ok location) :
    path.bytes ≠ [] ∧ files.nodes location = none ∧ ¬ Special ((components path).getLastD []) ∧
      ∃ parent, files.walk (origin files.cwd path) (components path).dropLast = .ok parent ∧
        location = parent ++ [(components path).getLastD []] := by
  unfold FileSystem.vacant at vacant
  by_cases empty : path.bytes = []
  · rw [if_pos empty] at vacant
    cases vacant
  · rw [if_neg empty] at vacant
    obtain ⟨parent, walked, vacant⟩ := bind_ok.mp vacant
    by_cases special : Special ((components path).getLastD [])
    · rw [if_pos special] at vacant
      cases vacant
    · rw [if_neg special] at vacant
      cases node : files.nodes (parent ++ [(components path).getLastD []]) with
      | none =>
          rw [node] at vacant
          cases vacant
          exact ⟨empty, node, special, parent, walked, rfl⟩
      | some entry =>
          rw [node] at vacant
          cases vacant

theorem vacant_free {files : FileSystem} {path : CString} {location : Location}
    (vacant : files.vacant path = .ok location) : files.nodes location = none := (vacant_inv vacant).2.1

/-- Below a directory that exists, `mkdir` finds either an entry or room for one. -/
theorem vacant_below {files : FileSystem} {path : CString} {parent : Location} {front : List Name} {last : Name}
    (split : components path = front ++ [last]) (nonempty : path.bytes ≠ [])
    (walked : files.walk (origin files.cwd path) front = .ok parent) :
    files.vacant path =
      if Special last then .error .exist
      else if files.nodes (parent ++ [last]) = none then .ok (parent ++ [last]) else .error .exist := by
  rw [vacant, if_neg nonempty, split, List.dropLast_concat, List.getLastD_concat, walked]
  by_cases special : Special last
  · rw [if_pos special]
    exact if_pos special
  · rw [if_neg special]
    refine (if_neg special).trans ?_
    cases node : files.nodes (parent ++ [last]) with
    | none => rfl
    | some entry => rfl

/-- The last name of a path stands for something, so that `mkdir` fails with `EEXIST`. -/
structure Occupied (files : FileSystem) (path : CString) : Prop where
  nonempty : path.bytes ≠ []
  entry : ∃ parent, files.walk (origin files.cwd path) (components path).dropLast = .ok parent ∧
    (Special ((components path).getLastD []) ∨
      ∃ node, files.nodes (parent ++ [(components path).getLastD []]) = some node)

theorem Occupied.vacant {files : FileSystem} {path : CString} (occupied : files.Occupied path) :
    files.vacant path = .error .exist := by
  obtain ⟨parent, walked, special | ⟨node, found⟩⟩ := occupied.entry
  · rw [vacant_below (components_split path) occupied.nonempty walked, if_pos special]
  · rw [vacant_below (components_split path) occupied.nonempty walked]
    by_cases special : Special ((components path).getLastD [])
    · rw [if_pos special]
    · rw [if_neg special, if_neg (by rw [found]; simp)]

theorem occupied_walked {files : FileSystem} {path : CString} {there : Location} (nonempty : path.bytes ≠ [])
    (walked : files.walk (origin files.cwd path) (components path) = .ok there) : files.Occupied path := by
  rw [components_split path] at walked
  obtain ⟨parent, walked, entered⟩ := walk_append_ok.mp walked
  rw [walk_single] at entered
  refine ⟨nonempty, parent, walked, ?_⟩
  by_cases special : Special ((components path).getLastD [])
  · exact Or.inl special
  · exact Or.inr (enter_exists entered special)

theorem Extends.occupied {old new : FileSystem} (extended : Extends old new) {path : CString}
    (occupied : old.Occupied path) : new.Occupied path := by
  obtain ⟨parent, walked, entry⟩ := occupied.entry
  refine ⟨occupied.nonempty, parent, by rw [extended.cwd]; exact extended.walk walked, ?_⟩
  rcases entry with special | ⟨node, found⟩
  · exact Or.inl special
  · right
    cases node with
    | file content =>
        obtain ⟨content, found⟩ := extended.file _ content found
        exact ⟨_, found⟩
    | directory => exact ⟨_, extended.directory _ found⟩
    | link target => exact ⟨_, (extended.link _ target).mpr found⟩

theorem extends_put_directory {files : FileSystem} {location : Location} (free : files.nodes location = none) :
    Extends files (files.put location .directory) := by
  have kept : ∀ {other : Location} {node : Node}, files.nodes other = some node →
      (files.put location .directory).nodes other = some node := by
    intro other node found
    have distinct : other ≠ location := by
      rintro rfl
      rw [free] at found
      cases found
    rw [files.put_other .directory distinct, found]
  refine ⟨rfl, fun _ found => kept found, fun _ content found => ⟨content, kept found⟩, fun other target => ⟨?_, kept⟩⟩
  intro found
  by_cases same : other = location
  · simp [same] at found
  · rwa [files.put_other .directory same] at found

theorem occupied_put {files : FileSystem} {path : CString} {location : Location}
    (vacant : files.vacant path = .ok location) : (files.put location .directory).Occupied path := by
  have grown := extends_put_directory (vacant_free vacant)
  obtain ⟨nonempty, _, _, parent, walked, rfl⟩ := vacant_inv vacant
  exact ⟨nonempty, parent, grown.walk walked, Or.inr ⟨.directory, files.put_same _ _⟩⟩

theorem contents_put_directory {files : FileSystem} {location : Location} (free : files.nodes location = none) :
    (files.put location .directory).contents = files.contents := by
  funext other
  by_cases same : other = location
  · simp [contents, same, free]
  · rw [contents, contents, files.put_other .directory same]

theorem extends_put_file {files : FileSystem} {location : Location} (content : Bytes)
    (notDirectory : files.nodes location ≠ some .directory)
    (notLink : ∀ target, files.nodes location ≠ some (.link target)) :
    Extends files (files.put location (.file content)) := by
  refine ⟨rfl, ?_, ?_, ?_⟩
  · intro other found
    have distinct : other ≠ location := by
      rintro rfl
      exact notDirectory found
    rw [files.put_other _ distinct, found]
  · intro other old found
    by_cases same : other = location
    · exact ⟨content, by simp [same]⟩
    · exact ⟨old, by rw [files.put_other _ same, found]⟩
  · intro other target
    by_cases same : other = location
    · simp [same, notLink target]
    · rw [files.put_other _ same]

theorem contents_put_file (files : FileSystem) (location : Location) (content : Bytes) :
    (files.put location (.file content)).contents =
      fun other => if other = location then some content else files.contents other := by
  funext other
  by_cases same : other = location
  · simp [contents, same]
  · rw [contents, contents, files.put_other _ same, if_neg same]

end FileSystem

end Ev3duder.Posix
