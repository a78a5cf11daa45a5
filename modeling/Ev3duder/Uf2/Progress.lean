import Ev3duder.Uf2.Destination

namespace Ev3duder

open Data Posix

/-! # Extractions that succeed

Without trouble from the kernel an extraction goes through when nothing but files stands at the destinations and
nothing but a directory where the folder goes.
-/

/-- Where the folder of an archive leads to inside the destination directory. -/
def uf2Inside (folder : Name) : Location := if Special folder then [] else [folder]

structure Uf2Ready (dstdir : CString) (root : Location) (folder : Name) (names : List Name) (files : FileSystem) :
    Prop where
  found : files.directory dstdir = .ok root
  room : ¬ Special folder →
    files.nodes (root ++ [folder]) = none ∨ files.nodes (root ++ [folder]) = some .directory
  vacancy : ∀ name ∈ names, files.nodes (root ++ uf2Inside folder ++ [name]) = none ∨
    ∃ content, files.nodes (root ++ uf2Inside folder ++ [name]) = some (.file content)

/-- An ordinary name in a folder below `dstdir`. -/
structure Uf2Target (dstdir above : CString) (folder name : Name) (path : CString) : Prop where
  folderEnd : above.bytes = dstdir.bytes ++ slash :: folder
  nameEnd : path.bytes = above.bytes ++ slash :: name
  folderFree : slash ∉ folder
  nameFree : slash ∉ name
  down : folder ≠ dotDot
  ordinary : ¬ Special name

theorem prefix_slash {front last path rest : Bytes} (same : front ++ slash :: last = path ++ slash :: rest)
    (free : slash ∉ last) : path = front ∨ ∃ more, front = path ++ slash :: more := by
  rcases List.append_eq_append_iff.mp same with ⟨middle, rfl, split⟩ | ⟨middle, rfl, split⟩
  · cases middle with
    | nil => exact Or.inl (List.append_nil _)
    | cons char middle =>
        rw [List.cons_append] at split
        have inLast : slash ∈ last := by
          rw [(List.cons.inj split).2]
          simp
        exact absurd inLast free
  · cases middle with
    | nil => exact Or.inl (List.append_nil _).symm
    | cons char middle =>
        rw [List.cons_append] at split
        exact Or.inr ⟨middle, by rw [(List.cons.inj split).1]⟩

section Uf2Ready

variable {dstdir above path : CString} {root : Location} {folder name : Name} {names : List Name} {files : FileSystem}

theorem Uf2Ready.put_folder (ready : Uf2Ready dstdir root folder names files) (ordinary : ¬ Special folder)
    (free : files.nodes (root ++ [folder]) = none) :
    Uf2Ready dstdir root folder names (files.put (root ++ [folder]) .directory) := by
  refine ⟨(FileSystem.extends_put_directory free).directory_ok ready.found, fun _ => Or.inr (files.put_same _ _), ?_⟩
  intro name member
  have elsewhere : root ++ uf2Inside folder ++ [name] ≠ root ++ [folder] := by
    intro same
    have length := congrArg List.length same
    simp [uf2Inside, ordinary] at length
  rw [files.put_other _ elsewhere]
  exact ready.vacancy name member

theorem Uf2Ready.no_directory (ready : Uf2Ready dstdir root folder names files) (member : name ∈ names) :
    files.nodes (root ++ uf2Inside folder ++ [name]) ≠ some .directory := by
  rcases ready.vacancy name member with missing | ⟨content, found⟩
  · rw [missing]
    simp
  · rw [found]
    simp

theorem Uf2Ready.no_link (ready : Uf2Ready dstdir root folder names files) (member : name ∈ names) (target : CString) :
    files.nodes (root ++ uf2Inside folder ++ [name]) ≠ some (.link target) := by
  rcases ready.vacancy name member with missing | ⟨content, found⟩
  · rw [missing]
    simp
  · rw [found]
    simp

theorem Uf2Ready.put_file (ready : Uf2Ready dstdir root folder names files) (member : name ∈ names) (content : Bytes) :
    Uf2Ready dstdir root folder names (files.put (root ++ uf2Inside folder ++ [name]) (.file content)) := by
  have grown := FileSystem.extends_put_file content (ready.no_directory member) (ready.no_link member)
  refine ⟨grown.directory_ok ready.found, ?_, ?_⟩
  · intro ordinary
    have elsewhere : root ++ [folder] ≠ root ++ uf2Inside folder ++ [name] := by
      intro same
      have length := congrArg List.length same
      simp [uf2Inside, ordinary] at length
    rw [files.put_other _ elsewhere]
    exact ready.room ordinary
  · intro other otherMember
    by_cases same : root ++ uf2Inside folder ++ [other] = root ++ uf2Inside folder ++ [name]
    · exact Or.inr ⟨content, by rw [same, files.put_same]⟩
    · rw [files.put_other _ same]
      exact ready.vacancy other otherMember

theorem Uf2Ready.ancestor (ready : Uf2Ready dstdir root folder names files)
    (target : Uf2Target dstdir above folder name path) {ancestor : CString} (member : ancestor ∈ uf2Ancestors path 0) :
    files.Occupied ancestor ∨
      ∃ location, files.vacant ancestor = .ok location ∧
        Uf2Ready dstdir root folder names (files.put location .directory) := by
  obtain ⟨nonempty, rest, same⟩ := uf2Ancestors_prefix member
  obtain ⟨named, walked⟩ := directory_ok ready.found
  rcases prefix_slash (target.nameEnd.symm.trans same) target.nameFree with whole | ⟨more, front⟩
  · have split := whole.trans target.folderEnd
    have parts := components_slash split target.folderFree
    rw [← origin_append files.cwd split named] at walked
    by_cases special : Special folder
    · refine Or.inl ⟨nonempty, root, ?_, Or.inl ?_⟩
      · rw [parts, List.dropLast_concat]
        exact walked
      · rw [parts, List.getLastD_concat]
        exact special
    · have possible := FileSystem.vacant_below parts nonempty walked
      rcases ready.room special with missing | there
      · rw [if_neg special, if_pos missing] at possible
        exact Or.inr ⟨_, possible, ready.put_folder special missing⟩
      · refine Or.inl ⟨nonempty, root, ?_, Or.inr ⟨.directory, ?_⟩⟩
        · rw [parts, List.dropLast_concat]
          exact walked
        · rw [parts, List.getLastD_concat]
          exact there
  · left
    rcases prefix_slash (target.folderEnd.symm.trans front) target.folderFree with whole | ⟨more, front⟩
    · have same : ancestor = dstdir := CString.ext whole
      rw [same]
      exact FileSystem.occupied_walked named walked
    · have parts : components dstdir = components ancestor ++ more.splitOn slash := by
        rw [components, front, List.splitOn_append_cons_self]
        rfl
      rw [parts, origin_append files.cwd front nonempty] at walked
      obtain ⟨middle, before, _⟩ := FileSystem.walk_append_ok.mp walked
      exact FileSystem.occupied_walked nonempty before

theorem Uf2Ready.folder_made (ready : Uf2Ready dstdir root folder names files)
    (target : Uf2Target dstdir above folder name path) (ordinary : ¬ Special folder)
    (made : ∀ ancestor ∈ uf2Ancestors path 0, files.Occupied ancestor) :
    files.nodes (root ++ [folder]) = some .directory := by
  obtain ⟨nonempty, walked⟩ := directory_ok ready.found
  have named : folder ≠ [] := fun empty => ordinary (Or.inl empty)
  have last : above.bytes = (dstdir.bytes ++ slash :: folder.dropLast) ++ [folder.getLast named] := by
    rw [target.folderEnd, List.append_assoc, List.cons_append, List.dropLast_concat_getLast]
  have occupied := made above (uf2Ancestors_member last
    (fun same => target.folderFree (same ▸ List.getLast_mem named)) target.nameEnd (Nat.zero_le _))
  obtain ⟨parent, before, entry⟩ := occupied.entry
  rw [components_slash target.folderEnd target.folderFree, List.dropLast_concat,
    origin_append files.cwd target.folderEnd nonempty, walked, Except.ok.injEq] at before
  rw [components_slash target.folderEnd target.folderFree, List.getLastD_concat, ← before] at entry
  obtain ⟨node, found⟩ := entry.resolve_left ordinary
  rcases ready.room ordinary with missing | there
  · rw [found] at missing
    cases missing
  · exact there

theorem Uf2Ready.walk_folder (ready : Uf2Ready dstdir root folder names files)
    (target : Uf2Target dstdir above folder name path) :
    files.walk (origin files.cwd path) (components above) =
      if ¬ Special folder ∧ files.nodes (root ++ [folder]) = none then .error .noEnt
      else .ok (root ++ uf2Inside folder) := by
  obtain ⟨nonempty, walked⟩ := directory_ok ready.found
  obtain ⟨follow, same⟩ := files.enter_step maxLinks
  have split : path.bytes = dstdir.bytes ++ (slash :: folder ++ slash :: name) := by
    rw [target.nameEnd, target.folderEnd, List.append_assoc]
  rw [origin_append files.cwd split nonempty, components_slash target.folderEnd target.folderFree,
    FileSystem.walk_append, walked]
  refine (files.walk_single root folder).trans ?_
  rw [same]
  by_cases special : Special folder
  · rw [files.step_stays follow root (special.stays target.down), if_neg (by simp [special]), uf2Inside,
      if_pos special, List.append_nil]
  · rw [files.step_ordinary follow root special]
    rcases ready.room special with missing | there
    · rw [missing, if_pos ⟨special, rfl⟩]
    · rw [there, if_neg (by simp), uf2Inside, if_neg special]

theorem Uf2Ready.writable (ready : Uf2Ready dstdir root folder names files)
    (target : Uf2Target dstdir above folder name path) (member : name ∈ names)
    (made : ∀ ancestor ∈ uf2Ancestors path 0, files.Occupied ancestor) :
    files.writable path = .ok (root ++ uf2Inside folder ++ [name]) := by
  have nonempty : path.bytes ≠ [] := by
    rw [target.nameEnd]
    simp
  have there : ¬ (¬ Special folder ∧ files.nodes (root ++ [folder]) = none) := by
    rintro ⟨ordinary, missing⟩
    rw [ready.folder_made target ordinary made] at missing
    cases missing
  have walked := ready.walk_folder target
  rw [if_neg there] at walked
  have located := FileSystem.locate_below (components_slash target.nameEnd target.nameFree) nonempty walked
    target.ordinary (ready.no_link member)
  exact FileSystem.writable_ok.mpr ⟨located, ready.no_directory member⟩

theorem Uf2Ready.located (ready : Uf2Ready dstdir root folder names files)
    (target : Uf2Target dstdir above folder name path) (member : name ∈ names) {location : Location}
    (found : files.locate path = .ok location) : location = root ++ uf2Inside folder ++ [name] := by
  have parts := components_slash target.nameEnd target.nameFree
  obtain ⟨parent, walked⟩ := FileSystem.locate_parent found
  rw [parts, List.dropLast_concat] at walked
  have inside := walked
  rw [ready.walk_folder target] at inside
  by_cases missing : ¬ Special folder ∧ files.nodes (root ++ [folder]) = none
  · rw [if_pos missing] at inside
    cases inside
  · rw [if_neg missing, Except.ok.injEq] at inside
    rw [← inside] at walked
    exact (FileSystem.locate_below_inv parts walked (ready.no_link member) found).1

end Uf2Ready

section Run

variable {dstdir above : CString} {root : Location} {folder : Name} {names : List Name} {usePaths : Bool}

theorem uf2UnpackBlock_succeeds {block : Uf2Block} (accepted : block.Accepted) {name : Name} (member : name ∈ names)
    (target : Uf2Target dstdir above folder name (block.path dstdir usePaths)) (next : Proc Kernel Err)
    {kernel : Kernel} (quiet : kernel.answers = []) (ready : Uf2Ready dstdir root folder names kernel.files) :
    ∃ middle : Kernel, middle.answers = [] ∧ Uf2Ready dstdir root folder names middle.files ∧
      uf2UnpackBlock dstdir usePaths block next kernel = next middle := by
  obtain ⟨files, ⟨first, directories, firstQuiet, rfl⟩, ready, made⟩ :=
    mkdirEach_works (fun _ listed _ ready => Uf2Ready.ancestor ready target listed) quiet ready
  have within : block.fileOffset.toNat ≤ block.fileSize.toNat := Nat.le_of_lt accepted.offset
  obtain ⟨middle, stored, middleQuiet, left⟩ := uf2WriteInto_stores firstQuiet (ready.writable target member made)
    (block.data.set 475 0) block.dataBytes within
  refine ⟨middle, middleQuiet, ?_, ?_⟩
  · rw [left]
    exact ready.put_file member _
  · rw [← uf2MkdirFor_each] at directories
    refine (Proc.bind_returned directories).trans ?_
    rw [if_neg (by decide)]
    refine (Proc.bind_returned stored).trans ?_
    rw [if_neg (by decide)]

/-- The extraction reaches the end of the stream. -/
theorem uf2UnpackLoop_succeeds {blocks : List Uf2Block}
    (targets : ∀ block ∈ blocks, block.Accepted →
      ∃ name ∈ names, Uf2Target dstdir above folder name (block.path dstdir usePaths))
    {tail : Bytes} (short : tail.length < uf2BlockSize) {kernel : Kernel} (quiet : kernel.answers = [])
    (ready : Uf2Ready dstdir root folder names kernel.files) :
    ∃ after : Kernel, Uf2Ready dstdir root folder names after.files ∧
      uf2UnpackLoop dstdir usePaths (blocks.flatMap Uf2Block.bytes ++ tail) kernel = (some .unk, after) := by
  induction blocks generalizing kernel with
  | nil => exact ⟨kernel, ready, by rw [List.flatMap_nil, List.nil_append, uf2UnpackLoop_end short]; rfl⟩
  | cons block blocks ih =>
      have later := fun other (member : other ∈ blocks) => targets other (List.mem_cons_of_mem _ member)
      rw [List.flatMap_cons, List.append_assoc]
      by_cases accepted : block.Accepted
      · obtain ⟨name, member, target⟩ := targets block List.mem_cons_self accepted
        obtain ⟨middle, middleQuiet, middleReady, step⟩ := uf2UnpackBlock_succeeds accepted member target
          (uf2UnpackLoop dstdir usePaths (blocks.flatMap Uf2Block.bytes ++ tail)) quiet ready
        rw [uf2UnpackLoop_accepted accepted, step]
        exact ih later middleQuiet middleReady
      · rw [uf2UnpackLoop_rejected accepted]
        exact ih later quiet ready

end Run

end Ev3duder
