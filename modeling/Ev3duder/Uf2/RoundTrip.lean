import Ev3duder.Uf2.Progress

namespace Ev3duder

open Data Posix

/-! # Round trips -/

theorem flatMap_bytes_injective {first second : List Uf2Block}
    (same : first.flatMap Uf2Block.bytes = second.flatMap Uf2Block.bytes) : first = second := by
  induction first generalizing second with
  | nil =>
      cases second with
      | nil => rfl
      | cons block second =>
          have length := congrArg List.length same
          simp only [List.flatMap_nil, List.flatMap_cons, List.length_nil, List.length_append, block.bytes_length,
            uf2BlockSize] at length
          omega
  | cons block first ih =>
      cases second with
      | nil =>
          have length := congrArg List.length same
          simp only [List.flatMap_nil, List.flatMap_cons, List.length_nil, List.length_append, block.bytes_length,
            uf2BlockSize] at length
          omega
      | cons other second =>
          rw [List.flatMap_cons, List.flatMap_cons] at same
          obtain ⟨front, back⟩ := List.append_inj same (by rw [block.bytes_length, other.bytes_length])
          have decoded := congrArg Uf2Block.ofBytes front
          rw [Uf2Block.ofBytes_bytes, Uf2Block.ofBytes_bytes] at decoded
          rw [decoded, ih back]

/-- A list of blocks that holds the whole archive and otherwise only what is rejected. -/
theorem shuffles_packed {files : FileSystem} {destdir : CString} {paths : List CString} {blocks : List Uf2Block}
    (complete : ∀ block ∈ uf2PackedBlocks files destdir paths, block ∈ blocks)
    (sound : ∀ block ∈ blocks, block ∈ uf2PackedBlocks files destdir paths ∨ ¬ block.Accepted) :
    Shuffles blocks (uf2ArchiveBlocks files destdir 0 paths) := by
  have same := packed_archive files destdir paths
  constructor
  · intro block member accepted
    rw [← same]
    exact List.mem_map_of_mem ((sound block member).resolve_right fun rejected => rejected accepted)
  · intro block member
    rw [← same] at member
    obtain ⟨other, packed, rfl⟩ := List.mem_map.mp member
    exact ⟨other, complete other packed, rfl⟩

theorem injective_of_nodup {α β : Type} {items : List α} {image : α → β} (nodup : (items.map image).Nodup) :
    ∀ first ∈ items, ∀ second ∈ items, image first = image second → first = second := by
  induction items with
  | nil =>
      intro first member
      cases member
  | cons item items ih =>
      rw [List.map_cons, List.nodup_cons] at nodup
      intro first firstMember second secondMember same
      rcases List.mem_cons.mp firstMember with firstHere | firstLater
      · rcases List.mem_cons.mp secondMember with secondHere | secondLater
        · rw [firstHere, secondHere]
        · rw [firstHere] at same
          exact absurd (same ▸ List.mem_map_of_mem secondLater) nodup.1
      · rcases List.mem_cons.mp secondMember with secondHere | secondLater
        · rw [secondHere] at same
          exact absurd (same ▸ List.mem_map_of_mem firstLater) nodup.1
        · exact ih nodup.2 first firstLater second secondLater same

section Shuffled

variable {files : FileSystem} {brickdir dstdir : CString} {paths : List CString} {usePaths : Bool}

theorem unpack_blocks (inputs : ∀ path ∈ paths, Uf2Input files path)
    (whole : ∀ path ∈ paths, Untruncated (uf2Destdir brickdir) path)
    (distinct : (paths.map (uf2Destination (uf2Destdir brickdir) dstdir usePaths)).Nodup) {blocks : List Uf2Block}
    (complete : ∀ block ∈ uf2PackedBlocks files (uf2Destdir brickdir) paths, block ∈ blocks)
    (sound : ∀ block ∈ blocks, block ∈ uf2PackedBlocks files (uf2Destdir brickdir) paths ∨ ¬ block.Accepted)
    {tail : Bytes} (short : tail.length < uf2BlockSize) {kernel after : Kernel} (quiet : kernel.answers = [])
    (plain : (uf2Above (uf2Destdir brickdir) dstdir usePaths).bytes.length < 254 → ∀ path ∈ paths,
      after.files.NotLink (uf2Destination (uf2Destdir brickdir) dstdir usePaths path))
    (returned : uf2UnpackLoop dstdir usePaths (blocks.flatMap Uf2Block.bytes ++ tail) kernel = (some .unk, after)) :
    Restored files (uf2Destination (uf2Destdir brickdir) dstdir usePaths) paths kernel.files after.files := by
  refine unpack_restores inputs (shuffles_packed complete sound) short quiet returned ?_
  intro first firstListed second secondListed location firstLocated secondLocated
  exact injective_of_nodup distinct first firstListed second secondListed
    (destinations_apart (whole first firstListed) (whole second secondListed)
      (fun room => ⟨plain room first firstListed, plain room second secondListed⟩) firstLocated secondLocated)

theorem Restored.readFile {destination : CString → CString} {old new : FileSystem}
    (restored : Restored files destination paths old new) {path : CString} (listed : path ∈ paths) :
    new.readFile (destination path) = some (uf2Content files path) := by
  obtain ⟨location, located, content⟩ := restored.located path listed
  rw [FileSystem.readFile, located]
  exact content

def uf2Names (paths : List CString) : List Name := paths.map fun path => (uf2Basename path false).bytes

theorem uf2Names_member {path : CString} (listed : path ∈ paths) : (uf2Basename path false).bytes ∈ uf2Names paths :=
  List.mem_map_of_mem listed

/-- The path that a packed file is expected at. -/
def uf2Unpacked (brickdir dstdir : CString) (usePaths : Bool) (path : CString) : CString :=
  dstdir ++ separator ++ (if usePaths then uf2Destdir brickdir else dotName) ++ separator ++ uf2Basename path false

theorem uf2Destdir_flat (flat : slash ∉ brickdir.bytes) : slash ∉ (uf2Destdir brickdir).bytes := by
  by_cases default : brickdir.bytes.length = 0
  · rw [uf2Destdir, if_pos default]
    decide
  · rw [uf2Destdir, if_neg default]
    exact flat

theorem uf2Destdir_down (down : brickdir.bytes ≠ dotDot) : uf2Destdir brickdir ≠ dotDotName := by
  by_cases default : brickdir.bytes.length = 0
  · rw [uf2Destdir, if_pos default]
    decide
  · rw [uf2Destdir, if_neg default]
    exact fun same => down (congrArg CString.bytes same)

theorem uf2Destination_unpacked (flat : slash ∉ brickdir.bytes) (down : brickdir.bytes ≠ dotDot) {path : CString}
    (whole : Untruncated (uf2Destdir brickdir) path)
    (room : (uf2Unpacked brickdir dstdir usePaths path).bytes.length ≤ 255) :
    uf2Destination (uf2Destdir brickdir) dstdir usePaths path = uf2Unpacked brickdir dstdir usePaths path := by
  have same : (uf2Unpacked brickdir dstdir usePaths path).bytes =
      (uf2Above (uf2Destdir brickdir) dstdir usePaths).bytes ++ slash :: (uf2Basename path false).bytes := by
    rw [uf2Above, uf2Folder_flat (uf2Destdir_flat flat) (uf2Destdir_down down)]
    simp [uf2Unpacked, separator]
  apply CString.ext
  rw [whole.destination, ← same, List.take_of_length_le room]

theorem Uf2Input.ordinary {path : CString} (input : Uf2Input files path) :
    ¬ Special (uf2Basename path false).bytes := by
  have read := input.found
  unfold FileSystem.readFile at read
  cases located : files.locate path with
  | error errno =>
      rw [located] at read
      cases read
  | ok location =>
      rw [← uf2Basename_components]
      exact FileSystem.locate_ordinary located

theorem unpacked_target (flat : slash ∉ brickdir.bytes) (down : brickdir.bytes ≠ dotDot) {path : CString}
    (input : Uf2Input files path) (whole : Untruncated (uf2Destdir brickdir) path)
    (room : (uf2Unpacked brickdir dstdir usePaths path).bytes.length ≤ 255) :
    Uf2Target dstdir (uf2Above (uf2Destdir brickdir) dstdir usePaths)
      (uf2Folder (uf2Destdir brickdir) usePaths).bytes (uf2Basename path false).bytes
      (uf2Destination (uf2Destdir brickdir) dstdir usePaths path) where
  folderEnd := uf2Above_split _ _ _
  nameEnd := by
    rw [uf2Destination_unpacked flat down whole room, uf2Above, uf2Folder_flat (uf2Destdir_flat flat)
      (uf2Destdir_down down)]
    simp [uf2Unpacked, separator]
  folderFree := uf2Folder_free _ _
  nameFree := uf2Basename_free path
  down := uf2Folder_down _ _
  ordinary := input.ordinary

theorem ready_empty {start : FileSystem} {root : Location} (found : start.directory dstdir = .ok root)
    (empty : ∀ rest, rest ≠ [] → start.nodes (root ++ rest) = none) (folder : Name) (names : List Name) :
    Uf2Ready dstdir root folder names start where
  found := found
  room _ := Or.inl (empty [folder] (by simp))
  vacancy name _ := Or.inl (by rw [List.append_assoc]; exact empty _ (by simp))

section Empty

variable (inputs : ∀ path ∈ paths, Uf2Input files path) (flat : slash ∉ brickdir.bytes)
  (down : brickdir.bytes ≠ dotDot) (whole : ∀ path ∈ paths, Untruncated (uf2Destdir brickdir) path)
  (room : ∀ path ∈ paths, (uf2Unpacked brickdir dstdir usePaths path).bytes.length ≤ 255)

include inputs flat down whole room

theorem unpack_succeeds {blocks : List Uf2Block}
    (shuffles : Shuffles blocks (uf2ArchiveBlocks files (uf2Destdir brickdir) 0 paths)) {tail : Bytes}
    (short : tail.length < uf2BlockSize) {kernel : Kernel} (quiet : kernel.answers = []) {root : Location}
    (ready : Uf2Ready dstdir root (uf2Folder (uf2Destdir brickdir) usePaths).bytes (uf2Names paths) kernel.files) :
    ∃ after : Kernel,
      Uf2Ready dstdir root (uf2Folder (uf2Destdir brickdir) usePaths).bytes (uf2Names paths) after.files ∧
      uf2UnpackLoop dstdir usePaths (blocks.flatMap Uf2Block.bytes ++ tail) kernel = (some .unk, after) := by
  have targets : ∀ block ∈ blocks, block.Accepted → ∃ name ∈ uf2Names paths,
      Uf2Target dstdir (uf2Above (uf2Destdir brickdir) dstdir usePaths)
        (uf2Folder (uf2Destdir brickdir) usePaths).bytes name (block.path dstdir usePaths) := by
    intro block member accepted
    obtain ⟨path, listed, _, _, same, _⟩ := accepted_slice inputs shuffles member accepted
    refine ⟨_, uf2Names_member listed, ?_⟩
    rw [same]
    exact unpacked_target flat down (inputs path listed) (whole path listed) (room path listed)
  exact uf2UnpackLoop_succeeds targets short quiet ready

theorem destinations_nodup (distinct : (uf2Names paths).Nodup) :
    (paths.map (uf2Destination (uf2Destdir brickdir) dstdir usePaths)).Nodup := by
  have names : (paths.map (uf2Destination (uf2Destdir brickdir) dstdir usePaths)).map
      (fun path => (uf2Basename path false).bytes) = uf2Names paths := by
    rw [List.map_map]
    apply List.map_congr_left
    intro path listed
    have target := unpacked_target flat down (inputs path listed) (whole path listed) (room path listed)
    exact uf2Basename_after target.nameEnd target.nameFree
  rw [← names] at distinct
  exact List.Pairwise.of_map (fun path => (uf2Basename path false).bytes)
    (fun _ _ differ same => differ (congrArg (fun path => (uf2Basename path false).bytes) same)) distinct

theorem unpacked_exactly {old new : FileSystem} {root : Location}
    (restored : Restored files (uf2Destination (uf2Destdir brickdir) dstdir usePaths) paths old new)
    (ready : Uf2Ready dstdir root (uf2Folder (uf2Destdir brickdir) usePaths).bytes (uf2Names paths) new)
    {location : Location} (free : old.contents location = none) {content : Bytes} :
    new.contents location = some content ↔
      ∃ path ∈ paths, location = root ++ uf2Inside (uf2Folder (uf2Destdir brickdir) usePaths).bytes ++
        [(uf2Basename path false).bytes] ∧ files.readFile path = some content := by
  have located : ∀ path ∈ paths, ∀ {place},
      new.locate (uf2Destination (uf2Destdir brickdir) dstdir usePaths path) = .ok place →
      place =
        root ++ uf2Inside (uf2Folder (uf2Destdir brickdir) usePaths).bytes ++ [(uf2Basename path false).bytes] := by
    intro path listed place found
    exact ready.located (unpacked_target flat down (inputs path listed) (whole path listed) (room path listed))
      (uf2Names_member listed) found
  constructor
  · intro stored
    have member : ∃ path ∈ paths,
        new.locate (uf2Destination (uf2Destdir brickdir) dstdir usePaths path) = .ok location := by
      apply Classical.byContradiction
      intro elsewhere
      rw [restored.untouched location fun path listed found => elsewhere ⟨path, listed, found⟩, free] at stored
      cases stored
    obtain ⟨path, listed, found⟩ := member
    obtain ⟨place, again, packed⟩ := restored.located path listed
    rw [found, Except.ok.injEq] at again
    rw [← again, stored] at packed
    exact ⟨path, listed, located path listed found, (inputs path listed).found.trans packed.symm⟩
  · rintro ⟨path, listed, rfl, read⟩
    obtain ⟨place, found, packed⟩ := restored.located path listed
    rw [← located path listed found, packed, ← read]
    exact (inputs path listed).found.symm

end Empty

/-- What was packed comes out of an empty directory again, file by file, and nothing else with it. -/
theorem uf2_round_trip (inputs : ∀ path ∈ paths, Uf2Input files path) (distinct : (uf2Names paths).Nodup)
    (flat : slash ∉ brickdir.bytes) (down : brickdir.bytes ≠ dotDot)
    (whole : ∀ path ∈ paths, Untruncated (uf2Destdir brickdir) path)
    (room : ∀ path ∈ paths, (uf2Unpacked brickdir dstdir usePaths path).bytes.length ≤ 255)
    {kernel : Kernel} (quiet : kernel.answers = []) {root : Location}
    (found : kernel.files.directory dstdir = .ok root)
    (empty : ∀ rest, rest ≠ [] → kernel.files.nodes (root ++ rest) = none) :
    ∃ status packed, uf2Pack brickdir paths ⟨files, ⟨[], 0⟩, []⟩ = (some status, packed) ∧
      ∃ after, uf2Unpack packed.dst.content dstdir usePaths kernel =
          (some (.unk, "`uf2 unpack` was successful."), after) ∧
        (∀ path ∈ paths,
          after.files.readFile (uf2Unpacked brickdir dstdir usePaths path) = files.readFile path) ∧
        (∀ rest content, rest ≠ [] →
          (after.files.contents (root ++ rest) = some content ↔
            ∃ path ∈ paths, rest = uf2Inside (if usePaths then uf2Destdir brickdir else dotName).bytes ++
              [(uf2Basename path false).bytes] ∧ files.readFile path = some content)) ∧
        ∀ location, ¬ root <+: location → after.files.contents location = kernel.files.contents location := by
  obtain ⟨last, written⟩ := uf2Pack_blocks brickdir fun path listed => (inputs path listed).packable
  have shuffles : Shuffles (uf2PackedBlocks files (uf2Destdir brickdir) paths) _ :=
    shuffles_packed (fun _ member => member) (fun _ member => Or.inl member)
  have short : ([] : Bytes).length < uf2BlockSize := by decide
  have ready := ready_empty found empty (uf2Folder (uf2Destdir brickdir) usePaths).bytes (uf2Names paths)
  obtain ⟨after, readyAfter, run⟩ := unpack_succeeds inputs flat down whole room shuffles short quiet ready
  have grown := (uf2UnpackLoop_edits short quiet run).1
  have plain : NoLinks kernel.files root := by
    intro rest target below
    rw [empty rest below]
    simp
  have restored := unpack_blocks inputs whole (destinations_nodup inputs flat down whole room distinct)
    (fun _ member => member) (fun _ member => Or.inl member) short quiet
    (fun cut path listed => (plain.extends grown).destination readyAfter.found (whole path listed) cut) run
  rw [List.append_nil] at run
  refine ⟨_, _, written, after, uf2Unpack_done run, ?_, ?_, ?_⟩
  · intro path listed
    rw [← uf2Destination_unpacked flat down (whole path listed) (room path listed), restored.readFile listed]
    exact (inputs path listed).found.symm
  · intro rest content below
    have free : kernel.files.contents (root ++ rest) = none := by
      rw [FileSystem.contents, empty rest below]
    rw [unpacked_exactly inputs flat down whole room restored readyAfter free,
      uf2Folder_flat (uf2Destdir_flat flat) (uf2Destdir_down down)]
    simp only [List.append_assoc, List.append_cancel_left_eq]
  · intro location outside
    refine restored.untouched location fun path listed located => outside ?_
    rw [readyAfter.located (unpacked_target flat down (inputs path listed) (whole path listed) (room path listed))
      (uf2Names_member listed) located, List.append_assoc]
    exact List.prefix_append _ _

def noName : CString := ⟨[], by decide⟩

def fileA : CString := ⟨[0x61], by decide⟩

def fileB : CString := ⟨[0x64, 0x2F, 0x62], by decide⟩

def outputDirectory : CString := ⟨[0x6F], by decide⟩

/-- The files `a` and `d/b`. -/
def twoFiles : FileSystem where
  nodes location :=
    if location = [[0x61]] then some (.file [1, 2, 3])
    else if location = [[0x64]] then some .directory
    else if location = [[0x64], [0x62]] then some (.file [4])
    else none
  cwd := []

def emptyOutput : FileSystem where
  nodes location := if location = [[0x6F]] then some .directory else none
  cwd := []

theorem twoFiles_inputs : ∀ path ∈ [fileA, fileB], Uf2Input twoFiles path := by
  intro path listed
  rcases List.mem_cons.mp listed with rfl | listed
  · exact ⟨by decide, by decide, by decide⟩
  · cases List.mem_singleton.mp listed
    exact ⟨by decide, by decide, by decide⟩

theorem twoFiles_whole : ∀ path ∈ [fileA, fileB], Untruncated (uf2Destdir noName) path := by
  unfold Untruncated
  decide

theorem twoFiles_room :
    ∀ path ∈ [fileA, fileB], (uf2Unpacked noName outputDirectory true path).bytes.length ≤ 255 := by
  decide

theorem emptyOutput_empty (rest : Location) (below : rest ≠ []) : emptyOutput.nodes ([[0x6F]] ++ rest) = none := by
  refine if_neg fun same => below ?_
  rw [List.singleton_append, List.cons.injEq] at same
  exact same.2

theorem emptyOutput_found : emptyOutput.directory outputDirectory = .ok [[0x6F]] := rfl

theorem uf2_round_trip_two :
    ∃ status packed, uf2Pack noName [fileA, fileB] ⟨twoFiles, ⟨[], 0⟩, []⟩ = (some status, packed) ∧
      ∃ after, uf2Unpack packed.dst.content outputDirectory true ⟨emptyOutput, [], []⟩ =
          (some (.unk, "`uf2 unpack` was successful."), after) ∧
        after.files.readFile (outputDirectory ++ separator ++ projects ++ separator ++ fileA) = some [1, 2, 3] := by
  have distinct : (uf2Names [fileA, fileB]).Nodup := by decide
  have flat : slash ∉ noName.bytes := by decide
  have down : noName.bytes ≠ dotDot := by decide
  have quiet : (⟨emptyOutput, [], []⟩ : Kernel).answers = [] := rfl
  obtain ⟨status, packed, pack, after, unpack, read, _⟩ := uf2_round_trip twoFiles_inputs distinct flat down
    twoFiles_whole twoFiles_room quiet emptyOutput_found emptyOutput_empty
  have content : twoFiles.readFile fileA = some [1, 2, 3] := by decide
  exact ⟨status, packed, pack, after, unpack, (read fileA List.mem_cons_self).trans content⟩

/-- Order, repetitions, junk and what stood at the destinations before make no difference.  Extractions leave symbolic
links alone, so that `plain` asks of the state before that no destination is one; by `neverLink_iff` that is no more
than that the run finds none. -/
theorem uf2Unpack_shuffled (inputs : ∀ path ∈ paths, Uf2Input files path)
    (whole : ∀ path ∈ paths, Untruncated (uf2Destdir brickdir) path)
    (distinct : (paths.map (uf2Destination (uf2Destdir brickdir) dstdir usePaths)).Nodup)
    {status : Int × String} {packed : Stdio}
    (pack : uf2Pack brickdir paths ⟨files, ⟨[], 0⟩, []⟩ = (some status, packed)) {archive blocks : List Uf2Block}
    (contents : packed.dst.content = archive.flatMap Uf2Block.bytes)
    (complete : ∀ block ∈ archive, block ∈ blocks) (sound : ∀ block ∈ blocks, block ∈ archive ∨ ¬ block.Accepted)
    {tail : Bytes} (short : tail.length < uf2BlockSize)
    {fresh freshAfter kernel after : Kernel} (freshQuiet : fresh.answers = []) (quiet : kernel.answers = [])
    {freshRoot : Location} (freshFound : fresh.files.directory dstdir = .ok freshRoot)
    (empty : ∀ rest, rest ≠ [] → fresh.files.nodes (freshRoot ++ rest) = none)
    (plain : ∀ path ∈ paths, kernel.files.NeverLink (uf2Destination (uf2Destdir brickdir) dstdir usePaths path))
    {freshMessage message : String}
    (freshRun : uf2Unpack packed.dst.content dstdir usePaths fresh = (some (.unk, freshMessage), freshAfter))
    (run : uf2Unpack (blocks.flatMap Uf2Block.bytes ++ tail) dstdir usePaths kernel = (some (.unk, message), after)) :
    (∀ path ∈ paths,
      after.files.readFile (uf2Destination (uf2Destdir brickdir) dstdir usePaths path) =
        freshAfter.files.readFile (uf2Destination (uf2Destdir brickdir) dstdir usePaths path) ∧
      after.files.readFile (uf2Destination (uf2Destdir brickdir) dstdir usePaths path) =
        some (uf2Content files path)) ∧
    (∀ location, after.files.contents location ≠ kernel.files.contents location →
      ∃ path ∈ paths,
        after.files.locate (uf2Destination (uf2Destdir brickdir) dstdir usePaths path) = .ok location) := by
  obtain ⟨last, written⟩ := uf2Pack_blocks brickdir fun path listed => (inputs path listed).packable
  rw [written, Prod.mk.injEq] at pack
  obtain ⟨_, rfl⟩ := pack
  have blocksOf := flatMap_bytes_injective contents
  subst blocksOf
  have freshPlain : NoLinks fresh.files freshRoot := by
    intro rest target below
    rw [empty rest below]
    simp
  have freshLoop := uf2Unpack_loop freshRun
  rw [← List.append_nil ((uf2PackedBlocks files (uf2Destdir brickdir) paths).flatMap Uf2Block.bytes)] at freshLoop
  have freshGrown := (uf2UnpackLoop_edits (by decide) freshQuiet freshLoop).1
  have freshRestored := unpack_blocks inputs whole distinct (fun _ member => member) (fun _ member => Or.inl member)
    (by decide) freshQuiet
    (fun room path listed => (freshPlain.extends freshGrown).destination (freshGrown.directory_ok freshFound)
      (whole path listed) room) freshLoop
  have grown := (uf2UnpackLoop_edits short quiet (uf2Unpack_loop run)).1
  have restored := unpack_blocks inputs whole distinct complete sound short quiet
    (fun _ path listed => plain path listed after.files grown) (uf2Unpack_loop run)
  refine ⟨?_, ?_⟩
  · intro path listed
    rw [restored.readFile listed, freshRestored.readFile listed]
    exact ⟨rfl, rfl⟩
  · intro location changed
    apply Classical.byContradiction
    intro elsewhere
    refine changed (restored.untouched location ?_)
    intro path listed located
    exact elsewhere ⟨path, listed, located⟩

/-- The directory `o` with a longer `Projects/a` from before. -/
def staleOutput : FileSystem where
  nodes location :=
    if location = [[0x6F]] then some .directory
    else if location = [[0x6F], projects.bytes] then some .directory
    else if location = [[0x6F], projects.bytes, fileA.bytes] then some (.file [9, 9, 9, 9, 9])
    else none
  cwd := []

theorem staleOutput_ready :
    Uf2Ready outputDirectory [[0x6F]] (uf2Folder (uf2Destdir noName) true).bytes (uf2Names [fileA, fileB])
      staleOutput where
  found := rfl
  room _ := Or.inr (by decide)
  vacancy name member := by
    rcases List.mem_cons.mp member with rfl | member
    · exact Or.inr ⟨[9, 9, 9, 9, 9], by decide⟩
    · cases List.mem_singleton.mp member
      exact Or.inl (by decide)

theorem staleOutput_plain : NoLinks staleOutput [[0x6F]] := by
  intro rest target _ found
  simp only [staleOutput] at found
  split at found
  · cases found
  · split at found
    · cases found
    · split at found
      · cases found
      · cases found

def twoBlocks : List Uf2Block := uf2PackedBlocks twoFiles (uf2Destdir noName) [fileA, fileB]

theorem uf2Unpack_shuffled_twice :
    ∃ after,
      uf2Unpack ((twoBlocks ++ uf2EmptyBlock 0 :: twoBlocks).flatMap Uf2Block.bytes ++ [0]) outputDirectory true
          ⟨staleOutput, [], []⟩ = (some (.unk, "`uf2 unpack` was successful."), after) ∧
        after.files.readFile (uf2Destination (uf2Destdir noName) outputDirectory true fileA) = some [1, 2, 3] := by
  have flat : slash ∉ noName.bytes := by decide
  have down : noName.bytes ≠ dotDot := by decide
  have distinct : ([fileA, fileB].map (uf2Destination (uf2Destdir noName) outputDirectory true)).Nodup := by decide
  have freshQuiet : (⟨emptyOutput, [], []⟩ : Kernel).answers = [] := rfl
  have quiet : (⟨staleOutput, [], []⟩ : Kernel).answers = [] := rfl
  have none : ([] : Bytes).length < uf2BlockSize := by decide
  have one : ([0] : Bytes).length < uf2BlockSize := by decide
  have junk : ¬ (uf2EmptyBlock 0).Accepted := fun accepted => absurd accepted.offset (by decide)
  have complete : ∀ block ∈ twoBlocks, block ∈ twoBlocks ++ uf2EmptyBlock 0 :: twoBlocks :=
    fun block member => List.mem_append_left _ member
  have sound : ∀ block ∈ twoBlocks ++ uf2EmptyBlock 0 :: twoBlocks, block ∈ twoBlocks ∨ ¬ block.Accepted := by
    intro block member
    rcases List.mem_append.mp member with early | late
    · exact Or.inl early
    · rcases List.mem_cons.mp late with rfl | late
      · exact Or.inr junk
      · exact Or.inl late
  have archive : Shuffles twoBlocks (uf2ArchiveBlocks twoFiles (uf2Destdir noName) 0 [fileA, fileB]) :=
    shuffles_packed (fun _ member => member) (fun _ member => Or.inl member)
  have shuffles : Shuffles (twoBlocks ++ uf2EmptyBlock 0 :: twoBlocks)
      (uf2ArchiveBlocks twoFiles (uf2Destdir noName) 0 [fileA, fileB]) := shuffles_packed complete sound
  obtain ⟨last, pack⟩ := uf2Pack_blocks noName fun path listed => (twoFiles_inputs path listed).packable
  obtain ⟨freshAfter, _, freshRun⟩ := unpack_succeeds twoFiles_inputs flat down twoFiles_whole twoFiles_room archive
    none freshQuiet (ready_empty emptyOutput_found emptyOutput_empty _ _)
  obtain ⟨after, _, run⟩ := unpack_succeeds twoFiles_inputs flat down twoFiles_whole twoFiles_room shuffles one
    quiet staleOutput_ready
  rw [List.append_nil] at freshRun
  have restored := uf2Unpack_shuffled twoFiles_inputs twoFiles_whole distinct pack rfl complete sound one freshQuiet
    quiet emptyOutput_found emptyOutput_empty
    (fun path listed _ grown => (staleOutput_plain.extends grown).destination
      (grown.directory_ok staleOutput_ready.found) (twoFiles_whole path listed) (by decide))
    (uf2Unpack_done freshRun) (uf2Unpack_done run)
  have content : uf2Content twoFiles fileA = [1, 2, 3] := by decide
  exact ⟨after, uf2Unpack_done run, content ▸ (restored.1 fileA List.mem_cons_self).2⟩

end Shuffled

end Ev3duder
