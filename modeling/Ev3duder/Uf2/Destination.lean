import Ev3duder.Uf2.Restoration

namespace Ev3duder

open Data Posix

/-! # Where packed files are unpacked to -/

theorem takeWhile_separator (front rest : Bytes) :
    (front ++ slash :: rest).takeWhile (· ≠ slash) = front.takeWhile (· ≠ slash) := by
  induction front with
  | nil => simp
  | cons char front ih =>
      by_cases same : char = slash
      · simp [same]
      · simp only [List.cons_append]
        rw [List.takeWhile_cons_of_pos (by simpa using same), List.takeWhile_cons_of_pos (by simpa using same), ih]

theorem takeWhile_length_le (bytes : Bytes) (condition : UInt8 → Bool) :
    (bytes.takeWhile condition).length ≤ bytes.length := (List.takeWhile_prefix condition).length_le

theorem uf2Folder_archive {filename destdir : CString} {rest : Bytes}
    (split : filename.bytes = destdir.bytes ++ slash :: rest) (usePaths : Bool) :
    uf2Folder filename usePaths = uf2Folder destdir usePaths := by
  have cut : filename.take (filename.bytes.takeWhile (· ≠ slash)).length =
      destdir.take (destdir.bytes.takeWhile (· ≠ slash)).length := by
    apply CString.ext
    rw [CString.take_bytes, CString.take_bytes, split, takeWhile_separator,
      List.take_append_of_le_length (takeWhile_length_le _ _)]
  rw [uf2Folder, uf2Folder, cut]

theorem uf2Folder_free (filename : CString) (usePaths : Bool) : slash ∉ (uf2Folder filename usePaths).bytes := by
  have cut : slash ∉ (filename.take (filename.bytes.takeWhile (· ≠ slash)).length).bytes := by
    have front : filename.bytes.take (filename.bytes.takeWhile (· ≠ slash)).length =
        filename.bytes.takeWhile (· ≠ slash) := (List.prefix_iff_eq_take.mp (List.takeWhile_prefix _)).symm
    rw [CString.take_bytes, front]
    intro member
    have kept := List.all_eq_true.mp List.all_takeWhile slash member
    simp at kept
  cases usePaths with
  | false => exact show slash ∉ dotName.bytes by decide
  | true =>
      by_cases up : filename.take (filename.bytes.takeWhile (· ≠ slash)).length = dotDotName
      · simp only [uf2Folder, if_true, if_pos up]
        decide
      · simp only [uf2Folder, if_true, if_neg up]
        exact cut

/-- An extraction never goes up by its folder. -/
theorem uf2Folder_down (filename : CString) (usePaths : Bool) : (uf2Folder filename usePaths).bytes ≠ dotDot := by
  cases usePaths with
  | false => exact show dotName.bytes ≠ dotDot by decide
  | true =>
      by_cases up : filename.take (filename.bytes.takeWhile (· ≠ slash)).length = dotDotName
      · simp only [uf2Folder, if_true, if_pos up]
        decide
      · simp only [uf2Folder, if_true, if_neg up]
        exact fun same => up (CString.ext same)

theorem uf2Folder_flat {destdir : CString} (flat : slash ∉ destdir.bytes) (down : destdir ≠ dotDotName)
    (usePaths : Bool) : uf2Folder destdir usePaths = if usePaths then destdir else dotName := by
  cases usePaths with
  | false => rfl
  | true =>
      have free : ∀ char ∈ destdir.bytes, decide (char ≠ slash) = true := by
        intro char member
        rw [decide_eq_true_iff]
        rintro rfl
        exact flat member
      have all : (destdir.bytes ++ []).takeWhile (· ≠ slash) = destdir.bytes ++ [].takeWhile (· ≠ slash) :=
        List.takeWhile_append_of_pos free
      rw [List.takeWhile_nil, List.append_nil] at all
      have cut : destdir.take (destdir.bytes.takeWhile (· ≠ slash)).length = destdir := by
        apply CString.ext
        rw [CString.take_bytes, all, List.take_length]
      simp only [uf2Folder, if_true, cut, if_neg down]

/-- A mapped path before it is cut: the directory, the folder and the base name. -/
theorem uf2Map_bytes (dstdir filename : CString) (usePaths : Bool) :
    (uf2Map uf2RealnameSize dstdir filename usePaths).bytes =
      ((dstdir.bytes ++ slash :: (uf2Folder filename usePaths).bytes) ++
        slash :: (uf2Basename filename false).bytes).take 255 := by
  rw [uf2Map, CString.take_bytes]
  simp only [CString.append_bytes, separator, List.append_assoc, List.singleton_append]
  rfl

/-- The part of a name before a separator, as a name. -/
theorem name_before {name : CString} {front rest : Bytes} (split : name.bytes = front ++ slash :: rest) :
    ∃ before : CString, before.bytes = front :=
  ⟨name.take front.length, by rw [CString.take_bytes, split, List.take_left]⟩

section Destination

variable {destdir dstdir path : CString} {usePaths : Bool}

/-- The name fits into `uf2_name`. -/
def Untruncated (destdir path : CString) : Prop :=
  destdir.bytes.length + 1 + (uf2Basename path false).bytes.length ≤ uf2FilenameMax

theorem Untruncated.name (whole : Untruncated destdir path) :
    (uf2ArchiveName destdir path).bytes = destdir.bytes ++ slash :: (uf2Basename path false).bytes := by
  have length : (destdir ++ separator ++ uf2Basename path false).bytes.length ≤ uf2FilenameMax := by
    simp only [CString.append_bytes, List.length_append]
    exact whole
  rw [uf2ArchiveName, CString.take_bytes, List.take_of_length_le length]
  simp [separator]

def uf2Above (destdir dstdir : CString) (usePaths : Bool) : CString :=
  dstdir ++ separator ++ uf2Folder destdir usePaths

theorem Untruncated.destination (whole : Untruncated destdir path) :
    (uf2Destination destdir dstdir usePaths path).bytes =
      ((uf2Above destdir dstdir usePaths).bytes ++ slash :: (uf2Basename path false).bytes).take 255 := by
  have base : (uf2Basename (uf2ArchiveName destdir path) false).bytes = (uf2Basename path false).bytes :=
    uf2Basename_after whole.name (uf2Basename_free path)
  have folder := uf2Folder_archive whole.name usePaths
  rw [uf2Destination, uf2Map, CString.take_bytes, folder, uf2Above]
  simp only [CString.append_bytes, base, List.append_assoc]
  rfl

end Destination

/-- No symbolic link stands below the directory. -/
def NoLinks (files : FileSystem) (directory : Location) : Prop :=
  ∀ rest target, rest ≠ [] → files.nodes (directory ++ rest) ≠ some (.link target)

theorem NoLinks.extends {old new : FileSystem} {directory : Location} (plain : NoLinks old directory)
    (extended : old.Extends new) : NoLinks new directory :=
  fun rest target below found => plain rest target below ((extended.link _ target).mp found)

/-- Entering a folder that is not `..` leads to the directory itself or into it. -/
theorem enter_below {files : FileSystem} {directory there : Location} {name : Name} (plain : NoLinks files directory)
    (down : name ≠ dotDot) (entered : files.enter maxLinks directory name = .ok there) :
    ∃ rest, there = directory ++ rest ∧ ∀ name ∈ rest, ¬ Special name := by
  obtain ⟨follow, same⟩ := files.enter_step maxLinks
  rw [same] at entered
  by_cases special : Special name
  · rw [files.step_stays follow directory (special.stays down)] at entered
    cases entered
    exact ⟨[], (List.append_nil _).symm, fun _ member => absurd member List.not_mem_nil⟩
  · rw [files.step_ordinary follow directory special] at entered
    rcases found : files.nodes (directory ++ [name]) with _ | ⟨content⟩ | _ | target <;> rw [found] at entered
    · cases entered
    · cases entered
    · cases entered
      exact ⟨[name], rfl, fun _ member => List.mem_singleton.mp member ▸ special⟩
    · exact absurd found (plain [name] target (by simp))

theorem components_slash {path front : CString} {last : Name} (split : path.bytes = front.bytes ++ slash :: last)
    (free : slash ∉ last) : components path = components front ++ [last] := by
  rw [components, split, List.splitOn_append_cons_self, List.splitOn_eq_singleton free]
  rfl

theorem origin_append {path front : CString} {rest : Bytes} (here : Location) (split : path.bytes = front.bytes ++ rest)
    (nonempty : front.bytes ≠ []) : origin here path = origin here front := by
  have first : path.bytes.head? = front.bytes.head? := by
    rw [split]
    cases bytes : front.bytes with
    | nil => exact absurd bytes nonempty
    | cons char bytes => rfl
  rw [origin, origin, first]

theorem directory_ok {files : FileSystem} {path : CString} {location : Location}
    (found : files.directory path = .ok location) :
    path.bytes ≠ [] ∧ files.walk (origin files.cwd path) (components path) = .ok location := by
  unfold FileSystem.directory at found
  by_cases empty : path.bytes = []
  · rw [if_pos empty] at found
    cases found
  · rw [if_neg empty] at found
    exact ⟨empty, found⟩

section Apart

variable {destdir dstdir : CString} {usePaths : Bool}

theorem uf2Above_split (destdir dstdir : CString) (usePaths : Bool) :
    (uf2Above destdir dstdir usePaths).bytes = dstdir.bytes ++ slash :: (uf2Folder destdir usePaths).bytes := by
  simp [uf2Above, separator]

theorem walk_above {files : FileSystem} {root : Location} (found : files.directory dstdir = .ok root) :
    files.walk (origin files.cwd dstdir) (components (uf2Above destdir dstdir usePaths)) =
      files.enter maxLinks root (uf2Folder destdir usePaths).bytes := by
  rw [components_slash (uf2Above_split destdir dstdir usePaths) (uf2Folder_free destdir usePaths),
    FileSystem.walk_append, (directory_ok found).2]
  exact FileSystem.walk_single files root _

theorem Untruncated.destination_split {path : CString} (whole : Untruncated destdir path)
    (room : (uf2Above destdir dstdir usePaths).bytes.length < 254) :
    (uf2Destination destdir dstdir usePaths path).bytes = (uf2Above destdir dstdir usePaths).bytes ++
      slash :: (uf2Basename path false).bytes.take (254 - (uf2Above destdir dstdir usePaths).bytes.length) := by
  have left : 255 - (uf2Above destdir dstdir usePaths).bytes.length =
      (254 - (uf2Above destdir dstdir usePaths).bytes.length) + 1 := by omega
  rw [whole.destination, List.take_append, List.take_of_length_le (by omega), left, List.take_succ_cons]

/-- Paths that differ lead to different files, unless they are symbolic links. -/
theorem destinations_apart {files : FileSystem} {first second : CString} (firstWhole : Untruncated destdir first)
    (secondWhole : Untruncated destdir second)
    (plain : (uf2Above destdir dstdir usePaths).bytes.length < 254 →
      files.NotLink (uf2Destination destdir dstdir usePaths first) ∧
        files.NotLink (uf2Destination destdir dstdir usePaths second)) {location : Location}
    (firstLocated : files.locate (uf2Destination destdir dstdir usePaths first) = .ok location)
    (secondLocated : files.locate (uf2Destination destdir dstdir usePaths second) = .ok location) :
    uf2Destination destdir dstdir usePaths first = uf2Destination destdir dstdir usePaths second := by
  apply CString.ext
  by_cases room : (uf2Above destdir dstdir usePaths).bytes.length < 254
  · obtain ⟨firstPlain, secondPlain⟩ := plain room
    have parts : ∀ {path}, Untruncated destdir path → components (uf2Destination destdir dstdir usePaths path) =
        components (uf2Above destdir dstdir usePaths) ++
          [(uf2Basename path false).bytes.take (254 - (uf2Above destdir dstdir usePaths).bytes.length)] := by
      intro path whole
      exact components_slash (whole.destination_split room)
        fun member => uf2Basename_free path (List.mem_of_mem_take member)
    have start : ∀ {path}, Untruncated destdir path → origin files.cwd (uf2Destination destdir dstdir usePaths path) =
        origin files.cwd (uf2Above destdir dstdir usePaths) := by
      intro path whole
      refine origin_append files.cwd (whole.destination_split room) ?_
      rw [uf2Above_split]
      simp
    obtain ⟨parent, walked, here⟩ := firstPlain.locate firstLocated
    obtain ⟨other, otherWalked, there⟩ := secondPlain.locate secondLocated
    rw [parts firstWhole, List.dropLast_concat, start firstWhole] at walked
    rw [parts secondWhole, List.dropLast_concat, start secondWhole, walked] at otherWalked
    cases otherWalked
    rw [parts firstWhole, List.getLastD_concat] at here
    rw [parts secondWhole, List.getLastD_concat] at there
    have last := List.singleton_inj.mp (List.append_cancel_left (here.symm.trans there))
    rw [firstWhole.destination_split room, secondWhole.destination_split room, last]
  · -- Nothing of the base names is left.
    have gone : ∀ base : Bytes, ((uf2Above destdir dstdir usePaths).bytes ++ slash :: base).take 255 =
        ((uf2Above destdir dstdir usePaths).bytes ++ [slash]).take 255 := by
      intro base
      have split : (uf2Above destdir dstdir usePaths).bytes ++ slash :: base =
          ((uf2Above destdir dstdir usePaths).bytes ++ [slash]) ++ base := by simp
      rw [split, List.take_append_of_le_length (by rw [List.length_append, List.length_singleton]; omega)]
    rw [firstWhole.destination, secondWhole.destination, gone, gone (uf2Basename second false).bytes]

theorem NoLinks.destination {files : FileSystem} {root : Location} (plain : NoLinks files root)
    (found : files.directory dstdir = .ok root) {path : CString} (whole : Untruncated destdir path)
    (room : (uf2Above destdir dstdir usePaths).bytes.length < 254) :
    files.NotLink (uf2Destination destdir dstdir usePaths path) := by
  intro parent target walked
  have split := whole.destination_split room
  have parts := components_slash split fun member => uf2Basename_free path (List.mem_of_mem_take member)
  have start : origin files.cwd (uf2Destination destdir dstdir usePaths path) = origin files.cwd dstdir := by
    have front := split
    rw [uf2Above_split, List.append_assoc] at front
    exact origin_append files.cwd front (directory_ok found).1
  rw [parts, List.dropLast_concat, start, walk_above found] at walked
  obtain ⟨rest, rfl, _⟩ := enter_below plain (uf2Folder_down destdir usePaths) walked
  rw [List.append_assoc]
  exact plain _ target (by simp)

end Apart

end Ev3duder
