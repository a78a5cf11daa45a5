import Ev3duder.Data.Bytes

namespace Ev3duder.Data

/-! Byte strings that are rewritten in slices.

A patch fixes the length of a byte string and overwrites one slice of it.  When all patches are slices of one
`content` and together cover it, neither their order nor their number nor what was there before matters.
-/

/-- `slice` written at `offset`; a hole in front of it reads as zeros. -/
def overlay (content : Bytes) (offset : Nat) (slice : Bytes) : Bytes :=
  padded offset content ++ slice ++ content.drop (offset + slice.length)

theorem overlay_getElem? (content : Bytes) (offset : Nat) (slice : Bytes) (index : Nat) :
    (overlay content offset slice)[index]? =
      if index < offset then some (content[index]?.getD 0)
      else if index < offset + slice.length then slice[index - offset]?
      else content[index]? := by
  rw [overlay, List.getElem?_append, List.length_append, padded_length]
  by_cases front : index < offset
  · rw [if_pos (by omega), if_pos front, List.getElem?_append_left (by rw [padded_length]; exact front),
      padded_getElem?, if_pos front]
  · rw [if_neg front]
    by_cases inside : index < offset + slice.length
    · rw [if_pos inside, if_pos inside, List.getElem?_append_right (by rw [padded_length]; omega), padded_length]
    · rw [if_neg inside, if_neg inside, List.getElem?_drop]
      congr 1
      omega

theorem overlay_length (content : Bytes) (offset : Nat) (slice : Bytes) :
    (overlay content offset slice).length = max content.length (offset + slice.length) := by
  simp only [overlay, List.length_append, padded_length, List.length_drop]
  omega

theorem overlay_none {content : Bytes} {offset : Nat} (within : offset ≤ content.length) :
    overlay content offset [] = content := by
  apply List.ext_getElem?
  intro index
  rw [overlay_getElem?, List.length_nil, Nat.add_zero]
  by_cases inside : index < offset
  · rw [if_pos inside, List.getElem?_eq_getElem (by omega)]
    rfl
  · rw [if_neg inside, if_neg inside]

theorem overlay_end (content slice : Bytes) : overlay content content.length slice = content ++ slice := by
  rw [overlay, padded, List.take_length, Nat.sub_self, List.replicate_zero, List.append_nil,
    List.drop_of_length_le (by omega), List.append_nil]

theorem overlay_inside (front old slice back : Bytes) (same : old.length = slice.length) :
    overlay (front ++ old ++ back) front.length slice = front ++ slice ++ back := by
  have kept : padded front.length (front ++ old ++ back) = front := by
    rw [padded, List.append_assoc, List.take_left, List.length_append]
    simp
  have rest : (front ++ old ++ back).drop (front.length + slice.length) = back := by
    rw [← same, ← List.length_append, List.drop_left]
  rw [overlay, kept, rest]

structure Patch where
  size : Nat
  offset : Nat
  slice : Bytes
deriving DecidableEq, Repr

namespace Patch

def apply (patch : Patch) (content : Bytes) : Bytes :=
  overlay (padded patch.size content) patch.offset patch.slice

/-- What is left of a patch when only the first `count` bytes of its slice get through. -/
def cut (patch : Patch) (count : Nat) : Patch := { patch with slice := patch.slice.take count }

theorem cut_whole (patch : Patch) : patch.cut patch.slice.length = patch := by
  rw [cut, List.take_length]

/-- The patch is a slice of `content` and leaves a byte string of its length. -/
structure Fits (content : Bytes) (patch : Patch) : Prop where
  size : patch.size = content.length
  within : patch.offset + patch.slice.length ≤ content.length
  same : (content.drop patch.offset).take patch.slice.length = patch.slice

theorem apply_length (patch : Patch) (content : Bytes) :
    (patch.apply content).length = max patch.size (patch.offset + patch.slice.length) := by
  rw [apply, overlay_length, padded_length]

def Covers (patch : Patch) (index : Nat) : Prop :=
  patch.offset ≤ index ∧ index < patch.offset + patch.slice.length

instance (patch : Patch) (index : Nat) : Decidable (patch.Covers index) := by
  unfold Covers
  infer_instance

theorem Fits.getElem? {content : Bytes} {patch : Patch} (fits : patch.Fits content) {index : Nat}
    (covers : patch.Covers index) : patch.slice[index - patch.offset]? = content[index]? := by
  obtain ⟨low, high⟩ := covers
  rw [← fits.same, List.getElem?_take, if_pos (by omega), List.getElem?_drop, Nat.add_sub_cancel' low]

theorem Fits.apply_length {content : Bytes} {patch : Patch} (fits : patch.Fits content) (old : Bytes) :
    (patch.apply old).length = content.length := by
  have within := fits.within
  have size := fits.size
  rw [patch.apply_length]
  omega

/-- A patch makes the bytes that it covers right, and keeps those that are right already. -/
theorem Fits.apply_getElem? {content : Bytes} {patch : Patch} (fits : patch.Fits content) {old : Bytes} {index : Nat}
    (inside : index < content.length) (right : patch.Covers index ∨ old[index]? = content[index]?) :
    (patch.apply old)[index]? = content[index]? := by
  by_cases covers : patch.Covers index
  · rw [Patch.apply, overlay_getElem?, if_neg (Nat.not_lt.mpr covers.1), if_pos covers.2, fits.getElem? covers]
  · have kept : (padded patch.size old)[index]? = content[index]? := by
      rw [padded_getElem?, if_pos (fits.size ▸ inside), right.resolve_left covers, List.getElem?_eq_getElem inside]
      rfl
    rw [Patch.apply, overlay_getElem?, kept, List.getElem?_eq_getElem inside]
    by_cases front : index < patch.offset
    · rw [if_pos front]
      rfl
    · rw [if_neg front, if_neg fun high => covers ⟨Nat.not_lt.mp front, high⟩]

def applyAll (patches : List Patch) (old : Bytes) : Bytes :=
  patches.foldl (fun content patch => patch.apply content) old

theorem applyAll_getElem? {content : Bytes} {patches : List Patch} (fits : ∀ patch ∈ patches, patch.Fits content)
    (old : Bytes) {index : Nat} (inside : index < content.length)
    (right : (∃ patch ∈ patches, patch.Covers index) ∨ old[index]? = content[index]?) :
    (applyAll patches old)[index]? = content[index]? := by
  induction patches generalizing old with
  | nil => exact right.resolve_left fun ⟨_, member, _⟩ => by cases member
  | cons patch patches ih =>
      have step := fits patch List.mem_cons_self
      refine ih (fun other member => fits other (List.mem_cons_of_mem _ member)) (patch.apply old) ?_
      rcases right with ⟨other, member, covers⟩ | right
      · rcases List.mem_cons.mp member with rfl | member
        · exact Or.inr (step.apply_getElem? inside (Or.inl covers))
        · exact Or.inl ⟨other, member, covers⟩
      · exact Or.inr (step.apply_getElem? inside (Or.inr right))

theorem applyAll_length {content : Bytes} {patches : List Patch} (fits : ∀ patch ∈ patches, patch.Fits content)
    (some : patches ≠ []) (old : Bytes) : (applyAll patches old).length = content.length := by
  induction patches generalizing old with
  | nil => exact absurd rfl some
  | cons patch patches ih =>
      by_cases last : patches = []
      · rw [last]
        exact (fits patch List.mem_cons_self).apply_length old
      · exact ih (fun other member => fits other (List.mem_cons_of_mem _ member)) last (patch.apply old)

/-- Slices that cover a nonempty content restore it, in any order and over anything. -/
theorem applyAll_restores {content : Bytes} {patches : List Patch} (nonempty : content ≠ [])
    (fits : ∀ patch ∈ patches, patch.Fits content)
    (covered : ∀ index, index < content.length → ∃ patch ∈ patches, patch.Covers index) (old : Bytes) :
    applyAll patches old = content := by
  have positive := List.length_pos_iff.mpr nonempty
  have some : patches ≠ [] := by
    rintro rfl
    obtain ⟨patch, member, _⟩ := covered 0 positive
    cases member
  have length := applyAll_length fits some old
  apply List.ext_getElem?
  intro index
  by_cases inside : index < content.length
  · exact applyAll_getElem? fits old inside (Or.inl (covered index inside))
  · rw [List.getElem?_eq_none (by omega), List.getElem?_eq_none (by omega)]

end Patch

/-- Pieces laid one behind the other from `offset` on, each as a patch for a byte string of `size` bytes. -/
def laid (size offset : Nat) : List Bytes → List Patch
  | [] => []
  | piece :: pieces => ⟨size, offset, piece⟩ :: laid size (offset + piece.length) pieces

theorem laid_fits (front : Bytes) (pieces : List Bytes) {patch : Patch}
    (member : patch ∈ laid (front ++ pieces.flatten).length front.length pieces) :
    patch.Fits (front ++ pieces.flatten) := by
  induction pieces generalizing front with
  | nil => cases member
  | cons piece pieces ih =>
      rcases List.mem_cons.mp member with rfl | member
      · refine ⟨rfl, ?_, ?_⟩
        · simp only [List.flatten_cons, List.length_append]
          omega
        · simp only [List.flatten_cons, List.drop_left, List.take_left]
      · have shifted : front ++ (piece :: pieces).flatten = (front ++ piece) ++ pieces.flatten := by
          rw [List.flatten_cons, List.append_assoc]
        rw [shifted, ← List.length_append] at member
        rw [shifted]
        exact ih (front ++ piece) member

theorem laid_covers (size : Nat) {offset index : Nat} {pieces : List Bytes} (low : offset ≤ index)
    (high : index < offset + pieces.flatten.length) : ∃ patch ∈ laid size offset pieces, patch.Covers index := by
  induction pieces generalizing offset with
  | nil =>
      simp at high
      omega
  | cons piece pieces ih =>
      simp only [List.flatten_cons, List.length_append] at high
      by_cases here : index < offset + piece.length
      · exact ⟨_, List.mem_cons_self, low, here⟩
      · obtain ⟨patch, member, covers⟩ := ih (Nat.not_lt.mp here) (by omega)
        exact ⟨patch, List.mem_cons_of_mem _ member, covers⟩

section Store

variable {κ : Type} [DecidableEq κ]

/-- A missing byte string counts as an empty one. -/
def edit (store : κ → Option Bytes) (key : κ) (patch : Patch) : κ → Option Bytes :=
  fun other => if other = key then some (patch.apply ((store other).getD [])) else store other

def editAll (edits : List (κ × Patch)) (store : κ → Option Bytes) : κ → Option Bytes :=
  edits.foldl (fun store keyed => edit store keyed.1 keyed.2) store

theorem editAll_untouched {edits : List (κ × Patch)} {key : κ} (untouched : ∀ keyed ∈ edits, keyed.1 ≠ key)
    (store : κ → Option Bytes) : editAll edits store key = store key := by
  induction edits generalizing store with
  | nil => rfl
  | cons keyed edits ih =>
      have other := untouched keyed List.mem_cons_self
      rw [editAll, List.foldl_cons]
      refine (ih (fun later member => untouched later (List.mem_cons_of_mem _ member)) _).trans ?_
      exact if_neg fun same => other same.symm

theorem editAll_own {edits : List (κ × Patch)} {key : κ} (touched : ∃ keyed ∈ edits, keyed.1 = key)
    (store : κ → Option Bytes) :
    editAll edits store key =
      some (Patch.applyAll ((edits.filter (·.1 = key)).map (·.2)) ((store key).getD [])) := by
  induction edits generalizing store with
  | nil =>
      obtain ⟨_, member, _⟩ := touched
      cases member
  | cons keyed edits ih =>
      rw [editAll, List.foldl_cons]
      by_cases more : ∃ keyed ∈ edits, keyed.1 = key
      · refine (ih more _).trans ?_
        by_cases own : keyed.1 = key
        · rw [List.filter_cons_of_pos (by simpa using own)]
          simp only [edit, if_pos own.symm, Option.getD_some]
          rfl
        · rw [List.filter_cons_of_neg (by simpa using own)]
          simp only [edit, if_neg (Ne.symm own)]
      · have rest : edits.filter (·.1 = key) = [] := by
          rw [List.filter_eq_nil_iff]
          intro other member
          simpa using fun same => more ⟨other, member, same⟩
        have own : keyed.1 = key := by
          obtain ⟨other, member, same⟩ := touched
          rcases List.mem_cons.mp member with rfl | member
          · exact same
          · exact absurd ⟨other, member, same⟩ more
        refine (editAll_untouched (fun other member same => more ⟨other, member, same⟩) _).trans ?_
        rw [List.filter_cons_of_pos (by simpa using own), rest]
        simp only [edit, if_pos own.symm]
        rfl

/-- The last patch of a byte string decides. -/
theorem editAll_last {front back : List (κ × Patch)} {key : κ} {patch : Patch} (last : ∀ keyed ∈ back, keyed.1 ≠ key)
    (store : κ → Option Bytes) : ∃ old, editAll (front ++ (key, patch) :: back) store key = some (patch.apply old) := by
  refine ⟨(editAll front store key).getD [], ?_⟩
  have split : editAll (front ++ (key, patch) :: back) store = editAll back (edit (editAll front store) key patch) :=
    List.foldl_append
  rw [split, editAll_untouched last, edit, if_pos rfl]

/-- A byte string all of whose patches are slices of one content and cover it ends as that content. -/
theorem editAll_restores {edits : List (κ × Patch)} {key : κ} {content : Bytes} (nonempty : content ≠ [])
    (fits : ∀ keyed ∈ edits, keyed.1 = key → keyed.2.Fits content)
    (covered : ∀ index, index < content.length → ∃ keyed ∈ edits, keyed.1 = key ∧ keyed.2.Covers index)
    (store : κ → Option Bytes) : editAll edits store key = some content := by
  obtain ⟨first, member, own, _⟩ := covered 0 (List.length_pos_iff.mpr nonempty)
  rw [editAll_own ⟨first, member, own⟩]
  congr 1
  refine Patch.applyAll_restores nonempty ?_ ?_ _
  · intro patch member
    obtain ⟨keyed, kept, rfl⟩ := List.mem_map.mp member
    obtain ⟨kept, own⟩ := List.mem_filter.mp kept
    exact fits keyed kept (by simpa using own)
  · intro index inside
    obtain ⟨keyed, member, own, covers⟩ := covered index inside
    exact ⟨keyed.2, List.mem_map.mpr ⟨keyed, List.mem_filter.mpr ⟨member, by simpa using own⟩, rfl⟩, covers⟩

end Store

/-- `slice` over `content` at one offset after the other. -/
def stamp (content slice : Bytes) (offsets : List Nat) : Bytes :=
  offsets.foldl (fun content offset => overlay content offset slice) content

section Stamp

variable {content slice : Bytes} {offsets : List Nat}

theorem stamp_outside (within : ∀ offset ∈ offsets, offset + slice.length ≤ content.length) {index : Nat}
    (outside : ∀ offset ∈ offsets, index < offset ∨ offset + slice.length ≤ index) :
    (stamp content slice offsets)[index]? = content[index]? := by
  induction offsets generalizing content with
  | nil => rfl
  | cons offset offsets ih =>
      have fits := within offset List.mem_cons_self
      have length : (overlay content offset slice).length = content.length := by
        rw [overlay_length]
        omega
      have later := ih (fun other member => length ▸ within other (List.mem_cons_of_mem _ member))
        (fun other member => outside other (List.mem_cons_of_mem _ member))
      refine later.trans ?_
      rw [overlay_getElem?]
      rcases outside offset List.mem_cons_self with before | behind
      · rw [if_pos before, List.getElem?_eq_getElem (by omega)]
        rfl
      · rw [if_neg (by omega), if_neg (by omega)]

/-- Places that do not overlap unless they are the same all hold the slice in the end. -/
theorem stamp_inside (within : ∀ offset ∈ offsets, offset + slice.length ≤ content.length)
    (apart : ∀ first ∈ offsets, ∀ second ∈ offsets,
      first = second ∨ first + slice.length ≤ second ∨ second + slice.length ≤ first)
    {offset : Nat} (member : offset ∈ offsets) {index : Nat} (inside : index < slice.length) :
    (stamp content slice offsets)[offset + index]? = slice[index]? := by
  induction offsets generalizing content with
  | nil => cases member
  | cons first offsets ih =>
      have length : (overlay content first slice).length = content.length := by
        have fits := within first List.mem_cons_self
        rw [overlay_length]
        omega
      have rest : ∀ other ∈ offsets, other + slice.length ≤ (overlay content first slice).length :=
        fun other member => length ▸ within other (List.mem_cons_of_mem _ member)
      by_cases again : offset ∈ offsets
      · exact ih rest (fun one oneMember other otherMember =>
          apart one (List.mem_cons_of_mem _ oneMember) other (List.mem_cons_of_mem _ otherMember)) again
      · have here : offset = first := (List.mem_cons.mp member).resolve_right again
        have untouched := @stamp_outside (overlay content first slice) slice offsets rest (offset + index) (by
          intro other otherMember
          rcases apart offset member other (List.mem_cons_of_mem _ otherMember) with same | before | behind
          · exact absurd (same ▸ otherMember) again
          · omega
          · omega)
        refine untouched.trans ?_
        rw [overlay_getElem?, ← here, if_neg (by omega), if_pos (by omega), Nat.add_sub_cancel_left]

end Stamp

end Ev3duder.Data
