import Mathlib.Data.List.DropRight
import Ev3duder.Uf2.Helper
import Ev3duder.Uf2.Pack

namespace Ev3duder

open Data Posix

/-! # What `uf2_basename` looks at

The loop of `Uf2.Helper` on the memory that the string lies in.  It tests the character before the position, and `len`
is an `int`.
-/

/-- The memory by the distance from `fullname`: the string and its terminator between other characters. -/
def around (before behind : Nat → UInt8) (fullname : CString) : Int → UInt8
  | .ofNat index => (fullname.bytes ++ [0]).getD index (behind index)
  | .negSucc index => before index

/-- The loop from a position on: where it stops, and the positions that it looks at. -/
def scanBack (memory : Int → UInt8) (backslashTrigger : Bool) (pos : Int) : Int × List Int :=
  if memory pos ≠ slash ∧ (backslashTrigger = false ∨ memory pos ≠ backslash) ∧ 0 ≤ pos then
    let (stop, inspected) := scanBack memory backslashTrigger (pos - 1)
    (stop, pos :: inspected)
  else (pos, [pos])
termination_by (pos + 1).toNat

/-- The pointer that is returned, as its distance from `fullname`, and the positions that are looked at, those of
`strlen` first. -/
def uf2BasenameAt (memory : Int → UInt8) (fullname : CString) (backslashTrigger : Bool) : Int × List Int :=
  let len := int32 fullname.bytes.length
  let scanned := scanBack memory backslashTrigger len
  (scanned.1 + 1, (List.range (fullname.bytes.length + 1)).map Int.ofNat ++ scanned.2)

def separates (backslashTrigger : Bool) (char : UInt8) : Bool :=
  char = slash ∨ backslashTrigger = true ∧ char = backslash

/-- The characters behind the last separator, all of them where there is none. -/
def lastComponent (fullname : CString) (backslashTrigger : Bool) : Bytes :=
  fullname.bytes.rtakeWhile fun char => !separates backslashTrigger char

/-- The result points at the last component, and only the string is looked at. -/
structure PointsInside (fullname : CString) (backslashTrigger : Bool) (result : Int × List Int) : Prop where
  pointer : result.1 = fullname.bytes.length - (lastComponent fullname backslashTrigger).length
  inside : ∀ index ∈ result.2, 0 ≤ index ∧ index ≤ fullname.bytes.length

/-- There is a separator, and the last one lies no further than the length as an `int`. -/
def SeparatorWithin (fullname : CString) (backslashTrigger : Bool) : Prop :=
  ∃ front char base, fullname.bytes = front ++ char :: base ∧ separates backslashTrigger char = true ∧
    (∀ other ∈ base, separates backslashTrigger other = false) ∧ (front.length : Int) ≤ int32 fullname.bytes.length

theorem scanBack_goes {memory : Int → UInt8} {backslashTrigger : Bool} {pos : Int}
    (ordinary : separates backslashTrigger (memory pos) = false) (inside : 0 ≤ pos) :
    scanBack memory backslashTrigger pos =
      ((scanBack memory backslashTrigger (pos - 1)).1, pos :: (scanBack memory backslashTrigger (pos - 1)).2) := by
  have goes : memory pos ≠ slash ∧ (backslashTrigger = false ∨ memory pos ≠ backslash) ∧ 0 ≤ pos := by
    cases backslashTrigger <;> simp_all [separates]
  rw [scanBack, if_pos goes]

theorem scanBack_stops {memory : Int → UInt8} {backslashTrigger : Bool} {pos : Int}
    (stops : separates backslashTrigger (memory pos) = true ∨ pos < 0) :
    scanBack memory backslashTrigger pos = (pos, [pos]) := by
  have done : ¬ (memory pos ≠ slash ∧ (backslashTrigger = false ∨ memory pos ≠ backslash) ∧ 0 ≤ pos) := by
    intro ⟨notSlash, notBackslash, inside⟩
    rcases stops with found | outside
    · cases backslashTrigger <;> simp_all [separates]
    · omega
  rw [scanBack, if_neg done]

/-- Where the loop stops, seen from where it begins. -/
structure StopsAt (memory : Int → UInt8) (backslashTrigger : Bool) (pos stop : Int) : Prop where
  reached : stop ≤ pos
  passed : ∀ index, stop < index → index ≤ pos → 0 ≤ index ∧ separates backslashTrigger (memory index) = false
  stopped : separates backslashTrigger (memory stop) = true ∨ stop < 0

theorem StopsAt.step {memory : Int → UInt8} {backslashTrigger : Bool} {pos stop : Int}
    (stops : StopsAt memory backslashTrigger (pos - 1) stop) (inside : 0 ≤ pos)
    (ordinary : separates backslashTrigger (memory pos) = false) : StopsAt memory backslashTrigger pos stop where
  reached := by
    have reached := stops.reached
    omega
  passed index behind upTo := by
    by_cases here : index = pos
    · subst here
      exact ⟨inside, ordinary⟩
    · exact stops.passed index behind (by omega)
  stopped := stops.stopped

/-- The loop looks at every position from its first one down to where it stops. -/
theorem scanBack_spec (memory : Int → UInt8) (backslashTrigger : Bool) (pos : Int) :
    ∃ stop inspected, scanBack memory backslashTrigger pos = (stop, inspected) ∧
      StopsAt memory backslashTrigger pos stop ∧ ∀ index, index ∈ inspected ↔ stop ≤ index ∧ index ≤ pos := by
  generalize measure : (pos + 1).toNat = count
  induction count generalizing pos with
  | zero =>
      have outside : pos < 0 := by omega
      refine ⟨pos, [pos], scanBack_stops (.inr outside), ⟨Int.le_refl _, ?_, .inr outside⟩, ?_⟩
      · intro index behind upTo
        omega
      · intro index
        rw [List.mem_singleton]
        omega
  | succ count ih =>
      cases here : separates backslashTrigger (memory pos) with
      | true =>
          refine ⟨pos, [pos], scanBack_stops (.inl here), ⟨Int.le_refl _, ?_, .inl here⟩, ?_⟩
          · intro index behind upTo
            omega
          · intro index
            rw [List.mem_singleton]
            omega
      | false =>
          have inside : 0 ≤ pos := by omega
          obtain ⟨stop, inspected, run, stops, looked⟩ := ih (pos - 1) (by omega)
          have goes := scanBack_goes here inside
          rw [run] at goes
          have reached := stops.reached
          refine ⟨stop, pos :: inspected, goes, stops.step inside here, ?_⟩
          intro index
          rw [List.mem_cons, looked]
          omega

theorem around_text (before behind : Nat → UInt8) {fullname : CString} {index : Nat} {char : UInt8}
    (found : fullname.bytes[index]? = some char) : around before behind fullname index = char := by
  have inside := (List.getElem?_eq_some_iff.mp found).1
  change (fullname.bytes ++ [0]).getD index (behind index) = char
  rw [List.getD_eq_getElem?_getD, List.getElem?_append_left inside, found, Option.getD_some]

theorem around_terminator (before behind : Nat → UInt8) (fullname : CString) :
    around before behind fullname fullname.bytes.length = 0 := by
  change (fullname.bytes ++ [0]).getD fullname.bytes.length (behind fullname.bytes.length) = 0
  simp

theorem separates_terminator (backslashTrigger : Bool) : separates backslashTrigger 0 = false := by
  simp [separates, slash, backslash]

/-- What separates is a character of the string, not its terminator. -/
theorem around_separator {before behind : Nat → UInt8} {fullname : CString} {backslashTrigger : Bool} {index : Nat}
    (upTo : index ≤ fullname.bytes.length)
    (found : separates backslashTrigger (around before behind fullname index) = true) :
    ∃ char, fullname.bytes[index]? = some char ∧ separates backslashTrigger char = true := by
  rcases Nat.lt_or_eq_of_le upTo with inside | terminator
  · have here := List.getElem?_eq_getElem inside
    rw [around_text _ _ here] at found
    exact ⟨_, here, found⟩
  · rw [terminator, around_terminator, separates_terminator] at found
    cases found

theorem lastComponent_split {fullname : CString} {backslashTrigger : Bool} {front base : Bytes} {char : UInt8}
    (split : fullname.bytes = front ++ char :: base) (found : separates backslashTrigger char = true)
    (free : ∀ other ∈ base, separates backslashTrigger other = false) :
    lastComponent fullname backslashTrigger = base := by
  have passed : ∀ other ∈ base.reverse, (!separates backslashTrigger other) = true := by
    intro other member
    simp [free other (List.mem_reverse.mp member)]
  rw [lastComponent, split, List.rtakeWhile, List.reverse_append, List.reverse_cons, List.append_assoc,
    List.takeWhile_append_of_pos passed, List.singleton_append, List.takeWhile_cons_of_neg (by simp [found]),
    List.append_nil, List.reverse_reverse]

theorem lastComponent_drop (fullname : CString) (backslashTrigger : Bool) :
    fullname.bytes.drop (fullname.bytes.length - (lastComponent fullname backslashTrigger).length) =
      lastComponent fullname backslashTrigger :=
  (List.suffix_iff_eq_drop.mp (List.rtakeWhile_suffix _ fullname.bytes)).symm

theorem lastComponent_free {fullname : CString} {backslashTrigger : Bool} {char : UInt8}
    (member : char ∈ lastComponent fullname backslashTrigger) : separates backslashTrigger char = false := by
  simpa using List.mem_rtakeWhile_imp member

theorem int32_le_natCast (value : Nat) : int32 value ≤ value := by
  have same : int32 value % (2 ^ 32 : Nat) = value % (2 ^ 32 : Nat) := Int.bmod_emod
  have high : int32 value < ((2 ^ 32 : Nat) + 1) / 2 := Int.bmod_lt (by decide)
  omega

/-- Where the loop stops inside of the string, the separator is the last one. -/
theorem StopsAt.separator {before behind : Nat → UInt8} {fullname : CString} {backslashTrigger : Bool} {stop : Int}
    (stops : StopsAt (around before behind fullname) backslashTrigger (int32 fullname.bytes.length) stop)
    (result : stop + 1 = fullname.bytes.length - (lastComponent fullname backslashTrigger).length)
    (inside : 0 ≤ stop) : SeparatorWithin fullname backslashTrigger := by
  have shorter := int32_le_natCast fullname.bytes.length
  have reached := stops.reached
  have found := stops.stopped.resolve_right (by omega)
  obtain ⟨index, rfl⟩ := Int.eq_ofNat_of_zero_le inside
  obtain ⟨char, here, found⟩ := around_separator (by omega) found
  obtain ⟨before, same⟩ := List.getElem?_eq_some_iff.mp here
  refine ⟨fullname.bytes.take index, char, fullname.bytes.drop (index + 1), ?_, found, ?_, ?_⟩
  · rw [← same, ← List.drop_eq_getElem_cons, List.take_append_drop]
  · intro other member
    have position : index + 1 = fullname.bytes.length - (lastComponent fullname backslashTrigger).length := by omega
    rw [position, lastComponent_drop] at member
    exact lastComponent_free member
  · rw [List.length_take, Nat.min_eq_left (Nat.le_of_lt before)]
    exact reached

/-- The loop cannot run over the last separator once it begins behind it. -/
theorem StopsAt.last {before behind : Nat → UInt8} {fullname : CString} {backslashTrigger : Bool} {stop : Int}
    {front base : Bytes} {char : UInt8}
    (stops : StopsAt (around before behind fullname) backslashTrigger (int32 fullname.bytes.length) stop)
    (split : fullname.bytes = front ++ char :: base) (found : separates backslashTrigger char = true)
    (free : ∀ other ∈ base, separates backslashTrigger other = false)
    (within : (front.length : Int) ≤ int32 fullname.bytes.length) : stop = front.length := by
  have shorter := int32_le_natCast fullname.bytes.length
  have reached := stops.reached
  have last : fullname.bytes[front.length]? = some char := by simp [split]
  have low : (front.length : Int) ≤ stop := by
    apply Int.not_lt.mp
    intro behind
    have passed := (stops.passed front.length behind within).2
    rw [around_text _ _ last, found] at passed
    cases passed
  obtain ⟨index, rfl⟩ := Int.eq_ofNat_of_zero_le (Int.le_trans (Int.natCast_nonneg _) low)
  obtain ⟨other, here, ends⟩ := around_separator (by omega) (stops.stopped.resolve_right (by omega))
  apply Classical.byContradiction
  intro later
  have tail : fullname.bytes[index]? = base[index - (front.length + 1)]? := by
    rw [split, List.append_cons, List.getElem?_append_right (by simp; omega)]
    simp
  rw [here] at tail
  rw [free other (List.mem_of_getElem? tail.symm)] at ends
  cases ends

/-- The result is the last component and nothing outside of the string is looked at, exactly where the last separator is
within reach: without one the loop goes on to the character before the string. -/
theorem uf2BasenameAt_inside_iff (before behind : Nat → UInt8) (fullname : CString) (backslashTrigger : Bool) :
    PointsInside fullname backslashTrigger
        (uf2BasenameAt (around before behind fullname) fullname backslashTrigger) ↔
      SeparatorWithin fullname backslashTrigger := by
  obtain ⟨stop, inspected, run, stops, looked⟩ :=
    scanBack_spec (around before behind fullname) backslashTrigger (int32 fullname.bytes.length)
  have result : uf2BasenameAt (around before behind fullname) fullname backslashTrigger =
      (stop + 1, (List.range (fullname.bytes.length + 1)).map Int.ofNat ++ inspected) := by
    rw [uf2BasenameAt, run]
  rw [result]
  constructor
  · intro points
    have member : stop ∈ (List.range (fullname.bytes.length + 1)).map Int.ofNat ++ inspected :=
      List.mem_append_right _ ((looked stop).mpr ⟨Int.le_refl _, stops.reached⟩)
    exact stops.separator points.pointer (points.inside stop member).1
  · intro ⟨front, char, base, split, found, free, within⟩
    have last := stops.last split found free within
    have length : fullname.bytes.length = front.length + 1 + base.length := by
      rw [split, List.length_append, List.length_cons]
      omega
    constructor
    · change stop + 1 = _
      rw [lastComponent_split split found free, last]
      omega
    · intro index member
      have shorter := int32_le_natCast fullname.bytes.length
      rcases List.mem_append.mp member with counted | scanned
      · obtain ⟨position, small, rfl⟩ := List.mem_map.mp counted
        rw [List.mem_range] at small
        simp only [Int.ofNat_eq_natCast]
        omega
      · have bounds := (looked index).mp scanned
        omega

/-- A name without a separator. -/
theorem uf2BasenameAt_outside :
    ¬ PointsInside ⟨[0x61], by decide⟩ false
      (uf2BasenameAt (around (fun _ => 0) (fun _ => 0) ⟨[0x61], by decide⟩) ⟨[0x61], by decide⟩ false) := by
  intro points
  have looked : -1 ∈ (scanBack (around (fun _ => 0) (fun _ => 0) ⟨[0x61], by decide⟩) false 1).2 := by
    rw [scanBack_goes (by decide) (by decide), scanBack_goes (by decide) (by decide), scanBack_stops (.inr (by decide))]
    decide
  have bounds := points.inside (-1) (List.mem_append_right _ looked)
  exact absurd bounds.1 (by decide)

theorem scanBack_string (before behind : Nat → UInt8) (fullname : CString) (backslashTrigger : Bool) {count : Nat}
    (inside : count ≤ fullname.bytes.length + 1) :
    scanBack (around before behind fullname) backslashTrigger ((count : Int) - 1) =
      uf2BasenameLoop (fullname.bytes ++ [0]) backslashTrigger count := by
  induction count with
  | zero => exact scanBack_stops (.inr (by decide))
  | succ count ih =>
      have position : ((count + 1 : Nat) : Int) - 1 = count := by omega
      have here : around before behind fullname count = (fullname.bytes ++ [0]).getD count 0 := by
        change (fullname.bytes ++ [0]).getD count (behind count) = _
        have found : count < (fullname.bytes ++ [0]).length := by
          rw [List.length_append, List.length_singleton]
          omega
        simp only [List.getD_eq_getElem?_getD, List.getElem?_eq_getElem found, Option.getD_some]
      rw [position, scanBack, uf2BasenameLoop, here, ih (by omega)]
      simp

theorem int32_short {value : Nat} (short : value < 2 ^ 31) : int32 value = value :=
  Int.bmod_eq_of_le (by omega) (by omega)

/-- The component that `Uf2.Helper` takes is the one behind the returned pointer, for any string whose length an `int`
holds. -/
theorem uf2BasenameAt_uf2Basename (before behind : Nat → UInt8) {fullname : CString} (backslashTrigger : Bool)
    (short : fullname.bytes.length < 2 ^ 31) :
    fullname.drop (uf2BasenameAt (around before behind fullname) fullname backslashTrigger).1.toNat =
      uf2Basename fullname backslashTrigger := by
  have same := scanBack_string before behind fullname backslashTrigger (Nat.le_refl (fullname.bytes.length + 1))
  have position : ((fullname.bytes.length + 1 : Nat) : Int) - 1 = fullname.bytes.length := by omega
  rw [position] at same
  simp only [uf2BasenameAt, uf2Basename, int32_short short, same]

theorem last_separator (backslashTrigger : Bool) (bytes : Bytes) :
    (∀ char ∈ bytes, separates backslashTrigger char = false) ∨
      ∃ front char base, bytes = front ++ char :: base ∧ separates backslashTrigger char = true ∧
        ∀ other ∈ base, separates backslashTrigger other = false := by
  induction bytes with
  | nil => exact .inl fun _ member => nomatch member
  | cons first bytes ih =>
      rcases ih with free | ⟨front, char, base, split, found, free⟩
      · cases here : separates backslashTrigger first with
        | true => exact .inr ⟨[], first, bytes, rfl, here, free⟩
        | false =>
            refine .inl fun char member => ?_
            rcases List.mem_cons.mp member with same | member
            · rwa [same]
            · exact free char member
      · exact .inr ⟨first :: front, char, base, by rw [split, List.cons_append], found, free⟩

/-- Where an `int` holds the length, the position of the last separator is no matter. -/
theorem separatorWithin_short {fullname : CString} (backslashTrigger : Bool) (short : fullname.bytes.length < 2 ^ 31) :
    SeparatorWithin fullname backslashTrigger ↔ ∃ char ∈ fullname.bytes, separates backslashTrigger char = true := by
  constructor
  · intro ⟨front, char, base, split, found, _⟩
    exact ⟨char, by simp [split], found⟩
  · intro ⟨char, member, found⟩
    rcases last_separator backslashTrigger fullname.bytes with free | ⟨front, char, base, split, last, free⟩
    · rw [free char member] at found
      cases found
    · refine ⟨front, char, base, split, last, free, ?_⟩
      rw [int32_short short, split]
      simp only [List.length_append, List.length_cons]
      omega

/-- The component is the right one also where the loop leaves the string, whatever lies in front of it. -/
theorem uf2Basename_lastComponent (fullname : CString) (backslashTrigger : Bool)
    (short : fullname.bytes.length < 2 ^ 31) :
    (uf2Basename fullname backslashTrigger).bytes = lastComponent fullname backslashTrigger := by
  obtain ⟨stop, inspected, run, stops, _⟩ := scanBack_spec (around (fun _ => 0) (fun _ => 0) fullname) backslashTrigger
    (int32 fullname.bytes.length)
  have pointer :
      (uf2BasenameAt (around (fun _ => 0) (fun _ => 0) fullname) fullname backslashTrigger).1 = stop + 1 := by
    simp only [uf2BasenameAt, run]
  rw [← uf2BasenameAt_uf2Basename (fun _ => 0) (fun _ => 0) backslashTrigger short, pointer, CString.drop_bytes]
  rcases last_separator backslashTrigger fullname.bytes with free | ⟨front, char, base, split, found, free⟩
  · have before : stop < 0 := by
      apply Int.not_le.mp
      intro inside
      have reached := stops.reached
      rw [int32_short short] at reached
      obtain ⟨index, rfl⟩ := Int.eq_ofNat_of_zero_le inside
      obtain ⟨char, here, ends⟩ := around_separator (by omega) (stops.stopped.resolve_right (by omega))
      rw [free char (List.mem_of_getElem? here)] at ends
      cases ends
    have start : (stop + 1).toNat = 0 := by omega
    have whole : lastComponent fullname backslashTrigger = fullname.bytes :=
      List.rtakeWhile_eq_self_iff.mpr fun char member => by simp [free char member]
    rw [start, List.drop_zero, whole]
  · have within : (front.length : Int) ≤ int32 fullname.bytes.length := by
      rw [int32_short short, split]
      simp only [List.length_append, List.length_cons]
      omega
    have start : (stop + 1).toNat = front.length + 1 := by
      rw [stops.last split found free within]
      rfl
    rw [start, lastComponent_split split found free, split, List.append_cons]
    simp

end Ev3duder
