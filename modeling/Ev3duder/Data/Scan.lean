import Ev3duder.Data.Bytes
import Mathlib.Data.List.Basic
import Mathlib.Data.List.DropRight
import Mathlib.Data.List.TakeWhile
import Mathlib.Data.Nat.Digits.Lemmas

namespace Ev3duder.Data

/-! Text taken apart by a format.

A format is a list of directives: any number of blanks, a character that has to be there, or a conversion.  Reading
stops at the first directive that does not match; what was converted up to there is the result.
-/

inductive Directive (α β : Type) where
  | blanks
  | literal (char : α)
  | convert (conversion : List α → Option (β × List α))

section Scan

variable {α β : Type}

/-- The directives of a text that has to be there as it is. -/
def Directive.text (text : List α) : List (Directive α β) := text.map .literal

def scan [DecidableEq α] (blank : α → Bool) : List (Directive α β) → List α → List β
  | [], _ => []
  | .blanks :: format, text => scan blank format (text.dropWhile blank)
  | .literal char :: format, text => if text.head? = some char then scan blank format text.tail else []
  | .convert conversion :: format, text =>
      match conversion text with
      | none => []
      | some (value, rest) => value :: scan blank format rest

/-- The first word behind any blanks, and what follows it. -/
def readWord (blank : α → Bool) (text : List α) : Option (List α × List α) :=
  let text := text.dropWhile blank
  if text = [] then none else some (text.takeWhile (!blank ·), text.dropWhile (!blank ·))

/-- The number that the digits at the front make. -/
def readDigits (base : Nat) (digit : α → Option Nat) (text : List α) : Option (Nat × List α) :=
  let digits := text.takeWhile fun char => (digit char).isSome
  if digits = [] then none
  else some (Nat.ofDigits base (digits.filterMap digit).reverse, text.dropWhile fun char => (digit char).isSome)

/-- The digits of a number from the front. -/
def numeral (base number : Nat) : List Nat := if number = 0 then [0] else (Nat.digits base number).reverse

variable {blank : α → Bool} {text rest word : List α}

/-- A text is cut where a condition ends. -/
theorem cut_where {condition : α → Bool} (all : ∀ char ∈ text, condition char = true)
    (ends : ∀ char, rest.head? = some char → condition char = false) :
    (text ++ rest).takeWhile condition = text ∧ (text ++ rest).dropWhile condition = rest := by
  rw [List.takeWhile_append_of_pos all, List.dropWhile_append_of_pos all]
  cases rest with
  | nil => simp
  | cons char rest =>
      have stops : ¬ condition char = true := by simp [ends char rfl]
      rw [List.takeWhile_cons_of_neg stops, List.dropWhile_cons_of_neg stops, List.append_nil]
      exact ⟨rfl, rfl⟩

theorem dropWhile_starts (condition : α → Bool) (text : List α) :
    ∀ char, (text.dropWhile condition).head? = some char → condition char = false := by
  intro char starts
  have stops := List.head?_dropWhile_not condition text
  rw [starts] at stops
  exact stops

/-- Whether a directive makes a value. -/
def Directive.converts : Directive α β → Bool
  | .convert _ => true
  | _ => false

section Format

variable [DecidableEq α] {format : List (Directive α β)}

theorem scan_text (text : List α) (format : List (Directive α β)) (rest : List α) :
    scan blank (Directive.text text ++ format) (text ++ rest) = scan blank format rest := by
  induction text with
  | nil => rfl
  | cons char text ih =>
      change (if some char = some char then scan blank (Directive.text text ++ format) (text ++ rest) else []) = _
      rw [if_pos rfl, ih]

theorem scan_text_cases (label : List α) (format : List (Directive α β)) (text : List α) :
    scan blank (Directive.text label ++ format) text = [] ∨
      ∃ rest, text = label ++ rest ∧ scan blank (Directive.text label ++ format) text = scan blank format rest := by
  induction label generalizing text with
  | nil => exact Or.inr ⟨text, rfl, rfl⟩
  | cons char label ih =>
      change (if text.head? = some char then scan blank (Directive.text label ++ format) text.tail else []) = [] ∨ _
      split
      · rename_i front
        cases text with
        | nil => cases front
        | cons first text =>
            cases front
            rcases ih text with none | ⟨rest, rfl, same⟩
            · exact Or.inl none
            · exact Or.inr ⟨rest, rfl, (if_pos rfl).trans same⟩
      · exact Or.inl rfl

theorem scan_convert {conversion : List α → Option (β × List α)} {value : β}
    (converted : conversion text = some (value, rest)) :
    scan blank (.convert conversion :: format) text = value :: scan blank format rest := by
  rw [scan, converted]

/-- Blanks are passed over up to something that is none. -/
theorem scan_blanks {blanks : List α} (all : ∀ char ∈ blanks, blank char = true)
    (ends : ∀ char, rest.head? = some char → blank char = false) (format : List (Directive α β)) :
    scan blank (.blanks :: format) (blanks ++ rest) = scan blank format rest := by
  rw [scan, (cut_where all ends).2]

theorem scan_length (format : List (Directive α β)) (text : List α) :
    (scan blank format text).length ≤ format.countP Directive.converts := by
  induction format generalizing text with
  | nil => exact Nat.le_refl 0
  | cons directive format ih =>
      cases directive with
      | blanks => simpa [scan, Directive.converts] using ih _
      | literal char =>
          rw [scan]
          split
          · simpa [Directive.converts] using ih _
          · exact Nat.zero_le _
      | convert conversion =>
          rw [scan]
          split
          · exact Nat.zero_le _
          · rw [List.length_cons, List.countP_cons_of_pos rfl]
            exact Nat.succ_le_succ (ih _)

end Format

/-- What is read as a word is one: it has characters, and none of them is blank. -/
theorem readWord_plain (read : readWord blank text = some (word, rest)) :
    word ≠ [] ∧ ∀ char ∈ word, blank char = false := by
  rw [readWord] at read
  split at read
  · cases read
  · rename_i some
    cases read
    constructor
    · obtain ⟨char, more, front⟩ := List.exists_cons_of_ne_nil some
      have plain := dropWhile_starts blank text char (by rw [front]; rfl)
      rw [front, List.takeWhile_cons_of_pos (by simp [plain])]
      exact List.cons_ne_nil _ _
    · intro char member
      simpa using List.all_eq_true.mp List.all_takeWhile char member

theorem readWord_split (read : readWord blank text = some (word, rest)) :
    ∃ blanks, text = blanks ++ (word ++ rest) := by
  rw [readWord] at read
  split at read
  · cases read
  · cases read
    exact ⟨text.takeWhile blank, by rw [List.takeWhile_append_dropWhile, List.takeWhile_append_dropWhile]⟩

/-- Where there is anything but blanks there is a word. -/
theorem readWord_some {char : α} (member : char ∈ text) (plain : blank char = false) :
    ∃ word rest, readWord blank text = some (word, rest) := by
  rw [readWord]
  split
  · rename_i none
    have all := List.dropWhile_eq_nil_iff.mp none char member
    rw [plain] at all
    cases all
  · exact ⟨_, _, rfl⟩

theorem readWord_append (nonempty : word ≠ []) (plain : ∀ char ∈ word, blank char = false)
    (ends : ∀ char, rest.head? = some char → blank char = true) :
    readWord blank (word ++ rest) = some (word, rest) := by
  obtain ⟨first, more, rfl⟩ := List.exists_cons_of_ne_nil nonempty
  have starts : (first :: more ++ rest).dropWhile blank = first :: more ++ rest :=
    List.dropWhile_cons_of_neg (by simp [plain first List.mem_cons_self])
  obtain ⟨front, behind⟩ := @cut_where α (first :: more) rest (!blank ·)
    (fun char member => by simp [plain char member]) (fun char starts => by simp [ends char starts])
  rw [readWord, starts, if_neg (by simp), front, behind]

theorem readWord_dropWhile (blank : α → Bool) (text : List α) :
    readWord blank (text.dropWhile blank) = readWord blank text := by
  rw [readWord, readWord, List.dropWhile_idempotent]

theorem numeral_nonempty (base number : Nat) : numeral base number ≠ [] := by
  rw [numeral]
  split
  · simp
  · simpa [Nat.digits_eq_nil_iff_eq_zero] using ‹_›

theorem numeral_small {base digit : Nat} (least : 2 ≤ base) (number : Nat) (member : digit ∈ numeral base number) :
    digit < base := by
  rw [numeral] at member
  split at member
  · rw [List.mem_singleton] at member
    omega
  · exact Nat.digits_lt_base least (List.mem_reverse.mp member)

theorem numeral_length {base number count : Nat} (least : 1 < base) (positive : 0 < count)
    (small : number < base ^ count) : (numeral base number).length ≤ count := by
  rw [numeral]
  split
  · exact positive
  · rw [List.length_reverse]
    exact (Nat.digits_length_le_iff least number).mpr small

/-- A number that is written out reads back. -/
theorem readDigits_numeral {base : Nat} {digit : α → Option Nat} {char : Nat → α}
    (reads : ∀ value, value < base → digit (char value) = some value) (least : 2 ≤ base) (number : Nat)
    (ends : ∀ char, rest.head? = some char → digit char = none) :
    readDigits base digit ((numeral base number).map char ++ rest) = some (number, rest) := by
  have small : ∀ value ∈ numeral base number, value < base := fun value member => numeral_small least number member
  have value : Nat.ofDigits base (numeral base number).reverse = number := by
    rw [numeral]
    split
    · simp [*]
    · rw [List.reverse_reverse, Nat.ofDigits_digits]
  have nonempty : (numeral base number).map char ≠ [] := by simp [numeral_nonempty]
  have all : ∀ item ∈ (numeral base number).map char, (digit item).isSome = true := by
    intro item member
    obtain ⟨value, inside, rfl⟩ := List.mem_map.mp member
    rw [reads value (small value inside)]
    rfl
  have back : ((numeral base number).map char).filterMap digit = numeral base number := by
    rw [List.filterMap_map]
    exact (List.filterMap_congr fun value member => reads value (small value member)).trans List.filterMap_some
  obtain ⟨front, behind⟩ := @cut_where α _ rest (fun item => (digit item).isSome) all
    (fun item starts => by rw [ends item starts]; rfl)
  rw [readDigits, front, behind, if_neg nonempty, back, value]

end Scan

end Ev3duder.Data
