/-
  MockSchema.Text.Class — the classes of characters that names, numbers and blanks are made
  of. Below U+0080 each is spelled out; above, a table of ranges decides.

  `isLetter` is the property Alphabetic, `isAlphanumeric` adds every kind of number,
  `isWordChar` is the class `\w` (letters, marks, decimal digits, connectors and the join
  controls) and `isBlank` is the property White_Space. Letters, numbers and capitals follow
  version 17 of the character database; `\w` stays at version 16, so the letters of version
  17 are no word characters yet.
-/

import MockSchema.Text.Letters
import MockSchema.Text.Marks

namespace MockSchema.Text

def inRanges (rs : List (Nat × Nat)) (n : Nat) : Bool := rs.any fun r => r.1 ≤ n && n ≤ r.2

def isDigit (c : Char) : Bool := '0' ≤ c && c ≤ '9'

/-- The value of a hexadecimal digit, in either case. -/
def hexValue? (c : Char) : Option Nat :=
  if isDigit c then some (c.toNat - '0'.toNat)
  else if 'a' ≤ c && c ≤ 'f' then some (c.toNat - 'a'.toNat + 10)
  else if 'A' ≤ c && c ≤ 'F' then some (c.toNat - 'A'.toNat + 10)
  else none

def isLetter (c : Char) : Bool :=
  if c.toNat < 0x80 then c.isAlpha else inRanges letterRanges c.toNat

def isAlphanumeric (c : Char) : Bool :=
  isLetter c || if c.toNat < 0x80 then isDigit c else inRanges numberRanges c.toNat

def isWordChar (c : Char) : Bool :=
  if c.toNat < 0x80 then c.isAlpha || isDigit c || c == '_'
  else inRanges joinerRanges c.toNat ||
    (inRanges letterRanges c.toNat && !inRanges newLetterRanges c.toNat)

def blankRanges : List (Nat × Nat) :=
  [(0x09, 0x0D), (0x20, 0x20), (0x85, 0x85), (0xA0, 0xA0), (0x1680, 0x1680), (0x2000, 0x200A),
   (0x2028, 0x2029), (0x202F, 0x202F), (0x205F, 0x205F), (0x3000, 0x3000)]

def isBlank (c : Char) : Bool := inRanges blankRanges c.toNat

/-- A text without the blanks at its two ends. -/
def trim (cs : List Char) : List Char :=
  ((cs.dropWhile isBlank).reverse.dropWhile isBlank).reverse

/-- A text of blanks only. -/
def isBlankText (s : String) : Bool := (trim s.toList).isEmpty

theorem isBlankText_iff {s : String} : isBlankText s = true ↔ ∀ c ∈ s.toList, isBlank c = true := by
  cases hdrop : s.toList.dropWhile isBlank with
  | nil =>
    have hany := List.any_dropWhile (p := isBlank) (l := s.toList)
    rw [hdrop] at hany
    simpa [isBlankText, trim, hdrop] using hany
  | cons c cs =>
    have hc : isBlank c = false := by
      have hhead := List.head?_dropWhile_not isBlank s.toList
      rwa [hdrop] at hhead
    have hmem : c ∈ s.toList := by
      refine (List.dropWhile_sublist isBlank).subset ?_
      rw [hdrop]
      exact List.mem_cons_self
    have hkept : isBlankText s = false := by
      rw [isBlankText, trim, hdrop, List.reverse_cons, List.dropWhile_append]
      split
      · simp [hc]
      · simp
    rw [hkept]
    exact ⟨nofun, fun h => by rw [h c hmem] at hc; cases hc⟩

theorem isBlankText_eq_false_iff {s : String} : isBlankText s = false ↔ ∃ c ∈ s.toList, isBlank c = false := by
  rw [← Bool.not_eq_true, isBlankText_iff]
  simp

/-- A word: word characters only, and at least one. -/
def isWord (cs : List Char) : Bool := !cs.isEmpty && cs.all isWordChar

end MockSchema.Text
