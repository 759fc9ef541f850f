/-!
# Blank characters

A character is blank when Unicode gives it the property White_Space. Texts that hold numbers, dates,
flags and sort expressions are trimmed of blanks before they are read, and a sort expression is cut into
words at blanks. All functions here work on lists of characters, which is what the readers recurse on.
-/

namespace DocQuery.Text

/-- The code points with the Unicode property White_Space, as closed ranges in increasing order. -/
def blankRanges : List (Nat × Nat) :=
  [(0x09, 0x0D), (0x20, 0x20), (0x85, 0x85), (0xA0, 0xA0), (0x1680, 0x1680), (0x2000, 0x200A),
    (0x2028, 0x2029), (0x202F, 0x202F), (0x205F, 0x205F), (0x3000, 0x3000)]

def isBlank (c : Char) : Bool :=
  blankRanges.any fun range => range.1 ≤ c.toNat && c.toNat ≤ range.2

/-- The text without the blanks it starts with. -/
def skipBlanks (cs : List Char) : List Char := cs.dropWhile isBlank

/-- The text without the blanks at either end. -/
def trim (cs : List Char) : List Char := (skipBlanks (skipBlanks cs).reverse).reverse

/-- The maximal runs of characters that are not blank, in order. -/
def words (cs : List Char) : List (List Char) := (cs.splitOnP isBlank).filter (!·.isEmpty)

/-- The text with the letters `A` to `Z` in lower case and every other character as it is. -/
def lowerAscii (cs : List Char) : List Char := cs.map Char.toLower

/-- A character that comes before the letters is the lower case of itself alone. -/
theorem toLower_eq_iff {c d : Char} (hd : d.toNat < 65) : c.toLower = d ↔ c = d := by
  by_cases hupper : c.val ≥ 'A'.val ∧ c.val ≤ 'Z'.val
  · have hrange : 65 ≤ c.toNat ∧ c.toNat ≤ 90 := by simpa [UInt32.le_iff_toNat_le] using hupper
    have hlower : c.toLower.val = c.val + 32 := congrArg Char.val (dif_pos hupper)
    have hcode : c.toLower.toNat = (c.toNat + 32) % 4294967296 :=
      (congrArg UInt32.toNat hlower).trans (UInt32.toNat_add _ _)
    constructor <;> rintro rfl <;> omega
  · have hsame : c.toLower = c := dif_neg hupper
    rw [hsame]

/-- What is left after skipping blanks does not start with one. -/
theorem isBlank_head_skipBlanks {cs rest : List Char} {c : Char} (h : skipBlanks cs = c :: rest) :
    isBlank c = false := by
  have := List.head?_dropWhile_not isBlank cs
  unfold skipBlanks at h
  rw [h] at this
  simpa using this

end DocQuery.Text
