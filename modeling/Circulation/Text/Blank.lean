/-!
# Blank characters

The characters that count as blank space at the ends of a text, and the text that remains when
they are removed. The set is the Unicode property `White_Space`: the format characters
`U+200B` and `U+FEFF` and the separators `U+001C` to `U+001F` are not in it.

## Main definitions

* `Circulation.Text.isBlank` — membership in `White_Space`.
* `Circulation.Text.trim` — the text without its leading and trailing blanks.
-/

namespace Circulation.Text

/-- A character is blank when it has the Unicode property `White_Space`. -/
def isBlank (c : Char) : Bool :=
  let n := c.toNat
  (0x09 ≤ n && n ≤ 0x0D) || n == 0x20 || n == 0x85 || n == 0xA0 || n == 0x1680 ||
    (0x2000 ≤ n && n ≤ 0x200A) || n == 0x2028 || n == 0x2029 || n == 0x202F || n == 0x205F ||
    n == 0x3000

/-- The characters that remain when the blanks before the first and after the last other
character are removed. -/
def trimChars (cs : List Char) : List Char :=
  ((cs.dropWhile isBlank).reverse.dropWhile isBlank).reverse

/-- A text without its leading and trailing blanks. -/
def trim (s : String) : String :=
  String.ofList (trimChars s.toList)

/-- A text with at least one character that is not blank. -/
def hasInk (s : String) : Bool :=
  s.toList.any fun c => !isBlank c

@[simp]
theorem trimChars_nil : trimChars [] = [] := rfl

/-- A text without blanks is its own trimmed form. -/
theorem trimChars_of_forall_not_isBlank {cs : List Char} (h : ∀ c ∈ cs, isBlank c = false) :
    trimChars cs = cs := by
  have drop : ∀ ds : List Char, (∀ c ∈ ds, isBlank c = false) → ds.dropWhile isBlank = ds := by
    intro ds hds
    cases ds with
    | nil => rfl
    | cons d ds => simp [hds d (by simp)]
  unfold trimChars
  rw [drop cs h, drop cs.reverse fun c hc => h c (List.mem_reverse.mp hc), List.reverse_reverse]

end Circulation.Text
