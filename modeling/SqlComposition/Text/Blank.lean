/-!
Blank characters and the words between them. Blanks are the Unicode white space characters together
with the four information separators U+001C to U+001F, which count as separators but not as space.
-/

namespace SqlComposition.Text

def isBlank (c : Char) : Bool :=
  let n := c.toNat
  (9 ≤ n && n ≤ 13) || (28 ≤ n && n ≤ 32) || n == 0x85 || n == 0xA0 || n == 0x1680 ||
    (0x2000 ≤ n && n ≤ 0x200A) || n == 0x2028 || n == 0x2029 || n == 0x202F || n == 0x205F ||
    n == 0x3000

/-- An information separator is no space. -/
def isSpace (c : Char) : Bool :=
  isBlank c && !(28 ≤ c.toNat && c.toNat ≤ 31)

/-- The runs of other characters before, between and after the blanks; they may be empty. -/
def fields : List Char → List (List Char)
  | [] => [[]]
  | c :: rest =>
    if isBlank c then [] :: fields rest
    else
      match fields rest with
      | [] => [[c]]
      | field :: others => (c :: field) :: others

def wordsOf (cs : List Char) : List (List Char) :=
  (fields cs).filter fun field => !field.isEmpty

def words (s : String) : List String :=
  (wordsOf s.toList).map String.ofList

/-- The text without the characters of a class at its two ends. -/
def trimBy (inside : Char → Bool) (cs : List Char) : List Char :=
  ((cs.dropWhile inside).reverse.dropWhile inside).reverse

/-- The text without the blanks at its two ends. -/
def trimChars : List Char → List Char :=
  trimBy isBlank

/-- The text without the space at its two ends. -/
def trimSpace : List Char → List Char :=
  trimBy isSpace

end SqlComposition.Text
