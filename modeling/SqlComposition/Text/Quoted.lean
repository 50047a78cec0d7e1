import SqlComposition.Text.Printable

/-!
Two ways of putting text between quotes. A SQL literal writes each single quote twice and changes
nothing else. The shown form, used for texts inside lists and mappings, picks a quote
by the quotes in the text and escapes what does not show.
-/

namespace SqlComposition.Text

def doubled : List Char → List Char
  | [] => []
  | c :: rest => if c = '\'' then '\'' :: '\'' :: doubled rest else c :: doubled rest

def quoteChars (cs : List Char) : List Char :=
  '\'' :: (doubled cs ++ ['\''])

def quote (s : String) : String :=
  String.ofList (quoteChars s.toList)

theorem doubled_append (a b : List Char) : doubled (a ++ b) = doubled a ++ doubled b := by
  induction a with
  | nil => rfl
  | cons c rest ih => by_cases h : c = '\'' <;> simp [doubled, h, ih]

theorem toList_quote (s : String) : (quote s).toList = quoteChars s.toList := by
  simp [quote]

def hexDigit (n : Nat) : Char :=
  if n < 10 then Char.ofNat (48 + n) else Char.ofNat (87 + n)

/-- The last `width` hexadecimal digits of `n`, in lower case. -/
def hexDigits : Nat → Nat → List Char
  | 0, _ => []
  | width + 1, n => hexDigits width (n / 16) ++ [hexDigit (n % 16)]

@[simp] theorem length_hexDigits (width n : Nat) : (hexDigits width n).length = width := by
  induction width generalizing n with
  | zero => rfl
  | succ width ih => simp [hexDigits, ih]

/-- Double quotes are used only for a text that has a single quote and no double one. -/
def showQuote (cs : List Char) : Char :=
  if cs.contains '\'' && !cs.contains '"' then '"' else '\''

def showChar (mark c : Char) : List Char :=
  if c = mark ∨ c = '\\' then ['\\', c]
  else if c = '\n' then ['\\', 'n']
  else if c = '\r' then ['\\', 'r']
  else if c = '\t' then ['\\', 't']
  else if isPrintable c then [c]
  else if c.toNat < 0x100 then '\\' :: 'x' :: hexDigits 2 c.toNat
  else if c.toNat < 0x10000 then '\\' :: 'u' :: hexDigits 4 c.toNat
  else '\\' :: 'U' :: hexDigits 8 c.toNat

/-- The text between quotes, with escapes. -/
def shown (s : String) : String :=
  let cs := s.toList
  let mark := showQuote cs
  String.ofList (mark :: (cs.flatMap (showChar mark) ++ [mark]))

/-- Bytes in the same form behind a `b`; bytes outside ASCII are escaped too. -/
def shownBytes (bytes : List UInt8) : String :=
  let cs := bytes.map fun b => Char.ofNat b.toNat
  let mark := showQuote cs
  let escape (c : Char) : List Char :=
    if c.toNat < 127 then showChar mark c else '\\' :: 'x' :: hexDigits 2 c.toNat
  String.ofList ('b' :: mark :: (cs.flatMap escape ++ [mark]))

end SqlComposition.Text
