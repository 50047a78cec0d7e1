import SqlComposition.Proofs.Conditions

/-!
Literals read back. A literal starts with a quote, with a minus sign, or with a character of a word or a
number, and its first character says how it goes on. A quoted one goes on to the first quote that is not
doubled; any other goes on as far as there are letters, digits, underscores and points.
-/

namespace SqlComposition

/-- Reads something at the start of a text; what is behind it is left. -/
abbrev Reader (α : Type) := List Char → Option (α × List Char)

theorem span_append {p : Char → Bool} {cs rest : List Char} (hc : ∀ c ∈ cs, p c = true)
    (hr : rest.head?.all (fun next => !p next) = true) :
    (cs ++ rest).takeWhile p = cs ∧ (cs ++ rest).dropWhile p = rest := by
  rw [List.takeWhile_append_of_pos hc, List.dropWhile_append_of_pos hc]
  cases rest with
  | nil => simp
  | cons next rest =>
    have other : p next = false := by simpa using hr
    simp [other]

namespace Constant

def literal : Constant → String
  | null => "NULL"
  | bool value => if value then "TRUE" else "FALSE"
  | int value => Number.intText value
  | text value => Text.quote value

theorem scalar_literal (c : Constant) : c.scalar.literal = .ok c.literal := by
  cases c <;> rfl

def isLiteralChar (c : Char) : Bool :=
  c.isAlphanum || c == '_' || c == '.'

/-- Reads what is between quotes, when the first of them has been read. -/
def readQuoted : Reader (List Char)
  | [] => none
  | c :: rest =>
    if c = '\'' then
      match rest with
      | [] => some ([], [])
      | d :: more =>
        if d = '\'' then (readQuoted more).map fun read => ('\'' :: read.1, read.2)
        else some ([], d :: more)
    else (readQuoted rest).map fun read => (c :: read.1, read.2)

def ofDigits? (cs : List Char) : Option Nat :=
  if cs ≠ [] ∧ cs.all Char.isDigit then some (Number.digitsValue cs) else none

def ofWord? (cs : List Char) : Option Constant :=
  if cs = "NULL".toList then some null
  else if cs = "TRUE".toList then some (bool true)
  else if cs = "FALSE".toList then some (bool false)
  else (ofDigits? cs).map fun (n : Nat) => int n

/-- Reads the longest text that can belong to a word or a number. -/
def readRun {α : Type} (of? : List Char → Option α) : Reader α := fun cs =>
  (of? (cs.takeWhile isLiteralChar)).map (·, cs.dropWhile isLiteralChar)

def read : Reader Constant
  | [] => none
  | c :: rest =>
    if c = '\'' then (readQuoted rest).map fun read => (text (String.ofList read.1), read.2)
    else if c = '-' then (readRun ofDigits? rest).map fun read => (int (-read.1), read.2)
    else readRun ofWord? (c :: rest)

/-- Whether a literal is over where the given text follows. -/
def isOver (c : Constant) (rest : List Char) : Bool :=
  rest.head?.all fun next =>
    match c with
    | text _ => next != '\''
    | _ => !isLiteralChar next

theorem readQuoted_cons {c : Char} (h : c ≠ '\'') (rest : List Char) :
    readQuoted (c :: rest) = (readQuoted rest).map fun read => (c :: read.1, read.2) := by
  cases rest <;> simp [readQuoted, h]

theorem readQuoted_doubled (cs : List Char) {rest : List Char} (h : rest.head? ≠ some '\'') :
    readQuoted (Text.doubled cs ++ '\'' :: rest) = some (cs, rest) := by
  induction cs with
  | nil =>
    cases rest with
    | nil => rfl
    | cons d rest =>
      have other : d ≠ '\'' := fun same => h (by simp [same])
      simp [Text.doubled, readQuoted, other]
  | cons c cs ih =>
    by_cases quote : c = '\''
    · simp [Text.doubled, quote, readQuoted, ih]
    · simp [Text.doubled, quote, readQuoted_cons, ih]

theorem readRun_append {α : Type} {of? : List Char → Option α} {cs rest : List Char} {a : α}
    (ha : of? cs = some a) (hc : ∀ c ∈ cs, isLiteralChar c = true)
    (hr : rest.head?.all (fun next => !isLiteralChar next) = true) :
    readRun of? (cs ++ rest) = some (a, rest) := by
  obtain ⟨run, behind⟩ := span_append hc hr
  rw [readRun, run, behind, ha]
  rfl

theorem read_word {cs rest : List Char} {c : Constant} (hw : ofWord? cs = some c)
    (hc : cs.all isLiteralChar = true) (hr : rest.head?.all (fun next => !isLiteralChar next) = true) :
    read (cs ++ rest) = some (c, rest) := by
  rw [List.all_eq_true] at hc
  obtain ⟨first, others, rfl⟩ : ∃ first others, cs = first :: others := by
    cases cs with
    | nil => cases hw
    | cons first others => exact ⟨first, others, rfl⟩
  have member := hc first List.mem_cons_self
  have unquoted : first ≠ '\'' := by
    rintro rfl
    exact absurd member (by decide)
  have unsigned : first ≠ '-' := by
    rintro rfl
    exact absurd member (by decide)
  have read := readRun_append hw hc hr
  rw [List.cons_append] at read ⊢
  rw [Constant.read, if_neg unquoted, if_neg unsigned, read]

theorem digits_read (n : Nat) :
    ofDigits? (Number.digits n) = some n ∧ ∀ c ∈ Number.digits n, c.isDigit = true := by
  have digit : ∀ c ∈ Number.digits n, c.isDigit = true := fun c hc =>
    Nat.isDigit_of_mem_toDigits (by decide) (by decide) hc
  have value : Number.digitsValue (Number.digits n) = n := Nat.ofDigitChars_ten_toDigits
  refine ⟨?_, digit⟩
  rw [ofDigits?, if_pos ⟨Nat.toDigits_ne_nil, List.all_eq_true.2 digit⟩, value]

theorem isLiteralChar_of_isDigit {c : Char} (h : c.isDigit = true) : isLiteralChar c = true := by
  simp [isLiteralChar, Char.isAlphanum, h]

theorem ofWord?_digits (n : Nat) : ofWord? (Number.digits n) = some (int n) := by
  obtain ⟨read, digit⟩ := digits_read n
  have other {word : String} (hw : word.toList.all Char.isDigit = false) :
      Number.digits n ≠ word.toList := by
    intro same
    rw [← same, List.all_eq_true.2 digit] at hw
    cases hw
  rw [ofWord?, if_neg (other (by decide)), if_neg (other (by decide)), if_neg (other (by decide)), read,
    Option.map_some]

/-- A literal is read back as what it was written for, whatever follows that does not go on with it. -/
theorem read_literal (c : Constant) {rest : List Char} (h : c.isOver rest = true) :
    read (c.literal.toList ++ rest) = some (c, rest) := by
  cases c with
  | null => exact read_word rfl rfl h
  | bool value => cases value <;> exact read_word rfl rfl h
  | int value =>
    cases value with
    | ofNat n =>
      obtain ⟨-, digit⟩ := digits_read n
      rw [literal, Number.intText, Number.natText, String.toList_ofList]
      exact read_word (ofWord?_digits n)
        (List.all_eq_true.2 fun c hc => isLiteralChar_of_isDigit (digit c hc)) h
    | negSucc n =>
      obtain ⟨size, digit⟩ := digits_read (n + 1)
      have behind := readRun_append size (fun c hc => isLiteralChar_of_isDigit (digit c hc)) h
      rw [literal, Number.intText, String.toList_ofList, List.cons_append, read, if_neg (by decide),
        if_pos rfl, behind, Option.map_some, Int.negSucc_eq]
      rfl
  | text value =>
    have other : rest.head? ≠ some '\'' := by
      intro quote
      rw [isOver, quote] at h
      cases h
    rw [literal, Text.toList_quote, Text.quoteChars, List.cons_append, read, if_pos rfl, List.append_assoc,
      List.singleton_append, readQuoted_doubled _ other, Option.map_some, String.ofList_toList]

theorem readQuoted_leaves {cs content rest : List Char} (h : readQuoted cs = some (content, rest)) :
    rest.head? ≠ some '\'' := by
  fun_induction readQuoted cs generalizing content with
  | case1 => cases h
  | case2 =>
    cases h
    simp
  | case3 more ih =>
    obtain ⟨read, later, same⟩ := Option.map_eq_some_iff.1 h
    cases same
    exact ih later
  | case4 d more other =>
    cases h
    simpa using other
  | case5 c others unquoted ih =>
    obtain ⟨read, later, same⟩ := Option.map_eq_some_iff.1 h
    cases same
    exact ih later

theorem readRun_leaves {α : Type} {of? : List Char → Option α} {cs rest : List Char} {a : α}
    (h : readRun of? cs = some (a, rest)) :
    rest.head?.all (fun next => !isLiteralChar next) = true := by
  obtain ⟨_, -, same⟩ := Option.map_eq_some_iff.1 h
  cases same
  have ends := List.head?_dropWhile_not isLiteralChar cs
  cases left : (cs.dropWhile isLiteralChar).head? with
  | none => rfl
  | some next => simp_all

theorem isOver_of_ofWord? {cs : List Char} {c : Constant} (h : ofWord? cs = some c) (rest : List Char) :
    c.isOver rest = rest.head?.all fun next => !isLiteralChar next := by
  rw [ofWord?] at h
  split_ifs at h with isNull isTrue isFalse
  · cases h
    rfl
  · cases h
    rfl
  · cases h
    rfl
  · obtain ⟨n, -, rfl⟩ := Option.map_eq_some_iff.1 h
    rfl

/-- What the reader leaves could not have been read as more of the literal. -/
theorem isOver_of_read {cs rest : List Char} {c : Constant} (h : read cs = some (c, rest)) :
    c.isOver rest = true := by
  cases cs with
  | nil => cases h
  | cons first others =>
    rw [read] at h
    split_ifs at h with quote minus
    · obtain ⟨found, inner, same⟩ := Option.map_eq_some_iff.1 h
      cases same
      have other := readQuoted_leaves inner
      cases left : found.2.head? <;> simp_all [isOver]
    · obtain ⟨found, inner, same⟩ := Option.map_eq_some_iff.1 h
      cases same
      exact readRun_leaves inner
    · obtain ⟨word, known, same⟩ := Option.map_eq_some_iff.1 h
      cases same
      rw [isOver_of_ofWord? known]
      exact readRun_leaves h

theorem literal_injective : Function.Injective literal := by
  intro c d same
  have first : read (c.literal.toList ++ []) = some (c, []) := read_literal c rfl
  have second : read (d.literal.toList ++ []) = some (d, []) := read_literal d rfl
  rw [same, second] at first
  cases first
  rfl

example : [int 1, bool true, text "1", text "NULL", null].map literal =
    ["1", "TRUE", "'1'", "'NULL'", "NULL"] := by decide

/-- A literal stands for one value only, and in front of a text it is read back as that value exactly when
the text does not go on with it. -/
theorem literal_decoded :
    (∀ (c : Constant) (rest : List Char), ∃ text, c.scalar.literal = .ok text ∧
      (read (text.toList ++ rest) = some (c, rest) ↔ c.isOver rest = true)) ∧
    Function.Injective fun c : Constant => c.scalar.literal := by
  refine ⟨fun c rest => ⟨c.literal, c.scalar_literal, isOver_of_read, read_literal c⟩, ?_⟩
  intro c d same
  simp only [scalar_literal, Except.ok.injEq] at same
  exact literal_injective same

end Constant

end SqlComposition
