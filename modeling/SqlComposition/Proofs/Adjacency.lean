import Mathlib.Data.List.Chain
import SqlComposition.Proofs.Quotes

/-!
Texts side by side. SQL text is read into words, numbers, quotations, line comments and symbols, each as
long as it can be. A minus sign right in front of a digit belongs to the number, and two of them start a
comment. Texts that are written one after another are read one by one unless the last character of one and
the first of the next go together; where they do, they are never read as the two texts are.
-/

namespace SqlComposition.Adjacency
open Quotes (Mark Balanced toggle)

inductive Token where
  | word (text : String)
  | number (negative : Bool) (text : String)
  | quoted (mark : Mark) (content : String)
  /-- A quotation that the text ends in. -/
  | unclosed (mark : Mark) (content : String)
  | comment (text : String)
  | symbol (c : Char)
  deriving DecidableEq

def Token.isComment : Token → Bool
  | comment _ => true
  | _ => false

/-- The characters of words and numbers. Names may be qualified, and numbers may have fractions. -/
def isRunChar (c : Char) : Bool :=
  c.isAlphanum || ['_', '$', '.'].contains c || decide (0x80 ≤ c.toNat)

/-- What is being read. A run has at least one character, and so far a quotation that could be over may
still go on. -/
inductive Mode where
  | outside
  | run (negative : Bool) (chars : List Char)
  | minus
  | inside (mark : Mark) (content : List Char)
  | closing (mark : Mark) (content : List Char)
  | comment (text : List Char)

namespace Mode

/-- A run that starts with a digit is a number. -/
def runToken (negative : Bool) (chars : List Char) : Token :=
  if negative || chars.head?.any Char.isDigit then .number negative (String.ofList chars)
  else .word (String.ofList chars)

/-- The token that ends here. -/
def finish : Mode → List Token
  | outside => []
  | run negative chars => [runToken negative chars]
  | minus => [.symbol '-']
  | inside mark content => [.unclosed mark (String.ofList content)]
  | closing mark content => [.quoted mark (String.ofList content)]
  | comment text => [.comment (String.ofList text)]

/-- What is read on with a character that belongs to the same token. -/
def further? : Mode → Char → Option Mode
  | outside, _ => none
  | run negative chars, c => if isRunChar c then some (run negative (chars ++ [c])) else none
  | minus, c =>
    if c = '-' then some (comment [])
    else if c.isDigit then some (run true [c])
    else none
  | inside mark content, c =>
    some (if c = mark.char then closing mark content else inside mark (content ++ [c]))
  | closing mark content, c => if c = mark.char then some (inside mark (content ++ [c])) else none
  | comment text, c => if c = '\n' then none else some (comment (text ++ [c]))

/-- What a token starts with, if it has more than one character. -/
def start (c : Char) : Mode :=
  match Mark.ofChar? c with
  | some mark => inside mark []
  | none => if c = '-' then minus else if isRunChar c then run false [c] else outside

/-- A character that is a token by itself. -/
def alone (c : Char) : List Token :=
  match start c with
  | outside => if c.isWhitespace then [] else [.symbol c]
  | _ => []

def tokens : Mode → List Char → List Token
  | m, [] => m.finish
  | m, c :: rest =>
    match m.further? c with
    | some next => next.tokens rest
    | none => m.finish ++ (alone c ++ (start c).tokens rest)

def next (m : Mode) (c : Char) : Mode :=
  (m.further? c).getD (start c)

/-- The tokens that are over when a character has been read. -/
def passed (m : Mode) (c : Char) : List Token :=
  match m.further? c with
  | some _ => []
  | none => m.finish ++ alone c

def after (m : Mode) (cs : List Char) : Mode :=
  cs.foldl next m

def open? : Mode → Option Mark
  | inside mark _ => some mark
  | _ => none

def isComment : Mode → Bool
  | comment _ => true
  | _ => false

/-- Neither in a quotation nor in a comment. -/
def isClosed (m : Mode) : Bool :=
  m.open?.isNone && !m.isComment

end Mode

/-- The tokens of a text. -/
def tokens (cs : List Char) : List Token :=
  Mode.outside.tokens cs

def hasComment (cs : List Char) : Bool :=
  (tokens cs).any Token.isComment

/-- Two characters that go together where one ends a text and the other starts the next: they belong to
one run, a quotation goes on, or a minus sign stands in front of a digit or of another one. -/
def clings (x y : Char) : Bool :=
  (isRunChar x && isRunChar y) || (x == y && (Mark.ofChar? x).isSome) ||
    (x == '-' && (y == '-' || y.isDigit))

/-- The last character of one text and the first of another go together. -/
def meets (a b : List Char) : Bool :=
  a.getLast?.any fun x => b.head?.any fun y => clings x y

/-- Nothing goes together where one of the texts ends and the next one starts. -/
def AreApart (texts : List (List Char)) : Prop :=
  (texts.filter (!·.isEmpty)).IsChain fun a b => meets a b = false

instance (texts : List (List Char)) : Decidable (AreApart texts) :=
  inferInstanceAs (Decidable (List.IsChain _ _))

/-- A text that ends neither in a quotation nor in a comment. -/
def IsClosed (cs : List Char) : Prop :=
  (Mode.outside.after cs).isClosed = true

namespace Mode

@[simp] theorem tokens_nil (m : Mode) : m.tokens [] = m.finish := by
  cases m <;> rfl

theorem tokens_further {m next : Mode} {c : Char} (h : m.further? c = some next) (rest : List Char) :
    m.tokens (c :: rest) = next.tokens rest := by
  rw [tokens, h]

/-- A token is over where the next character does not belong to it. -/
theorem tokens_over {m : Mode} {c : Char} (h : m.further? c = none) (rest : List Char) :
    m.tokens (c :: rest) = m.finish ++ outside.tokens (c :: rest) := by
  rw [tokens, h, tokens.eq_2 outside, further?]
  rfl

theorem after_cons (m : Mode) (c : Char) (rest : List Char) : m.after (c :: rest) = (m.next c).after rest :=
  rfl

theorem tokens_cons (m : Mode) (c : Char) (rest : List Char) :
    m.tokens (c :: rest) = m.passed c ++ (m.next c).tokens rest := by
  cases h : m.further? c with
  | none => rw [tokens, passed, next, h, List.append_assoc]; rfl
  | some on => rw [tokens, passed, next, h]; rfl

/-- What is read of a text depends on what follows only in the token that it ends in. -/
theorem tokens_append (m : Mode) (a : List Char) :
    ∃ front, m.tokens a = front ++ (m.after a).finish ∧
      ∀ b, m.tokens (a ++ b) = front ++ (m.after a).tokens b := by
  induction a generalizing m with
  | nil => exact ⟨[], tokens_nil m, fun b => rfl⟩
  | cons c rest ih =>
    obtain ⟨front, whole, read⟩ := ih (m.next c)
    refine ⟨m.passed c ++ front, ?_, fun b => ?_⟩
    · rw [tokens_cons, whole, after_cons, List.append_assoc]
    · rw [List.cons_append, tokens_cons, read, after_cons, List.append_assoc]

/-- All the ways in which a token goes on. -/
theorem further?_eq_some {m on : Mode} {c : Char} (h : m.further? c = some on) :
    (∃ negative chars, m = run negative chars ∧ isRunChar c = true ∧ on = run negative (chars ++ [c])) ∨
      (m = minus ∧ (on = comment [] ∨ c.isDigit = true ∧ on = run true [c])) ∨
      (∃ mark content, m = inside mark content ∧
        (c = mark.char ∧ on = closing mark content ∨ on = inside mark (content ++ [c]))) ∨
      (∃ mark content, m = closing mark content ∧ on = inside mark (content ++ [c])) ∨
      ∃ text, m = comment text ∧ on = comment (text ++ [c]) := by
  cases m with
  | outside => cases h
  | run negative chars =>
    simp only [further?, Option.ite_none_right_eq_some, Option.some.injEq] at h
    exact .inl ⟨negative, chars, rfl, h.1, h.2.symm⟩
  | minus =>
    refine .inr (.inl ⟨rfl, ?_⟩)
    rw [further?] at h
    split at h
    · exact .inl (Option.some.inj h).symm
    · simp only [Option.ite_none_right_eq_some, Option.some.injEq] at h
      exact .inr ⟨h.1, h.2.symm⟩
  | inside mark content =>
    refine .inr (.inr (.inl ⟨mark, content, rfl, ?_⟩))
    rw [further?, Option.some.injEq] at h
    split at h
    · rename_i same
      exact .inl ⟨same, h.symm⟩
    · exact .inr h.symm
  | closing mark content =>
    simp only [further?, Option.ite_none_right_eq_some, Option.some.injEq] at h
    exact .inr (.inr (.inr (.inl ⟨mark, content, rfl, h.2.symm⟩)))
  | comment text =>
    simp only [further?, Option.ite_none_left_eq_some, Option.some.injEq] at h
    exact .inr (.inr (.inr (.inr ⟨text, rfl, h.2.symm⟩)))

/-- The character that was read last shows in what is being read. -/
def EndsWith (x : Char) : Mode → Prop
  | outside => isRunChar x = false ∧ x ≠ '-' ∧ Mark.ofChar? x = none
  | run _ _ => isRunChar x = true
  | minus => x = '-'
  | inside _ _ => True
  | closing mark _ => x = mark.char
  | comment _ => True

theorem isRunChar_of_isDigit {c : Char} (h : c.isDigit = true) : isRunChar c = true := by
  simp [isRunChar, Char.isAlphanum, h]

theorem ofChar?_of_isRunChar {c : Char} (h : isRunChar c = true) : Mark.ofChar? c = none := by
  have unquoted : ∀ mark, isRunChar (Mark.char mark) = false := by
    intro mark
    cases mark <;> rfl
  exact Mark.ofChar?_eq_none unquoted h

theorem ne_minus_of_isRunChar {c : Char} (h : isRunChar c = true) : c ≠ '-' := by
  rintro rfl
  exact absurd h (by decide)

theorem start_of_isRunChar {c : Char} (h : isRunChar c = true) : start c = run false [c] := by
  rw [start, ofChar?_of_isRunChar h, if_neg (ne_minus_of_isRunChar h), if_pos h]

theorem start_endsWith (c : Char) : (start c).EndsWith c := by
  unfold start
  cases quote : Mark.ofChar? c with
  | some mark => trivial
  | none =>
    dsimp only
    split
    · rename_i sign
      exact sign
    · rename_i other
      split
      · rename_i member
        exact member
      · rename_i single
        exact ⟨by simpa using single, other, quote⟩

theorem next_endsWith (m : Mode) (c : Char) : (m.next c).EndsWith c := by
  cases h : m.further? c with
  | none =>
    rw [next, h]
    exact start_endsWith c
  | some on =>
    rw [next, h, Option.getD_some]
    rcases further?_eq_some h with ⟨_, _, -, member, rfl⟩ | ⟨-, rfl | ⟨digit, rfl⟩⟩ |
      ⟨_, _, -, ⟨same, rfl⟩ | rfl⟩ | ⟨_, _, -, rfl⟩ | ⟨_, -, rfl⟩
    · exact member
    · trivial
    · exact isRunChar_of_isDigit digit
    · exact same
    · trivial
    · trivial
    · trivial

theorem after_endsWith (m : Mode) {a : List Char} {x : Char} (h : a.getLast? = some x) :
    (m.after a).EndsWith x := by
  obtain ⟨front, rfl⟩ := List.getLast?_eq_some_iff.1 h
  rw [after, List.foldl_append]
  exact next_endsWith _ x

/-- Whether a token goes on can be told from the two characters. -/
theorem isSome_further? {m : Mode} (hm : m.isClosed = true) {x : Char} (hx : m.EndsWith x) (y : Char) :
    (m.further? y).isSome = clings x y := by
  cases m with
  | outside =>
    obtain ⟨single, sign, quote⟩ := hx
    simp [further?, clings, single, sign, quote]
  | run negative chars =>
    have member : isRunChar x = true := hx
    have quote := ofChar?_of_isRunChar member
    have sign := ne_minus_of_isRunChar member
    cases on : isRunChar y <;> simp [further?, clings, member, quote, sign, on]
  | minus =>
    obtain rfl : x = '-' := hx
    have single : isRunChar '-' = false := rfl
    have quote : Mark.ofChar? '-' = none := rfl
    by_cases sign : y = '-'
    · simp [further?, clings, single, quote, sign]
    · cases digit : y.isDigit <;> simp [further?, clings, single, quote, sign, digit]
  | inside mark content => cases hm
  | closing mark content =>
    obtain rfl : x = mark.char := hx
    have quote : Mark.ofChar? mark.char = some mark := Mark.ofChar?_char mark
    have single : isRunChar mark.char = false := by cases mark <;> rfl
    have sign : mark.char ≠ '-' := by cases mark <;> decide
    by_cases same : y = mark.char
    · simp [further?, clings, quote, same]
    · simp [further?, clings, single, sign, same, Ne.symm same]
  | comment text => cases hm

theorem runToken_injective {negative : Bool} {a b : List Char}
    (h : runToken negative a = runToken negative b) : a = b := by
  unfold runToken at h
  split at h <;> split at h
  · exact String.ofList_inj.1 (Token.number.inj h).2
  · cases h
  · cases h
  · exact String.ofList_inj.1 (Token.word.inj h)

/-- A run becomes one token, which starts with what was read of it. -/
theorem run_tokens (negative : Bool) (chars rest : List Char) :
    ∃ more later, (run negative chars).tokens rest = runToken negative (chars ++ more) :: later := by
  induction rest generalizing chars with
  | nil => exact ⟨[], [], by rw [tokens_nil, finish, List.append_nil]⟩
  | cons c rest ih =>
    cases on : isRunChar c with
    | true =>
      obtain ⟨more, later, h⟩ := ih (chars ++ [c])
      refine ⟨c :: more, later, ?_⟩
      rw [tokens_further (by rw [further?, if_pos on]), h, List.append_assoc, List.singleton_append]
    | false =>
      refine ⟨[], outside.tokens (c :: rest), ?_⟩
      rw [tokens_over (by simp [further?, on]), List.append_nil]
      rfl

/-- A quotation becomes one token, which starts with what was read of it. -/
theorem quoted_tokens (mark : Mark) (content rest : List Char) :
    (∃ more later, ∃ kind ∈ [Token.quoted, Token.unclosed],
      (inside mark content).tokens rest = kind mark (String.ofList (content ++ more)) :: later) ∧
    (∃ more later, ∃ kind ∈ [Token.quoted, Token.unclosed],
      (closing mark content).tokens rest = kind mark (String.ofList (content ++ more)) :: later) := by
  induction rest generalizing content with
  | nil =>
    exact ⟨⟨[], [], .unclosed, by simp, by rw [tokens_nil, finish, List.append_nil]⟩,
      ⟨[], [], .quoted, by simp, by rw [tokens_nil, finish, List.append_nil]⟩⟩
  | cons c rest ih =>
    obtain ⟨more, later, kind, hk, h⟩ := (ih (content ++ [c])).1
    rw [List.append_assoc, List.singleton_append] at h
    by_cases same : c = mark.char
    · obtain ⟨others, last, ending, he, hc⟩ := (ih content).2
      refine ⟨⟨others, last, ending, he, ?_⟩, ⟨c :: more, later, kind, hk, ?_⟩⟩
      · rw [tokens_further (by rw [further?, if_pos same]), hc]
      · rw [tokens_further (by rw [further?, if_pos same]), h]
    · refine ⟨⟨c :: more, later, kind, hk, ?_⟩, ⟨[], outside.tokens (c :: rest), .quoted, by simp, ?_⟩⟩
      · rw [tokens_further (by rw [further?, if_neg same]), h]
      · rw [tokens_over (by rw [further?, if_neg same]), List.append_nil]
        rfl

theorem comment_tokens (text rest : List Char) :
    ∃ more later, (comment text).tokens rest = .comment (String.ofList (text ++ more)) :: later := by
  induction rest generalizing text with
  | nil => exact ⟨[], [], by rw [tokens_nil, finish, List.append_nil]⟩
  | cons c rest ih =>
    by_cases last : c = '\n'
    · refine ⟨[], outside.tokens (c :: rest), ?_⟩
      rw [tokens_over (by rw [further?, if_pos last]), List.append_nil]
      rfl
    · obtain ⟨more, later, h⟩ := ih (text ++ [c])
      refine ⟨c :: more, later, ?_⟩
      rw [tokens_further (by rw [further?, if_neg last]), h, List.append_assoc, List.singleton_append]

theorem ofList_append_ne (content : List Char) (c : Char) (more : List Char) :
    String.ofList (content ++ [c] ++ more) ≠ String.ofList content := by
  intro same
  have length := congrArg List.length (String.ofList_inj.1 same)
  simp at length

/-- A token that goes on is not the token that could have been over. -/
theorem tokens_further_ne {m next : Mode} {c : Char} (hm : m.isClosed = true)
    (h : m.further? c = some next) (rest : List Char) (later : List Token) :
    next.tokens rest ≠ m.finish ++ later := by
  intro same
  rcases further?_eq_some h with ⟨negative, chars, rfl, -, rfl⟩ | ⟨rfl, rfl | ⟨-, rfl⟩⟩ |
    ⟨_, _, rfl, -⟩ | ⟨mark, content, rfl, rfl⟩ | ⟨_, rfl, -⟩
  · obtain ⟨more, others, read⟩ := run_tokens negative (chars ++ [c]) rest
    rw [read] at same
    have length := congrArg List.length (runToken_injective (List.cons.inj same).1)
    simp at length
  · obtain ⟨more, others, read⟩ := comment_tokens [] rest
    rw [read] at same
    cases (List.cons.inj same).1
  · obtain ⟨more, others, read⟩ := run_tokens true [c] rest
    rw [read] at same
    cases (List.cons.inj same).1
  · cases hm
  · obtain ⟨more, others, kind, hk, read⟩ := (quoted_tokens mark (content ++ [c]) rest).1
    rw [read] at same
    simp only [List.mem_cons, List.not_mem_nil, or_false] at hk
    rcases hk with rfl | rfl
    · exact ofList_append_ne content c more (Token.quoted.inj (List.cons.inj same).1).2
    · cases (List.cons.inj same).1
  · cases hm

end Mode

/-- Two texts are read apart unless the last character of one and the first of the other go together. -/
theorem tokens_append_eq_iff {a : List Char} (ha : IsClosed a) {x : Char} (hx : a.getLast? = some x)
    (y : Char) (rest : List Char) (later : List Token) :
    tokens (a ++ y :: rest) = tokens a ++ later ↔
      clings x y = false ∧ tokens (y :: rest) = later := by
  obtain ⟨front, whole, read⟩ := Mode.outside.tokens_append a
  have on := Mode.isSome_further? ha (Mode.after_endsWith _ hx) y
  rw [tokens, tokens, read, whole, List.append_assoc, List.append_cancel_left_eq]
  cases h : (Mode.outside.after a).further? y with
  | none =>
    rw [h] at on
    rw [Mode.tokens_over h, List.append_cancel_left_eq, ← on]
    simp [tokens]
  | some next =>
    rw [h] at on
    rw [Mode.tokens_further h, ← on]
    simp [Mode.tokens_further_ne ha h]

theorem head?_flatten_filter (texts : List (List Char)) :
    (texts.filter (!·.isEmpty)).head?.bind List.head? = texts.flatten.head? := by
  induction texts with
  | nil => rfl
  | cons text rest ih =>
    cases text with
    | nil => simpa using ih
    | cons c cs => simp

theorem areApart_cons {a : List Char} (ha : a ≠ []) (rest : List (List Char)) :
    AreApart (a :: rest) ↔ meets a rest.flatten = false ∧ AreApart rest := by
  rw [AreApart, AreApart, List.filter_cons_of_pos (by simpa using ha), List.isChain_cons, meets,
    ← head?_flatten_filter]
  cases (rest.filter (!·.isEmpty)).head? <;> simp [meets]

theorem areApart_nil_cons (rest : List (List Char)) : AreApart ([] :: rest) ↔ AreApart rest := by
  rw [AreApart, AreApart, List.filter_cons_of_neg (by simp)]

/-- Texts that are written one after another are read one by one exactly when they are apart. -/
theorem tokens_flatten_iff {texts : List (List Char)} (h : ∀ text ∈ texts, IsClosed text) :
    tokens texts.flatten = texts.flatMap tokens ↔ AreApart texts := by
  induction texts with
  | nil => exact iff_of_true rfl .nil
  | cons a rest ih =>
    obtain ⟨closed, others⟩ := List.forall_mem_cons.1 h
    rw [List.flatten_cons, List.flatMap_cons]
    by_cases some : a = []
    · subst some
      rw [areApart_nil_cons, ← ih others]
      rfl
    · have last := List.getLast?_eq_some_getLast some
      rw [areApart_cons some, ← ih others]
      cases follows : rest.flatten with
      | nil =>
        have none : rest.flatMap tokens = [] := by
          rw [List.flatMap_eq_nil_iff]
          intro text ht
          rw [List.flatten_eq_nil_iff.1 follows text ht]
          rfl
        simp [none, meets, last, tokens, Mode.tokens_nil, Mode.finish]
      | cons y later =>
        rw [tokens_append_eq_iff closed last]
        simp [meets, last]

namespace Mode

theorem open?_start (c : Char) : (start c).open? = Mark.ofChar? c := by
  unfold start
  cases Mark.ofChar? c with
  | some mark => rfl
  | none =>
    dsimp only
    split
    · rfl
    · split <;> rfl

/-- Outside of comments, what is open is what the quotes leave open. -/
theorem open?_next {m : Mode} (hm : m.isComment = false) (c : Char) :
    (m.next c).open? = toggle m.open? c := by
  cases m with
  | outside => exact open?_start c
  | run negative chars =>
    cases on : isRunChar c with
    | true => simp [next, further?, on, open?, toggle, ofChar?_of_isRunChar on]
    | false => simpa [next, further?, on, open?, toggle] using open?_start c
  | minus =>
    by_cases sign : c = '-'
    · subst sign
      rfl
    · cases digit : c.isDigit with
      | true =>
        simp [next, further?, sign, digit, open?, toggle, ofChar?_of_isRunChar (isRunChar_of_isDigit digit)]
      | false => simpa [next, further?, sign, digit, open?, toggle] using open?_start c
  | inside mark content => by_cases same : c = mark.char <;> simp [next, further?, same, open?, toggle]
  | closing mark content =>
    by_cases same : c = mark.char
    · simp [next, further?, same, open?, toggle, Mark.ofChar?_char]
    · simpa [next, further?, same, open?, toggle] using open?_start c
  | comment text => cases hm

theorem hasComment_of_isComment {m : Mode} (hm : m.isComment = true) (rest : List Char) :
    (m.tokens rest).any Token.isComment = true := by
  cases m with
  | comment text =>
    obtain ⟨more, later, read⟩ := comment_tokens text rest
    rw [read]
    rfl
  | _ => cases hm

theorem isComment_finish {m : Mode} (hm : m.isComment = false) : m.finish.any Token.isComment = false := by
  cases m with
  | run negative chars =>
    rw [finish, runToken]
    split <;> rfl
  | comment text => cases hm
  | _ => rfl

/-- A token that is not over in a text without comments is no comment. -/
theorem isComment_of_tokens {m : Mode} {cs : List Char} (h : (m.tokens cs).any Token.isComment = false) :
    m.isComment = false := by
  cases hm : m.isComment with
  | false => rfl
  | true =>
    rw [hasComment_of_isComment hm] at h
    cases h

/-- In a text without comments, the quotes alone decide what is open at its end. -/
theorem after_of_uncommented {m : Mode} {cs : List Char} (h : (m.tokens cs).any Token.isComment = false) :
    (m.after cs).isComment = false ∧ (m.after cs).open? = cs.foldl toggle m.open? := by
  induction cs generalizing m with
  | nil => exact ⟨isComment_of_tokens h, rfl⟩
  | cons c rest ih =>
    have now := isComment_of_tokens h
    rw [tokens_cons, List.any_append, Bool.or_eq_false_iff] at h
    rw [after_cons, List.foldl_cons, ← open?_next now]
    exact ih h.2

end Mode

/-- What comes before a text without comments has none either. -/
theorem hasComment_of_append {a b : List Char} (h : hasComment (a ++ b) = false) :
    hasComment a = false := by
  obtain ⟨front, whole, read⟩ := Mode.outside.tokens_append a
  rw [hasComment, tokens, read, List.any_append, Bool.or_eq_false_iff] at h
  rw [hasComment, tokens, whole, List.any_append, h.1, Bool.false_or]
  exact Mode.isComment_finish (Mode.isComment_of_tokens h.2)

theorem isClosed_of_balanced {cs : List Char} (hb : Balanced cs) (hc : hasComment cs = false) :
    IsClosed cs := by
  obtain ⟨comment, quote⟩ := Mode.after_of_uncommented hc
  have shut : (Mode.outside.after cs).open? = none := quote.trans hb
  simp [IsClosed, Mode.isClosed, comment, shut]

end SqlComposition.Adjacency
