import Mathlib.Data.List.SplitBy
import SqlComposition.Number.Digits
import SqlComposition.Proofs.Grammar

/-!
Lexemes of SQL text. Quotations are read first; of the characters outside of them, those of a name or a
number and those of an operator are taken together as far as they go, blanks are passed over, and every
other character stands for itself. A character that belongs to no longer lexeme parts a text in two that
can be read by themselves.
-/

namespace SqlComposition.Grammar
open Quotes

def isNameChar (c : Char) : Bool :=
  c.isAlphanum || c == '_'

def isOperatorChar (c : Char) : Bool :=
  ['=', '<', '>', '!'].contains c

def isSeparator (c : Char) : Bool :=
  !isNameChar c && !isOperatorChar c && (Mark.ofChar? c).isNone

def keywords : List String :=
  ["AND", "OR", "NOT", "IN", "IS", "NULL", "BETWEEN", "LIKE", "TRUE", "FALSE"]

/-- A keyword is read in either case. -/
def keyword? (cs : List Char) : Option String :=
  keywords.find? fun word => word.toList == cs.map Char.toUpper

def wordLexeme (cs : List Char) : Lexeme :=
  if cs.all Char.isDigit then .number (Number.digitsValue cs)
  else
    match keyword? cs with
    | some word => .keyword word
    | none => .name (String.ofList cs)

/-- Two characters side by side that belong to one lexeme. -/
def joins : Token → Token → Bool
  | .plain c, .plain d => (isNameChar c && isNameChar d) || (isOperatorChar c && isOperatorChar d)
  | _, _ => false

def plainChars (run : List Token) : List Char :=
  run.filterMap fun t => match t with | .plain c => some c | _ => none

def runLexeme : List Token → Option Lexeme
  | [] => none
  | .quoted mark content :: _ => some (.quoted mark content)
  | .unclosed mark content :: _ => some (.unclosed mark content)
  | .plain c :: rest =>
    if isNameChar c then some (wordLexeme (c :: plainChars rest))
    else if isOperatorChar c then some (.operator (String.ofList (c :: plainChars rest)))
    else if c.isWhitespace then none
    else some (.symbol c)

def lex (cs : List Char) : List Lexeme :=
  ((Mode.outside.tokens cs).splitBy joins).filterMap runLexeme

theorem tokens_cons_bare {c : Char} (hc : Mark.ofChar? c = none) (b : List Char) :
    Mode.outside.tokens (c :: b) = .plain c :: Mode.outside.tokens b := by
  have next : Mode.outside.next c = .outside := IsBare.next rfl hc
  rw [Mode.tokens_cons, next]
  simp [Mode.emitted, hc]

theorem tokens_bare {cs : List Char} (h : IsBare cs) : Mode.outside.tokens cs = cs.map .plain := by
  induction cs with
  | nil => rfl
  | cons c rest ih =>
    obtain ⟨bare, others⟩ := List.forall_mem_cons.1 h
    rw [tokens_cons_bare bare, ih others, List.map_cons]

/-- Balanced text can be read by itself when no quote follows. -/
theorem tokens_append_bare {a : List Char} (ha : Balanced a) {c : Char}
    (hc : Mark.ofChar? c = none) (b : List Char) :
    Mode.outside.tokens (a ++ c :: b) = Mode.outside.tokens a ++ Mode.outside.tokens (c :: b) := by
  have closed : (Mode.outside.after a).open? = none := Mode.open?_after_of_balanced rfl ha
  have split : Mode.outside.tokens a = Mode.outside.passed a ++ (Mode.outside.after a).finish := rfl
  rw [Mode.tokens_append, split, List.append_assoc]
  congr 1
  cases reached : Mode.outside.after a with
  | outside => rfl
  | inside mark content =>
    rw [reached] at closed
    cases closed
  | closing mark content => exact Mode.tokens_closing (IsBare.ne_char hc mark) content b

theorem isSeparator.bare {c : Char} (hc : isSeparator c = true) : Mark.ofChar? c = none := by
  simp only [isSeparator, Bool.and_eq_true, Option.isNone_iff_eq_none] at hc
  exact hc.2

theorem joins_separator {c : Char} (hc : isSeparator c = true) (t : Token) :
    joins t (.plain c) = false ∧ joins (.plain c) t = false := by
  simp only [isSeparator, Bool.and_eq_true, Bool.not_eq_true'] at hc
  cases t <;> simp [joins, hc]

theorem lex_append_separator {a : List Char} (ha : Balanced a) {c : Char}
    (hc : isSeparator c = true) (b : List Char) : lex (a ++ c :: b) = lex a ++ lex (c :: b) := by
  rw [lex, tokens_append_bare ha (isSeparator.bare hc), List.splitBy_append, List.filterMap_append]
  · rfl
  · intro x _ y hy
    rw [tokens_cons_bare (isSeparator.bare hc), List.head?_cons, Option.mem_some_iff] at hy
    rw [← hy]
    exact (joins_separator hc x).1

theorem lex_separator_append {c : Char} (hc : isSeparator c = true) (b : List Char) :
    lex (c :: b) = lex [c] ++ lex b := by
  have single := tokens_cons_bare (isSeparator.bare hc) []
  have first : Mode.outside.tokens (c :: b) = Mode.outside.tokens [c] ++ Mode.outside.tokens b := by
    rw [tokens_cons_bare (isSeparator.bare hc), single]
    rfl
  rw [lex, first, List.splitBy_append, List.filterMap_append]
  · rfl
  · intro x hx y _
    have only : x = .plain c := by
      rw [single, Mode.tokens_nil, Mode.finish, List.getLast?_singleton, Option.mem_some_iff] at hx
      exact hx.symm
    rw [only]
    exact (joins_separator hc y).2

def isDivider (w : List Char) : Bool :=
  w.head?.any isSeparator && w.getLast?.any isSeparator && decide (IsBare w)

/-- A divider parts what stands before it from what stands behind it. -/
theorem lex_divider {w : List Char} (hw : isDivider w = true) {a : List Char} (ha : Balanced a)
    (b : List Char) : lex (a ++ (w ++ b)) = lex a ++ (lex w ++ lex b) := by
  simp only [isDivider, Bool.and_eq_true, decide_eq_true_eq, Option.any_eq_true] at hw
  obtain ⟨⟨⟨c, starts, hc⟩, d, ends, hd⟩, bare⟩ := hw
  -- The last character parts the divider from `b`, and the first one parts `a` from the divider.
  have behind : lex (w ++ b) = lex w ++ lex b := by
    obtain ⟨v, rfl⟩ := List.getLast?_eq_some_iff.1 ends
    have closed : Balanced v := IsBare.balanced fun c hc => bare c (List.mem_append_left _ hc)
    rw [List.append_assoc, List.singleton_append, lex_append_separator closed hd,
      lex_separator_append hd, lex_append_separator closed hd, List.append_assoc]
  have before : lex (a ++ (w ++ b)) = lex a ++ lex (w ++ b) := by
    obtain ⟨u, rfl⟩ := List.head?_eq_some_iff.1 starts
    exact lex_append_separator ha hc (u ++ b)
  rw [before, behind]

theorem isBare_of_isNameChar {cs : List Char} (h : ∀ c ∈ cs, isNameChar c = true) : IsBare cs := by
  have unquoted : ∀ mark, isNameChar (Mark.char mark) = false := by
    intro mark
    cases mark <;> rfl
  exact fun c hc => Mark.ofChar?_eq_none unquoted (h c hc)

theorem lex_word {cs : List Char} (hn : cs ≠ []) (h : ∀ c ∈ cs, isNameChar c = true) :
    lex cs = [wordLexeme cs] := by
  have bare := isBare_of_isNameChar h
  have chain : (cs.map Token.plain).IsChain fun x y => joins x y = true := by
    refine (List.pairwise_of_forall_mem_list fun x hx y hy => ?_).isChain
    obtain ⟨c, hc, rfl⟩ := List.mem_map.1 hx
    obtain ⟨d, hd, rfl⟩ := List.mem_map.1 hy
    simp [joins, h c hc, h d hd]
  have spelled (rest : List Char) : plainChars (rest.map .plain) = rest := by
    rw [plainChars, List.filterMap_map]
    exact List.filterMap_some
  obtain ⟨c, rest, rfl⟩ := List.exists_cons_of_ne_nil hn
  rw [lex, tokens_bare bare, List.splitBy_of_isChain (by simp) chain]
  simp [runLexeme, h c List.mem_cons_self, spelled]

theorem lex_quoteChars (cs : List Char) :
    lex (Text.quoteChars cs) = [.quoted .single (String.ofList cs)] := by
  have only : Mode.outside.tokens (Text.quoteChars cs) = [.quoted .single (String.ofList cs)] := by
    have closed := tokens_quoteChars cs []
    rw [List.append_nil] at closed
    exact closed
  rw [lex, only]
  rfl

theorem lex_digits (n : Nat) : lex (Number.digits n) = [.number n] := by
  have digit : ∀ c ∈ Number.digits n, c.isDigit = true :=
    fun c hc => Nat.isDigit_of_mem_toDigits (by decide) (by decide) hc
  have value : Number.digitsValue (Number.digits n) = n := Nat.ofDigitChars_ten_toDigits
  have some : Number.digits n ≠ [] := Nat.toDigits_ne_nil
  have word : ∀ c ∈ Number.digits n, isNameChar c = true :=
    fun c hc => by simp [isNameChar, Char.isAlphanum, digit c hc]
  rw [lex_word some word, wordLexeme, if_pos (List.all_eq_true.2 digit), value]

/-- A name that can be written as it is: letters, digits and underscores, of which the first is no digit,
and no keyword. -/
def isName (text : String) : Bool :=
  text.toList.head?.any (fun c => !c.isDigit) && text.toList.all isNameChar &&
    (keyword? text.toList).isNone

theorem lex_name {text : String} (h : isName text = true) : lex text.toList = [.name text] := by
  simp only [isName, Bool.and_eq_true, List.all_eq_true, Option.isNone_iff_eq_none] at h
  obtain ⟨⟨starts, chars⟩, free⟩ := h
  cases spelled : text.toList with
  | nil => simp [spelled] at starts
  | cons c rest =>
    rw [spelled] at starts chars free
    have letter : c.isDigit = false := by simpa using starts
    rw [lex_word (List.cons_ne_nil c rest) chars, wordLexeme, free, if_neg (by simp [letter]),
      ← spelled, String.ofList_toList]

theorem isName.balanced {text : String} (h : isName text = true) : Balanced text.toList := by
  simp only [isName, Bool.and_eq_true, List.all_eq_true] at h
  exact (isBare_of_isNameChar h.1.2).balanced

theorem lex_comparator (c : Comparator) : lex c.text.toList = [c.lexeme] := by
  cases c <;> rfl

def Disjunction.IsTree (d : Disjunction) (text : String) : Prop :=
  d.lexemes = lex text.toList

theorem Disjunction.IsTree.unique {a b : Disjunction} {text : String} (ha : a.IsTree text)
    (hb : b.IsTree text) : a = b :=
  lexemes_injective (ha.trans hb.symm)

end SqlComposition.Grammar
