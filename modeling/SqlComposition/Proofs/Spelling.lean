import SqlComposition.Proofs.Emission
import SqlComposition.Proofs.Lexing

/-!
Layouts that are written as text that can be read by itself. Every quotation in such a text is closed, so
that a separator parts it from what is written before and behind, and the lexemes of the whole are those
of the parts.
-/

namespace SqlComposition
open Grammar Quotes

namespace Piece

theorem inlined_append {a b : List Piece} {x y : String} (ha : inlined a = .ok x)
    (hb : inlined b = .ok y) : inlined (a ++ b) = .ok (x ++ y) := by
  rw [inlined_append_eq, ha, hb]
  rfl

end Piece

namespace Layout

def Spells (layout : Layout) (lexemes : List Lexeme) : Prop :=
  ∃ cs, layout.inlined = .ok (String.ofList cs) ∧ Balanced cs ∧ lex cs = lexemes

theorem inlined_keyword (text : String) :
    (keyword text).inlined = .ok (String.ofList text.toList) := by
  simp [Layout.inlined, pieces, Except.map, Piece.inlined]

theorem inlined_operand {v : Value} {literal : String} (h : v.literal = .ok literal) :
    (operand v).inlined = .ok (String.ofList literal.toList) := by
  simp [Layout.inlined, pieces, Piece.inlined, h, bind, Except.bind, pure, Except.pure]

theorem inlined_series_nil : (series []).inlined = .ok (String.ofList []) := rfl

theorem inlined_series_cons {part : Layout} {rest : List Layout} {x y : List Char}
    (hp : part.inlined = .ok (String.ofList x)) (hr : (series rest).inlined = .ok (String.ofList y)) :
    (series (part :: rest)).inlined = .ok (String.ofList (x ++ y)) := by
  rw [Layout.inlined, pieces_series] at hr ⊢
  rw [List.flatMap_cons, String.ofList_append]
  exact Piece.inlined_append hp hr

namespace Spells

variable {layout : Layout} {lexemes : List Lexeme}

theorem text {s : String} (balanced : Balanced s.toList) (read : lex s.toList = lexemes) :
    Spells (keyword s) lexemes ∧ Spells (verbatim s) lexemes :=
  ⟨⟨_, inlined_keyword s, balanced, read⟩, ⟨_, inlined_keyword s, balanced, read⟩⟩

theorem operand {v : Value} {literal : String} (h : v.literal = .ok literal)
    (balanced : Balanced literal.toList) (read : lex literal.toList = lexemes) :
    Spells (operand v) lexemes :=
  ⟨_, inlined_operand h, balanced, read⟩

theorem single (h : Spells layout lexemes) : Spells (series [layout]) lexemes := by
  obtain ⟨cs, written, balanced, read⟩ := h
  have whole := inlined_series_cons written inlined_series_nil
  rw [List.append_nil] at whole
  exact ⟨cs, whole, balanced, read⟩

theorem divided (h : Spells layout lexemes) (word : String) (hw : isDivider word.toList = true)
    {rest : List Layout} {behind : List Lexeme} (hr : Spells (series rest) behind) :
    Spells (series (layout :: keyword word :: rest)) (lexemes ++ (lex word.toList ++ behind)) := by
  obtain ⟨x, written, balanced, rfl⟩ := h
  obtain ⟨y, writtenRest, balancedRest, rfl⟩ := hr
  have bare : IsBare word.toList := by
    simp only [isDivider, Bool.and_eq_true, decide_eq_true_eq] at hw
    exact hw.2
  refine ⟨x ++ (word.toList ++ y), ?_, ?_, lex_divider hw balanced y⟩
  · exact inlined_series_cons written (inlined_series_cons (inlined_keyword word) writtenRest)
  · exact balanced.append (bare.balanced.append balancedRest)

theorem ended (h : Spells layout lexemes) {c : Char} {word : String} {rest : List Char}
    (hw : word.toList = c :: rest) (hc : isSeparator c = true) (bare : IsBare rest) :
    Spells (series [layout, keyword word]) (lexemes ++ lex word.toList) := by
  obtain ⟨x, written, balanced, rfl⟩ := h
  have own : IsBare word.toList := by
    rw [hw]
    exact List.forall_mem_cons.2 ⟨isSeparator.bare hc, bare⟩
  refine ⟨x ++ (word.toList ++ []), ?_, ?_, ?_⟩
  · exact inlined_series_cons written (inlined_series_cons (inlined_keyword word) inlined_series_nil)
  · rw [List.append_nil]
    exact balanced.append own.balanced
  · rw [List.append_nil, hw, lex_append_separator balanced hc]

theorem parenthesized (h : Spells layout lexemes) :
    Spells (Layout.parenthesized layout) (.symbol '(' :: (lexemes ++ [.symbol ')'])) := by
  obtain ⟨x, written, balanced, rfl⟩ := h
  refine ⟨['('] ++ (x ++ ([')'] ++ [])), ?_, ?_, ?_⟩
  · have closing := inlined_series_cons (inlined_keyword ")") inlined_series_nil
    exact inlined_series_cons (inlined_keyword "(") (inlined_series_cons written closing)
  · have opening : Balanced ['('] := by decide
    have closing : Balanced ([')'] ++ []) := by decide
    exact opening.append (balanced.append closing)
  · have opening : lex ['('] = [.symbol '('] := by decide
    have closing : lex [')'] = [.symbol ')'] := by decide
    have starts : isSeparator '(' = true := by decide
    have ends : isSeparator ')' = true := by decide
    rw [List.singleton_append, lex_separator_append starts, List.append_nil,
      lex_append_separator balanced ends, opening, closing]
    rfl

theorem joined_cons (h : Spells layout lexemes) (separator : String)
    (hs : isDivider separator.toList = true) {next : Layout} {others : List Layout}
    {behind : List Lexeme} (hr : Spells (joined separator (next :: others)) behind) :
    Spells (joined separator (layout :: next :: others))
      (lexemes ++ (lex separator.toList ++ behind)) :=
  divided h separator hs hr

end Spells

end Layout

end SqlComposition
