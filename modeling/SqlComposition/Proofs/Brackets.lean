import SqlComposition.Proofs.Emission
import SqlComposition.Proofs.Literals

/-!
Parentheses in SQL text. A text is scanned with the quotes that are open and the number of parentheses that
are; parentheses inside quotes count for nothing, and none may be closed that was not opened. Where all that
a query gives is well bracketed, so is its text, whatever its values are: a fragment may have a slot between
a parenthesis and its partner, but never between quotes, and what fills it closes all that it opens.
-/

namespace SqlComposition
open Quotes

namespace Brackets

/-- Where the scan of a text stands: the quotes that are open, and how many parentheses are. -/
structure Position where
  quote : Option Mark
  depth : Nat
  deriving DecidableEq

namespace Position

/-- The position behind a character, where the character may stand. -/
def step : Position → Char → Option Position
  | ⟨some mark, depth⟩, c => some ⟨toggle (some mark) c, depth⟩
  | ⟨none, depth⟩, c =>
    if c = '(' then some ⟨none, depth + 1⟩
    else if c = ')' then
      match depth with
      | 0 => none
      | depth + 1 => some ⟨none, depth⟩
    else some ⟨toggle none c, depth⟩

def scan (position : Position) (cs : List Char) : Option Position :=
  cs.foldlM step position

/-- The same place with more parentheses open around it. -/
def within (levels : Nat) : Position → Position
  | ⟨quote, depth⟩ => ⟨quote, depth + levels⟩

variable {position next last : Position} {c : Char} {cs : List Char}

@[simp] theorem scan_nil (position : Position) : position.scan [] = some position := rfl

theorem scan_cons (position : Position) (c : Char) (rest : List Char) :
    position.scan (c :: rest) = (position.step c).bind (·.scan rest) := rfl

theorem scan_singleton (position : Position) (c : Char) : position.scan [c] = position.step c := by
  rw [scan_cons]
  exact Option.bind_fun_some _

theorem scan_append (position : Position) (a b : List Char) :
    position.scan (a ++ b) = (position.scan a).bind (·.scan b) :=
  List.foldlM_append

theorem step_quote (h : position.step c = some next) : next.quote = toggle position.quote c := by
  obtain ⟨quote, depth⟩ := position
  cases quote with
  | some mark =>
    cases h
    rfl
  | none =>
    simp only [step] at h
    split at h
    · rename_i opens
      cases h
      rw [opens]
      rfl
    · split at h
      · rename_i closes
        rw [closes]
        cases depth <;> cases h
        rfl
      · cases h
        rfl

/-- The scan sees the quotes that are opened and closed. -/
theorem scan_quote (h : position.scan cs = some last) :
    last.quote = cs.foldl toggle position.quote := by
  induction cs generalizing position with
  | nil =>
    cases h
    rfl
  | cons c rest ih =>
    obtain ⟨next, first, others⟩ := Option.bind_eq_some_iff.1 h
    rw [ih others, step_quote first, List.foldl_cons]

/-- Behind a text that closes its quotes, only places outside of quotes matter. -/
theorem bind_scan_of_balanced {α : Type} (h : Balanced cs) {f g : Position → Option α}
    (hfg : ∀ depth, f ⟨none, depth⟩ = g ⟨none, depth⟩) (depth : Nat) :
    (scan ⟨none, depth⟩ cs).bind f = (scan ⟨none, depth⟩ cs).bind g := by
  cases reached : scan ⟨none, depth⟩ cs with
  | none => rfl
  | some last =>
    obtain ⟨quote, depth⟩ := last
    have outside : quote = none := (scan_quote reached).trans h
    rw [outside]
    exact hfg depth

theorem step_within (levels : Nat) (h : position.step c = some next) :
    (position.within levels).step c = some (next.within levels) := by
  obtain ⟨quote, depth⟩ := position
  cases quote with
  | some mark =>
    cases h
    rfl
  | none =>
    by_cases opens : c = '('
    · simp only [step, within, if_pos opens, Option.some.injEq] at h ⊢
      rw [← h, Nat.add_right_comm]
    · by_cases closes : c = ')'
      · simp only [step, within, if_neg opens, if_pos closes] at h ⊢
        cases depth with
        | zero => cases h
        | succ depth =>
          cases h
          rw [Nat.add_right_comm]
      · simp only [step, within, if_neg opens, if_neg closes, Option.some.injEq] at h ⊢
        rw [← h]

/-- What may stand somewhere may stand there with more parentheses around it. -/
theorem scan_within (levels : Nat) (h : position.scan cs = some last) :
    (position.within levels).scan cs = some (last.within levels) := by
  induction cs generalizing position with
  | nil =>
    cases h
    rfl
  | cons c rest ih =>
    obtain ⟨next, first, others⟩ := Option.bind_eq_some_iff.1 h
    rw [scan_cons, step_within levels first]
    exact ih others

/-- A text with neither quotes nor parentheses leaves every place as it was. -/
theorem scan_bare (h : IsBare cs) (opening : '(' ∉ cs) (closing : ')' ∉ cs) (position : Position) :
    position.scan cs = some position := by
  induction cs with
  | nil => rfl
  | cons c rest ih =>
    obtain ⟨bare, others⟩ := List.forall_mem_cons.1 h
    obtain ⟨noOpening, laterOpening⟩ := List.ne_and_not_mem_of_not_mem_cons opening
    obtain ⟨noClosing, laterClosing⟩ := List.ne_and_not_mem_of_not_mem_cons closing
    have still : position.step c = some position := by
      obtain ⟨quote, depth⟩ := position
      cases quote with
      | some mark => simp [step, toggle, IsBare.ne_char bare mark]
      | none => simp [step, noOpening.symm, noClosing.symm, toggle, bare]
    rw [scan_cons, still]
    exact ih others laterOpening laterClosing

theorem scan_numeral (h : Number.IsNumeral cs) (position : Position) :
    position.scan cs = some position :=
  scan_bare h.isBare (fun hm => absurd (h _ hm) (by decide)) (fun hm => absurd (h _ hm) (by decide))
    position

end Position

/-- All quotes and all parentheses outside of quotes are closed, and no parenthesis is closed before it is
opened. -/
def WellBracketed (cs : List Char) : Prop :=
  Position.scan ⟨none, 0⟩ cs = some ⟨none, 0⟩

instance (cs : List Char) : Decidable (WellBracketed cs) :=
  inferInstanceAs (Decidable (_ = _))

namespace WellBracketed

/-- A well bracketed text leaves any place outside of quotes as it was. -/
theorem scan_eq {cs : List Char} (h : WellBracketed cs) (depth : Nat) :
    Position.scan ⟨none, depth⟩ cs = some ⟨none, depth⟩ := by
  simpa [Position.within] using Position.scan_within depth h

theorem balanced {cs : List Char} (h : WellBracketed cs) : Balanced cs :=
  (Position.scan_quote h).symm

theorem of_bare {cs : List Char} (h : IsBare cs) (opening : '(' ∉ cs) (closing : ')' ∉ cs) :
    WellBracketed cs :=
  Position.scan_bare h opening closing _

theorem of_numeral {cs : List Char} (h : Number.IsNumeral cs) : WellBracketed cs :=
  Position.scan_numeral h _

/-- A doubled quote closes and opens, and nothing stands between. -/
theorem scan_doubled (depth : Nat) (cs : List Char) :
    Position.scan ⟨some .single, depth⟩ (Text.doubled cs) = some ⟨some .single, depth⟩ := by
  induction cs with
  | nil => rfl
  | cons c rest ih =>
    by_cases h : c = '\'' <;>
      simp [Text.doubled, h, Position.scan_cons, Position.step, toggle, Mark.char, Mark.ofChar?, ih]

theorem quote (content : String) : WellBracketed (Text.quote content).toList := by
  have opened : Position.step ⟨none, 0⟩ '\'' = some ⟨some .single, 0⟩ := rfl
  rw [Text.toList_quote, WellBracketed, Text.quoteChars, Position.scan_cons, opened, Option.bind_some,
    Position.scan_append, scan_doubled]
  rfl

theorem of_literal {t : String} (h : IsLiteral t) : WellBracketed t.toList := by
  rcases h with numeral | ⟨content, rfl⟩
  · exact of_numeral numeral
  · exact quote content

end WellBracketed

end Brackets

open Brackets

namespace Piece

/-- The scan of pieces. A value may stand outside of quotes only, and closes all that it opens. -/
def scan : Position → List Piece → Option Position
  | position, [] => some position
  | position, text s :: rest => (position.scan s.toList).bind (scan · rest)
  | position, value _ :: rest => if position.quote = none then scan position rest else none
  | position, sourceless :: rest => scan position rest
  | position, failed _ :: rest => scan position rest

theorem scan_append (position : Position) (a b : List Piece) :
    scan position (a ++ b) = (scan position a).bind (scan · b) := by
  induction a generalizing position with
  | nil => rfl
  | cons piece rest ih =>
    cases piece with
    | text s =>
      rw [List.cons_append, scan, scan, Option.bind_assoc]
      exact congrArg _ (funext fun next => ih next)
    | value v =>
      rw [List.cons_append, scan, scan]
      split
      · exact ih position
      · rfl
    | sourceless => exact ih position
    | failed failure => exact ih position

/-- Whatever closes what it opens may stand for the values. -/
theorem scan_weave {pieces : List Piece} {position last : Position} (h : scan position pieces = some last)
    {fillers : List String} (hl : fillers.length = (values pieces).length)
    (hf : ∀ filler ∈ fillers, WellBracketed filler.toList) :
    position.scan (weave (texts pieces) fillers).toList = some last := by
  induction pieces generalizing position fillers with
  | nil =>
    cases h
    rw [List.eq_nil_of_length_eq_zero hl]
    rfl
  | cons piece rest ih =>
    cases piece with
    | text s =>
      obtain ⟨next, first, others⟩ := Option.bind_eq_some_iff.1 h
      rw [texts, weave_prepend s (texts_ne_nil rest), String.toList_append, Position.scan_append, first]
      exact ih others hl hf
    | value v =>
      obtain ⟨quote, depth⟩ := position
      simp only [scan] at h
      split at h
      · rename_i outside
        subst outside
        cases fillers with
        | nil => simp [values] at hl
        | cons filler fillers =>
          obtain ⟨closed, others⟩ := List.forall_mem_cons.1 hf
          rw [texts, weave, String.empty_append, String.toList_append, Position.scan_append,
            closed.scan_eq]
          exact ih h (Nat.succ.inj hl) others
      · cases h
    | sourceless => exact ih h hl hf
    | failed failure => exact ih h hl hf

end Piece

/-- What is given is well bracketed: texts close the quotes and the parentheses they open, and bounds are
integers or truth values. -/
def Given.IsBracketed : Given → Prop
  | name text => WellBracketed text.toList
  | fragment sql _ => WellBracketed sql.toList
  | bound rows => (∃ n, rows = .int n) ∨ ∃ b, rows = .scalar (.bool b)

namespace Layout

/-- A layout that leaves the places outside of quotes as they are. -/
def IsLevel (layout : Layout) : Prop :=
  ∀ depth, Piece.scan ⟨none, depth⟩ layout.pieces = some ⟨none, depth⟩

namespace IsLevel

variable {a b : Layout}

theorem keyword {text : String} (h : WellBracketed text.toList) : IsLevel (.keyword text) := by
  intro depth
  rw [pieces, Piece.scan, h.scan_eq]
  rfl

theorem verbatim {text : String} (h : WellBracketed text.toList) : IsLevel (.verbatim text) := by
  intro depth
  rw [pieces, Piece.scan, h.scan_eq]
  rfl

theorem operand (v : Value) : IsLevel (.operand v) :=
  fun _ => rfl

theorem nil : IsLevel (series []) :=
  fun _ => rfl

theorem cons {part : Layout} {rest : List Layout} (h : IsLevel part) (others : IsLevel (series rest)) :
    IsLevel (series (part :: rest)) := by
  intro depth
  rw [pieces_series, List.flatMap_cons, ← pieces_series, Piece.scan_append, h depth]
  exact others depth

theorem parenthesized {layout : Layout} (h : IsLevel layout) :
    IsLevel (Layout.parenthesized layout) := by
  intro depth
  have opened : Position.scan ⟨none, depth⟩ ['('] = some ⟨none, depth + 1⟩ := rfl
  have closed : Position.scan ⟨none, depth + 1⟩ [')'] = some ⟨none, depth⟩ := rfl
  simp [Layout.parenthesized, pieces, Piece.scan, Piece.scan_append, h (depth + 1), opened, closed]

end IsLevel

/-- A fragment is scanned as it would be with its slots left open, for each of them lies outside of
quotes. -/
theorem scan_fill {segments : List (List Char)} {slots : List (List Piece)}
    (hs : ∀ segment ∈ segments, Balanced segment)
    (hf : ∀ slot ∈ slots, ∀ depth, Piece.scan ⟨none, depth⟩ slot = some ⟨none, depth⟩) (depth : Nat) :
    Piece.scan ⟨none, depth⟩ (fill .text segments slots) =
      Position.scan ⟨none, depth⟩ (['?'].intercalate segments) := by
  have mark (depth : Nat) (rest : List Char) :
      Position.scan ⟨none, depth⟩ ('?' :: rest) = Position.scan ⟨none, depth⟩ rest := rfl
  fun_induction fill Piece.text segments slots generalizing depth with
  | case1 => rfl
  | case2 last => simp [Piece.scan]
  | case3 segment rest more ih =>
    obtain ⟨first, later⟩ := List.forall_mem_cons.1 hs
    obtain ⟨next, others, rfl⟩ := List.exists_cons_of_ne_nil more
    rw [Piece.scan, String.toList_ofList, List.intercalate_cons_cons, List.append_assoc,
      Position.scan_append]
    exact Position.bind_scan_of_balanced first (fun depth => ih later hf depth) depth
  | case4 segment rest slot slots more ih =>
    obtain ⟨first, later⟩ := List.forall_mem_cons.1 hs
    obtain ⟨filler, fillers⟩ := List.forall_mem_cons.1 hf
    obtain ⟨next, others, rfl⟩ := List.exists_cons_of_ne_nil more
    rw [Piece.scan, String.toList_ofList, List.intercalate_cons_cons, List.append_assoc,
      Position.scan_append]
    refine Position.bind_scan_of_balanced first (fun depth => ?_) depth
    rw [Piece.scan_append, filler depth]
    exact ih later fillers depth

theorem wellBracketed_of_isWord {text : String} (h : isWord text = true) :
    WellBracketed text.toList := by
  rw [isWord, Bool.and_eq_true, List.all_eq_true] at h
  have unquoted : ∀ mark, isWordChar (Mark.char mark) = false := by
    intro mark
    cases mark <;> rfl
  exact .of_bare (fun c hc => Mark.ofChar?_eq_none unquoted (h.2 c hc))
    (fun hm => absurd (h.2 _ hm) (by decide)) (fun hm => absurd (h.2 _ hm) (by decide))

theorem IsLevel.plainText {rows : Value} (h : (Given.bound rows).IsBracketed) :
    IsLevel (Layout.plainText rows) := by
  rcases h with ⟨n, rfl⟩ | ⟨b, rfl⟩
  · exact .cons (.verbatim (.of_numeral (Number.intText_numeral n))) .nil
  · exact .cons (.verbatim (by cases b <;> decide)) .nil

/-- Layouts of well bracketed texts are level. -/
theorem Composed.isLevel {a b : Edge} {layout : Layout} (h : Composed Given.IsBracketed a layout b) :
    IsLevel layout := by
  induction h with
  | keyword word => exact .keyword (wellBracketed_of_isWord word)
  | parenthesized _ ih => exact .parenthesized ih
  | verbatim bracketed => exact .verbatim bracketed
  | operand _ => exact .operand _
  | @filled sql slots bracketed _ _ ih =>
    have level : ∀ slot ∈ slots.map pieces, ∀ depth,
        Piece.scan ⟨none, depth⟩ slot = some ⟨none, depth⟩ := by
      refine List.forall_mem_map.2 fun slot hslot => ?_
      cases slot with
      | operand v => exact IsLevel.operand v
      | keyword _ | verbatim _ | filled _ _ | series _ | sourceless | failed _ => exact ih _ hslot rfl
    intro depth
    rw [pieces, piecesOfEach_eq_map, scan_fill (balanced_segments (WellBracketed.balanced bracketed)) level,
      Slot.intercalate_segments, bracketed.scan_eq]
  | nil => exact .nil
  | cons _ _ first others => exact .cons first others
  | bound limited => exact .plainText limited
  | sourceless => exact fun _ => rfl
  | noSource => exact fun _ => rfl
  | weaken _ _ _ ih => exact ih

end Layout

theorem Failure.of_mapM_eq_ok {α β : Type} {f : α → Except Failure β} {as : List α} {bs : List β}
    (h : as.mapM f = .ok bs) : bs.length = as.length ∧ ∀ b ∈ bs, ∃ a ∈ as, f a = .ok b := by
  induction as generalizing bs with
  | nil =>
    cases h
    exact ⟨rfl, by simp⟩
  | cons a rest ih =>
    rw [List.mapM_cons] at h
    cases first : f a with
    | error failure => simp [first, bind, Except.bind] at h
    | ok b =>
      cases others : rest.mapM f with
      | error failure => simp [first, others, bind, Except.bind] at h
      | ok later =>
        simp only [first, others, bind, Except.bind, pure, Except.pure, Except.ok.injEq] at h
        subst h
        obtain ⟨length, from_later⟩ := ih others
        refine ⟨congrArg (· + 1) length, List.forall_mem_cons.2 ⟨⟨a, List.mem_cons_self, first⟩, ?_⟩⟩
        intro c hc
        obtain ⟨d, hd, made⟩ := from_later c hc
        exact ⟨d, List.mem_cons_of_mem a hd, made⟩

/-- The texts of a query are well bracketed: the inlined one, and the bound one wherever the placeholders
are. -/
structure Query.BracketsMatch (q : Query) : Prop where
  inlined : ∀ text, q.inlined = .ok text → WellBracketed text.toList
  bound : ∀ placeholder : Nat → String, (∀ position, WellBracketed (placeholder position).toList) →
    ∀ sql values, q.bound placeholder = .ok (sql, values) → WellBracketed sql.toList
  bind : ∀ d : Dialect, (∀ position, WellBracketed (d.placeholder position).toList) →
    ∀ b, (DialectChoice.known d).bind q = .ok b → WellBracketed b.sql.toList

/-- A query all of whose given texts are well bracketed is written well bracketed, whatever values it
has. -/
theorem Query.brackets_match (q : Query) (h : ∀ g ∈ q.given, g.IsBracketed) : q.BracketsMatch := by
  have level := (q.composed h).isLevel 0
  have bound : ∀ placeholder : Nat → String, (∀ position, WellBracketed (placeholder position).toList) →
      ∀ sql values, q.bound placeholder = .ok (sql, values) → WellBracketed sql.toList := by
    intro placeholder hp sql values form
    have sound : Piece.Sound q.layout.pieces := Piece.sound_of_bound form
    rw [Query.bound, Layout.bound, Piece.bound_of_sound sound, Except.ok.injEq, Prod.mk.injEq] at form
    obtain ⟨rfl, rfl⟩ := form
    exact Piece.scan_weave level (by simp) (List.forall_mem_map.2 fun position _ => hp position)
  refine ⟨fun text ht => ?_, bound, fun d hp b hb => ?_⟩
  · obtain ⟨literals, written, rfl⟩ := Piece.inlined_eq_weave ht
    obtain ⟨length, made⟩ := Failure.of_mapM_eq_ok written
    refine Piece.scan_weave level length fun literal hl => ?_
    obtain ⟨v, -, hv⟩ := made literal hl
    exact .of_literal (Value.isLiteral hv)
  · rw [DialectChoice.bind_known] at hb
    obtain ⟨⟨sql, values⟩, form, rfl⟩ := Failure.of_map_eq_ok hb
    exact bound d.placeholder hp sql values form

/-- The template of a dialect tells whether its placeholders are well bracketed. -/
theorem Dialect.placeholder_bracketed {d : Dialect} (h : WellBracketed d.template.toList)
    (position : Nat) : WellBracketed (d.placeholder position).toList := by
  have same (place : Position) (template : List Char) :
      place.scan (template.flatMap fun c => if c = '#' then Number.digits position else [c]) =
        place.scan template := by
    induction template generalizing place with
    | nil => rfl
    | cons c rest ih =>
      rw [List.flatMap_cons, Position.scan_append, Position.scan_cons, ← Position.scan_singleton]
      by_cases mark : c = '#'
      · have inert : place.scan ['#'] = some place :=
          Position.scan_bare (by decide) (by decide) (by decide) place
        rw [if_pos mark, mark, Position.scan_numeral (.digits position), inert]
        exact ih place
      · rw [if_neg mark]
        exact congrArg _ (funext ih)
  rw [Dialect.placeholder, Dialect.write, Number.natText, String.toList_ofList, String.toList_ofList,
    WellBracketed, same]
  exact h

/-- A query with parentheses and quotes in its values, and with slots between a parenthesis and its
partner. -/
def Query.bracketedSample : Query :=
  let inner : Query :=
    { source := some ⟨some "u", none, none⟩,
      conditions := [⟨.and, .comparison "n" "=" (.text ")'(")⟩, ⟨.or, .null "m" false⟩] }
  { selection := [⟨.raw ⟨"coalesce(?, ')', (?))", [.text "((", .fragment ⟨"f(?)", [.int (-1)]⟩]⟩, some "x"⟩],
    source := some ⟨none, some inner, some "s"⟩,
    conditions := [⟨.and, .member "k" (.query inner) true⟩],
    limit := some (.int 5) }

theorem Query.bracketedSample_bracketed : ∀ g ∈ Query.bracketedSample.given, g.IsBracketed := by
  have given : Query.bracketedSample.given =
      [.fragment "coalesce(?, ')', (?))" 2, .fragment "f(?)" 1, .name "x", .name "u", .name "n",
        .name "=", .name "m", .name "s", .name "k", .name "u", .name "n", .name "=", .name "m",
        .bound (.int 5)] := by
    simp [Query.bracketedSample, Query.given, Cte.allGiven, SelectItem.allGiven, SelectItem.given,
      Source.optionGiven, Source.given, Query.optionGiven, Given.label, Given.names, Join.allGiven,
      Condition.allGiven, Condition.given, Predicate.given, Members.given, Value.allGiven, Value.given,
      Value.text, Value.int, Fragment.given, Expression.allGiven, Expression.given,
      SetOperation.allGiven, OrderItem.allGiven, Given.bounds]
  have limited : (Given.bound (.int 5)).IsBracketed := .inl ⟨5, rfl⟩
  rw [given]
  simp only [List.forall_mem_cons, List.not_mem_nil, false_implies, implies_true, and_true, limited]
  simp only [Given.IsBracketed]
  decide

set_option maxRecDepth 10000 in
theorem Query.bracketedSample_match :
    WellBracketed ("SELECT coalesce('((', ')', (f(-1))) AS x\nFROM (SELECT *\nFROM u\n" ++
        "WHERE (n = ')''(' OR m IS NULL)) AS s\nWHERE k NOT IN (SELECT *\nFROM u\n" ++
        "WHERE (n = ')''(' OR m IS NULL))\nLIMIT 5").toList ∧
      WellBracketed ("SELECT coalesce($1, ')', (f($2))) AS x\nFROM (SELECT *\nFROM u\n" ++
        "WHERE (n = $3 OR m IS NULL)) AS s\nWHERE k NOT IN (SELECT *\nFROM u\n" ++
        "WHERE (n = $4 OR m IS NULL))\nLIMIT 5").toList := by
  have matching := Query.bracketedSample.brackets_match Query.bracketedSample_bracketed
  have numbered := Dialect.placeholder_bracketed (d := .numbered) (by decide)
  exact ⟨matching.inlined _ rfl, matching.bind .numbered numbered _ rfl⟩

end SqlComposition
