import SqlComposition.Proofs.Strands

/-!
Texts that are compared with cannot change the structure of a query. The pieces of a query are told apart
into those that are fixed and the texts it compares with. Where all that is given closes its own quotes,
the tokens of the inlined text are those of the fixed pieces, with one quoted literal for each text in
between: no quote outside a literal ever touches it, so it is read back whole, whatever it holds.
-/

namespace SqlComposition
open Quotes

/-- What is given keeps to its own quotes: texts close those they open, and bounds are integers, of which
the truth values are a kind. -/
def Given.IsBalanced : Given → Prop
  | name text => Balanced text.toList
  | fragment sql _ => Balanced sql.toList
  | bound rows => (∃ n, rows = .int n) ∨ ∃ b, rows = .scalar (.bool b)

/-- A token of the fixed pieces, or the literal of a text that is compared with. -/
inductive Lexeme where
  | fixed (t : Token)
  | operand (text : String)

namespace Lexeme

def token : Lexeme → Token
  | fixed t => t
  | operand text => .quoted .single text

def frame : Lexeme → Option Token
  | fixed t => some t
  | operand _ => none

def text? : Lexeme → Option String
  | fixed _ => none
  | operand text => some text

end Lexeme

/-- A frame of tokens with quoted literals of the texts put in its gaps, in order. -/
def Quotes.fill : List (Option Token) → List String → List Token
  | [], _ => []
  | some t :: rest, texts => t :: fill rest texts
  | none :: rest, [] => fill rest []
  | none :: rest, text :: texts => .quoted .single text :: fill rest texts

theorem Quotes.fill_frame (lexemes : List Lexeme) :
    fill (lexemes.map Lexeme.frame) (lexemes.filterMap Lexeme.text?) = lexemes.map Lexeme.token := by
  induction lexemes with
  | nil => rfl
  | cons lexeme rest ih =>
    cases lexeme with
    | fixed t => simp [List.filterMap_cons, Lexeme.frame, Lexeme.text?, Lexeme.token, fill, ih]
    | operand text => simp [Lexeme.frame, Lexeme.text?, Lexeme.token, fill, ih]

theorem Lexeme.count_frame (lexemes : List Lexeme) :
    (lexemes.map frame).count none = (lexemes.filterMap text?).length := by
  induction lexemes with
  | nil => rfl
  | cons lexeme rest ih => cases lexeme <;> simp [List.filterMap_cons, frame, text?, ih]

theorem Layout.exists_bare_of_isWord {text : String} (h : isWord text = true) :
    ∃ c cs, text.toList = c :: cs ∧ IsBare (c :: cs) := by
  have unquoted : ∀ mark, isWordChar (Mark.char mark) = false := by
    intro mark
    cases mark <;> rfl
  rw [isWord, Bool.and_eq_true] at h
  cases spelled : text.toList with
  | nil => simp [spelled] at h
  | cons c cs =>
    refine ⟨c, cs, rfl, fun d hd => Mark.ofChar?_eq_none unquoted ?_⟩
    exact List.all_eq_true.1 h.2 d (spelled ▸ hd)

theorem Quotes.length_fill {frame : List (Option Token)} {texts : List String}
    (h : frame.count none = texts.length) : (fill frame texts).length = frame.length := by
  fun_induction fill frame texts with
  | case1 => rfl
  | case2 t rest texts ih => simp_all
  | case3 rest _ => simp at h
  | case4 rest text texts ih => simp_all

namespace Strand

/-- Reads strands as if each text that is compared with were a token of its own. -/
def read : Mode → List Strand → List Lexeme
  | m, [] => m.finish.map .fixed
  | m, fixed piece :: rest =>
    (m.passed piece.written).map .fixed ++ read (m.after piece.written) rest
  | m, operand text :: rest => m.finish.map .fixed ++ .operand text :: read .outside rest

theorem texts_read (m : Mode) (strands : List Strand) :
    (read m strands).filterMap Lexeme.text? = strands.filterMap text? := by
  have silent (tokens : List Token) :
      (tokens.map Lexeme.fixed).filterMap Lexeme.text? = [] := by
    simp [List.filterMap_eq_nil_iff, Lexeme.text?]
  induction strands generalizing m with
  | nil => rw [read, silent, List.filterMap_nil]
  | cons strand rest ih =>
    cases strand with
    | fixed piece => simp [List.filterMap_cons, read, silent, ih, text?]
    | operand text => simp [read, silent, ih, text?, Lexeme.text?]

theorem frame_read_masked (m : Mode) (strands : List Strand) :
    (read m (strands.map masked)).map Lexeme.frame = (read m strands).map Lexeme.frame := by
  induction strands generalizing m with
  | nil => rfl
  | cons strand rest ih =>
    cases strand with
    | fixed piece => simp [read, masked, ih]
    | operand text => simp [read, masked, ih, Lexeme.frame]

/-- The text that is written for the strands is read as the strands are, from wherever it may stand: what
stands before it is told by the edge. -/
def Reads : Layout.Edge → List Strand → Prop
  | .clear, strands => Mode.outside.tokens (written strands) = (read .outside strands).map Lexeme.token
  | .settled, strands => ∀ m : Mode, m.open? = none →
    m.tokens (written strands) = (read m strands).map Lexeme.token
  | .loose, strands =>
    (∀ m : Mode, m.open? = none → m.tokens (written strands) = (read m strands).map Lexeme.token) ∧
      ∀ text : String, (Mode.closing .single text.toList).tokens (written strands) =
        .quoted .single text :: (read .outside strands).map Lexeme.token

namespace Reads

theorem mono {a b : Layout.Edge} (h : a ≤ b) {strands : List Strand} (hb : Reads b strands) :
    Reads a strands := by
  cases a <;> cases b <;> first | exact absurd h (by decide) | skip
  · exact hb
  · exact hb .outside rfl
  · exact hb.1 .outside rfl
  · exact hb
  · exact hb.1
  · exact hb

theorem nil : Reads .loose [] := by
  refine ⟨fun m _ => ?_, fun text => ?_⟩
  · simp [written, read, Function.comp_def, Lexeme.token]
  · simp [written, read, Mode.finish]

/-- A piece that closes its own quotes may stand behind any other. -/
theorem fixed {piece : Piece} (hp : Balanced piece.written) {rest : List Strand}
    (h : Reads .settled rest) : Reads .settled (.fixed piece :: rest) := by
  intro m hm
  have closed := Mode.open?_after_of_balanced hm hp
  rw [written, List.flatMap_cons, Mode.tokens_append, read, List.map_append, List.map_map, ← h _ closed]
  simp [Function.comp_def, Lexeme.token, written, Strand.piece]

theorem text {text : String} (closed : Balanced text.toList) {rest : List Strand}
    (h : Reads .loose rest) : Reads .clear (.fixed (.text text) :: rest) := by
  have own : Balanced (Piece.text text).written := closed
  have settled : Reads .settled rest := h.mono (by decide)
  exact (fixed own settled).mono (by decide)

/-- A text without quotes parts whatever stands before it from whatever stands behind it. -/
theorem bare {text : String} {c : Char} {cs : List Char} (spelled : text.toList = c :: cs)
    (bare : IsBare (c :: cs)) {rest : List Strand} (h : Reads .clear rest) :
    Reads .loose (.fixed (.text text) :: rest) := by
  have behind (m : Mode) (hm : m.open? = none) :
      m.tokens (c :: cs ++ written rest) =
        (read m (.fixed (.text text) :: rest)).map Lexeme.token := by
    rw [Mode.tokens_append, read, Piece.written, spelled, bare.after hm, h]
    simp [Function.comp_def, Lexeme.token]
  have start : written (.fixed (.text text) :: rest) = c :: cs ++ written rest := by
    rw [written, List.flatMap_cons, Strand.piece, Piece.written, spelled]
    rfl
  rw [Reads, start]
  refine ⟨behind, fun content => ?_⟩
  have other := IsBare.ne_char (List.forall_mem_cons.1 bare).1 .single
  rw [List.cons_append, Mode.tokens_closing other, ← List.cons_append, behind .outside rfl,
    String.ofList_toList]

theorem word {text : String} (hw : Layout.isWord text = true) {rest : List Strand}
    (h : Reads .clear rest) : Reads .loose (.fixed (.text text) :: rest) := by
  obtain ⟨c, cs, spelled, unquoted⟩ := Layout.exists_bare_of_isWord hw
  exact bare spelled unquoted h

/-- A text that is compared with is read back whole when a word or nothing follows. -/
theorem operand (text : String) {rest : List Strand} (h : Reads .loose rest) :
    Reads .clear (.operand text :: rest) := by
  have literal : (Strand.operand text).piece.written = Text.quoteChars text.toList := by
    simp [Strand.piece, Piece.written, Value.text, Text.toList_quote]
  rw [Reads, written, List.flatMap_cons, literal, tokens_quoteChars]
  exact h.2 text

theorem silent {piece : Piece} (hp : piece.written = []) {edge : Layout.Edge} {rest : List Strand}
    (h : Reads edge rest) : Reads edge (.fixed piece :: rest) := by
  have same : written (.fixed piece :: rest) = written rest := by
    rw [written, List.flatMap_cons, Strand.piece, hp]
    rfl
  have reading (m : Mode) : read m (.fixed piece :: rest) = read m rest := by
    rw [read, hp]
    rfl
  cases edge <;> simpa only [Reads, same, reading] using h

theorem fill {segments : List (List Char)} {slots : List (List Strand)}
    (hs : ∀ segment ∈ segments, Balanced segment)
    (hf : ∀ slot ∈ slots, ∀ rest, Reads .settled rest → Reads .settled (slot ++ rest))
    {rest : List Strand} (h : Reads .settled rest) :
    Reads .settled (Layout.fill (fun s => Strand.fixed (.text s)) segments slots ++ rest) := by
  have text {segment : List Char} (closed : Balanced segment) :
      Balanced (Piece.text (String.ofList segment)).written := by
    rw [Piece.written, String.toList_ofList]
    exact closed
  fun_induction Layout.fill (fun s => Strand.fixed (.text s)) segments slots with
  | case1 => exact h
  | case2 last => exact fixed (text (hs _ List.mem_cons_self)) h
  | case3 segment others _ ih =>
    obtain ⟨first, later⟩ := List.forall_mem_cons.1 hs
    exact fixed (text first) (fixed (by decide) (ih later hf))
  | case4 segment others slot slots _ ih =>
    obtain ⟨first, later⟩ := List.forall_mem_cons.1 hs
    obtain ⟨filler, fillers⟩ := List.forall_mem_cons.1 hf
    rw [List.cons_append, List.append_assoc]
    exact fixed (text first) (filler _ (ih later fillers))

end Reads

end Strand

open Strand

/-- A layout whose texts close their own quotes is read as its strands are. -/
theorem Layout.Composed.reads {a b : Edge} {layout : Layout}
    (h : Composed Given.IsBalanced a layout b) {rest : List Strand} (hr : Reads b rest) :
    Reads a (layout.strands ++ rest) := by
  induction h generalizing rest with
  | keyword word =>
    rw [strands]
    exact .mono (by cases ‹Edge› <;> decide) (.word word hr)
  | parenthesized _ ih =>
    rw [Layout.parenthesized, strands_series_cons, strands_series_cons, strands_series_cons,
      strands_series_nil, strands, strands, List.append_nil, List.append_assoc, List.append_assoc]
    have closing : Reads .loose ([Strand.fixed (.text ")")] ++ rest) := .bare rfl (by decide) hr
    exact .mono (by cases ‹Edge› <;> decide) (.bare rfl (by decide) (ih closing))
  | verbatim closed =>
    rw [strands]
    exact .text closed hr
  | @operand v plain =>
    rw [strands]
    have value : Reads .settled ([Strand.fixed (.value v)] ++ rest) :=
      .fixed (Piece.balanced_written_value v) (.mono (by decide) hr)
    -- Of the values only a text is told apart.
    unfold Strand.ofValue
    split
    · exact .operand _ hr
    · exact value.mono (by decide)
  | @filled sql slots closed plain _ ih =>
    rw [strands, strandsOfSlots_eq_map]
    refine .fill (balanced_segments closed) (fun strands hs rest hr => ?_) hr
    obtain ⟨slot, hslot, rfl⟩ := List.mem_map.1 hs
    cases slot with
    | operand v => exact .fixed (Piece.balanced_written_value v) hr
    | keyword _ | verbatim _ | filled _ _ | series _ | sourceless | failed _ =>
      exact ih _ hslot rfl hr
  | nil =>
    rw [strands_series_nil]
    exact hr
  | cons _ _ first others =>
    rw [strands_series_cons, List.append_assoc]
    exact first (others hr)
  | bound limited =>
    rcases limited with ⟨n, rfl⟩ | ⟨b, rfl⟩
    · rw [Value.int, strands_plainText_scalar]
      exact .text (Number.intText_numeral n).isBare.balanced hr
    · rw [strands_plainText_scalar]
      exact .text (by cases b <;> decide) hr
  | sourceless =>
    rw [strands]
    exact .silent rfl hr
  | noSource =>
    rw [strands]
    exact .silent rfl hr
  | weaken before behind _ ih => exact (ih (hr.mono behind)).mono before

/-- The texts that stand as operands in a query, in the order of its text. -/
def Query.operandTexts (q : Query) : List String :=
  q.layout.strands.filterMap Strand.text?

theorem Query.tokens_inlined {q : Query} (h : ∀ g ∈ q.given, g.IsBalanced) {text : String}
    (ht : q.inlined = .ok text) :
    Mode.outside.tokens text.toList = (read .outside q.layout.strands).map Lexeme.token := by
  have reads := (q.composed h).reads .nil
  have written : text.toList = written q.layout.strands := by
    rw [Piece.toList_inlined ht, ← Layout.pieces_strands, List.flatMap_map, Strand.written]
  rw [List.append_nil] at reads
  rw [written]
  exact reads

/-- The tokens of a text are those of a frame, with the texts that a query compares with in its gaps. -/
structure Query.Framed (q : Query) (text : String) (frame : List (Option Token)) : Prop where
  gaps : frame.count none = q.operandTexts.length
  length_eq : (Mode.outside.tokens text.toList).length = frame.length
  tokens_eq : Mode.outside.tokens text.toList = fill frame q.operandTexts

theorem Query.framed {q : Query} (h : ∀ g ∈ q.given, g.IsBalanced) {text : String}
    (ht : q.inlined = .ok text) :
    q.Framed text ((read .outside q.layout.strands).map Lexeme.frame) := by
  have texts : q.operandTexts = (read .outside q.layout.strands).filterMap Lexeme.text? :=
    (texts_read .outside q.layout.strands).symm
  have gaps : ((read .outside q.layout.strands).map Lexeme.frame).count none =
      q.operandTexts.length := by
    rw [Lexeme.count_frame, texts]
  have filled : Mode.outside.tokens text.toList =
      fill ((read .outside q.layout.strands).map Lexeme.frame) q.operandTexts := by
    rw [tokens_inlined h ht, texts, Quotes.fill_frame]
  exact ⟨gaps, by rw [filled, Quotes.length_fill gaps], filled⟩

/-- Two queries that differ only in the texts they compare with have the same tokens, but for the literals
of those texts: there each has its own text, whole. -/
theorem Query.tokens_of_masked_eq {q q' : Query} (same : q.masked = q'.masked)
    (h : ∀ g ∈ q.given, g.IsBalanced) (h' : ∀ g ∈ q'.given, g.IsBalanced) {text text' : String}
    (ht : q.inlined = .ok text) (ht' : q'.inlined = .ok text') :
    ∃ frame, q.Framed text frame ∧ q'.Framed text' frame := by
  have frames : (read .outside q.layout.strands).map Lexeme.frame =
      (read .outside q'.layout.strands).map Lexeme.frame := by
    rw [← frame_read_masked, ← Layout.strands_masked, ← Query.layout_masked, same,
      Query.layout_masked, Layout.strands_masked, frame_read_masked]
  exact ⟨_, framed h ht, frames ▸ framed h' ht'⟩

/-- A query that compares with texts on its own, in a list, in a range and in a query that fills a slot. -/
def Query.comparing (a b c d e : String) : Query :=
  let inner : Query :=
    { source := some ⟨some "u", none, none⟩, conditions := [⟨.and, .comparison "\"x y\"" "=" (.text e)⟩] }
  { source := some ⟨some "t", none, none⟩,
    conditions := [⟨.and, .comparison "a" "LIKE" (.text a)⟩,
      ⟨.and, .member "b" (.listed [.text b, .int 7]) true⟩, ⟨.or, .between "c" (.text c) (.text d) false⟩,
      ⟨.and, .raw ⟨"f('?', ?, ?)", [.query inner, .text "it's"]⟩⟩],
    limit := some (.int 5) }

theorem Query.masked_comparing (a b c d e : String) :
    (Query.comparing a b c d e).masked = Query.comparing "" "" "" "" "" := by
  simp [comparing, Query.masked, Cte.allMasked, SelectItem.allMasked, Source.optionMasked,
    Source.masked, Query.optionMasked, Join.allMasked, Condition.allMasked, Condition.masked,
    Predicate.masked, Value.masked, Value.blank, Members.masked, Value.allMasked, Fragment.masked,
    Value.bindingsMasked, Value.bindingMasked, Value.text, Value.int, Expression.allMasked,
    SetOperation.allMasked, OrderItem.allMasked]

theorem Query.comparing_balanced (a b c d e : String) :
    ∀ g ∈ (Query.comparing a b c d e).given, g.IsBalanced := by
  have given : (Query.comparing a b c d e).given =
      [.name "t", .name "a", .name "LIKE", .name "b", .name "c", .fragment "f('?', ?, ?)" 2,
        .name "u", .name "\"x y\"", .name "=", .bound (.int 5)] := by
    simp [Query.comparing, Query.given, Cte.allGiven, SelectItem.allGiven, Source.optionGiven,
      Source.given, Query.optionGiven, Given.label, Given.names, Join.allGiven, Condition.allGiven,
      Condition.given, Predicate.given, Members.given, Value.allGiven, Value.given, Value.text,
      Value.int, Fragment.given, Expression.allGiven, SetOperation.allGiven, OrderItem.allGiven,
      Given.bounds]
  have five : (Given.bound (.int 5)).IsBalanced := .inl ⟨5, rfl⟩
  rw [given]
  simp only [List.forall_mem_cons, List.not_mem_nil, false_implies, implies_true, and_true, five]
  simp only [Given.IsBalanced]
  decide

set_option maxRecDepth 10000 in
theorem Query.comparing_tokens :
    ∃ frame,
      (Query.comparing "x" "y" "a" "b" "").Framed
        ("SELECT *\nFROM t\nWHERE ((a LIKE 'x' AND b NOT IN ('y', 7)) OR (c BETWEEN 'a' AND 'b' AND " ++
          "f('?', (SELECT *\nFROM u\nWHERE \"x y\" = ''), 'it''s')))\nLIMIT 5") frame ∧
      (Query.comparing "' OR '1' = '1" "''" "?" "\"" "\\'\n--").Framed
        ("SELECT *\nFROM t\nWHERE ((a LIKE ''' OR ''1'' = ''1' AND b NOT IN ('''''', 7)) OR " ++
          "(c BETWEEN '?' AND '\"' AND f('?', (SELECT *\nFROM u\nWHERE \"x y\" = '\\''\n--'), " ++
          "'it''s')))\nLIMIT 5") frame :=
  tokens_of_masked_eq ((masked_comparing _ _ _ _ _).trans (masked_comparing _ _ _ _ _).symm)
    (comparing_balanced _ _ _ _ _) (comparing_balanced _ _ _ _ _) rfl rfl

end SqlComposition
