import SqlComposition.Proofs.Emission
import SqlComposition.Proofs.Literals
import SqlComposition.Proofs.Slots

/-!
Question marks as placeholders. Where all that a query gives closes its own quotes and has as many slots
as it has bindings, the bound text has a bare question mark for each value and no other: looking for slots
in it finds the placeholders that were written, in the order of the values.
-/

namespace SqlComposition
open Quotes

/-- What is given has no slot but those that its bindings fill, and closes the quotes it opens. -/
def Given.IsAligned : Given → Prop
  | name text => Balanced text.toList ∧ Slot.count text.toList = 0
  | fragment sql bindings => Balanced sql.toList ∧ Slot.count sql.toList = bindings
  | bound rows => ∀ text, rows.plainText = .ok text → Balanced text.toList ∧ Slot.count text.toList = 0

theorem Number.IsNumeral.isClean {cs : List Char} (h : IsNumeral cs) : IsClean cs :=
  .of_bare h.isBare fun slot => absurd (h _ slot) (by decide)

theorem Quotes.IsClean.count_eq {cs : List Char} (h : IsClean cs) : Slot.count cs = 0 := by
  rw [Slot.count, segments_eq_cut h.balanced, h.uncut, List.length_singleton]

/-- Limits and offsets that are integers have no slots. -/
theorem Given.isAligned_int (n : Int) : (bound (.int n)).IsAligned := by
  intro text ht
  rw [Value.int, Value.plainText_scalar, Except.ok.injEq] at ht
  subst ht
  have clean := (Number.intText_numeral n).isClean
  exact ⟨clean.balanced, clean.count_eq⟩

namespace Layout

theorem isClean_of_isWord {text : String} (h : isWord text = true) : IsClean text.toList := by
  rw [isWord, Bool.and_eq_true, List.all_eq_true] at h
  have unquoted : ∀ mark, isWordChar (Mark.char mark) = false := by
    intro mark
    cases mark <;> rfl
  exact .of_bare (fun c hc => Mark.ofChar?_eq_none unquoted (h.2 c hc))
    fun slot => absurd (h.2 _ slot) (by decide)

/-- Every text in a layout is clean when what is given has as many slots as bindings. -/
theorem Composed.pieces_clean {a b : Edge} {layout : Layout}
    (h : Composed Given.IsAligned a layout b) :
    ∀ s, Piece.text s ∈ layout.pieces → IsClean s.toList := by
  intro s hs
  cases h.pieces_made _ hs with
  | word word => exact isClean_of_isWord word
  | opening | closing => exact .of_bare (by decide) (by decide)
  | name aligned => exact .of_count aligned.1 aligned.2
  | segment aligned hm =>
    rw [String.toList_ofList]
    exact .segments aligned.1 _ hm
  | unfilled aligned short =>
    rw [Slot.length_segments, aligned.2] at short
    exact absurd short (Nat.lt_irrefl _)
  | bound aligned written =>
    obtain ⟨balanced, slots⟩ := aligned s written
    exact .of_count balanced slots

end Layout

namespace Piece

theorem isClean_texts {pieces : List Piece} (h : ∀ s, text s ∈ pieces → IsClean s.toList) :
    ∀ t ∈ texts pieces, IsClean t.toList := by
  induction pieces with
  | nil =>
    intro t ht
    rw [List.mem_singleton.1 ht]
    exact .nil
  | cons piece rest ih =>
    have later := ih fun s hs => h s (List.mem_cons_of_mem _ hs)
    cases piece with
    | text s =>
      obtain ⟨first, others, split⟩ := List.exists_cons_of_ne_nil (texts_ne_nil rest)
      rw [split] at later
      obtain ⟨start, all⟩ := List.forall_mem_cons.1 later
      rw [texts, split, prepend]
      refine List.forall_mem_cons.2 ⟨?_, all⟩
      rw [String.toList_append]
      exact (h s List.mem_cons_self).append start
    | value v => exact List.forall_mem_cons.2 ⟨.nil, later⟩
    | sourceless => exact later
    | failed failure => exact later

/-- The pieces before a value hold the texts and the values before it. -/
theorem exists_split {pieces : List Piece} {i : Nat} (hi : i < (values pieces).length) :
    ∃ front back, pieces = front ++ value (values pieces)[i] :: back ∧
      values front = (values pieces).take i ∧ texts front = (texts pieces).take (i + 1) := by
  induction pieces generalizing i with
  | nil => simp [values] at hi
  | cons piece rest ih =>
    cases piece with
    | text s =>
      obtain ⟨front, back, split, before, around⟩ := ih hi
      obtain ⟨first, others, start⟩ := List.exists_cons_of_ne_nil (texts_ne_nil rest)
      refine ⟨text s :: front, back, congrArg (text s :: ·) split, before, ?_⟩
      rw [texts, around, texts, start]
      rfl
    | value v =>
      cases i with
      | zero => exact ⟨[], rest, rfl, rfl, rfl⟩
      | succ i =>
        obtain ⟨front, back, split, before, around⟩ := ih (Nat.lt_of_succ_lt_succ hi)
        refine ⟨value v :: front, back, congrArg (value v :: ·) split, ?_, ?_⟩
        · rw [values, before]
          rfl
        · rw [texts, around]
          rfl
    | sourceless =>
      obtain ⟨front, back, split, before, around⟩ := ih hi
      exact ⟨sourceless :: front, back, congrArg (sourceless :: ·) split, before, around⟩
    | failed failure =>
      obtain ⟨front, back, split, before, around⟩ := ih hi
      exact ⟨failed failure :: front, back, congrArg (failed failure :: ·) split, before, around⟩

end Piece

theorem toList_weave_marks {parts : List String} {count : Nat} (h : parts.length = count + 1) :
    (weave parts (List.replicate count "?")).toList = ['?'].intercalate (parts.map String.toList) := by
  induction parts generalizing count with
  | nil => simp at h
  | cons part rest ih =>
    cases rest with
    | nil =>
      cases count with
      | zero => simp [weave]
      | succ count => simp at h
    | cons next rest =>
      cases count with
      | zero => simp at h
      | succ count =>
        have others : (next :: rest).length = count + 1 := by simpa using h
        have later := ih others
        rw [List.map_cons, List.map_cons, List.intercalate_cons_cons, ← List.map_cons, ← later,
          List.replicate_succ, weave, String.toList_append, String.toList_append]
        rfl

theorem Dialect.map_placeholder_question (first count : Nat) :
    (List.range' first count).map question.placeholder = List.replicate count "?" := by
  rw [List.eq_replicate_iff]
  refine ⟨by simp, ?_⟩
  intro mark hm
  obtain ⟨position, -, rfl⟩ := List.mem_map.1 hm
  exact placeholder_question position

/-- The slots of the text that a query is bound to are the placeholders of its values: there is one for
each value, what stands before it is what is written before the value, and putting other placeholders in
their places gives the text for those. -/
structure Query.SlotsAreValues (q : Query) (b : BoundQuery) : Prop where
  count_eq : Slot.count b.sql.toList = b.values.length
  before_value : ∀ i (hi : i < b.values.length), ∃ front back,
    q.layout.pieces = front ++ .value b.values[i] :: back ∧
      Piece.bound Dialect.question.placeholder 0 front =
        .ok (String.ofList (Slot.before b.sql.toList i), b.values.take i)
  bound_eq : ∀ placeholder : Nat → String, q.bound placeholder =
    .ok (weave ((Slot.segments b.sql.toList).map String.ofList)
      ((List.range' 1 b.values.length).map placeholder), b.values)

/-- A query that gives no slots but those that bindings fill is bound to a text whose bare question marks
are the placeholders of its values, in their order. -/
theorem Query.question_marks_are_values (q : Query) (h : ∀ g ∈ q.given, g.IsAligned) {b : BoundQuery}
    (hb : (DialectChoice.known .question).bind q = .ok b) : q.SlotsAreValues b := by
  rw [DialectChoice.bind_known] at hb
  obtain ⟨⟨sql, values⟩, form, rfl⟩ := Failure.of_map_eq_ok hb
  have sound : Piece.Sound q.layout.pieces := Piece.sound_of_bound form
  have forms (placeholder : Nat → String) := Piece.bound_of_sound sound placeholder 0
  have clean := Piece.isClean_texts (q.composed h).pieces_clean
  rw [Query.bound, Layout.bound, forms, Except.ok.injEq, Prod.mk.injEq] at form
  obtain ⟨rfl, rfl⟩ := form
  have several : Piece.texts q.layout.pieces ≠ [] := Piece.texts_ne_nil _
  have marks : Slot.segments (weave (Piece.texts q.layout.pieces)
      ((List.range' (0 + 1) (Piece.values q.layout.pieces).length).map
        Dialect.question.placeholder)).toList = (Piece.texts q.layout.pieces).map String.toList := by
    rw [Dialect.map_placeholder_question, toList_weave_marks (Piece.length_texts _)]
    exact segments_intercalate (by simpa using several) (by simpa using clean)
  refine ⟨?_, fun i hi => ?_, fun placeholder => ?_⟩
  · rw [Slot.count, marks, List.length_map, Piece.length_texts, Nat.add_sub_cancel]
  · obtain ⟨front, back, split, before, around⟩ := Piece.exists_split hi
    have written : Piece.Sound front := fun failure hf =>
      sound failure (split ▸ List.mem_append_left _ hf)
    refine ⟨front, back, split, ?_⟩
    rw [Piece.bound_of_sound written, Slot.before, marks, ← List.map_take, ← around, before,
      Dialect.map_placeholder_question, ← toList_weave_marks, String.ofList_toList]
    rw [Piece.length_texts, before]
  · rw [Query.bound, Layout.bound, forms, marks]
    simp [Function.comp_def]

/-- A query whose fragments meet at their quotes, with a fragment and a query in slots. -/
def Query.splicedSample : Query :=
  let inner : Query :=
    { source := some ⟨some "\"t?\"", none, none⟩, conditions := [⟨.and, .comparison "n" "=" (.text "?'")⟩] }
  { selection := [⟨.raw ⟨"'a?'?", [.fragment ⟨"'b?' || ?", [.int 7]⟩]⟩, some "x"⟩],
    source := some ⟨none, some inner, some "s"⟩,
    conditions := [⟨.and, .raw ⟨"f(?, '?', ?)", [.query inner, .text "?"]⟩⟩],
    limit := some (.int 5) }

theorem Query.splicedSample_aligned : ∀ g ∈ Query.splicedSample.given, g.IsAligned := by
  have given : Query.splicedSample.given =
      [.fragment "'a?'?" 1, .fragment "'b?' || ?" 1, .name "x", .name "\"t?\"", .name "n", .name "=",
        .name "s", .fragment "f(?, '?', ?)" 2, .name "\"t?\"", .name "n", .name "=", .bound (.int 5)] := by
    simp [Query.splicedSample, Query.given, Cte.allGiven, SelectItem.allGiven, SelectItem.given,
      Source.optionGiven, Source.given, Query.optionGiven, Given.label, Given.names, Join.allGiven,
      Condition.allGiven, Condition.given, Predicate.given, Value.allGiven, Value.given, Value.text,
      Value.int, Fragment.given, Expression.allGiven, Expression.given, SetOperation.allGiven,
      OrderItem.allGiven, Given.bounds]
  rw [given]
  simp only [List.forall_mem_cons, List.not_mem_nil, false_implies, implies_true, and_true,
    Given.isAligned_int 5]
  simp only [Given.IsAligned]
  decide

set_option maxRecDepth 10000 in
theorem Query.splicedSample_question_marks :
    Query.splicedSample.SlotsAreValues
      ⟨"SELECT 'a?''b?' || ? AS x\nFROM (SELECT *\nFROM \"t?\"\nWHERE n = ?) AS s\n" ++
        "WHERE f((SELECT *\nFROM \"t?\"\nWHERE n = ?), '?', ?)\nLIMIT 5",
        [.int 7, .text "?'", .text "?'", .text "?"], "duckdb"⟩ :=
  Query.splicedSample.question_marks_are_values Query.splicedSample_aligned rfl

end SqlComposition
