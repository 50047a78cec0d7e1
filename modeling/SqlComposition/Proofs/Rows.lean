import SqlComposition.Proofs.Declarations
import SqlComposition.Proofs.Mutations
import SqlComposition.Proofs.Readings
import SqlComposition.Proofs.Shown

/-!
What is given for a limit or an offset. It is kept as it is given, whatever it is, and of several the last
counts. It is written as plain text on a line of its own at the end of the query, so a text given there is
SQL as it stands. This is the only way for a query to be other than its fields are declared.
-/

namespace SqlComposition
open SqlComposition.Action Store Layout

/-! ## The last lines of a text -/

namespace Query

def unbounded (q : Query) : Query :=
  { q with limit := none, offset := none }

def rowsPieces (word : String) (rows : Option Value) : List Piece :=
  (plain word rows).flatMap fun line => .text "\n" :: line.pieces

/-- The line for what is given, with the plain text of it behind a keyword. -/
def rowsLine (word : String) : Option Value → Except Failure String
  | none => .ok ""
  | some rows => rows.plainText.map fun text => "\n" ++ (word ++ text)

theorem rowsPieces_some (word : String) (rows : Value) :
    rowsPieces word (some rows) = .text "\n" :: .text word :: (Layout.plainText rows).pieces := by
  rw [rowsPieces, plain, List.flatMap_singleton, pieces_series, List.flatMap_cons, List.flatMap_singleton,
    pieces]
  rfl

theorem pieces_layout (q : Query) :
    q.layout.pieces =
      q.unbounded.layout.pieces ++ (rowsPieces "LIMIT " q.limit ++ rowsPieces "OFFSET " q.offset) := by
  have first : q.unbounded.opening = q.opening := rfl
  obtain ⟨line, lines, opened⟩ := List.exists_cons_of_ne_nil q.opening_ne_nil
  rw [layout_eq_lines, layout_eq_lines, first, opened, List.cons_append, List.cons_append,
    pieces_joined_cons, pieces_joined_cons]
  simp [closing, unbounded, plain, rowsPieces]

theorem pieces_plainText (rows : Value) :
    (Layout.plainText rows).pieces = List.replicate rows.sourceless .sourceless ++
      [match rows.plainText with | .ok text => .text text | .error failure => .failed failure] := by
  rw [Layout.plainText, pieces_series, List.flatMap_append, List.flatMap_replicate, List.flatMap_singleton]
  congr 1
  · simp [pieces]
  · cases rows.plainText <;> rw [pieces]

theorem inlined_plainText (rows : Value) :
    Piece.inlined (Layout.plainText rows).pieces = rows.plainText := by
  have skipped (n : Nat) (rest : List Piece) :
      Piece.inlined (List.replicate n .sourceless ++ rest) = Piece.inlined rest := by
    induction n with
    | zero => rfl
    | succ n ih => rw [List.replicate_succ, List.cons_append, Piece.inlined, ih]
  rw [pieces_plainText, skipped]
  cases rows.plainText with
  | ok text =>
    rw [Piece.inlined_text, Piece.inlined, Except.map, String.append_empty]
  | error failure => rfl

theorem bound_plainText (placeholder : Nat → String) (count : Nat) (rows : Value) :
    Piece.bound placeholder count (Layout.plainText rows).pieces = rows.plainText.map (·, []) := by
  have skipped (n : Nat) (rest : List Piece) :
      Piece.bound placeholder count (List.replicate n .sourceless ++ rest) =
        Piece.bound placeholder count rest := by
    induction n with
    | zero => rfl
    | succ n ih => rw [List.replicate_succ, List.cons_append, Piece.bound, ih]
  rw [pieces_plainText, skipped]
  cases rows.plainText with
  | ok text =>
    rw [Piece.bound_text, Piece.bound, Except.map, String.append_empty]
    rfl
  | error failure => rfl

theorem inlined_rowsPieces (word : String) (rows : Option Value) :
    Piece.inlined (rowsPieces word rows) = rowsLine word rows := by
  cases rows with
  | none => rfl
  | some rows =>
    rw [rowsPieces_some, Piece.inlined_text, Piece.inlined_text, inlined_plainText, rowsLine]
    cases rows.plainText <;> rfl

theorem bound_rowsPieces (placeholder : Nat → String) (count : Nat) (word : String)
    (rows : Option Value) :
    Piece.bound placeholder count (rowsPieces word rows) = (rowsLine word rows).map (·, []) := by
  cases rows with
  | none => rfl
  | some rows =>
    rw [rowsPieces_some, Piece.bound_text, Piece.bound_text, bound_plainText, rowsLine]
    cases rows.plainText <;> rfl

/-- The text of a query ends in the lines for its limit and its offset. -/
theorem of_inlined {q : Query} {text : String} (h : q.inlined = .ok text) :
    ∃ front limit offset, q.unbounded.inlined = .ok front ∧ rowsLine "LIMIT " q.limit = .ok limit ∧
      rowsLine "OFFSET " q.offset = .ok offset ∧ text = front ++ (limit ++ offset) := by
  rw [inlined, Layout.inlined, pieces_layout] at h
  obtain ⟨front, _, before, behind, rfl⟩ := Piece.of_inlined_append h
  obtain ⟨limit, offset, first, last, rfl⟩ := Piece.of_inlined_append behind
  rw [inlined_rowsPieces] at first last
  exact ⟨front, limit, offset, before, first, last, rfl⟩

theorem of_bound {q : Query} {placeholder : Nat → String} {sql : String} {values : List Value}
    (h : q.bound placeholder = .ok (sql, values)) :
    ∃ front limit offset, q.unbounded.bound placeholder = .ok (front, values) ∧
      rowsLine "LIMIT " q.limit = .ok limit ∧ rowsLine "OFFSET " q.offset = .ok offset ∧
      sql = front ++ (limit ++ offset) := by
  rw [bound, Layout.bound, pieces_layout] at h
  obtain ⟨front, first, _, _, before, behind, rfl, rfl⟩ := Piece.of_bound_append h
  obtain ⟨limit, _, offset, _, written, last, rfl, rfl⟩ := Piece.of_bound_append behind
  rw [bound_rowsPieces] at written last
  obtain ⟨_, hl, made⟩ := Failure.of_map_eq_ok written
  cases made
  obtain ⟨_, ho, made⟩ := Failure.of_map_eq_ok last
  cases made
  exact ⟨front, limit, offset, by rwa [List.append_nil, List.append_nil], hl, ho, rfl⟩

def rows (q : Query) : Method → Option Value
  | .limit => q.limit
  | .offset => q.offset
  | _ => none

theorem rows_mapObjects (f : Object → Object) (q : Query) (m : Method) :
    (q.mapObjects f).rows m = (q.rows m).map (·.mapObjects f) := by
  rw [mapObjects_eq]
  cases m <;> rfl

end Query

/-! ## What calls leave -/

variable {setting : Setting} {number : Nat} {stage after : Stage}

def Method.SetsRows (m : Method) : Prop :=
  m = limit ∨ m = offset

theorem Method.SetsRows.rows_only {m : Method} (hm : m.SetsRows) (q : Query) :
    (q.only m.kind).rows m = q.rows m := by
  obtain rfl | rfl := hm <;> rfl

theorem Method.SetsRows.kind_ne {m other : Method} (hm : m.SetsRows) (h : other ≠ m) :
    other.kind ≠ m.kind := by
  obtain rfl | rfl := hm <;> cases other <;> first | exact absurd rfl h | nofun

theorem Method.SetsRows.of_works {m : Method} (hm : m.SetsRows) {name : String} {arguments : List Value}
    {changes : List Change} (h : (m.edit name arguments).Works setting number stage changes after) :
    ∃ given, arguments = [given] ∧
      ∀ q, (Change.applyAll changes q).rows m = Edit.bound? given := by
  have refused {failure : Failure} {changes : List Change} {P : Prop}
      (h : (Edit.refused failure).Works setting number stage changes after) : P := by
    cases h with
    | cons made _ _ => cases made
  match arguments with
  | [] => obtain rfl | rfl := hm <;> exact refused h
  | [given] =>
    refine ⟨given, rfl, fun q => ?_⟩
    obtain rfl | rfl := hm <;> cases h with
    | cons made _ done =>
      cases done
      have change := (of_run_pure made).1
      rw [Change.applyAll, List.foldl_cons, List.foldl_nil, ← change]
      rfl
  | _ :: _ :: _ => obtain rfl | rfl := hm <;> exact refused h

namespace Mutation

/-- What the calls of a method leave of what was there: the argument of the last one, where null is nothing. -/
def given (m : Method) (calls : List Mutation) (before : Option Value) : Option Value :=
  ((calls.filter (·.method = m)).getLast?.map fun c => Edit.bound? (c.arguments.headD .null)).getD before

theorem given_cons (m : Method) (c : Mutation) (rest : List Mutation) (before : Option Value) :
    given m (c :: rest) before = given m rest (given m [c] before) := by
  by_cases own : c.method = m
  · simp only [given, List.filter_cons, own, decide_true, if_true, List.filter_nil, List.getLast?_cons]
    cases (rest.filter (·.method = m)).getLast? <;> rfl
  · simp [given, own]

theorem rows_of_run (hs : setting.Adds) {m : Method} (hm : m.SetsRows) {c : Mutation} {b : Builder}
    (hb : stage.store.builder? number = some b) (h : c.run number setting stage = .ok () after) :
    ∃ q : Query, after.store.builder? number = some { b with query := q } ∧
      q.rows m = given m [c] (b.query.rows m) := by
  rw [run_eq] at h
  obtain ⟨changes, works, kinds, kept⟩ := Edit.works_of_apply (c.edit_makes hs) hb h
  refine ⟨_, kept, ?_⟩
  by_cases own : c.method = m
  · subst own
    obtain ⟨rows, one, set⟩ := hm.of_works works
    simp [given, one, set]
  · have none : changes.filter (·.kind = m.kind) = [] :=
      List.filter_eq_nil_iff.2 fun x hx => by simpa [kinds x hx] using hm.kind_ne own
    rw [← hm.rows_only, Change.only_applyAll, none, Change.applyAll, List.foldl_nil, hm.rows_only]
    simp [given, own]

theorem rows_of_runAll (hs : setting.Adds) {m : Method} (hm : m.SetsRows) {calls : List Mutation}
    {b : Builder} (hb : stage.store.builder? number = some b)
    (h : runAll number calls setting stage = .ok () after) :
    ∃ q : Query, after.store.builder? number = some { b with query := q } ∧
      q.rows m = given m calls (b.query.rows m) := by
  induction calls generalizing stage b with
  | nil =>
    obtain ⟨-, rfl⟩ := of_run_pure h
    exact ⟨b.query, hb, rfl⟩
  | cons c rest ih =>
    rw [runAll_cons] at h
    obtain ⟨_, next, first, others⟩ := of_run_bind h
    obtain ⟨p, changed, set⟩ := rows_of_run hs hm hb first
    obtain ⟨q, kept, last⟩ := ih changed others
    exact ⟨q, kept, by rw [last, set, given_cons m c rest]⟩

/-- How the forms of a builder are written whose limit and offset are shown as given here. -/
structure WritesRows (number : Nat) (limit offset : Option Value) (w : Session.World) : Prop where
  text : ∀ v, (w.outcome (Reading.text.perform number)).1 = .ok v →
    ∃ front first last, v = .text (front ++ (first ++ last)) ∧
      Query.rowsLine "LIMIT " limit = .ok first ∧ Query.rowsLine "OFFSET " offset = .ok last
  bound : ∀ v, (w.outcome (Reading.bound.perform number)).1 = .ok v →
    ∃ front first last values dialect, v = .bound ⟨front ++ (first ++ last), values, dialect⟩ ∧
      Query.rowsLine "LIMIT " limit = .ok first ∧ Query.rowsLine "OFFSET " offset = .ok last

theorem WritesRows.of_shown {w : Session.World} {b : Builder}
    (h : w.store.shown number = some (.builder b)) :
    WritesRows number b.query.limit b.query.offset w where
  text := fun v hv => by
    have written : (w.store.rendition number).text = b.query.inlined := by
      rw [rendition, h]
      exact congrArg Rendition.text b.query.rendition_eq
    rw [Session.World.outcome_text, written] at hv
    obtain ⟨text, made, rfl⟩ := Failure.of_map_eq_ok hv
    obtain ⟨front, first, last, -, hf, hl, rfl⟩ := Query.of_inlined made
    exact ⟨front, first, last, rfl, hf, hl⟩
  bound := fun v hv => by
    rw [Reading.perform, Session.World.outcome_map, Session.World.outcome_boundForm h] at hv
    obtain ⟨form, formed, rfl⟩ := Failure.of_map_eq_ok hv
    obtain ⟨d, known⟩ := DialectChoice.known_of_bind formed
    change (DialectChoice.ofValue b.dialect).bind b.query = _ at formed
    rw [known, DialectChoice.bind_known] at formed
    obtain ⟨⟨sql, values⟩, made, rfl⟩ := Failure.of_map_eq_ok formed
    obtain ⟨front, first, last, -, hf, hl, rfl⟩ := Query.of_bound made
    exact ⟨front, first, last, values, d.name, rfl, hf, hl⟩

/-- What calls that succeed leave in a builder, against the declared types of its fields. -/
structure KeepsRows (calls : List Mutation) (before q : Query) (number : Nat) (s : Store) : Prop where
  declared : q.datum.EveryRecord (Declared .anything)
  /-- They are as declared without exception where all limits and offsets are integers or missing. -/
  integers : q.datum.EveryRecord (Declared .integer) ↔ q.datum.EveryRecord HasIntegerRows
  rows : ∀ m : Method, m.SetsRows → q.rows m = given m calls (before.rows m)
  /-- They are written as plain text, so nothing puts a text in quotes. -/
  written : ∃ look : Object → Object, (∀ v : Value, v.IsSettled → v.mapObjects look = v) ∧
    ∀ w : Session.World, w.store = s →
      WritesRows number (q.limit.map (·.mapObjects look)) (q.offset.map (·.mapObjects look)) w

/-- Calls take anything for a limit or an offset and keep it; all else in a builder is of the types that
are declared for it. -/
theorem runAll_keepsRows (scope : Scope) (depth : Nat) {calls : List Mutation} {b : Builder}
    (hb : stage.store.builder? number = some b)
    (h : runAll number calls (scope.settingWithin depth) stage = .ok () after) :
    ∃ q : Query, after.store.builder? number = some { b with query := q } ∧
      KeepsRows calls b.query q number after.store := by
  have hs := scope.settingWithin_adds depth
  obtain ⟨made, -, -, kept, -⟩ := of_runAll hs hb h
  generalize Change.applyAll (made.flatMap Prod.snd) b.query = q at kept
  let look := after.store.lookFrom number
  refine ⟨q, kept, q.everyRecord_declared, q.everyRecord_declared_iff, fun m hm => ?_, look,
    fun v settled => settled.mapObjects look, fun w hw => ?_⟩
  · obtain ⟨p, same, set⟩ := rows_of_runAll hs hm hb h
    cases kept.symm.trans same
    exact set
  · have limit : (q.mapObjects look).limit = q.limit.map (·.mapObjects look) :=
      q.rows_mapObjects look .limit
    have offset : (q.mapObjects look).offset = q.offset.map (·.mapObjects look) :=
      q.rows_mapObjects look .offset
    rw [← limit, ← offset]
    exact .of_shown (b := { b with query := q.mapObjects look }) (hw ▸ shown_of_builder? kept)

theorem limiting_keepsRows :
    let b : Builder := ⟨.null, { source := some ⟨some "t", none, none⟩ }⟩
    let rows : Value := .text "1; DROP TABLE t"
    let q : Query := { b.query with limit := some rows }
    let after : Stage := { store := { contents := [.builder { b with query := q }] } }
    runAll 0 [limiting rows] (Scope.settingWithin {} 0) { store := { contents := [.builder b] } } =
        .ok () after ∧
      KeepsRows [limiting rows] b.query q 0 after.store ∧ ¬ q.datum.EveryRecord (Declared .integer) ∧
      (after.store.rendition 0).text = .ok "SELECT *\nFROM t\nLIMIT 1; DROP TABLE t" := by
  intro b rows q after
  have ran : runAll 0 [limiting rows] (Scope.settingWithin {} 0) { store := { contents := [.builder b] } } =
      .ok () after := by
    rw [runAll_cons, run_eq]
    rfl
  obtain ⟨p, kept, keeps⟩ := runAll_keepsRows {} 0 (b := b) rfl ran
  obtain rfl : q = p := congrArg Builder.query (Option.some.inj kept)
  refine ⟨ran, keeps, fun strict => ?_, rfl⟩
  have integers := keeps.integers.1 strict
  rw [Query.datum, Datum.EveryRecord] at integers
  have limited := integers.1 rfl ("limit", Value.optionDatum (some rows)) (by simp) (.inl rfl)
  rw [Value.optionDatum, show rows = .scalar (.text "1; DROP TABLE t") from rfl, Value.datum] at limited
  cases limited

end Mutation

end SqlComposition
