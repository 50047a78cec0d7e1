import SqlComposition.Proofs.LiteralReading
import SqlComposition.Proofs.Readings
import SqlComposition.Proofs.StatementChanges

/-!
Inserted rows read back. Of the calls that give rows to an INSERT the last one counts, and a call that gives
none is refused. The text names the columns of the first row and has one tuple of literals for each row.
What is read behind the name of the table is the table of contents that the rows make under these columns:
neither the order nor the number of the entries of a later row shows in it.
-/

namespace SqlComposition
open SqlComposition.Action Store

/-- Letters, digits and underscores; all letters beyond ASCII count. -/
def isIdentifierChar (c : Char) : Bool :=
  c.isAlphanum || c == '_' || decide (0x80 ≤ c.toNat)

def isIdentifier (text : String) : Bool :=
  text.toList.head?.any (fun c => !c.isDigit) && text.toList.all isIdentifierChar

abbrev Identifier := { text : String // isIdentifier text = true }

/-- Contents by column, in the order that they were put in. -/
structure Row where
  entries : List (Identifier × Constant)
  distinct : (entries.map fun e => e.1.val).Nodup

namespace Row

def names (row : Row) : List String :=
  row.entries.map fun e => e.1.val

def value (row : Row) : Value :=
  .mapping (row.entries.map fun e => (.text e.1.val, .scalar e.2.scalar))

/-- What a row has under a column; where it has nothing, that is null. -/
def content (row : Row) (name : String) : Constant :=
  ((row.entries.find? fun e => e.1.val == name).map Prod.snd).getD .null

def under (row : Row) (columns : List String) : List Constant :=
  columns.map row.content

end Row

def Statement.insertion (table : String) (executor : Nat) (rows : List Row) (returning : List String) :
    Statement :=
  { kind := .insert, executor, table := .text table, rows := rows.map Row.value,
    returning := returning.map .text }

/-- What the text of an INSERT says behind the name of its table. -/
structure Insertion where
  columns : List String
  tuples : List (List Constant)
  rest : String

namespace Insertion

/-- What is behind a given text. -/
def expect (front : List Char) (cs : List Char) : Option (List Char) :=
  if front.isPrefixOf cs then some (cs.drop front.length) else none

def readName : Reader String := fun cs =>
  let name := String.ofList (cs.takeWhile isIdentifierChar)
  if isIdentifier name then some (name, cs.dropWhile isIdentifierChar) else none

section Series

variable {α : Type} (read : Reader α)

/-- Reads up to `limit` items with a comma and a blank between each two. -/
def readUpTo : Nat → Reader (List α)
  | 0, _ => none
  | limit + 1, cs => do
    let (item, rest) ← read cs
    match expect [',', ' '] rest with
    | none => return ([item], rest)
    | some more =>
      let (items, rest) ← readUpTo limit more
      return (item :: items, rest)

/-- Even if they are empty, a text has no more items than this. -/
def readSeries : Reader (List α) := fun cs =>
  readUpTo read (cs.length + 1) cs

def readParenthesized : Reader (List α) := fun cs => do
  let (items, rest) ← readSeries read (← expect ['('] cs)
  return (items, ← expect [')'] rest)

end Series

def read (table text : String) : Option Insertion := do
  let cs ← expect ("INSERT INTO " ++ table ++ " ").toList text.toList
  let (columns, cs) ← readParenthesized readName cs
  let cs ← expect " VALUES ".toList cs
  let (tuples, cs) ← readSeries (readParenthesized Constant.read) cs
  return ⟨columns, tuples, String.ofList cs⟩

theorem expect_append (front rest : List Char) : expect front (front ++ rest) = some rest := by
  rw [expect, if_pos (List.isPrefixOf_iff_prefix.2 (List.prefix_append front rest)), List.drop_left]

section Series

variable {α : Type} {read : Reader α}

theorem readUpTo_last {cs rest : List Char} {item : α} (limit : Nat) (h : read cs = some (item, rest))
    (ends : expect [',', ' '] rest = none) : readUpTo read (limit + 1) cs = some ([item], rest) := by
  rw [readUpTo, h]
  simp [ends]

theorem readUpTo_more {cs more rest : List Char} {item : α} {items : List α} {limit : Nat}
    (h : read cs = some (item, [',', ' '] ++ more)) (later : readUpTo read limit more = some (items, rest)) :
    readUpTo read (limit + 1) cs = some (item :: items, rest) := by
  have comma := expect_append [',', ' '] more
  rw [readUpTo, h]
  simp only [Option.bind_eq_bind, Option.bind_some, comma, later, pure]

theorem length_le_intercalate (texts : List (List Char)) (rest : List Char) :
    texts.length ≤ ([',', ' '].intercalate texts ++ rest).length + 1 := by
  induction texts with
  | nil => simp
  | cons text texts ih =>
    cases texts with
    | nil => simp
    | cons next texts =>
      rw [List.intercalate_cons_cons]
      simp only [List.length_append, List.length_cons, List.length_nil] at ih ⊢
      omega

variable (read) (write : α → List Char) {items : List α}

/-- Items are read back where each of them is, in front of a comma or of what follows them all. -/
theorem readSeries_intercalate {rest : List Char} (ends : expect [',', ' '] rest = none) (some : items ≠ [])
    (hr : ∀ item ∈ items, ∀ more, more = rest ∨ more.head? = .some ',' →
      read (write item ++ more) = .some (item, more)) :
    readSeries read ([',', ' '].intercalate (items.map write) ++ rest) = .some (items, rest) := by
  have enough := length_le_intercalate (items.map write) rest
  rw [List.length_map] at enough
  rw [readSeries]
  generalize ([',', ' '].intercalate (items.map write) ++ rest).length + 1 = limit at enough
  induction items generalizing limit with
  | nil => exact absurd rfl some
  | cons item items ih =>
    obtain ⟨first, others⟩ := List.forall_mem_cons.1 hr
    cases limit with
    | zero => cases enough
    | succ limit =>
      by_cases only : items = []
      · subst only
        rw [List.map_singleton, List.intercalate_singleton]
        exact readUpTo_last limit (first rest (.inl rfl)) ends
      · rw [List.map_cons, List.intercalate_cons_of_ne_nil (by simpa using only), List.append_assoc,
          List.append_assoc]
        exact readUpTo_more (first _ (.inr rfl)) (ih only others limit (Nat.le_of_succ_le_succ enough))

theorem readParenthesized_intercalate (some : items ≠ [])
    (hr : ∀ item ∈ items, ∀ more, more.head? = .some ')' ∨ more.head? = .some ',' →
      read (write item ++ more) = .some (item, more)) (rest : List Char) :
    readParenthesized read (['('] ++ ([',', ' '].intercalate (items.map write) ++ ([')'] ++ rest))) =
      .some (items, rest) := by
  have ends : expect [',', ' '] ([')'] ++ rest) = none := rfl
  have inner := readSeries_intercalate read write ends some fun item hi more hm =>
    hr item hi more (hm.imp_left fun same => by rw [same]; rfl)
  have opening := expect_append ['('] ([',', ' '].intercalate (items.map write) ++ ([')'] ++ rest))
  have closing := expect_append [')'] rest
  simp only [readParenthesized, opening, inner, closing, Option.bind_eq_bind, Option.bind_some, pure]

end Series

theorem isEnd_of_head? {more : List Char} (hm : more.head? = some ')' ∨ more.head? = some ',')
    {p : Char → Bool} (hp : p ')' = false ∧ p ',' = false) :
    more.head?.all (fun next => !p next) = true := by
  rcases hm with next | next <;> simp [next, hp]

theorem readName_identifier (name : Identifier) {more : List Char}
    (hm : more.head? = some ')' ∨ more.head? = some ',') :
    readName (name.val.toList ++ more) = some (name.val, more) := by
  obtain ⟨name, identifier⟩ := name
  have chars : ∀ c ∈ name.toList, isIdentifierChar c = true := by
    rw [isIdentifier, Bool.and_eq_true, List.all_eq_true] at identifier
    exact identifier.2
  obtain ⟨run, behind⟩ := span_append chars (isEnd_of_head? hm (by decide))
  simp only [readName, run, behind, String.ofList_toList]
  exact if_pos identifier

def tupleChars (tuple : List Constant) : List Char :=
  ['('] ++ ([',', ' '].intercalate (tuple.map fun c => c.literal.toList) ++ [')'])

theorem readTuple {tuple : List Constant} (some : tuple ≠ []) (more : List Char) :
    readParenthesized Constant.read (tupleChars tuple ++ more) = .some (tuple, more) := by
  have inner (c : Constant) (more : List Char) (hm : more.head? = .some ')' ∨ more.head? = .some ',') :
      c.isOver more = true := by
    cases c with
    | text value => rcases hm with next | next <;> simp [Constant.isOver, next]
    | _ => exact isEnd_of_head? hm (by decide)
  have whole := readParenthesized_intercalate Constant.read (fun c => c.literal.toList) some
    (fun c _ more hm => c.read_literal (inner c more hm)) more
  rw [tupleChars, List.append_assoc, List.append_assoc]
  exact whole

end Insertion

theorem Value.sameKey_text (a b : String) : sameKey (text a) (text b) = (a == b) := by
  by_cases h : a = b <;>
    simp [text, sameKey, Scalar.sameAs, Scalar.isNan, Scalar.number?, Scalar.infinity?, h]

namespace Row

variable (row : Row)

theorem entry_value (name : String) :
    Statement.entry row.value (.text name) = .ok (.scalar (row.content name).scalar) := by
  rw [value, Statement.entry, Value.lookupEntry, List.find?_map, content]
  simp only [Function.comp_def, Value.sameKey_text]
  cases row.entries.find? fun e => e.1.val == name <;> rfl

theorem find?_of_mem {entries : List (Identifier × Constant)}
    (distinct : (entries.map fun e => e.1.val).Nodup) {e : Identifier × Constant} (he : e ∈ entries) :
    (entries.find? fun d => d.1.val == e.1.val) = some e := by
  induction entries with
  | nil => cases he
  | cons first rest ih =>
    rw [List.map_cons, List.nodup_cons] at distinct
    rcases List.mem_cons.1 he with rfl | he
    · exact List.find?_cons_of_pos (by simp)
    · have other : first.1.val ≠ e.1.val := fun same =>
        distinct.1 (same ▸ List.mem_map_of_mem (f := fun e => e.1.val) he)
      rw [List.find?_cons_of_neg (by simpa using other), ih distinct.2 he]

variable {row}

theorem content_of_mem {e : Identifier × Constant} (he : e ∈ row.entries) : row.content e.1.val = e.2 := by
  rw [content, find?_of_mem row.distinct he]
  rfl

theorem content_of_notMem {name : String} (hn : ∀ e ∈ row.entries, e.1.val ≠ name) :
    row.content name = .null := by
  rw [content, List.find?_eq_none.2 fun e he => by simpa using hn e he]
  rfl

/-- Under its own names, a row has its own contents in order. -/
theorem under_names (row : Row) : row.under row.names = row.entries.map Prod.snd := by
  rw [under, names, List.map_map]
  exact List.map_congr_left fun e he => content_of_mem he

def wanted (row : Row) (columns : List String) : List (Identifier × Constant) :=
  row.entries.filter fun e => columns.contains e.1.val

/-- Neither the order of the entries nor further ones matter for what a row has under columns. -/
theorem under_of_perm {a b : Row} {columns : List String} (h : (a.wanted columns).Perm (b.wanted columns)) :
    a.under columns = b.under columns := by
  refine List.map_congr_left fun name hn => ?_
  have both (e : Identifier × Constant) (he : e.1.val = name) : e ∈ a.entries ↔ e ∈ b.entries := by
    have same := h.mem_iff (a := e)
    simpa [wanted, he, hn] using same
  by_cases found : ∃ e ∈ a.entries, e.1.val = name
  · obtain ⟨e, ha, rfl⟩ := found
    rw [content_of_mem ha, content_of_mem ((both e rfl).1 ha)]
  · have none : ∀ e ∈ a.entries, e.1.val ≠ name := fun e he same => found ⟨e, he, same⟩
    rw [content_of_notMem none,
      content_of_notMem fun e he same => none e ((both e same).2 he) same]

end Row

namespace Statement

theorem cell_constant (c : Constant) : cell (.scalar c.scalar) = pure c.literal := by
  have marks : Piece.sourcelessInlined [.value (.scalar c.scalar)] = 0 := by
    cases c <;> rfl
  have text : Piece.inlined [.value (.scalar c.scalar)] = .ok c.literal := by
    simp [Piece.inlined, c.scalar_literal, bind, Except.bind, pure, Except.pure]
  funext count
  rw [cell_run, Value.layout, Layout.inlined, Layout.pieces, marks, text]
  rfl

def tupleText (tuple : List Constant) : String :=
  "(" ++ ", ".intercalate (tuple.map Constant.literal) ++ ")"

theorem toList_tupleText (tuple : List Constant) : (tupleText tuple).toList = Insertion.tupleChars tuple := by
  simp [tupleText, Insertion.tupleChars, Function.comp_def]

theorem rowText_value (columns : List String) (row : Row) :
    rowText (columns.map .text) row.value = pure (tupleText (row.under columns)) := by
  have contents : ((columns.map Value.text).mapM fun column => do
      cell (← Writing.ofExcept (entry row.value column))) =
      pure ((row.under columns).map Constant.literal) := by
    rw [List.mapM_map, Row.under, List.map_map, ← List.mapM_pure]
    congr 1
    funext name
    simp only [Function.comp_apply, row.entry_value, Writing.ofExcept, pure_bind, cell_constant]
  rw [rowText, contents, pure_bind]
  rfl

theorem firstRowText_value (columns : List Value) (row : Row) :
    firstRowText columns row.value = pure (tupleText (row.under row.names)) := by
  have contents : ((row.entries.map fun e => (Value.text e.1.val, Value.scalar e.2.scalar)).map
      Prod.snd).mapM cell = pure ((row.under row.names).map Constant.literal) := by
    rw [List.map_map, List.mapM_map, row.under_names, List.map_map, ← List.mapM_pure]
    congr 1
    funext e
    exact cell_constant e.2
  rw [Row.value, firstRowText, cellsText, contents, pure_bind]
  rfl

/-- The text behind the rows. -/
def returningSuffix : List String → String
  | [] => ""
  | columns => " RETURNING " ++ ", ".intercalate columns

theorem commaJoined_texts (texts : List String) :
    Value.commaJoined (texts.map .text) = .ok (", ".intercalate texts) := by
  have joined (position : Nat) : Value.joinTexts position (texts.map .text) = .ok texts := by
    induction texts generalizing position with
    | nil => rfl
    | cons text rest ih => rw [List.map_cons, Value.text, Value.joinTexts, ih]; rfl
  rw [Value.commaJoined, joined]
  rfl

theorem returningText_texts (columns : List String) :
    returningText (columns.map .text) = .ok (returningSuffix columns) := by
  cases columns with
  | nil => rfl
  | cons first rest =>
    rw [List.map_cons, returningText, ← List.map_cons, commaJoined_texts]
    · rfl
    · simp

theorem insertText_insertion (table : String) (executor : Nat) {first : Row} (some : first.entries ≠ [])
    (others : List Row) (returning : List String) :
    (insertion table executor (first :: others) returning).insertText =
      pure ("INSERT INTO " ++ table ++ " (" ++ ", ".intercalate first.names ++ ") VALUES " ++
        ", ".intercalate ((first :: others).map fun row => tupleText (row.under first.names)) ++
          returningSuffix returning) := by
  have keys : first.value.items = .ok (first.names.map .text) := by
    rw [Row.value, Row.names, Value.items, Value.items?, List.map_map, List.map_map]
    rfl
  have named : (first.names.map Value.text).isEmpty = false := by
    simpa [Row.names] using some
  have tuples : (others.map Row.value).mapM (rowText (first.names.map .text)) =
      pure (others.map fun row => tupleText (row.under first.names)) := by
    rw [List.mapM_map, ← List.mapM_pure]
    congr 1
    funext row
    exact rowText_value first.names row
  have written : Value.write (.text table) = pure table := rfl
  rw [insertText, insertion, List.map_cons]
  simp only [keys, named, Writing.ofExcept, pure_bind, firstRowText_value, tuples, written,
    commaJoined_texts, returningText_texts, List.map_cons]
  rfl

theorem expect_returningSuffix (columns : List String) :
    Insertion.expect [',', ' '] (returningSuffix columns).toList = none := by
  cases columns with
  | nil => rfl
  | cons first rest =>
    rw [returningSuffix, String.toList_append]
    · rfl
    · simp

theorem read_insertion (table : String) {first : Row} (some : first.entries ≠ []) (rows : List Row)
    (hr : rows ≠ []) (returning : List String) :
    Insertion.read table ("INSERT INTO " ++ table ++ " (" ++ ", ".intercalate first.names ++ ") VALUES " ++
        ", ".intercalate (rows.map fun row => tupleText (row.under first.names)) ++
          returningSuffix returning) =
      .some ⟨first.names, rows.map (·.under first.names), returningSuffix returning⟩ := by
  have named : first.names ≠ [] := by simpa [Row.names] using some
  have columns := Insertion.readParenthesized_intercalate Insertion.readName String.toList named
    fun name hn more hm => by
      obtain ⟨e, -, rfl⟩ := List.mem_map.1 hn
      exact Insertion.readName_identifier e.1 hm
  have several : rows.map (·.under first.names) ≠ [] := by simpa using hr
  have tuples := Insertion.readSeries_intercalate (Insertion.readParenthesized Constant.read)
    Insertion.tupleChars (expect_returningSuffix returning) several fun tuple ht more _ => by
      obtain ⟨row, -, rfl⟩ := List.mem_map.1 ht
      exact Insertion.readTuple (by simpa [Row.under] using named) more
  have front := Insertion.expect_append ("INSERT INTO " ++ table ++ " ").toList
  have values := Insertion.expect_append " VALUES ".toList
  have text : ("INSERT INTO " ++ table ++ " (" ++ ", ".intercalate first.names ++ ") VALUES " ++
      ", ".intercalate (rows.map fun row => tupleText (row.under first.names)) ++
        returningSuffix returning).toList =
      ("INSERT INTO " ++ table ++ " ").toList ++ (['('] ++
        ([',', ' '].intercalate (first.names.map String.toList) ++ ([')'] ++ (" VALUES ".toList ++
          ([',', ' '].intercalate ((rows.map (·.under first.names)).map Insertion.tupleChars) ++
            (returningSuffix returning).toList))))) := by
    simp [String.toList_intercalate, Function.comp_def, toList_tupleText]
  rw [Insertion.read, text]
  simp only [front, columns, values, tuples, Option.bind_eq_bind, Option.bind_some, pure,
    String.ofList_toList]

theorem rendition_insertion (table : String) (executor : Nat) {first : Row} (some : first.entries ≠ [])
    (others : List Row) (returning : List String) :
    (insertion table executor (first :: others) returning).rendition =
      ⟨.ok ("INSERT INTO " ++ table ++ " (" ++ ", ".intercalate first.names ++ ") VALUES " ++
        ", ".intercalate ((first :: others).map fun row => tupleText (row.under first.names)) ++
          returningSuffix returning), 0⟩ := by
  have writes : (insertion table executor (first :: others) returning).text =
      (insertion table executor (first :: others) returning).insertText := rfl
  rw [rendition, writes, insertText_insertion table executor some]
  rfl

theorem rendition_empty (table : String) (executor : Nat) {rows : List Row}
    (h : rows.head?.all (·.entries.isEmpty) = true) (returning : List String) :
    (insertion table executor rows returning).rendition = ⟨.error (.noData "insert"), 0⟩ := by
  cases rows with
  | nil => rfl
  | cons first others =>
    obtain ⟨entries, distinct⟩ := first
    obtain rfl : entries = [] := by simpa using h
    rfl

theorem rendition_failed {table : String} {executor : Nat} {rows : List Row} {returning : List String}
    {failure : Failure} (failed : (insertion table executor rows returning).rendition.text = .error failure) :
    rows.head?.all (·.entries.isEmpty) = true ∧ failure = .noData "insert" := by
  by_cases h : rows.head?.all (·.entries.isEmpty) = true
  · rw [rendition_empty table executor h] at failed
    exact ⟨h, (Except.error.inj failed).symm⟩
  · cases rows with
    | nil => exact absurd rfl h
    | cons first others =>
      have some : first.entries ≠ [] := by simpa using h
      rw [rendition_insertion table executor some] at failed
      cases failed

/-- Later rows with the same contents under the columns of the first make the same text. -/
theorem rendition_of_wanted (table : String) (executor : Nat) (first : Row) {others others' : List Row}
    (same : List.Forall₂ (fun a b => (a.wanted first.names).Perm (b.wanted first.names)) others' others)
    (returning : List String) :
    (insertion table executor (first :: others') returning).rendition =
      (insertion table executor (first :: others) returning).rendition := by
  by_cases none : first.entries = []
  · have empty (rows : List Row) : (first :: rows).head?.all (·.entries.isEmpty) = true := by
      simp [none]
    rw [rendition_empty table executor (empty others'), rendition_empty table executor (empty others)]
  · have tuples : others'.map (fun row => tupleText (row.under first.names)) =
        others.map fun row => tupleText (row.under first.names) := by
      induction same with
      | nil => rfl
      | cons same _ ih => rw [List.map_cons, List.map_cons, Row.under_of_perm same, ih]
    rw [rendition_insertion table executor none, rendition_insertion table executor none, List.map_cons,
      List.map_cons, tuples]

/-! ## Calls that give rows -/

/-- Rows as they are given: one by itself, or several in a list or a tuple. -/
inductive RowData where
  | single (row : Row)
  | list (rows : List Row)
  | tuple (rows : List Row)

namespace RowData

def rows : RowData → List Row
  | single row => [row]
  | list rows => rows
  | tuple rows => rows

def value : RowData → Value
  | single row => row.value
  | list rows => .list (rows.map Row.value)
  | tuple rows => .tuple (rows.map Row.value)

theorem rowsOf_value (data : RowData) :
    rowsOf data.value =
      if data.rows.isEmpty then .error (.noData "insert") else .ok (data.rows.map Row.value) := by
  cases data with
  | single row => rfl
  | list rows | tuple rows => cases rows <;> rfl

end RowData

inductive InsertCall where
  | values (data : RowData)
  | returning (columns : List String)

namespace InsertCall

def rows : InsertCall → List Row
  | values data => data.rows
  | returning _ => []

def returned : InsertCall → List String
  | values _ => []
  | returning columns => columns

def isRefused : InsertCall → Bool
  | values data => data.rows.isEmpty
  | returning _ => false

def mutation : InsertCall → Mutation .insert
  | values data => ⟨"values", .values, [data.value], by decide +kernel⟩
  | returning columns => ⟨"returning", .returning, columns.map .text, by decide +kernel⟩

/-- The rows that are in effect after some calls. -/
def rowsAfter (before : List Row) (calls : List InsertCall) : List Row :=
  ((calls.map rows).filter (!·.isEmpty)).getLast?.getD before

theorem rowsAfter_cons (before : List Row) (call : InsertCall) (rest : List InsertCall) :
    rowsAfter before (call :: rest) = rowsAfter (if call.rows.isEmpty then before else call.rows) rest := by
  cases none : call.rows.isEmpty <;> simp [rowsAfter, none, List.getLast?_cons]

variable {number executor : Nat} {table : String} {setting : Setting} {stage : Stage} {given : List Row}
  {columns : List String}

/-- What a call comes to. One that gives no rows is refused and changes nothing. -/
theorem run_mutation (call : InsertCall)
    (hx : stage.store.statement? number = some (insertion table executor given columns)) :
    call.mutation.run number setting stage =
      if call.isRefused then .error (.noData "insert") stage
      else .ok () { stage with store := stage.store.set number (.statement
        (insertion table executor (if call.rows.isEmpty then given else call.rows)
          (columns ++ call.returned))) } := by
  rw [Mutation.run_eq]
  cases call with
  | values data =>
    have edit : (values data).mutation.edit =
        [do return setRows (← Action.ofExcept (rowsOf data.value))] := rfl
    rw [edit, Edit.apply_single]
    cases none : data.rows.isEmpty with
    | true =>
      have refused : rowsOf data.value = .error (.noData "insert") := by
        rw [data.rowsOf_value, none, if_pos rfl]
      rw [Edit.step_error (by rw [refused]; rfl)]
      simp [isRefused, none]
    | false =>
      have taken : rowsOf data.value = .ok (data.rows.map Row.value) := by
        rw [data.rowsOf_value, none, if_neg Bool.false_ne_true]
      rw [Edit.run_step (by rw [taken]; rfl) hx]
      simp [isRefused, rows, returned, none, insertion, setRows]
  | returning others =>
    have edit : (returning others).mutation.edit = [do return addReturning (others.map .text)] := rfl
    rw [edit, Edit.apply_single, Edit.run_step rfl hx]
    simp [isRefused, rows, returned, insertion, addReturning]

def afterEach (number : Nat) (setting : Setting) (calls : List InsertCall) (stage : Stage) : Stage :=
  calls.foldl (fun stage call =>
    match call.mutation.run number setting stage with
    | .ok _ after => after
    | .error _ after => after) stage

/-- The rows are those that were given last, and the columns to give back all that were given. -/
theorem statement?_afterEach (setting : Setting) (calls : List InsertCall)
    (hx : stage.store.statement? number = some (insertion table executor given columns)) :
    (afterEach number setting calls stage).store.statement? number =
      some (insertion table executor (rowsAfter given calls) (columns ++ calls.flatMap returned)) := by
  induction calls generalizing stage given columns with
  | nil => rwa [List.flatMap_nil, List.append_nil]
  | cons call rest ih =>
    rw [afterEach, List.foldl_cons, ← afterEach, rowsAfter_cons, List.flatMap_cons, ← List.append_assoc]
    refine ih ?_
    rw [run_mutation call hx]
    cases refused : call.isRefused with
    | true =>
      have nothing : call.rows.isEmpty = true ∧ call.returned = [] := by
        cases call with
        | values data => exact ⟨refused, rfl⟩
        | returning columns => cases refused
      rw [if_pos nothing.1, nothing.2, List.append_nil]
      exact hx
    | false => exact statement?_set hx _

structure Reads (number executor : Nat) (table : String) (setting : Setting) (stage : Stage)
    (calls : List InsertCall) : Prop where
  /-- A call that gives no rows is refused, and the INSERT is left as it was. All others are made. -/
  refused : ∀ call : InsertCall, ∃ after,
    call.mutation.run number setting (afterEach number setting calls stage) =
      if call.isRefused then .error (.noData "insert") (afterEach number setting calls stage) else .ok () after
  /-- The rows that were given last are kept, and all the columns to give back. -/
  kept : (afterEach number setting calls stage).store.statement? number =
    some (insertion table executor (rowsAfter [] calls) (calls.flatMap returned))
  /-- Without rows, or without contents in the first row, there is no text, and only then. -/
  fails : (∃ failure, ((afterEach number setting calls stage).store.rendition number).text = .error failure) ↔
    (rowsAfter [] calls).head?.all (·.entries.isEmpty) = true
  noData : ∀ failure, ((afterEach number setting calls stage).store.rendition number).text = .error failure →
    failure = .noData "insert"
  /-- The text is read back as the columns of the first row and the contents of all rows under them. -/
  read : ∀ first others, rowsAfter [] calls = first :: others → first.entries ≠ [] →
    ∃ text, (afterEach number setting calls stage).store.rendition number = ⟨.ok text, 0⟩ ∧
      Insertion.read table text = some ⟨first.names, (first :: others).map (·.under first.names),
        returningSuffix (calls.flatMap returned)⟩
  /-- Later rows that have the same contents under these columns are written in the same way. -/
  same : ∀ first others, rowsAfter [] calls = first :: others → ∀ calls' others',
    rowsAfter [] calls' = first :: others' → calls'.flatMap returned = calls.flatMap returned →
      List.Forall₂ (fun a b => (a.wanted first.names).Perm (b.wanted first.names)) others' others →
        (afterEach number setting calls' stage).store.rendition number =
          (afterEach number setting calls stage).store.rendition number

end InsertCall

theorem Row.settled_value (row : Row) : row.value.IsSettled := by
  rw [Row.value, Value.IsSettled, Value.entriesSettled_iff]
  refine List.forall_mem_map.2 fun e _ => ⟨?_, ?_⟩ <;> simp [Value.text, Value.IsSettled]

theorem insertion_isSettled (table : String) (executor : Nat) (rows : List Row) (returning : List String) :
    (insertion table executor rows returning).IsSettled where
  table := by simp [insertion, Value.text, Value.IsSettled]
  rows := Value.allSettled_iff.2 (List.forall_mem_map.2 fun row _ => Row.settled_value row)
  assignments := by simp [insertion, Value.EntriesSettled]
  conditions := by simp [insertion, Condition.AllSettled]
  returning := Value.allSettled_iff.2
    (List.forall_mem_map.2 fun column _ => by simp [Value.text, Value.IsSettled])

/-- A new INSERT that is given rows by calls is written with the rows that were given last, and refuses to
be written without any. The text is read back, behind the name of the table, as the columns of the first row
and the contents of all rows under them. -/
theorem insertion_read (number executor : Nat) (table : String) (setting : Setting) {stage : Stage}
    (hx : stage.store.statement? number = some (insertion table executor [] [])) (calls : List InsertCall) :
    InsertCall.Reads number executor table setting stage calls := by
  have kept (calls : List InsertCall) := InsertCall.statement?_afterEach setting calls hx
  simp only [List.nil_append] at kept
  have written (calls : List InsertCall) :=
    rendition_statement (kept calls) (insertion_isSettled table executor _ _)
  exact {
    refused := fun call => by
      rw [InsertCall.run_mutation call (kept calls)]
      exact ⟨_, rfl⟩
    kept := kept calls
    fails := by
      rw [written]
      exact ⟨fun ⟨_, failed⟩ => (rendition_failed failed).1,
        fun empty => ⟨_, by rw [rendition_empty table executor empty]⟩⟩
    noData := fun failure failed => (rendition_failed ((written calls) ▸ failed)).2
    read := fun first others given named => by
      rw [written, given]
      exact ⟨_, rendition_insertion table executor named others _,
        read_insertion table named (first :: others) (List.cons_ne_nil first others) _⟩
    same := fun first others given calls' others' given' returned same => by
      rw [written, written, given, given', returned]
      exact rendition_of_wanted table executor first same _ }

def namedSample : Row :=
  ⟨[(⟨"name", by decide⟩, .text "O'Neil'), ('"), (⟨"age", by decide⟩, .int (-1))], by decide⟩

def raggedSample : Row :=
  ⟨[(⟨"note", by decide⟩, .text ""), (⟨"age", by decide⟩, .bool true)], by decide⟩

/-- One row by itself, none, and two in a list: the second call is refused, and the third counts. -/
def threeCalls : List InsertCall :=
  [.values (.single raggedSample), .values (.tuple []), .returning ["id"],
    .values (.list [namedSample, raggedSample])]

theorem samples_read :
    let stage : Stage := { store := { contents := [.statement (insertion "people" 1 [] []), .executor {}] } }
    InsertCall.Reads 0 1 "people" {} stage threeCalls ∧
      ∃ text, (InsertCall.afterEach 0 {} threeCalls stage).store.rendition 0 = ⟨.ok text, 0⟩ ∧
        Insertion.read "people" text = some
          ⟨["name", "age"], [[.text "O'Neil'), ('", .int (-1)], [.null, .bool true]], " RETURNING id"⟩ := by
  intro stage
  have reads : InsertCall.Reads 0 1 "people" {} stage threeCalls :=
    insertion_read 0 1 "people" {} rfl threeCalls
  exact ⟨reads, reads.read namedSample [raggedSample] rfl (by simp [namedSample])⟩

end Statement

end SqlComposition
