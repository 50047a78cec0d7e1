import SqlComposition.Proofs.Places

/-!
Declared records. Each kind of record that a query is made of has declared fields, in an order and each of
a type. A query as data is checked against the declarations at every level, down to the records that are
held as values. All fields are as declared but for the limits and offsets, which may be anything.
-/

namespace SqlComposition

/-- What a field of a record may hold. -/
inductive FieldType where
  | anything | text | boolean | integer
  | word (words : List String)
  | record (names : List String)
  | nullable (content : FieldType)
  | list (item : FieldType)
  | either (first second : FieldType)

namespace FieldType

/-- Nothing is read as something else: truth values are no integers, and texts of digits are not either. -/
def admits : FieldType → Datum → Bool
  | anything, _ => true
  | text, .scalar (.text _) => true
  | boolean, .scalar (.bool _) => true
  | integer, .scalar (.int _) => true
  | word words, .scalar (.text s) => words.contains s
  | record names, .record name _ => names.contains name
  | nullable _, .scalar .null => true
  | nullable content, d => content.admits d
  | list item, .list items => items.all item.admits
  | either first second, d => first.admits d || second.admits d
  | _, _ => false

@[simp] theorem admits_anything (d : Datum) : anything.admits d = true := by
  rw [admits]

@[simp] theorem admits_nullable_null (content : FieldType) : (nullable content).admits .null = true := by
  rw [Datum.null, admits]

theorem admits_nullable {content : FieldType} {d : Datum} (h : content.admits d = true) :
    (nullable content).admits d = true := by
  unfold admits
  split <;> simp_all

/-- A list of anything. -/
theorem admits_list_anything (items : List Datum) : (list anything).admits (.list items) = true := by
  rw [admits, List.all_eq_true]
  exact fun d _ => admits_anything d

theorem admits_list {item : FieldType} {items : List Datum} (h : ∀ d ∈ items, item.admits d = true) :
    (list item).admits (.list items) = true := by
  rw [admits, List.all_eq_true]
  exact h

/-- What is missing is null. -/
theorem admits_option {α : Type} {content : FieldType} {datum : α → Datum} {option : Option α → Datum}
    (none : option .none = .null) (some : ∀ a, option (.some a) = datum a)
    (h : ∀ a, content.admits (datum a) = true) (given : Option α) :
    (nullable content).admits (option given) = true := by
  cases given with
  | none => rw [none, admits_nullable_null]
  | some a =>
    rw [some]
    exact admits_nullable (h a)

theorem admits_label (label : Option String) : (nullable text).admits (.ofOption label) = true := by
  cases label <;> rfl

theorem admits_columns (columns : Option (List String)) :
    (nullable (list text)).admits (match columns with | none => .null | some names => .list (names.map .text)) =
      true := by
  cases columns with
  | none => exact admits_nullable_null _
  | some names => exact admits_nullable (admits_list (List.forall_mem_map.2 fun _ _ => rfl))

end FieldType

open FieldType

/-- The fields of each kind of record, where limits and offsets are of type `rows` or missing. -/
def declarations (rows : FieldType) : List (String × List (String × FieldType)) :=
  let query := record ["QueryState"]
  let fragment := record ["RawSQL"]
  let label := nullable text
  let predicate := record ["ComparisonPredicate", "InPredicate", "NullPredicate", "BetweenPredicate",
    "ExistsPredicate", "RawPredicate"]
  [("RawSQL", [("sql", text), ("bindings", list anything)]),
    ("ComparisonPredicate",
      [("kind", word ["comparison"]), ("column", text), ("operator", text), ("value", anything)]),
    ("InPredicate",
      [("kind", word ["in"]), ("column", text), ("values", either (list anything) query),
        ("negated", boolean)]),
    ("NullPredicate", [("kind", word ["null"]), ("column", text), ("negated", boolean)]),
    ("BetweenPredicate",
      [("kind", word ["between"]), ("column", text), ("low", anything), ("high", anything),
        ("negated", boolean)]),
    ("ExistsPredicate", [("kind", word ["exists"]), ("query", query), ("negated", boolean)]),
    ("RawPredicate", [("kind", word ["raw"]), ("fragment", fragment)]),
    ("Condition", [("connective", word ["AND", "OR"]), ("predicate", predicate)]),
    ("SelectItem", [("expr", either text fragment), ("alias", label)]),
    ("FromClause", [("table", nullable text), ("subquery", nullable query), ("alias", label)]),
    ("JoinClause",
      [("kind", word ["INNER", "LEFT", "RIGHT", "FULL", "CROSS"]), ("table", either text query),
        ("alias", label), ("on", nullable fragment)]),
    ("OrderByItem", [("expr", either text fragment), ("direction", nullable text)]),
    ("CTEClause",
      [("name", text), ("columns", nullable (list text)), ("query", either query fragment),
        ("recursive", boolean)]),
    ("SetOpClause", [("op", word ["UNION", "UNION_ALL"]), ("query", query)]),
    ("QueryState",
      [("ctes", list (record ["CTEClause"])), ("distinct", boolean),
        ("select", list (record ["SelectItem"])), ("from_", nullable (record ["FromClause"])),
        ("joins", list (record ["JoinClause"])), ("where", list (record ["Condition"])),
        ("group_by", list (either text fragment)), ("having", list (record ["Condition"])),
        ("set_ops", list (record ["SetOpClause"])), ("order_by", list (record ["OrderByItem"])),
        ("limit", nullable rows), ("offset", nullable rows)]),
    ("CompiledSQL", [("sql", text), ("bindings", list anything), ("dialect", text)])]

/-- The fields are the declared ones, each with what it may hold. -/
def fieldsFit : List (String × FieldType) → List (String × Datum) → Bool
  | [], [] => true
  | (name, type) :: declared, (other, content) :: fields =>
    name == other && type.admits content && fieldsFit declared fields
  | _, _ => false

/-- A record of a declared kind, with fields that fit. -/
def Declared (rows : FieldType) (name : String) (fields : List (String × Datum)) : Prop :=
  ((declarations rows).lookup name).any (fieldsFit · fields) = true

instance (rows : FieldType) (name : String) (fields : List (String × Datum)) :
    Decidable (Declared rows name fields) :=
  inferInstanceAs (Decidable (_ = true))

/-- A limit and an offset that are integers or missing; other records have neither. -/
def HasIntegerRows (name : String) (fields : List (String × Datum)) : Prop :=
  name = "QueryState" → ∀ field ∈ fields, field.1 = "limit" ∨ field.1 = "offset" →
    (nullable integer).admits field.2 = true

namespace Datum

variable (p : String → List (String × Datum) → Prop)

mutual

/-- All records that the datum is made of, at every level, have a property. -/
def EveryRecord : Datum → Prop
  | scalar _ | object _ => True
  | list items | tuple items => EveryRecordOf items
  | mapping entries => EveryRecordOfEntries entries
  | record name fields => p name fields ∧ EveryRecordOfFields fields

def EveryRecordOf : List Datum → Prop
  | [] => True
  | d :: rest => d.EveryRecord ∧ EveryRecordOf rest

def EveryRecordOfEntries : List (Datum × Datum) → Prop
  | [] => True
  | (key, content) :: rest => key.EveryRecord ∧ content.EveryRecord ∧ EveryRecordOfEntries rest

def EveryRecordOfFields : List (String × Datum) → Prop
  | [] => True
  | (_, content) :: rest => content.EveryRecord ∧ EveryRecordOfFields rest

end

section Properties

variable {p} {q r : String → List (String × Datum) → Prop}

mutual

theorem EveryRecord.mp (h : ∀ name fields, p name fields → q name fields → r name fields) :
    (d : Datum) → d.EveryRecord p → d.EveryRecord q → d.EveryRecord r
  | scalar _, _, _ | object _, _, _ => by
    rw [EveryRecord]
    trivial
  | list items, hp, hq | tuple items, hp, hq => by
    rw [EveryRecord] at hp hq ⊢
    exact EveryRecordOf.mp h items hp hq
  | mapping entries, hp, hq => by
    rw [EveryRecord] at hp hq ⊢
    exact EveryRecordOfEntries.mp h entries hp hq
  | record name fields, hp, hq => by
    rw [EveryRecord] at hp hq ⊢
    exact ⟨h name fields hp.1 hq.1, EveryRecordOfFields.mp h fields hp.2 hq.2⟩

theorem EveryRecordOf.mp (h : ∀ name fields, p name fields → q name fields → r name fields) :
    (items : List Datum) → EveryRecordOf p items → EveryRecordOf q items → EveryRecordOf r items
  | [], _, _ => by
    rw [EveryRecordOf]
    trivial
  | d :: rest, hp, hq => by
    rw [EveryRecordOf] at hp hq ⊢
    exact ⟨EveryRecord.mp h d hp.1 hq.1, EveryRecordOf.mp h rest hp.2 hq.2⟩

theorem EveryRecordOfEntries.mp (h : ∀ name fields, p name fields → q name fields → r name fields) :
    (entries : List (Datum × Datum)) → EveryRecordOfEntries p entries →
      EveryRecordOfEntries q entries → EveryRecordOfEntries r entries
  | [], _, _ => by
    rw [EveryRecordOfEntries]
    trivial
  | (key, content) :: rest, hp, hq => by
    rw [EveryRecordOfEntries] at hp hq ⊢
    exact ⟨EveryRecord.mp h key hp.1 hq.1, EveryRecord.mp h content hp.2.1 hq.2.1,
      EveryRecordOfEntries.mp h rest hp.2.2 hq.2.2⟩

theorem EveryRecordOfFields.mp (h : ∀ name fields, p name fields → q name fields → r name fields) :
    (fields : List (String × Datum)) → EveryRecordOfFields p fields → EveryRecordOfFields q fields →
      EveryRecordOfFields r fields
  | [], _, _ => by
    rw [EveryRecordOfFields]
    trivial
  | (_, content) :: rest, hp, hq => by
    rw [EveryRecordOfFields] at hp hq ⊢
    exact ⟨EveryRecord.mp h content hp.1 hq.1, EveryRecordOfFields.mp h rest hp.2 hq.2⟩

end

end Properties

@[simp] theorem everyRecord_text (s : String) : (text s).EveryRecord p := by
  rw [text, EveryRecord]
  trivial

@[simp] theorem everyRecord_bool (b : Bool) : (bool b).EveryRecord p := by
  rw [bool, EveryRecord]
  trivial

@[simp] theorem everyRecord_null : null.EveryRecord p := by
  rw [null, EveryRecord]
  trivial

@[simp] theorem everyRecord_ofOption (label : Option String) : (ofOption label).EveryRecord p := by
  cases label with
  | none => exact everyRecord_null p
  | some s => exact everyRecord_text p s

@[simp] theorem everyRecord_texts (names : List String) :
    (Datum.list (names.map .text)).EveryRecord p := by
  rw [EveryRecord]
  induction names with
  | nil => rw [List.map_nil, EveryRecordOf]; trivial
  | cons name rest ih =>
    rw [List.map_cons, EveryRecordOf]
    exact ⟨everyRecord_text p name, ih⟩

end Datum

/-! ## Queries as data -/

/-- A record is as declared except for rows, and as declared in all where its rows are integers. -/
def Fits (name : String) (fields : List (String × Datum)) : Prop :=
  Declared .anything name fields ∧ (Declared .integer name fields ↔ HasIntegerRows name fields)

section Fields

variable {rows : FieldType} {name : String} {declared : List (String × FieldType)}
  {fields : List (String × Datum)}

theorem Declared.of_lookup (h : (declarations rows).lookup name = some declared)
    (hf : fieldsFit declared fields = true) : Declared rows name fields := by
  rw [Declared, h]
  exact hf

theorem fieldsFit_cons {type : FieldType} {content : Datum} (h : type.admits content = true)
    (hf : fieldsFit declared fields = true) :
    fieldsFit ((name, type) :: declared) ((name, content) :: fields) = true := by
  rw [fieldsFit, h, hf, beq_self_eq_true]
  rfl

theorem Fits.of_declared (hn : name ≠ "QueryState") (h : ∀ rows, Declared rows name fields) :
    Fits name fields :=
  ⟨h _, iff_of_true (h _) fun same => absurd same hn⟩

end Fields

theorem Query.admits_datum (q : Query) : (record ["QueryState"]).admits q.datum = true := by
  cases q
  rw [Query.datum]
  rfl

theorem Query.admits_optionDatum (q : Option Query) :
    (nullable (record ["QueryState"])).admits (Query.optionDatum q) = true :=
  admits_option (by rw [Query.optionDatum]) (fun _ => by rw [Query.optionDatum]) Query.admits_datum q

theorem Fragment.admits_datum (f : Fragment) : (record ["RawSQL"]).admits f.datum = true := by
  cases f
  rw [Fragment.datum]
  rfl

theorem Fragment.admits_optionDatum (f : Option Fragment) :
    (nullable (record ["RawSQL"])).admits (Fragment.optionDatum f) = true :=
  admits_option (by rw [Fragment.optionDatum]) (fun _ => by rw [Fragment.optionDatum])
    Fragment.admits_datum f

theorem Expression.admits_datum (e : Expression) :
    (either text (record ["RawSQL"])).admits e.datum = true := by
  cases e with
  | name s => rw [Expression.datum]; rfl
  | raw f => rw [Expression.datum, admits, f.admits_datum, Bool.or_true]

theorem Members.admits_datum (m : Members) :
    (either (list anything) (record ["QueryState"])).admits m.datum = true := by
  cases m with
  | listed values => rw [Members.datum, admits, admits_list_anything, Bool.true_or]
  | query q => rw [Members.datum, admits, q.admits_datum, Bool.or_true]

theorem JoinTarget.admits_datum (t : JoinTarget) :
    (either text (record ["QueryState"])).admits t.datum = true := by
  cases t with
  | table name => rw [JoinTarget.datum]; rfl
  | query q => rw [JoinTarget.datum, admits, q.admits_datum, Bool.or_true]

theorem CteBody.admits_datum (b : CteBody) :
    (either (record ["QueryState"]) (record ["RawSQL"])).admits b.datum = true := by
  cases b with
  | query q => rw [CteBody.datum, admits, q.admits_datum, Bool.true_or]
  | raw f => rw [CteBody.datum, admits, f.admits_datum, Bool.or_true]

theorem Predicate.admits_datum (p : Predicate) :
    (record ["ComparisonPredicate", "InPredicate", "NullPredicate", "BetweenPredicate",
      "ExistsPredicate", "RawPredicate"]).admits p.datum = true := by
  cases p <;> rw [Predicate.datum] <;> rfl

/-- What treats each item of a list by itself gives what is admitted, if each item does. -/
theorem FieldType.admits_list_of_cons {α : Type} {item : FieldType} {datum : α → Datum}
    {data : List α → List Datum} (nil : data [] = [])
    (cons : ∀ a rest, data (a :: rest) = datum a :: data rest) (h : ∀ a, item.admits (datum a) = true)
    (items : List α) : (list item).admits (.list (data items)) = true := by
  rw [eq_map_of_cons nil cons]
  exact admits_list (List.forall_mem_map.2 fun a _ => h a)

theorem Cte.admits_data (ctes : List Cte) :
    (list (record ["CTEClause"])).admits (.list (Cte.data ctes)) = true :=
  admits_list_of_cons (by rw [Cte.data]) (fun _ _ => by rw [Cte.data])
    (fun c => by cases c; rw [Cte.datum.eq_def]; rfl) ctes

theorem SelectItem.admits_data (items : List SelectItem) :
    (list (record ["SelectItem"])).admits (.list (SelectItem.data items)) = true :=
  admits_list_of_cons (by rw [SelectItem.data]) (fun _ _ => by rw [SelectItem.data])
    (fun item => by cases item; rw [SelectItem.datum]; rfl) items

theorem Join.admits_data (joins : List Join) :
    (list (record ["JoinClause"])).admits (.list (Join.data joins)) = true :=
  admits_list_of_cons (by rw [Join.data]) (fun _ _ => by rw [Join.data])
    (fun j => by cases j; rw [Join.datum]; rfl) joins

theorem Condition.admits_data (conditions : List Condition) :
    (list (record ["Condition"])).admits (.list (Condition.data conditions)) = true :=
  admits_list_of_cons (by rw [Condition.data]) (fun _ _ => by rw [Condition.data])
    (fun c => by cases c; rw [Condition.datum]; rfl) conditions

theorem Expression.admits_data (expressions : List Expression) :
    (list (either text (record ["RawSQL"]))).admits (.list (Expression.data expressions)) = true :=
  admits_list_of_cons (by rw [Expression.data]) (fun _ _ => by rw [Expression.data])
    Expression.admits_datum expressions

theorem SetOperation.admits_data (operations : List SetOperation) :
    (list (record ["SetOpClause"])).admits (.list (SetOperation.data operations)) = true :=
  admits_list_of_cons (by rw [SetOperation.data]) (fun _ _ => by rw [SetOperation.data])
    (fun s => by cases s; rw [SetOperation.datum.eq_def]; rfl) operations

theorem OrderItem.admits_data (items : List OrderItem) :
    (list (record ["OrderByItem"])).admits (.list (OrderItem.data items)) = true :=
  admits_list_of_cons (by rw [OrderItem.data]) (fun _ _ => by rw [OrderItem.data])
    (fun item => by cases item; rw [OrderItem.datum]; rfl) items

theorem Source.admits_optionDatum (s : Option Source) :
    (nullable (record ["FromClause"])).admits (Source.optionDatum s) = true :=
  admits_option (by rw [Source.optionDatum]) (fun _ => by rw [Source.optionDatum])
    (fun s => by cases s; rw [Source.datum]; rfl) s

/-- The record of a query fits: what its rows are decides whether it is as declared in all. -/
theorem Query.fits {q : Query} {name : String} {fields : List (String × Datum)}
    (h : q.datum = .record name fields) : Fits name fields := by
  obtain ⟨ctes, distinct, selection, source, joins, conditions, grouping, having', setOperations,
    ordering, limit, offset⟩ := q
  rw [Query.datum] at h
  obtain ⟨rfl, held⟩ := Datum.record.inj h
  -- ten fields are as declared whatever the last two hold
  have fit (rows : FieldType) : Declared rows "QueryState" fields ↔
      ((nullable rows).admits (Value.optionDatum limit) &&
        ((nullable rows).admits (Value.optionDatum offset) && true)) = true := by
    rw [← held, Declared]
    change fieldsFit _ _ = true ↔ _
    simp only [fieldsFit, Cte.admits_data, SelectItem.admits_data, Source.admits_optionDatum,
      Join.admits_data, Condition.admits_data, Expression.admits_data, SetOperation.admits_data,
      OrderItem.admits_data, beq_self_eq_true, Bool.true_and]
    rfl
  refine ⟨(fit .anything).2 ?_, (fit .integer).trans ?_⟩
  · rw [admits_nullable (admits_anything _), admits_nullable (admits_anything _)]
    rfl
  · rw [← held]
    simp [HasIntegerRows]

open Datum

mutual

/-- Every record in a value fits. -/
theorem Value.datum_fits : (v : Value) → v.datum.EveryRecord Fits
  | .scalar s => by
    rw [Value.datum, EveryRecord]
    trivial
  | .list items => by
    rw [Value.datum, EveryRecord]
    exact Value.data_fit items
  | .tuple items => by
    rw [Value.datum, EveryRecord]
    exact Value.data_fit items
  | .mapping entries => by
    rw [Value.datum, EveryRecord]
    exact Value.entryData_fit entries
  | .fragment f => by
    rw [Value.datum]
    exact f.datum_fits
  | .query q => by
    rw [Value.datum]
    exact q.datum_fits
  | .part p => by
    rw [Value.datum]
    exact p.datum_fits
  | .bound b => by
    rw [Value.datum]
    exact b.datum_fits
  | .object o => by
    rw [Value.datum, EveryRecord]
    trivial

theorem Value.data_fit : (values : List Value) → EveryRecordOf Fits (Value.data values)
  | [] => by
    rw [Value.data, EveryRecordOf]
    trivial
  | v :: rest => by
    rw [Value.data, EveryRecordOf]
    exact ⟨v.datum_fits, Value.data_fit rest⟩

theorem Value.entryData_fit : (entries : List (Value × Value)) →
    EveryRecordOfEntries Fits (Value.entryData entries)
  | [] => by
    rw [Value.entryData, EveryRecordOfEntries]
    trivial
  | (key, content) :: rest => by
    rw [Value.entryData, EveryRecordOfEntries]
    exact ⟨key.datum_fits, content.datum_fits, Value.entryData_fit rest⟩

theorem Value.optionDatum_fits : (v : Option Value) → (Value.optionDatum v).EveryRecord Fits
  | none => by
    rw [Value.optionDatum]
    exact everyRecord_null _
  | some v => by
    rw [Value.optionDatum]
    exact v.datum_fits

theorem Fragment.datum_fits : (f : Fragment) → f.datum.EveryRecord Fits
  | ⟨sql, bindings⟩ => by
    rw [Fragment.datum]
    simp only [EveryRecord, EveryRecordOfFields, everyRecord_text, true_and, and_true]
    exact ⟨.of_declared (by decide) fun _ => .of_lookup rfl
      (fieldsFit_cons rfl (fieldsFit_cons (admits_list_anything _) rfl)), Value.data_fit bindings⟩

theorem Fragment.optionDatum_fits : (f : Option Fragment) → (Fragment.optionDatum f).EveryRecord Fits
  | none => by
    rw [Fragment.optionDatum]
    exact everyRecord_null _
  | some f => by
    rw [Fragment.optionDatum]
    exact f.datum_fits

theorem Members.datum_fits : (m : Members) → m.datum.EveryRecord Fits
  | .listed values => by
    rw [Members.datum, EveryRecord]
    exact Value.data_fit values
  | .query q => by
    rw [Members.datum]
    exact q.datum_fits

theorem Predicate.datum_fits : (p : Predicate) → p.datum.EveryRecord Fits
  | .comparison column operator value => by
    rw [Predicate.datum]
    simp only [EveryRecord, EveryRecordOfFields, everyRecord_text, true_and, and_true]
    exact ⟨.of_declared (by decide) fun _ => rfl, value.datum_fits⟩
  | .member column members negated => by
    rw [Predicate.datum]
    simp only [EveryRecord, EveryRecordOfFields, everyRecord_text, everyRecord_bool, true_and, and_true]
    exact ⟨.of_declared (by decide) fun _ => .of_lookup rfl (fieldsFit_cons rfl (fieldsFit_cons rfl
      (fieldsFit_cons members.admits_datum (fieldsFit_cons rfl rfl)))), members.datum_fits⟩
  | .null column negated => by
    rw [Predicate.datum]
    simp only [EveryRecord, EveryRecordOfFields, everyRecord_text, everyRecord_bool, and_true]
    exact .of_declared (by decide) fun _ => rfl
  | .between column low high negated => by
    rw [Predicate.datum]
    simp only [EveryRecord, EveryRecordOfFields, everyRecord_text, everyRecord_bool, true_and, and_true]
    exact ⟨.of_declared (by decide) fun _ => rfl, low.datum_fits, high.datum_fits⟩
  | .nonempty query negated => by
    rw [Predicate.datum]
    simp only [EveryRecord, EveryRecordOfFields, everyRecord_text, everyRecord_bool, true_and, and_true]
    exact ⟨.of_declared (by decide) fun _ => .of_lookup rfl (fieldsFit_cons rfl
      (fieldsFit_cons query.admits_datum (fieldsFit_cons rfl rfl))), query.datum_fits⟩
  | .raw fragment => by
    rw [Predicate.datum]
    simp only [EveryRecord, EveryRecordOfFields, everyRecord_text, true_and, and_true]
    exact ⟨.of_declared (by decide) fun _ => .of_lookup rfl (fieldsFit_cons rfl
      (fieldsFit_cons fragment.admits_datum rfl)), fragment.datum_fits⟩

theorem Condition.datum_fits : (c : Condition) → c.datum.EveryRecord Fits
  | ⟨connective, predicate⟩ => by
    rw [Condition.datum]
    simp only [EveryRecord, EveryRecordOfFields, everyRecord_text, true_and, and_true]
    exact ⟨.of_declared (by decide) fun _ => .of_lookup rfl (fieldsFit_cons (by cases connective <;> rfl)
      (fieldsFit_cons predicate.admits_datum rfl)), predicate.datum_fits⟩

theorem Condition.data_fit : (conditions : List Condition) →
    EveryRecordOf Fits (Condition.data conditions)
  | [] => by
    rw [Condition.data, EveryRecordOf]
    trivial
  | c :: rest => by
    rw [Condition.data, EveryRecordOf]
    exact ⟨c.datum_fits, Condition.data_fit rest⟩

theorem Expression.datum_fits : (e : Expression) → e.datum.EveryRecord Fits
  | .name _ => by
    rw [Expression.datum]
    exact everyRecord_text _ _
  | .raw fragment => by
    rw [Expression.datum]
    exact fragment.datum_fits

theorem Expression.data_fit : (expressions : List Expression) →
    EveryRecordOf Fits (Expression.data expressions)
  | [] => by
    rw [Expression.data, EveryRecordOf]
    trivial
  | e :: rest => by
    rw [Expression.data, EveryRecordOf]
    exact ⟨e.datum_fits, Expression.data_fit rest⟩

theorem SelectItem.datum_fits : (item : SelectItem) → item.datum.EveryRecord Fits
  | ⟨expression, label⟩ => by
    rw [SelectItem.datum]
    simp only [EveryRecord, EveryRecordOfFields, everyRecord_ofOption, and_true]
    exact ⟨.of_declared (by decide) fun _ => .of_lookup rfl (fieldsFit_cons expression.admits_datum
      (fieldsFit_cons (admits_label label) rfl)), expression.datum_fits⟩

theorem SelectItem.data_fit : (items : List SelectItem) →
    EveryRecordOf Fits (SelectItem.data items)
  | [] => by
    rw [SelectItem.data, EveryRecordOf]
    trivial
  | item :: rest => by
    rw [SelectItem.data, EveryRecordOf]
    exact ⟨item.datum_fits, SelectItem.data_fit rest⟩

theorem Source.datum_fits : (s : Source) → s.datum.EveryRecord Fits
  | ⟨table, subquery, label⟩ => by
    rw [Source.datum]
    simp only [EveryRecord, EveryRecordOfFields, everyRecord_ofOption, true_and, and_true]
    exact ⟨.of_declared (by decide) fun _ => .of_lookup rfl (fieldsFit_cons (admits_label table)
      (fieldsFit_cons (Query.admits_optionDatum subquery) (fieldsFit_cons (admits_label label) rfl))),
      Query.optionDatum_fits subquery⟩

theorem Source.optionDatum_fits : (s : Option Source) → (Source.optionDatum s).EveryRecord Fits
  | none => by
    rw [Source.optionDatum]
    exact everyRecord_null _
  | some s => by
    rw [Source.optionDatum]
    exact s.datum_fits

theorem JoinTarget.datum_fits : (t : JoinTarget) → t.datum.EveryRecord Fits
  | .table name => by
    rw [JoinTarget.datum]
    exact everyRecord_text _ _
  | .query q => by
    rw [JoinTarget.datum]
    exact q.datum_fits

theorem Join.datum_fits : (j : Join) → j.datum.EveryRecord Fits
  | ⟨kind, target, label, on⟩ => by
    rw [Join.datum]
    simp only [EveryRecord, EveryRecordOfFields, everyRecord_text, everyRecord_ofOption, true_and, and_true]
    exact ⟨.of_declared (by decide) fun _ => .of_lookup rfl (fieldsFit_cons (by cases kind <;> rfl)
      (fieldsFit_cons target.admits_datum (fieldsFit_cons (admits_label label)
        (fieldsFit_cons (Fragment.admits_optionDatum on) rfl)))),
      target.datum_fits, Fragment.optionDatum_fits on⟩

theorem Join.data_fit : (joins : List Join) → EveryRecordOf Fits (Join.data joins)
  | [] => by
    rw [Join.data, EveryRecordOf]
    trivial
  | j :: rest => by
    rw [Join.data, EveryRecordOf]
    exact ⟨j.datum_fits, Join.data_fit rest⟩

theorem OrderItem.datum_fits : (item : OrderItem) → item.datum.EveryRecord Fits
  | ⟨expression, direction⟩ => by
    rw [OrderItem.datum]
    simp only [EveryRecord, EveryRecordOfFields, everyRecord_ofOption, and_true]
    exact ⟨.of_declared (by decide) fun _ => .of_lookup rfl (fieldsFit_cons expression.admits_datum
      (fieldsFit_cons (admits_label direction) rfl)), expression.datum_fits⟩

theorem OrderItem.data_fit : (items : List OrderItem) → EveryRecordOf Fits (OrderItem.data items)
  | [] => by
    rw [OrderItem.data, EveryRecordOf]
    trivial
  | item :: rest => by
    rw [OrderItem.data, EveryRecordOf]
    exact ⟨item.datum_fits, OrderItem.data_fit rest⟩

theorem CteBody.datum_fits : (b : CteBody) → b.datum.EveryRecord Fits
  | .query q => by
    rw [CteBody.datum]
    exact q.datum_fits
  | .raw fragment => by
    rw [CteBody.datum]
    exact fragment.datum_fits

theorem Cte.datum_fits : (c : Cte) → c.datum.EveryRecord Fits
  | ⟨name, columns, body, isRecursive⟩ => by
    rw [Cte.datum.eq_def]
    simp only [EveryRecord, EveryRecordOfFields, everyRecord_text, everyRecord_bool, true_and, and_true]
    exact ⟨.of_declared (by decide) fun _ => .of_lookup rfl (fieldsFit_cons rfl
      (fieldsFit_cons (admits_columns columns) (fieldsFit_cons body.admits_datum (fieldsFit_cons rfl rfl)))),
      by cases columns <;> simp, body.datum_fits⟩

theorem Cte.data_fit : (ctes : List Cte) → EveryRecordOf Fits (Cte.data ctes)
  | [] => by
    rw [Cte.data, EveryRecordOf]
    trivial
  | c :: rest => by
    rw [Cte.data, EveryRecordOf]
    exact ⟨c.datum_fits, Cte.data_fit rest⟩

theorem SetOperation.datum_fits : (s : SetOperation) → s.datum.EveryRecord Fits
  | ⟨operator, query⟩ => by
    rw [SetOperation.datum.eq_def]
    simp only [EveryRecord, EveryRecordOfFields, everyRecord_text, true_and, and_true]
    exact ⟨.of_declared (by decide) fun _ => .of_lookup rfl (fieldsFit_cons (by cases operator <;> rfl)
      (fieldsFit_cons query.admits_datum rfl)), query.datum_fits⟩

theorem SetOperation.data_fit : (operations : List SetOperation) →
    EveryRecordOf Fits (SetOperation.data operations)
  | [] => by
    rw [SetOperation.data, EveryRecordOf]
    trivial
  | s :: rest => by
    rw [SetOperation.data, EveryRecordOf]
    exact ⟨s.datum_fits, SetOperation.data_fit rest⟩

theorem Query.datum_fits : (q : Query) → q.datum.EveryRecord Fits
  | ⟨ctes, distinct, selection, source, joins, conditions, grouping, having', setOperations, ordering,
      limit, offset⟩ => by
    have fits := Query.fits (Query.datum.eq_1 ctes distinct selection source joins conditions grouping
      having' setOperations ordering limit offset)
    rw [Query.datum]
    simp only [EveryRecord, EveryRecordOfFields, everyRecord_bool, true_and, and_true]
    exact ⟨fits, Cte.data_fit ctes, SelectItem.data_fit selection, Source.optionDatum_fits source,
      Join.data_fit joins, Condition.data_fit conditions, Expression.data_fit grouping,
      Condition.data_fit having', SetOperation.data_fit setOperations, OrderItem.data_fit ordering,
      Value.optionDatum_fits limit, Value.optionDatum_fits offset⟩

theorem Query.optionDatum_fits : (q : Option Query) → (Query.optionDatum q).EveryRecord Fits
  | none => by
    rw [Query.optionDatum]
    exact everyRecord_null _
  | some q => by
    rw [Query.optionDatum]
    exact q.datum_fits

theorem Part.datum_fits : (p : Part) → p.datum.EveryRecord Fits
  | .selectItem item => by
    rw [Part.datum]
    exact item.datum_fits
  | .source s => by
    rw [Part.datum]
    exact s.datum_fits
  | .join j => by
    rw [Part.datum]
    exact j.datum_fits
  | .condition c => by
    rw [Part.datum]
    exact c.datum_fits
  | .predicate p => by
    rw [Part.datum]
    exact p.datum_fits
  | .orderItem item => by
    rw [Part.datum]
    exact item.datum_fits
  | .cte c => by
    rw [Part.datum]
    exact c.datum_fits
  | .setOperation s => by
    rw [Part.datum]
    exact s.datum_fits

theorem BoundQuery.datum_fits : (b : BoundQuery) → b.datum.EveryRecord Fits
  | ⟨sql, values, dialect⟩ => by
    rw [BoundQuery.datum]
    simp only [EveryRecord, EveryRecordOfFields, everyRecord_text, true_and, and_true]
    exact ⟨.of_declared (by decide) fun _ => .of_lookup rfl (fieldsFit_cons rfl
      (fieldsFit_cons (admits_list_anything _) (fieldsFit_cons rfl rfl))), Value.data_fit values⟩

end

namespace Query

/-- At every level a query is as declared, whatever it has for limits and offsets. -/
theorem everyRecord_declared (q : Query) : q.datum.EveryRecord (Declared .anything) :=
  EveryRecord.mp (fun _ _ fits _ => fits.1) _ q.datum_fits q.datum_fits

/-- With limits and offsets declared to be integers, a query is as declared at every level if they are
integers at every level. -/
theorem everyRecord_declared_iff (q : Query) :
    q.datum.EveryRecord (Declared .integer) ↔ q.datum.EveryRecord HasIntegerRows :=
  ⟨EveryRecord.mp (fun _ _ fits => fits.2.1) _ q.datum_fits,
    EveryRecord.mp (fun _ _ fits => fits.2.2) _ q.datum_fits⟩

end Query

end SqlComposition
