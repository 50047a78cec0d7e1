import SqlComposition.Number.Integer
import SqlComposition.Value.Mapping

/-!
Reading values as the parts of a query. A record is read from a mapping of its field names, or taken
as it is when it is one already. Reading collects every fault, field by field in the order of the
record and then the names it does not know. Where several kinds are allowed, the faults of all of them
are listed under the name of the kind.
-/

namespace SqlComposition

/-- Something read, or all that is wrong with it. -/
inductive Checked (α : Type) where
  | valid (value : α)
  | invalid (faults : List Fault)

namespace Checked

def map {α β : Type} (f : α → β) : Checked α → Checked β
  | valid a => valid (f a)
  | invalid faults => invalid faults

/-- Faults on both sides are listed one after the other. -/
def apply {α β : Type} : Checked (α → β) → Checked α → Checked β
  | valid f, valid a => valid (f a)
  | valid _, invalid faults => invalid faults
  | invalid faults, valid _ => invalid faults
  | invalid faults, invalid others => invalid (faults ++ others)

instance : Functor Checked where
  map := map

instance : Applicative Checked where
  pure := valid
  seq f a := apply f (a ())

def fault {α : Type} (problem : Problem) : Checked α :=
  invalid [⟨[], problem⟩]

/-- Puts a step in front of the path of every fault. -/
def under {α : Type} (step : String) : Checked α → Checked α
  | valid a => valid a
  | invalid faults => invalid (faults.map (Fault.under step))

def orReject {α : Type} (record : String) : Checked α → Except Failure α
  | valid a => .ok a
  | invalid faults => .error (.rejected record faults)

/-- The first of two readings that succeeds, or the faults of both. -/
def either {α : Type} : Checked α → Checked α → Checked α
  | valid a, _ => valid a
  | invalid _, valid b => valid b
  | invalid faults, invalid others => invalid (faults ++ others)

end Checked

namespace Schema
open Checked

/-- Bytes count as text when they are UTF-8. -/
def text : Value → Checked String
  | .scalar (.text s) => valid s
  | .scalar (.bytes bytes) =>
    match String.fromUTF8? ⟨bytes.toArray⟩ with
    | some s => valid s
    | none => fault .notUnicode
  | _ => fault .notText

def nullable {α : Type} (read : Value → Checked α) : Value → Checked (Option α)
  | .scalar .null => valid none
  | other => (read other).map some

def each {α : Type} (read : Value → Checked α) : Nat → List Value → Checked (List α)
  | _, [] => valid []
  | index, a :: rest =>
    List.cons <$> (read a).under (Number.natText index) <*> each read (index + 1) rest

/-- Whatever can be gone through counts as a list, except texts, bytes and mappings. -/
def list {α : Type} (read : Value → Checked α) (a : Value) : Checked (List α) :=
  match a, a.items? with
  | .scalar _, _ | .mapping _, _ | _, none => fault .notList
  | _, some items => each read 0 items

def anything (a : Value) : Checked Value :=
  valid a

/-- The words for yes and no, in any case. -/
def booleanOfText (s : String) : Checked Bool :=
  let word := (s.map Char.toLower)
  if ["1", "on", "t", "true", "y", "yes"].contains word then valid true
  else if ["0", "off", "f", "false", "n", "no"].contains word then valid false
  else fault .unreadableBoolean

/-- Integers that fit a word of 64 bits. -/
def fitsWord (n : Int) : Bool :=
  -(Nat.pow 2 63 : Int) ≤ n && n < Nat.pow 2 63

/-- An integer too large for a word is no truth value at all. -/
def booleanOfInt (n : Int) : Checked Bool :=
  if !fitsWord n then fault .notBoolean
  else if n = 0 then valid false
  else if n = 1 then valid true
  else fault .unreadableBoolean

/-- The integer that a number is equal to, if its size is below 2 ^ 63. -/
def wordOfFloat? (x : Number.Binary64) : Option Int :=
  x.toInt?.filter fun n => n.natAbs < Nat.pow 2 63

def booleanOfFloat (x : Number.Binary64) : Checked Bool :=
  ((wordOfFloat? x).map booleanOfInt).getD (fault .notBoolean)

/-- A decimal counts as the nearest binary number. -/
def boolean : Value → Checked Bool
  | .scalar (.bool b) => valid b
  | .scalar (.int n) => booleanOfInt n
  | .scalar (.float x) => booleanOfFloat x
  | .scalar (.decimal (.finite negative coefficient exponent)) =>
    booleanOfFloat (.ofWritten ⟨negative, coefficient, exponent⟩)
  | .scalar (.text s) => booleanOfText s
  | .scalar (.bytes bytes) =>
    ((String.fromUTF8? ⟨bytes.toArray⟩).map booleanOfText).getD (fault .unreadableBoolean)
  | _ => fault .notBoolean

def integerOfText (s : String) : Checked Int :=
  match Number.readInteger s with
  | .value n => valid n
  | .unreadable => fault .unreadableInteger
  | .oversized => fault .oversizedInteger

def integerOfFloat (x : Number.Binary64) : Checked Int :=
  match x, x.toInt? with
  | .finite _ _ _, none => fault .fractionalInteger
  | .finite _ _ _, some n => if n.natAbs < Nat.pow 2 63 then valid n else fault .oversizedInteger
  | _, _ => fault .infiniteInteger

def integerOfDecimal (d : Number.Decimal) : Checked Int :=
  match d, d.toInt? with
  | .finite _ _ _, none => fault .fractionalInteger
  | .finite _ _ _, some n => valid n
  | _, _ => fault .infiniteInteger

def integer : Value → Checked Int
  | .scalar (.int n) => valid n
  | .scalar (.bool b) => valid (if b then 1 else 0)
  | .scalar (.text s) => integerOfText s
  | .scalar (.bytes bytes) =>
    ((String.fromUTF8? ⟨bytes.toArray⟩).map integerOfText).getD (fault .unreadableInteger)
  | .scalar (.float x) => integerOfFloat x
  | .scalar (.decimal d) => integerOfDecimal d
  | _ => fault .notInteger

/-- One of a few words, spelled exactly. -/
def choice {α : Type} (words : List (String × α)) : Value → Checked α
  | .scalar (.text s) =>
    match words.lookup s with
    | some a => valid a
    | none => fault .unknownChoice
  | _ => fault .unknownChoice

abbrev Entries := List (Value × Value)

def required {α : Type} (read : Value → Checked α) (entries : Entries) (name : String) :
    Checked α :=
  match Value.lookupEntry (.text name) entries with
  | some a => (read a).under name
  | none => (fault .missing).under name

def optional {α : Type} (read : Value → Checked α) (absent : α) (entries : Entries)
    (name : String) : Checked α :=
  match Value.lookupEntry (.text name) entries with
  | some a => (read a).under name
  | none => valid absent

/-- The step that a key which is no text takes in a path. -/
def keyStep : Value → String
  | .scalar (.bool b) => if b then "1" else "0"
  | key => key.datum.shown

/-- Fields are named by texts. -/
def isName : Value → Bool
  | .scalar (.text _) => true
  | _ => false

def unknownFields (names : List String) : Entries → List Fault
  | [] => []
  | (.scalar (.text name), _) :: rest =>
    if names.contains name then unknownFields names rest
    else ⟨[name], .unknownField⟩ :: unknownFields names rest
  | (key, _) :: rest => ⟨[keyStep key], .badKey⟩ :: unknownFields names rest

/-- A record with no fields but the named ones. -/
def closed {α : Type} (names : List String) (entries : Entries) (fields : Checked α) : Checked α :=
  match unknownFields names entries with
  | [] => fields
  | faults => apply (fields.map fun a _ => a) (invalid faults : Checked Unit)

/-- A record read from a mapping. -/
def record {α : Type} (read : Entries → Checked α) : Value → Checked α
  | .mapping entries => read entries
  | _ => fault .notRecord

def fragmentFields (entries : Entries) : Checked Fragment :=
  closed ["sql", "bindings"] entries <|
    Fragment.mk <$> required text entries "sql" <*> optional (list anything) [] entries "bindings"

def fragment : Value → Checked Fragment
  | .fragment f => valid f
  | other => record fragmentFields other

/-- A name or a fragment. -/
def expression (a : Value) : Checked Expression :=
  either (((text a).map .name).under "str") (((fragment a).map .raw).under "RawSQL")

def selectItem (entries : Entries) : Checked SelectItem :=
  closed ["expr", "alias"] entries <|
    SelectItem.mk <$> required expression entries "expr" <*> optional (nullable text) none entries "alias"

def orderItem (entries : Entries) : Checked OrderItem :=
  closed ["expr", "direction"] entries <|
    OrderItem.mk <$> required expression entries "expr" <*>
      optional (nullable text) (some "ASC") entries "direction"

def connective : Value → Checked Connective :=
  choice [("AND", .and), ("OR", .or)]

def joinKind : Value → Checked JoinKind :=
  choice [("INNER", .inner), ("LEFT", .left), ("RIGHT", .right), ("FULL", .full), ("CROSS", .cross)]

def setOperator : Value → Checked SetOperator :=
  choice [("UNION", .union), ("UNION_ALL", .unionAll)]

/-- The kinds of predicates, each with the tag that names it. -/
inductive PredicateKind where
  | comparison | member | null | between | nonempty | raw
  deriving DecidableEq, Repr

def PredicateKind.tag : PredicateKind → String
  | comparison => "comparison"
  | member => "in"
  | null => "null"
  | between => "between"
  | nonempty => "exists"
  | raw => "raw"

def PredicateKind.recordName : PredicateKind → String
  | comparison => "ComparisonPredicate"
  | member => "InPredicate"
  | null => "NullPredicate"
  | between => "BetweenPredicate"
  | nonempty => "ExistsPredicate"
  | raw => "RawPredicate"

def PredicateKind.all : List PredicateKind :=
  [comparison, member, null, between, nonempty, raw]

def PredicateKind.ofRecordName? (name : String) : Option PredicateKind :=
  all.find? fun kind => kind.recordName == name

def PredicateKind.ofTag? (tag : String) : Option PredicateKind :=
  all.find? fun kind => kind.tag == tag

section Nested

/-! Records that hold queries are read by means of a reader for the queries in them. -/

variable (query : Value → Checked Query)

/-- A finished query is looked into before it is gone through. -/
def members : Value → Checked Members
  | .query q => valid (.query q)
  | a =>
    either (((list anything a).map .listed).under "list[any]") (((query a).map .query).under "QueryState")

/-- The fields of a predicate of a known kind; the tag may be repeated. -/
def predicateFields (kind : PredicateKind) (entries : Entries) : Checked Predicate :=
  let tag := optional (choice [(kind.tag, ())]) () entries "kind"
  let column := required text entries "column"
  let negated := optional boolean false entries "negated"
  let operand := optional anything Value.null entries
  let fields : List String × Checked Predicate :=
    match kind with
    | .comparison =>
      (["kind", "column", "operator", "value"],
        Predicate.comparison <$> column <*> optional text "=" entries "operator" <*> operand "value")
    | .member =>
      (["kind", "column", "values", "negated"],
        Predicate.member <$> column <*> optional (members query) (.listed []) entries "values" <*> negated)
    | .null => (["kind", "column", "negated"], Predicate.null <$> column <*> negated)
    | .between =>
      (["kind", "column", "low", "high", "negated"],
        Predicate.between <$> column <*> operand "low" <*> operand "high" <*> negated)
    | .nonempty =>
      (["kind", "query", "negated"],
        Predicate.nonempty <$> required query entries "query" <*> negated)
    | .raw => (["kind", "fragment"], Predicate.raw <$> required fragment entries "fragment")
  closed fields.1 entries ((fun _ p => p) <$> tag <*> fields.2)

/-- Objects that have attributes but no tag among them. -/
def hasAttributes : Value → Bool
  | .scalar (.decimal _) | .scalar (.uuid _) => true
  | .fragment _ | .query _ | .part _ | .bound _ => true
  | .object o => o.kind != .function
  | _ => false

/-- A predicate of the kind that its tag names. -/
def predicate : Value → Checked Predicate
  | .mapping entries =>
    match Value.lookupEntry (.text "kind") entries with
    | none => fault .untagged
    | some (.scalar (.text tag)) =>
      match PredicateKind.ofTag? tag with
      | some kind => (predicateFields query kind entries).under kind.tag
      | none => fault .unknownTag
    | some _ => fault .unknownTag
  | other => if hasAttributes other then fault .untagged else fault .notTagged

def condition (entries : Entries) : Checked Condition :=
  closed ["connective", "predicate"] entries <|
    Condition.mk <$> optional connective .and entries "connective" <*>
      required (predicate query) entries "predicate"

def source (entries : Entries) : Checked Source :=
  closed ["table", "subquery", "alias"] entries <|
    Source.mk <$> optional (nullable text) none entries "table" <*>
      optional (nullable query) none entries "subquery" <*>
      optional (nullable text) none entries "alias"

def joinTarget (a : Value) : Checked JoinTarget :=
  either (((text a).map .table).under "str") (((query a).map .query).under "QueryState")

def join (entries : Entries) : Checked Join :=
  closed ["kind", "table", "alias", "on"] entries <|
    Join.mk <$> optional joinKind .inner entries "kind" <*> required (joinTarget query) entries "table" <*>
      optional (nullable text) none entries "alias" <*>
      optional (nullable fragment) none entries "on"

def cteBody (a : Value) : Checked CteBody :=
  either (((query a).map .query).under "QueryState") (((fragment a).map .raw).under "RawSQL")

def cte (entries : Entries) : Checked Cte :=
  closed ["name", "columns", "query", "recursive"] entries <|
    Cte.mk <$> required text entries "name" <*>
      optional (nullable (list text)) none entries "columns" <*>
      required (cteBody query) entries "query" <*> optional boolean false entries "recursive"

def setOperation (entries : Entries) : Checked SetOperation :=
  closed ["op", "query"] entries <|
    SetOperation.mk <$> required setOperator entries "op" <*> required query entries "query"

def records {α : Type} (read : Entries → Checked α) (entries : Entries) (name : String) :
    Checked (List α) :=
  optional (list (record read)) [] entries name

def queryFields (entries : Entries) : Checked Query :=
  let rows := optional (nullable integer) none entries
  closed
    ["ctes", "distinct", "select", "from_", "joins", "where", "group_by", "having", "set_ops",
      "order_by", "limit", "offset"] entries <|
    Query.mk <$> records (cte query) entries "ctes" <*> optional boolean false entries "distinct" <*>
      records selectItem entries "select" <*>
      optional (nullable (record (source query))) none entries "from_" <*>
      records (join query) entries "joins" <*> records (condition query) entries "where" <*>
      optional (list expression) [] entries "group_by" <*>
      records (condition query) entries "having" <*> records (setOperation query) entries "set_ops" <*>
      records orderItem entries "order_by" <*>
      (rows "limit").map (Option.map Value.int) <*> (rows "offset").map (Option.map Value.int)

end Nested

mutual

/-- How deep the collections in a value are nested. -/
def depth : Value → Nat
  | .list items => depthOfAll items + 1
  | .tuple items => depthOfAll items + 1
  | .mapping entries => depthOfEntries entries + 1
  | _ => 1

def depthOfAll : List Value → Nat
  | [] => 0
  | a :: rest => max (depth a) (depthOfAll rest)

def depthOfEntries : List (Value × Value) → Nat
  | [] => 0
  | (_, content) :: rest => max (depth content) (depthOfEntries rest)

end

/-- A query in which queries are nested at most `levels` deep. -/
def queryWithin : Nat → Value → Checked Query
  | 0, _ => fault .notRecord
  | levels + 1, a =>
    match a with
    | .query q => valid q
    | other => record (queryFields (queryWithin levels)) other

/-- Reads a query; what is nested in a value is never nested deeper than the value is. -/
def query (a : Value) : Checked Query :=
  queryWithin (depth a) a

/-- A predicate of a given kind from its fields, each named by a text. -/
def buildPredicate (kind : PredicateKind) (entries : Entries) : Except Failure Predicate :=
  if entries.all fun entry => isName entry.1 then
    (predicateFields query kind entries).orReject kind.recordName
  else .error .unnamedField

/-- The predicate that a value gives the fields of. Without a kind, or without fields, it gives none. -/
def predicateOf (kind : Option PredicateKind) (a : Value) : Except Failure (Option Predicate) :=
  match kind, a with
  | some kind, .mapping entries => some <$> buildPredicate kind entries
  | _, _ => .ok none

@[simp] theorem predicateOf_none (a : Value) : predicateOf none a = .ok none := by
  cases a <;> rfl

def readCondition (a : Value) : Except Failure Condition :=
  (record (condition query) a).orReject "Condition"

def readQuery (a : Value) : Except Failure Query :=
  (query a).orReject "QueryState"

end Schema

end SqlComposition
