import SqlComposition.Calendar.Fields
import SqlComposition.Text.Quoted

/-!
Why an operation did not succeed. Each failure is a cause; its wording is `Failure.message`, and a
rendering failure can also name the clause it arose in. A rejected record lists every field at fault,
each with the path to it.
-/

namespace SqlComposition
open Number

/-- What can be wrong with one field of a record. -/
inductive Problem where
  | notText | notUnicode | missing | unknownField | badKey
  | notRecord | notTagged | notList | notInteger | notBoolean
  | unknownChoice | untagged | unknownTag
  | unreadableInteger | fractionalInteger | oversizedInteger | infiniteInteger | unreadableBoolean
  deriving DecidableEq, Repr

def Problem.code : Problem → String
  | notText => "string_type"
  | notUnicode => "string_unicode"
  | missing => "missing"
  | unknownField => "extra_forbidden"
  | badKey => "invalid_key"
  | notRecord => "model_type"
  | notTagged => "model_attributes_type"
  | notList => "list_type"
  | notInteger => "int_type"
  | notBoolean => "bool_type"
  | unknownChoice => "literal_error"
  | untagged => "union_tag_not_found"
  | unknownTag => "union_tag_invalid"
  | unreadableInteger => "int_parsing"
  | fractionalInteger => "int_from_float"
  | oversizedInteger => "int_parsing_size"
  | infiniteInteger => "finite_number"
  | unreadableBoolean => "bool_parsing"

structure Fault where
  path : List String
  problem : Problem
  deriving DecidableEq, Repr

def Fault.under (step : String) (fault : Fault) : Fault :=
  { fault with path := step :: fault.path }

def Fault.text (fault : Fault) : String :=
  ".".intercalate fault.path ++ " " ++ fault.problem.code

inductive Failure where
  /-- A FROM clause names neither a table nor a subquery. -/
  | noSource
  | noSubqueryRenderer
  | notPredicate (type : String)
  | unknownDialect (name : String) (registered : List String)
  | noData (operation : String)
  | rejected (record : String) (faults : List Fault)
  /-- An instant lies outside the years 1 to 9999 of universal time. -/
  | beyondCalendar
  | badField (fault : Calendar.FieldFault)
  | notFloat (text : String)
  | notDecimal
  | decimalOutOfRange
  | notUuid
  | notHexInteger (text : String)
  /-- Something else than a hexadecimal digit stands at `position`. -/
  | notHex (position : Nat)
  | notIterable (type : String)
  | notCallable (type : String)
  | notSubscriptable (type : String)
  | unhashable (type : String)
  /-- A signalling not-a-number was used as a key. -/
  | signallingKey
  /-- The name of a field is something else than a text. -/
  | unnamedField
  | noAttribute (type name : String)
  /-- A list that is joined as text holds something else at `position`. -/
  | notTextItem (position : Nat) (type : String)
  | notPair (position : Nat)
  | pairLength (position length : Nat)
  /-- A mapping has no entry for the key, given in its shown form. -/
  | noEntry (key : String)
  /-- Arguments that a call needs, by name, were left out. -/
  | missingArguments (call : String) (names : List String)
  /-- A call that needs `least` arguments and takes `further` ones was given more. -/
  | surplusArguments (call : String) (least further given : Nat)
  | notAwaitable (type : String)
  /-- Text was given where bytes are replaced in bytes. -/
  | textForBytes
  /-- Text was given where a field of a date or time is replaced. -/
  | textForInteger
  /-- Calls, executions or texts inside each other come to no end. -/
  | endless
  | raised (message : String)
  | libraryMissing
  deriving DecidableEq, Repr

namespace Failure

/-- The most characters of a text that are quoted when it is no hexadecimal number. -/
def greatestQuotation : Nat := 200

/-- Two are joined by a word, and more by commas and the word before the last. -/
def enumeration : List String → String
  | [] => ""
  | [only] => only
  | [first, second] => first ++ " and " ++ second
  | [first, second, third] => first ++ ", " ++ second ++ ", and " ++ third
  | first :: rest => first ++ ", " ++ enumeration rest

def message : Failure → String
  | noSource => "FROM clause has no table or subquery."
  | noSubqueryRenderer => "No subquery build function configured."
  | notPredicate type => "Unknown predicate type: " ++ type
  | unknownDialect name registered =>
    "Unsupported dialect: '" ++ name ++ "'. Registered dialects: [" ++
      ", ".intercalate (registered.map Text.shown) ++ "]."
  | noData operation => "No data to " ++ operation
  | rejected record faults => record ++ ": " ++ "; ".intercalate (faults.map Fault.text)
  | beyondCalendar => "date value out of range"
  | badField fault => fault.text
  | notFloat text => "could not convert string to float: " ++ Text.shown text
  | notDecimal => "[<class 'decimal.ConversionSyntax'>]"
  | decimalOutOfRange => "[<class 'decimal.InvalidOperation'>]"
  | notUuid => "badly formed hexadecimal UUID string"
  | notHexInteger text =>
    "invalid literal for int() with base 16: " ++ String.ofList ((Text.shown text).toList.take greatestQuotation)
  | notHex position =>
    "non-hexadecimal number found in fromhex() arg at position " ++ natText position
  | notIterable type => "'" ++ type ++ "' object is not iterable"
  | notCallable type => "'" ++ type ++ "' object is not callable"
  | notSubscriptable type => "'" ++ type ++ "' object is not subscriptable"
  | unhashable type => "unhashable type: '" ++ type ++ "'"
  | signallingKey => "Cannot hash a signaling NaN value"
  | unnamedField => "keywords must be strings"
  | noAttribute type name => "'" ++ type ++ "' object has no attribute '" ++ name ++ "'"
  | notTextItem position type =>
    "sequence item " ++ natText position ++ ": expected str instance, " ++ type ++ " found"
  | notPair position =>
    "cannot convert dictionary update sequence element #" ++ natText position ++ " to a sequence"
  | pairLength position length =>
    "dictionary update sequence element #" ++ natText position ++ " has length " ++ natText length ++
      "; 2 is required"
  | noEntry key => key
  | missingArguments call names =>
    call ++ "() missing " ++ natText names.length ++ " required positional argument" ++
      (if names.length = 1 then "" else "s") ++ ": " ++ enumeration (names.map Text.shown)
  | surplusArguments call least further given =>
    call ++ "() takes " ++
      (if further = 0 then natText least else "from " ++ natText least ++ " to " ++ natText (least + further)) ++
      " positional argument" ++ (if further = 0 ∧ least = 1 then "" else "s") ++ " but " ++ natText given ++
      (if given = 1 then " was given" else " were given")
  | notAwaitable type => "object " ++ type ++ " can't be used in 'await' expression"
  | textForBytes => "a bytes-like object is required, not 'str'"
  | textForInteger => "'str' object cannot be interpreted as an integer"
  | endless => "maximum recursion depth exceeded"
  | raised text => text
  | libraryMissing =>
    "SQLAlchemy is required for SQLAlchemyExecutor. " ++
      "Install it with: pip install \"duckql[sqlalchemy]\""

/-- The clause that was being rendered, where that is known. -/
def clause : Failure → Option String
  | noSource => some "FROM"
  | notPredicate _ => some "WHERE"
  | _ => none

end Failure

theorem Failure.of_map_eq_ok {α β : Type} {f : α → β} {outcome : Except Failure α} {b : β}
    (h : outcome.map f = .ok b) : ∃ a, outcome = .ok a ∧ f a = b := by
  cases outcome with
  | error failure => cases h
  | ok a => exact ⟨a, rfl, Except.ok.inj h⟩

end SqlComposition
