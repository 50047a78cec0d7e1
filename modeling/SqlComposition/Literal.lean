import SqlComposition.Datum

/-!
SQL literals. Numbers are written plainly, nothing and truth values as keywords, and everything else as
quoted text: texts as they are, instants in universal time, and other values by their plain text.
-/

namespace SqlComposition
open Calendar

/-- The text of an instant, or of a time of day in the same form. -/
def Scalar.instantText : Scalar → Except Failure String
  | .dateTime t =>
    match t.instantText? with
    | some written => .ok written
    | none => .error .beyondCalendar
  | .time ⟨clock, none⟩ => .ok clock.millisecondText
  | .time ⟨_, some _⟩ => .error (.noAttribute "datetime.time" "astimezone")
  | other => .error (.noAttribute other.typeName "tzinfo")

def Scalar.literal : Scalar → Except Failure String
  | .null => .ok "NULL"
  | .bool value => .ok (if value then "TRUE" else "FALSE")
  | .int value => .ok (Number.intText value)
  | .float value => .ok value.text
  | .decimal value => .ok value.text
  | .text value => .ok (Text.quote value)
  | .dateTime value => (Scalar.dateTime value).instantText.map Text.quote
  | other => .ok (Text.quote other.plainText)

def Value.literal : Value → Except Failure String
  | .scalar s => s.literal
  | other => other.plainText.map Text.quote

@[simp] theorem Value.literal_scalar (s : Scalar) : (Value.scalar s).literal = s.literal := rfl

@[simp] theorem Scalar.literal_null : Scalar.null.literal = .ok "NULL" := rfl

@[simp] theorem Scalar.literal_text (s : String) :
    (Scalar.text s).literal = .ok (Text.quote s) := rfl

end SqlComposition
