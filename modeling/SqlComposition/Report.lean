import SqlComposition.Parameters
import SqlComposition.Value.Inspection

/-!
Errors as objects of their own, made from values: a plain one, one about data with a code and details,
and one about rendering with the clause it arose in.
-/

namespace SqlComposition

structure DataReport where
  message : String
  code : Value
  details : Value

structure RenderReport where
  message : String
  clause : Value

namespace Report

/-- No argument has no text, one has its own, and several are shown together. -/
def messageOf : List Value → Except Failure String
  | [] => .ok ""
  | [only] => only.plainText
  | several => (Value.tuple several).plainText

/-- Details that count as false are an empty mapping. -/
def detailsOf (given : Value) : Value :=
  if given.isTruthy then given else .mapping []

def data : List Value → Except Failure DataReport
  | [message] => return ⟨← message.plainText, .text "DATA_ERROR", .mapping []⟩
  | [message, code] => return ⟨← message.plainText, code, .mapping []⟩
  | [message, code, details] => return ⟨← message.plainText, code, detailsOf details⟩
  | arguments => .error (Parameters.mismatch ⟨["message"], 2⟩ "DataError.__init__" 1 arguments.length)

/-- The report that an operation was given no data. -/
def noData : List Value → Except Failure DataReport
  | [operation] =>
    return ⟨"No data to " ++ (← operation.plainText), .text "DATA_EMPTY",
      .mapping [(.text "operation", operation)]⟩
  | arguments =>
    .error (Parameters.mismatch ⟨["operation"], 0⟩ "DataError.empty_data" 1 arguments.length)

def rendering : List Value → Except Failure RenderReport
  | [message] => return ⟨← message.plainText, .null⟩
  | [message, clause] => return ⟨← message.plainText, clause⟩
  | arguments =>
    .error (Parameters.mismatch ⟨["message"], 1⟩ "CompilationError.__init__" 1 arguments.length)

end Report

end SqlComposition
