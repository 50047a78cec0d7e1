import SqlComposition.Literal
import SqlComposition.Slot

/-!
The text of a query before its values are written. A layout is a tree of texts and operands; read from
left to right it is a list of pieces. The pieces are the same whether values are written as literals or
bound to placeholders, so the two forms of a query differ in nothing but the places of its values.
-/

namespace SqlComposition

inductive Layout where
  /-- Text that belongs to SQL itself. -/
  | keyword (text : String)
  /-- Text that was given and is written as it is. -/
  | verbatim (text : String)
  | operand (value : Value)
  /-- A fragment whose first slots are filled in order; further slots stay. -/
  | filled (sql : String) (slots : List Layout)
  | series (parts : List Layout)
  /-- Marks a SELECT that has no FROM clause; writes nothing. -/
  | sourceless
  | failed (failure : Failure)

inductive Piece where
  | text (text : String)
  | value (value : Value)
  | sourceless
  | failed (failure : Failure)

namespace Layout

/-- The parts with a text of SQL between each two. -/
def separated (separator : String) : List Layout → List Layout
  | [] => []
  | [only] => [only]
  | first :: rest => first :: keyword separator :: separated separator rest

def joined (separator : String) (parts : List Layout) : Layout :=
  series (separated separator parts)

def parenthesized (inner : Layout) : Layout :=
  series [keyword "(", inner, keyword ")"]

/-- Segments of a fragment, each made an item, with the items of its slots between them. -/
def fill {α : Type} (text : String → α) : List (List Char) → List (List α) → List α
  | [], _ => []
  | [last], _ => [text (String.ofList last)]
  | segment :: rest, [] => text (String.ofList segment) :: text "?" :: fill text rest []
  | segment :: rest, slot :: slots => text (String.ofList segment) :: (slot ++ fill text rest slots)

mutual

def pieces : Layout → List Piece
  | keyword text => [.text text]
  | verbatim text => [.text text]
  | operand value => [.value value]
  | filled sql slots => fill .text (Slot.segments sql.toList) (piecesOfEach slots)
  | series parts => piecesOfAll parts
  | sourceless => [.sourceless]
  | failed failure => [.failed failure]

def piecesOfAll : List Layout → List Piece
  | [] => []
  | part :: rest => part.pieces ++ piecesOfAll rest

def piecesOfEach : List Layout → List (List Piece)
  | [] => []
  | slot :: rest => slot.pieces :: piecesOfEach rest

end

theorem piecesOfAll_append (a b : List Layout) :
    piecesOfAll (a ++ b) = piecesOfAll a ++ piecesOfAll b := by
  induction a with
  | nil => simp [piecesOfAll]
  | cons part rest ih => simp [piecesOfAll, ih]

theorem piecesOfAll_eq_flatMap (parts : List Layout) : piecesOfAll parts = parts.flatMap pieces := by
  induction parts with
  | nil => simp [piecesOfAll]
  | cons part rest ih => simp [piecesOfAll, ih]

theorem piecesOfEach_eq_map (slots : List Layout) : piecesOfEach slots = slots.map pieces := by
  induction slots with
  | nil => simp [piecesOfEach]
  | cons slot rest ih => simp [piecesOfEach, ih]

@[simp] theorem pieces_series (parts : List Layout) :
    (series parts).pieces = parts.flatMap pieces := by
  rw [pieces, piecesOfAll_eq_flatMap]

end Layout

end SqlComposition
