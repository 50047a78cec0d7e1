import SqlComposition.Proofs.Emission
import SqlComposition.Proofs.Literals
import SqlComposition.Proofs.OperandTexts

/-!
The pieces of a query, told apart into those that are fixed and the texts it compares with. Taking those
texts out of the query blanks them among its strands and leaves all else as it is.
-/

namespace SqlComposition
open Quotes

inductive Strand where
  | fixed (piece : Piece)
  | operand (text : String)

namespace Piece

def written : Piece → List Char
  | text s => s.toList
  | value v => match v.literal with | .ok literal => literal.toList | .error _ => []
  | sourceless | failed _ => []

theorem toList_inlined {pieces : List Piece} {text : String} (h : inlined pieces = .ok text) :
    text.toList = pieces.flatMap written := by
  induction pieces generalizing text with
  | nil =>
    cases h
    rfl
  | cons piece rest ih =>
    cases piece with
    | text s =>
      rw [inlined_text] at h
      obtain ⟨tail, ht, rfl⟩ := Failure.of_map_eq_ok h
      simp [written, ih ht]
    | value v =>
      obtain ⟨literal, tail, hl, ht, rfl⟩ := inlined_value h
      simp [written, hl, ih ht]
    | sourceless => exact ih h
    | failed failure => cases h

theorem balanced_written_value (v : Value) : Balanced (written (.value v)) := by
  rw [written]
  split
  · rename_i literal h
    exact (Value.isLiteral h).balanced
  · rfl

end Piece

namespace Strand

def piece : Strand → Piece
  | fixed piece => piece
  | operand text => .value (.text text)

def text? : Strand → Option String
  | fixed _ => none
  | operand text => some text

def masked : Strand → Strand
  | fixed piece => fixed piece
  | operand _ => operand ""

def ofValue : Value → Strand
  | .scalar (.text s) => operand s
  | v => fixed (.value v)

theorem piece_ofValue (v : Value) : (ofValue v).piece = .value v := by
  unfold ofValue
  split <;> rfl

theorem ofValue_blank (v : Value) : ofValue v.blank = (ofValue v).masked := by
  cases v with
  | scalar s => cases s <;> rfl
  | list _ | tuple _ | mapping _ | fragment _ | query _ | part _ | bound _ | object _ => rfl

def written (strands : List Strand) : List Char :=
  strands.flatMap fun strand => strand.piece.written

end Strand

namespace Layout

mutual

/-- The pieces of a layout, with the texts among its operands told apart. A text in a slot of a fragment
is a fixed piece. -/
def strands : Layout → List Strand
  | keyword text => [.fixed (.text text)]
  | verbatim text => [.fixed (.text text)]
  | operand value => [.ofValue value]
  | filled sql slots =>
    fill (fun s => .fixed (.text s)) (Slot.segments sql.toList) (strandsOfSlots slots)
  | series parts => strandsOfAll parts
  | sourceless => [.fixed .sourceless]
  | failed failure => [.fixed (.failed failure)]

def strandsOfAll : List Layout → List Strand
  | [] => []
  | part :: rest => part.strands ++ strandsOfAll rest

def strandsOfSlots : List Layout → List (List Strand)
  | [] => []
  | slot :: rest =>
    (if slot.isOperand then slot.pieces.map .fixed else slot.strands) :: strandsOfSlots rest

end

theorem map_fill {α β : Type} (f : α → β) (text : String → α) (segments : List (List Char))
    (slots : List (List α)) :
    (fill text segments slots).map f = fill (fun s => f (text s)) segments (slots.map (List.map f)) := by
  fun_induction fill text segments slots with
  | case1 => simp [fill]
  | case2 => simp [fill]
  | case3 segment rest _ ih => simp_all [fill]
  | case4 segment rest slot slots _ ih => simp_all [fill]

mutual

theorem pieces_strands : (layout : Layout) → layout.strands.map Strand.piece = layout.pieces
  | keyword _ | verbatim _ | sourceless | failed _ => by simp [strands, pieces, Strand.piece]
  | operand v => by simp [strands, pieces, Strand.piece_ofValue]
  | filled sql slots => by
    rw [strands, pieces, map_fill, pieces_strandsOfSlots slots]
    rfl
  | series parts => by rw [strands, pieces, pieces_strandsOfAll parts]

theorem pieces_strandsOfAll : (parts : List Layout) →
    (strandsOfAll parts).map Strand.piece = piecesOfAll parts
  | [] => by simp [strandsOfAll, piecesOfAll]
  | part :: rest => by
    simp [strandsOfAll, piecesOfAll, pieces_strands part, pieces_strandsOfAll rest]

theorem pieces_strandsOfSlots : (slots : List Layout) →
    (strandsOfSlots slots).map (List.map Strand.piece) = piecesOfEach slots
  | [] => by simp [strandsOfSlots, piecesOfEach]
  | slot :: rest => by
    have first : (if slot.isOperand then slot.pieces.map Strand.fixed else slot.strands).map
        Strand.piece = slot.pieces := by
      split
      · simp [Function.comp_def, Strand.piece]
      · exact pieces_strands slot
    rw [strandsOfSlots, List.map_cons, first, pieces_strandsOfSlots rest, piecesOfEach]

end

mutual

theorem strands_masked : (layout : Layout) →
    layout.masked.strands = layout.strands.map Strand.masked
  | keyword _ | verbatim _ | sourceless | failed _ => by simp [masked, strands, Strand.masked]
  | operand v => by simp [masked, strands, Strand.ofValue_blank]
  | filled sql slots => by
    rw [masked, strands, strands, map_fill, strandsOfSlots_masked slots]
    rfl
  | series parts => by rw [masked, strands, strands, strandsOfAll_masked parts]

theorem strandsOfAll_masked : (parts : List Layout) →
    strandsOfAll (allMasked parts) = (strandsOfAll parts).map Strand.masked
  | [] => by simp [allMasked, strandsOfAll]
  | part :: rest => by
    rw [allMasked, strandsOfAll, strandsOfAll, List.map_append, strands_masked part,
      strandsOfAll_masked rest]

theorem strandsOfSlots_masked : (slots : List Layout) →
    strandsOfSlots (slotsMasked slots) = (strandsOfSlots slots).map (List.map Strand.masked)
  | [] => by simp [slotsMasked, strandsOfSlots]
  | slot :: rest => by
    have kind : slot.masked.isOperand = slot.isOperand := by
      cases slot <;> simp [masked, isOperand]
    rw [slotsMasked, strandsOfSlots, strandsOfSlots, List.map_cons, strandsOfSlots_masked rest]
    congr 1
    cases operand : slot.isOperand with
    | true => simp [operand, Function.comp_def, Strand.masked]
    | false => simp [kind, operand, strands_masked slot]

end

theorem strandsOfSlots_eq_map (slots : List Layout) : strandsOfSlots slots =
    slots.map fun slot => if slot.isOperand then slot.pieces.map .fixed else slot.strands :=
  eq_map_of_cons (by rw [strandsOfSlots]) (fun _ _ => by rw [strandsOfSlots]) slots

@[simp] theorem strands_series_nil : (series []).strands = [] := by
  rw [strands, strandsOfAll]

@[simp] theorem strands_series_cons (part : Layout) (rest : List Layout) :
    (series (part :: rest)).strands = part.strands ++ (series rest).strands := by
  rw [strands, strandsOfAll, strands]

theorem strands_plainText_scalar (s : Scalar) :
    (plainText (.scalar s)).strands = [.fixed (.text s.plainText)] := by
  simp [plainText, Value.sourceless, strands, strandsOfAll]

end Layout

end SqlComposition
