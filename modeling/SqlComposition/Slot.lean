/-!
Slots in a SQL fragment. A `?` is a slot unless it lies in a quoted span. A span starts at a single or
double quote and is the longest stretch that closes on the same quote, quotes inside being doubled;
a quote that nothing closes is an ordinary character.
-/

namespace SqlComposition.Slot

/-- How many characters after the opening mark belong to the span, up to its closing mark. -/
def spanLength (mark : Char) : List Char → Option Nat
  | [] => none
  | [c] => if c = mark then some 1 else none
  | c :: d :: rest =>
    if c = mark then
      if d = mark then
        match spanLength mark rest with
        | some n => some (n + 2)
        | none => some 1
      else some 1
    else (spanLength mark (d :: rest)).map (· + 1)

/-- Puts a character in front of the first segment. -/
def grow (c : Char) : List (List Char) → List (List Char)
  | [] => [[c]]
  | segment :: others => (c :: segment) :: others

/-- The texts before, between and after the slots, when the first `held` characters are still part of
a quoted span. -/
def segmentsFrom : Nat → List Char → List (List Char)
  | _, [] => [[]]
  | held + 1, c :: rest => grow c (segmentsFrom held rest)
  | 0, c :: rest =>
    if c = '?' then [] :: segmentsFrom 0 rest
    else if c = '\'' ∨ c = '"' then grow c (segmentsFrom ((spanLength c rest).getD 0) rest)
    else grow c (segmentsFrom 0 rest)

def segments (cs : List Char) : List (List Char) :=
  segmentsFrom 0 cs

theorem grow_ne_nil (c : Char) (parts : List (List Char)) : grow c parts ≠ [] := by
  cases parts <;> simp [grow]

theorem segmentsFrom_ne_nil (held : Nat) (cs : List Char) : segmentsFrom held cs ≠ [] := by
  cases cs with
  | nil => simp [segmentsFrom]
  | cons c rest =>
    cases held with
    | zero =>
      rw [segmentsFrom]
      split
      · simp
      · split <;> exact grow_ne_nil _ _
    | succ held => rw [segmentsFrom]; exact grow_ne_nil _ _

theorem intercalate_grow (c : Char) {parts : List (List Char)} (h : parts ≠ []) :
    ['?'].intercalate (grow c parts) = c :: ['?'].intercalate parts := by
  cases parts with
  | nil => exact absurd rfl h
  | cons segment others => cases others <;> simp [grow, List.intercalate, List.intersperse]

/-- The segments with the slots between them are the whole text. -/
theorem intercalate_segmentsFrom (held : Nat) (cs : List Char) :
    ['?'].intercalate (segmentsFrom held cs) = cs := by
  induction cs generalizing held with
  | nil => simp [segmentsFrom, List.intercalate]
  | cons c rest ih =>
    cases held with
    | succ held => rw [segmentsFrom, intercalate_grow c (segmentsFrom_ne_nil _ _), ih]
    | zero =>
      rw [segmentsFrom]
      split
      · rename_i h
        have key := ih 0
        cases hs : segmentsFrom 0 rest with
        | nil => exact absurd hs (segmentsFrom_ne_nil 0 rest)
        | cons segment others =>
          rw [hs] at key
          simpa [List.intercalate, List.intersperse, h] using key
      · split <;> rw [intercalate_grow c (segmentsFrom_ne_nil _ _), ih]

theorem intercalate_segments (cs : List Char) : ['?'].intercalate (segments cs) = cs :=
  intercalate_segmentsFrom 0 cs

end SqlComposition.Slot
