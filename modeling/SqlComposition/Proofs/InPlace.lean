import SqlComposition.Proofs.Emission
import SqlComposition.Proofs.Places

/-!
Queries in place. A query that stands in a place of another is written there as it is written alone: with
the same literals, and with placeholders that are numbered on from the values bound before it, for the
same values. All that is around it is written in one way whatever stands in the place.
-/

namespace SqlComposition

namespace Piece

/-- Text with parentheses around it, or as it is. -/
def encloseText (enclosed : Bool) (inner : String) : String :=
  if enclosed then "(" ++ inner ++ ")" else inner

variable {a b : List Piece}

theorem of_inlined_append {text : String} (h : inlined (a ++ b) = .ok text) :
    ∃ x y, inlined a = .ok x ∧ inlined b = .ok y ∧ text = x ++ y := by
  rw [inlined_append_eq] at h
  cases hx : inlined a with
  | error failure => simp [hx, bind, Except.bind] at h
  | ok x =>
    cases hy : inlined b with
    | error failure => simp [hx, hy, bind, Except.bind] at h
    | ok y =>
      rw [hx, hy] at h
      exact ⟨x, y, rfl, rfl, (Except.ok.inj h).symm⟩

theorem of_inlined_enclose {enclosed : Bool} {text : String} (h : inlined (enclose enclosed a) = .ok text) :
    ∃ own, inlined a = .ok own ∧ text = encloseText enclosed own := by
  cases enclosed with
  | false => exact ⟨text, h, rfl⟩
  | true =>
    obtain ⟨opened, closing, ho, hc, rfl⟩ := of_inlined_append (a := .text "(" :: a) h
    rw [inlined_text] at ho
    obtain ⟨own, written, rfl⟩ := Failure.of_map_eq_ok ho
    obtain rfl : ")" = closing := Except.ok.inj hc
    exact ⟨own, written, rfl⟩

variable {placeholder : Nat → String} {count : Nat} {sql : String} {bindings : List Value}

/-- Values are bound in the order of the text. -/
theorem of_bound_append (h : bound placeholder count (a ++ b) = .ok (sql, bindings)) :
    ∃ x first y last, bound placeholder count a = .ok (x, first) ∧
      bound placeholder (count + first.length) b = .ok (y, last) ∧
      sql = x ++ y ∧ bindings = first ++ last := by
  rw [bound_append] at h
  cases hx : bound placeholder count a with
  | error failure => simp [hx, bind, Except.bind] at h
  | ok front =>
    cases hy : bound placeholder (count + front.2.length) b with
    | error failure => simp [hx, hy, bind, Except.bind] at h
    | ok back =>
      simp only [hx, hy, bind, Except.bind, pure, Except.pure, Except.ok.injEq, Prod.mk.injEq] at h
      exact ⟨front.1, front.2, back.1, back.2, rfl, hy, h.1.symm, h.2.symm⟩

theorem of_bound_enclose {enclosed : Bool}
    (h : bound placeholder count (enclose enclosed a) = .ok (sql, bindings)) :
    ∃ own, bound placeholder count a = .ok (own, bindings) ∧ sql = encloseText enclosed own := by
  cases enclosed with
  | false => exact ⟨sql, h, rfl⟩
  | true =>
    obtain ⟨_, first, closing, last, ho, hc, rfl, rfl⟩ := of_bound_append (a := .text "(" :: a) h
    obtain ⟨rfl, rfl⟩ := Prod.mk.inj (Except.ok.inj hc)
    rw [bound_text] at ho
    obtain ⟨form, written, made⟩ := Failure.of_map_eq_ok ho
    obtain ⟨rfl, rfl⟩ := Prod.mk.inj made
    exact ⟨form.1, by simpa using written, rfl⟩

/-- Counting from further on is the same as writing later placeholders. -/
theorem bound_shift (placeholder : Nat → String) (k count : Nat) (pieces : List Piece) :
    bound placeholder (k + count) pieces = bound (fun i => placeholder (k + i)) count pieces := by
  induction pieces generalizing count with
  | nil => rfl
  | cons piece rest ih =>
    cases piece with
    | text s => simp only [bound, ih]
    | value v => simp only [bound, Nat.add_assoc, ih]
    | sourceless => exact ih count
    | failed failure => rfl

/-- The values do not depend on the placeholders. -/
theorem bound_again (h : bound placeholder count a = .ok (sql, bindings)) (other : Nat → String)
    (first : Nat) : ∃ text, bound other first a = .ok (text, bindings) := by
  have sound := sound_of_bound h
  rw [bound_of_sound sound] at h
  obtain ⟨-, rfl⟩ := Prod.mk.inj (Except.ok.inj h)
  exact ⟨_, bound_of_sound sound other first⟩

end Piece

namespace Query

/-- How `inner` is written in `outer`, between the pieces `front` and `back`. -/
structure WrittenIn (enclosed : Bool) (front back : List Piece) (inner outer : Query) : Prop where
  inlined : ∀ text, outer.inlined = .ok text → ∃ before own after,
    Piece.inlined front = .ok before ∧ inner.inlined = .ok own ∧ Piece.inlined back = .ok after ∧
      text = before ++ Piece.encloseText enclosed own ++ after
  bound : ∀ (choice : DialectChoice) (form : BoundQuery), choice.bind outer = .ok form →
    ∃ d, choice = .known d ∧ ∃ before earlier alone own shifted after later,
      Piece.bound d.placeholder 0 front = .ok (before, earlier) ∧
      choice.bind inner = .ok ⟨alone, own, d.name⟩ ∧
      inner.bound (fun i => d.placeholder (earlier.length + i)) = .ok (shifted, own) ∧
      Piece.bound d.placeholder (earlier.length + own.length) back = .ok (after, later) ∧
      form.sql = before ++ Piece.encloseText enclosed shifted ++ after ∧
      form.values = earlier ++ own ++ later

theorem WrittenIn.of_pieces {enclosed : Bool} {front back : List Piece} {inner outer : Query}
    (h : outer.layout.pieces = front ++ Piece.enclose enclosed inner.layout.pieces ++ back) :
    WrittenIn enclosed front back inner outer where
  inlined := fun text ht => by
    rw [Query.inlined, Layout.inlined, h, List.append_assoc] at ht
    obtain ⟨before, _, hb, rest, rfl⟩ := Piece.of_inlined_append ht
    obtain ⟨_, after, he, ha, rfl⟩ := Piece.of_inlined_append rest
    obtain ⟨own, ho, rfl⟩ := Piece.of_inlined_enclose he
    exact ⟨before, own, after, hb, ho, ha, String.append_assoc.symm⟩
  bound := fun choice form hf => by
    obtain ⟨d, rfl⟩ := DialectChoice.known_of_bind hf
    rw [DialectChoice.bind_known] at hf
    obtain ⟨⟨sql, values⟩, written, rfl⟩ := Failure.of_map_eq_ok hf
    rw [Query.bound, Layout.bound, h, List.append_assoc] at written
    obtain ⟨before, earlier, _, _, hb, rest, rfl, rfl⟩ := Piece.of_bound_append written
    obtain ⟨_, own, after, later, he, ha, rfl, rfl⟩ := Piece.of_bound_append rest
    obtain ⟨shifted, ho, rfl⟩ := Piece.of_bound_enclose he
    -- `inner` is bound from where `earlier` ends; its values would be the same from any start
    obtain ⟨alone, hn⟩ := Piece.bound_again ho d.placeholder 0
    refine ⟨d, rfl, before, earlier, alone, own, shifted, after, later, hb, ?_, ?_, ?_, ?_, ?_⟩
    · rw [DialectChoice.bind_known, Query.bound, Layout.bound, hn]
      rfl
    · rwa [Nat.zero_add, ← Nat.add_zero earlier.length, Piece.bound_shift] at ho
    · rwa [Nat.zero_add] at ha
    · exact String.append_assoc.symm
    · exact (List.append_assoc _ _ _).symm

theorem IsAround.writtenIn {enclosed : Bool} {put : Query → Clause} {outer q : Query}
    (h : IsAround enclosed put outer q) :
    ∃ (change : Query → Query) (front back : List Piece), change q = outer ∧
      ∀ r, (change r).Has (put r) ∧ WrittenIn enclosed front back r (change r) := by
  obtain ⟨change, same, has, front, back, framed⟩ := h
  exact ⟨change, front, back, same, fun r => ⟨has r, .of_pieces (framed r)⟩⟩

end Query

end SqlComposition
