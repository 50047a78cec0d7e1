import SqlComposition.Literal
import SqlComposition.Proofs.Quotes

/-!
Literals close the quotes they open. Numbers have none: they are written with digits, letters, signs and
points. Everything else is a word or is put between quotes.
-/

namespace SqlComposition

namespace Number

def isNumberChar (c : Char) : Bool :=
  c.isAlphanum || c == '+' || c == '-' || c == '.'

def IsNumeral (cs : List Char) : Prop :=
  ∀ c ∈ cs, isNumberChar c = true

instance (cs : List Char) : Decidable (IsNumeral cs) :=
  List.decidableBAll _ cs

namespace IsNumeral

theorem nil : IsNumeral [] := by
  simp [IsNumeral]

theorem cons {c : Char} {cs : List Char} (hc : isNumberChar c = true) (h : IsNumeral cs) :
    IsNumeral (c :: cs) :=
  List.forall_mem_cons.2 ⟨hc, h⟩

theorem append {a b : List Char} (ha : IsNumeral a) (hb : IsNumeral b) : IsNumeral (a ++ b) :=
  List.forall_mem_append.2 ⟨ha, hb⟩

theorem of_subset {a b : List Char} (hs : a ⊆ b) (hb : IsNumeral b) : IsNumeral a :=
  fun c hc => hb c (hs hc)

theorem replicate (n : Nat) : IsNumeral (List.replicate n '0') := by
  intro c hc
  rw [List.eq_of_mem_replicate hc]
  rfl

theorem digits (n : Nat) : IsNumeral (digits n) := by
  intro c hc
  have digit : c.isDigit = true := Nat.isDigit_of_mem_toDigits (by decide) (by decide) hc
  simp [isNumberChar, Char.isAlphanum, digit]

theorem ite {condition : Prop} [Decidable condition] {a b : List Char} (ha : IsNumeral a)
    (hb : IsNumeral b) : IsNumeral (if condition then a else b) := by
  split
  · exact ha
  · exact hb

theorem mantissa {ds : List Char} : IsNumeral ds →
    IsNumeral (match ds with
      | first :: second :: rest => first :: '.' :: second :: rest
      | short => short) := by
  intro h
  match ds with
  | [] => exact h
  | [only] => exact h
  | first :: second :: rest =>
    obtain ⟨start, others⟩ := List.forall_mem_cons.1 h
    exact cons start (cons rfl others)

theorem isBare {cs : List Char} (h : IsNumeral cs) : Quotes.IsBare cs := by
  have unquoted : ∀ mark, isNumberChar (Quotes.Mark.char mark) = false := by
    intro mark
    cases mark <;> rfl
  exact fun c hc => Quotes.Mark.ofChar?_eq_none unquoted (h c hc)

end IsNumeral

theorem intText_numeral (n : Int) : IsNumeral (intText n).toList := by
  cases n with
  | ofNat n =>
    rw [intText, natText, String.toList_ofList]
    exact .digits n
  | negSucc n =>
    rw [intText, String.toList_ofList]
    exact .cons rfl (.digits _)

namespace Binary64

theorem positional_numeral {ds : List Char} (h : IsNumeral ds) (point : Int) :
    IsNumeral (positional ds point) := by
  unfold positional
  refine .ite (.cons rfl (.cons rfl (.append (.replicate _) h))) (.ite ?_ ?_)
  · exact .append (.append h (.replicate _)) (.cons rfl (.cons rfl .nil))
  · exact .append (.of_subset (List.take_subset _ _) h)
      (.cons rfl (.of_subset (List.drop_subset _ _) h))

theorem exponential_numeral {ds : List Char} (h : IsNumeral ds) (power : Int) :
    IsNumeral (exponential ds power) :=
  .append (.mantissa h) (.cons rfl (.cons (by split <;> rfl) (.append (.replicate _) (.digits _))))

theorem chars_numeral (x : Binary64) : IsNumeral x.chars := by
  have sign (negative : Bool) : IsNumeral (if negative then ['-'] else []) :=
    .ite (.cons rfl .nil) .nil
  cases x with
  | finite negative mantissa exponent =>
    have significant (n : Nat) : IsNumeral (dropTrailingZeros (digits n)) := by
      refine .of_subset (fun c hc => ?_) (.digits n)
      rw [dropTrailingZeros, List.mem_reverse] at hc
      exact List.mem_reverse.1 ((List.dropWhile_sublist _).subset hc)
    refine .append (sign negative) ?_
    rw [magnitudeChars]
    refine .ite (.cons rfl (.cons rfl (.cons rfl .nil))) (.ite ?_ ?_)
    · exact positional_numeral (significant _) _
    · exact exponential_numeral (significant _) _
  | infinite negative => exact .append (sign negative) (by decide)
  | nan mark =>
    rw [chars]
    decide

end Binary64

namespace Decimal

theorem pointed_numeral {ds : List Char} (h : IsNumeral ds) (places : Nat) :
    IsNumeral (pointed ds places) := by
  have full := IsNumeral.append (.replicate (places + 1 - ds.length)) h
  exact .ite h (.append (.of_subset (List.take_subset _ _) full)
    (.cons rfl (.of_subset (List.drop_subset _ _) full)))

theorem scientific_numeral {ds : List Char} (h : IsNumeral ds) (power : Int) :
    IsNumeral (scientific ds power) :=
  .append (.mantissa h) (.cons rfl (.cons (by split <;> rfl) (.digits _)))

theorem chars_numeral (d : Decimal) : IsNumeral d.chars := by
  have sign (negative : Bool) : IsNumeral (signText negative) :=
    .ite (.cons rfl .nil) .nil
  cases d with
  | finite negative coefficient exponent =>
    exact .append (sign negative)
      (.ite (pointed_numeral (.digits _) _) (scientific_numeral (.digits _) _))
  | infinite negative => exact .append (sign negative) (by decide)
  | nan negative signalling payload mark =>
    exact .append (.append (.append (sign negative) (.ite (.cons rfl .nil) .nil)) (by decide))
      (.ite .nil (.digits _))

end Decimal

end Number

open Quotes

theorem balanced_quote (s : String) : Balanced (Text.quote s).toList := by
  rw [Text.toList_quote]
  exact balanced_quoteChars _

/-- A literal is written with the characters of numbers, as the words for nothing and for the truth values
are too, or it is a quoted text. -/
def IsLiteral (t : String) : Prop :=
  Number.IsNumeral t.toList ∨ ∃ content, t = Text.quote content

theorem Scalar.isLiteral {s : Scalar} {t : String} (h : s.literal = .ok t) : IsLiteral t := by
  cases s with
  | null =>
    cases h
    exact .inl (by decide)
  | bool value =>
    cases h
    exact .inl (by cases value <;> decide)
  | int value =>
    cases h
    exact .inl (Number.intText_numeral value)
  | float value =>
    cases h
    rw [IsLiteral, Number.Binary64.text, String.toList_ofList]
    exact .inl value.chars_numeral
  | decimal value =>
    cases h
    rw [IsLiteral, Number.Decimal.text, String.toList_ofList]
    exact .inl value.chars_numeral
  | dateTime value =>
    obtain ⟨instant, -, rfl⟩ := Failure.of_map_eq_ok h
    exact .inr ⟨instant, rfl⟩
  | text _ | bytes _ | date _ | time _ | duration _ | uuid _ =>
    simp only [Scalar.literal, Except.ok.injEq] at h
    exact .inr ⟨_, h.symm⟩

theorem Value.isLiteral {v : Value} {t : String} (h : v.literal = .ok t) : IsLiteral t := by
  cases v with
  | scalar s => exact Scalar.isLiteral h
  | list _ | tuple _ | mapping _ | fragment _ | query _ | part _ | bound _ | object _ =>
    rw [Value.literal] at h
    · obtain ⟨plain, -, rfl⟩ := Failure.of_map_eq_ok h
      exact .inr ⟨plain, rfl⟩
    · exact nofun

theorem IsLiteral.balanced {t : String} (h : IsLiteral t) : Balanced t.toList := by
  rcases h with numeral | ⟨content, rfl⟩
  · exact numeral.isBare.balanced
  · exact balanced_quote content

end SqlComposition
