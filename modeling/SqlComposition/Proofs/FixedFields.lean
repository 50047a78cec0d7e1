import Mathlib.Algebra.Group.Nat.Defs
import Mathlib.Data.List.Forall2
import SqlComposition.Proofs.InsertedRows

/-!
Numbers in fields of a fixed width. Each field has its digits, with zeros in front where the number is too
short, and stands behind a mark that is the same for all numbers. So the numbers are found again at their
places, and the texts come in the order of the numbers, the first field that differs deciding.
-/

namespace SqlComposition.Number

/-- The last `width` digits of a number. -/
def fixedDigits : Nat → Nat → List Char
  | 0, _ => []
  | width + 1, n => fixedDigits width (n / 10) ++ [(n % 10).digitChar]

@[simp] theorem length_fixedDigits (width n : Nat) : (fixedDigits width n).length = width := by
  induction width generalizing n with
  | zero => rfl
  | succ width ih => simp [fixedDigits, ih]

theorem fixedDigits_zero (width : Nat) : fixedDigits width 0 = List.replicate width '0' := by
  induction width with
  | zero => rfl
  | succ width ih => simp [fixedDigits, ih, List.replicate_succ']

theorem isDigit_fixedDigits {width n : Nat} : ∀ c ∈ fixedDigits width n, c.isDigit = true := by
  induction width generalizing n with
  | zero => simp [fixedDigits]
  | succ width ih =>
    refine List.forall_mem_append.2 ⟨ih, ?_⟩
    have small : n % 10 < 10 := Nat.mod_lt n (by decide)
    simp [Nat.isDigit_digitChar, small]

theorem div_ten_lt {width n : Nat} (h : n < 10 ^ (width + 1)) : n / 10 < 10 ^ width := by
  rw [Nat.pow_succ] at h
  omega

theorem digitsValue_fixedDigits {width n : Nat} (h : n < 10 ^ width) :
    digitsValue (fixedDigits width n) = n := by
  show Nat.ofDigitChars 10 (fixedDigits width n) 0 = n
  induction width generalizing n with
  | zero =>
    have none : n = 0 := by simpa using h
    rw [none]
    rfl
  | succ width ih =>
    have front := ih (div_ten_lt h)
    rw [fixedDigits, Nat.ofDigitChars_append, front,
      Nat.ofDigitChars_cons_digitChar_of_lt_ten (Nat.mod_lt n (by decide)), Nat.ofDigitChars_nil]
    omega

theorem toList_padded {width n : Nat} (hw : 0 < width) (h : n < 10 ^ width) :
    (padded width n).toList = fixedDigits width n := by
  rw [padded, String.toList_ofList]
  induction width, hw using Nat.le_induction generalizing n with
  | base =>
    have small : n < 10 := by simpa using h
    simp [digits, Nat.toDigits_of_lt_base small, fixedDigits, Nat.mod_eq_of_lt small]
  | succ width some ih =>
    rcases Nat.lt_or_ge n 10 with small | large
    · simp [digits, Nat.toDigits_of_lt_base small, fixedDigits, Nat.mod_eq_of_lt small,
        Nat.div_eq_of_lt small, fixedDigits_zero]
    · have front := ih (div_ten_lt h)
      simp only [digits] at front ⊢
      rw [fixedDigits, ← front, Nat.toDigits_of_base_le (by decide) large, List.length_append,
        List.length_singleton, Nat.add_sub_add_right, List.append_assoc]

theorem digitChar_lt {m n : Nat} (h : m < n) (hn : n < 10) : m.digitChar < n.digitChar := by
  have ascending : ∀ n < 10, ∀ m < n, m.digitChar < n.digitChar := by decide
  exact ascending n hn m h

theorem append_lt_append_of_lt {x y : List Char} (hl : x.length = y.length) (h : x < y)
    (r s : List Char) : x ++ r < y ++ s := by
  induction x generalizing y with
  | nil =>
    have none : y = [] := List.eq_nil_of_length_eq_zero hl.symm
    rw [none] at h
    exact absurd h (by simp)
  | cons c x ih =>
    cases y with
    | nil => cases hl
    | cons d y =>
      rw [List.cons_append, List.cons_append, List.cons_lt_cons_iff]
      rcases List.cons_lt_cons_iff.1 h with first | ⟨same, later⟩
      · exact .inl first
      · exact .inr ⟨same, ih (Nat.succ.inj hl) later⟩

theorem fixedDigits_lt {width m n : Nat} (h : m < n) (hn : n < 10 ^ width) :
    fixedDigits width m < fixedDigits width n := by
  induction width generalizing m n with
  | zero =>
    have none : n = 0 := by simpa using hn
    omega
  | succ width ih =>
    rw [fixedDigits, fixedDigits]
    rcases Nat.lt_or_ge (m / 10) (n / 10) with front | front
    · exact append_lt_append_of_lt (by simp) (ih front (div_ten_lt hn)) _ _
    · have same : m / 10 = n / 10 := by omega
      have last : m % 10 < n % 10 := by omega
      rw [same]
      exact List.append_left_lt (List.cons_lt_cons_iff.2 (.inl (digitChar_lt last (by omega))))

/-- The place of a number: what stands in front of it, and how many digits it has. -/
structure Field where
  mark : List Char
  width : Nat

def Field.Holds (f : Field) (n : Nat) : Prop :=
  n < 10 ^ f.width

def writeFields : List Field → List Nat → List Char
  | f :: form, n :: numbers => f.mark ++ (fixedDigits f.width n ++ writeFields form numbers)
  | _, _ => []

def readField (f : Field) : Reader Nat := fun cs => do
  let ds ← Insertion.expect f.mark cs
  if (ds.take f.width).length = f.width ∧ (ds.take f.width).all Char.isDigit then
    some (digitsValue (ds.take f.width), ds.drop f.width)
  else none

def readFields : List Field → Reader (List Nat)
  | [], cs => some ([], cs)
  | f :: form, cs => do
    let (n, rest) ← readField f cs
    let (numbers, rest) ← readFields form rest
    return (n :: numbers, rest)

theorem readField_append {f : Field} {n : Nat} (h : f.Holds n) (rest : List Char) :
    readField f (f.mark ++ (fixedDigits f.width n ++ rest)) = some (n, rest) := by
  have front : (fixedDigits f.width n ++ rest).take f.width = fixedDigits f.width n :=
    List.take_left' (length_fixedDigits f.width n)
  have back : (fixedDigits f.width n ++ rest).drop f.width = rest :=
    List.drop_left' (length_fixedDigits f.width n)
  have complete : (fixedDigits f.width n).length = f.width ∧ (fixedDigits f.width n).all Char.isDigit :=
    ⟨length_fixedDigits f.width n, List.all_eq_true.2 isDigit_fixedDigits⟩
  rw [readField, Insertion.expect_append]
  simp only [Option.bind_eq_bind, Option.bind_some, front, back, if_pos complete, digitsValue_fixedDigits h]

theorem readFields_writeFields {form : List Field} {numbers : List Nat}
    (h : List.Forall₂ Field.Holds form numbers) (rest : List Char) :
    readFields form (writeFields form numbers ++ rest) = some (numbers, rest) := by
  induction h with
  | nil => rfl
  | cons first _ ih =>
    rw [writeFields, readFields, List.append_assoc, List.append_assoc, readField_append first]
    simp only [Option.bind_eq_bind, Option.bind_some, ih, pure]

/-- Whatever follows, the first number that differs decides. -/
theorem writeFields_lt {form : List Field} {numbers others : List Nat}
    (hn : List.Forall₂ Field.Holds form numbers) (ho : List.Forall₂ Field.Holds form others)
    (h : numbers < others) (r s : List Char) :
    writeFields form numbers ++ r < writeFields form others ++ s := by
  induction hn generalizing others with
  | nil =>
    cases ho
    exact absurd h (List.lt_irrefl [])
  | @cons f n form numbers _ _ ih =>
    cases ho with
    | cons first later =>
      simp only [writeFields, List.append_assoc]
      refine List.append_left_lt ?_
      rcases List.cons_lt_cons_iff.1 h with less | ⟨rfl, less⟩
      · exact append_lt_append_of_lt (by simp) (fixedDigits_lt less first) _ _
      · exact List.append_left_lt (ih later less)

end SqlComposition.Number
