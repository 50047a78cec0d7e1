import Mathlib.Algebra.Group.Nat.Defs
import Mathlib.Data.List.TakeWhile
import SqlComposition.Proofs.Lexing
import SqlComposition.Proofs.Literals

/-!
Literals of numbers. A finite number is written as SQL writes numbers: with a minus sign if it has one,
with digits that may have a fraction behind them, and with a power of ten where there is one. Infinities
and not-a-numbers are written as words, and these SQL takes for names.
-/

namespace SqlComposition

namespace Number

def IsDigits (cs : List Char) : Prop :=
  cs ≠ [] ∧ ∀ c ∈ cs, c.isDigit = true

/-- Digits with or without a fraction. -/
inductive IsFixed : List Char → Prop
  | whole {ds : List Char} : IsDigits ds → IsFixed ds
  | pointed {ds fraction : List Char} : IsDigits ds → IsDigits fraction → IsFixed (ds ++ '.' :: fraction)

/-- A fixed number with or without a power of ten. -/
inductive IsUnsigned : List Char → Prop
  | fixed {cs : List Char} : IsFixed cs → IsUnsigned cs
  | scaled {cs power : List Char} {mark : Char} (sign : List Char) : IsFixed cs → mark ∈ ['e', 'E'] →
      sign ∈ [[], ['+'], ['-']] → IsDigits power → IsUnsigned (cs ++ mark :: (sign ++ power))

/-- The way SQL writes a number. -/
inductive IsSqlNumber : List Char → Prop
  | unsigned {cs : List Char} : IsUnsigned cs → IsSqlNumber cs
  | negative {cs : List Char} : IsUnsigned cs → IsSqlNumber ('-' :: cs)

theorem isDigit_of_mem_zeros {n : Nat} {c : Char} (h : c ∈ List.replicate n '0') : c.isDigit = true := by
  rw [List.eq_of_mem_replicate h]
  rfl

namespace IsDigits

theorem digits (n : Nat) : IsDigits (digits n) :=
  ⟨Nat.toDigits_ne_nil, fun _ hc => Nat.isDigit_of_mem_toDigits (by decide) (by decide) hc⟩

theorem zero : IsDigits ['0'] := by
  simp [IsDigits]

theorem append {a b : List Char} (ha : IsDigits a) (hb : ∀ c ∈ b, c.isDigit = true) :
    IsDigits (a ++ b) :=
  ⟨by simp [ha.1], List.forall_mem_append.2 ⟨ha.2, hb⟩⟩

theorem zeros_append (n : Nat) {b : List Char} (hb : IsDigits b) :
    IsDigits (List.replicate n '0' ++ b) :=
  ⟨by simp [hb.1], List.forall_mem_append.2 ⟨fun _ => isDigit_of_mem_zeros, hb.2⟩⟩

/-- Digits cut in two, with some on either side. -/
theorem cut {ds : List Char} (h : IsDigits ds) {n : Nat} (hn : 0 < n) (hl : n < ds.length) :
    IsDigits (ds.take n) ∧ IsDigits (ds.drop n) := by
  refine ⟨⟨?_, fun c hc => h.2 c (List.mem_of_mem_take hc)⟩,
    ⟨?_, fun c hc => h.2 c (List.mem_of_mem_drop hc)⟩⟩
  · rw [ne_eq, List.take_eq_nil_iff]
    exact not_or.2 ⟨by omega, h.1⟩
  · rw [ne_eq, List.drop_eq_nil_iff]
    omega

theorem mantissa {ds : List Char} : IsDigits ds →
    IsFixed (match ds with
      | first :: second :: rest => first :: '.' :: second :: rest
      | short => short) := by
  intro h
  match ds with
  | [] => exact .whole h
  | [only] => exact .whole h
  | first :: second :: rest =>
    obtain ⟨front, behind⟩ := h.cut (n := 1) (by decide) (by simp)
    exact .pointed front behind

theorem isUnsigned {ds : List Char} (h : IsDigits ds) : IsUnsigned ds :=
  .fixed (.whole h)

end IsDigits

theorem IsSqlNumber.signed {cs : List Char} (negative : Bool) (h : IsUnsigned cs) :
    IsSqlNumber ((if negative then ['-'] else []) ++ cs) := by
  cases negative
  · exact .unsigned h
  · exact .negative h

theorem intText_sqlNumber (n : Int) : IsSqlNumber (intText n).toList := by
  cases n with
  | ofNat n =>
    rw [intText, natText, String.toList_ofList]
    exact .unsigned (IsDigits.digits n).isUnsigned
  | negSucc n =>
    rw [intText, String.toList_ofList]
    exact .negative (IsDigits.digits (n + 1)).isUnsigned

namespace Decimal

theorem pointed_fixed {ds : List Char} (h : IsDigits ds) (places : Nat) : IsFixed (pointed ds places) := by
  rw [pointed]
  split
  · exact .whole h
  · have full := IsDigits.zeros_append (places + 1 - ds.length) h
    have size : places < (List.replicate (places + 1 - ds.length) '0' ++ ds).length := by
      simp only [List.length_append, List.length_replicate]
      omega
    obtain ⟨front, behind⟩ := full.cut (n := _ - places) (Nat.sub_pos_of_lt size) (by omega)
    exact .pointed front behind

theorem scientific_unsigned {ds : List Char} (h : IsDigits ds) (power : Int) :
    IsUnsigned (scientific ds power) := by
  have sign : [if power < 0 then '-' else '+'] ∈ [[], ['+'], ['-']] := by
    split <;> decide
  exact .scaled _ h.mantissa (by decide) sign (.digits _)

theorem chars_sqlNumber (negative : Bool) (coefficient : Nat) (exponent : Int) :
    IsSqlNumber (finite negative coefficient exponent).chars := by
  refine .signed negative ?_
  split
  · exact .fixed (pointed_fixed (.digits coefficient) _)
  · exact scientific_unsigned (.digits coefficient) _

end Decimal

theorem lt_pow_length_digits (n : Nat) : n < 10 ^ (digits n).length :=
  (Nat.length_toDigits_le_iff (by decide) Nat.length_toDigits_pos).1 le_rfl

theorem pow_length_digits_le {n : Nat} (h : 0 < n) : 10 ^ ((digits n).length - 1) ≤ n := by
  rcases Nat.eq_zero_or_pos ((digits n).length - 1) with single | more
  · rw [single]
    exact h
  · by_contra below
    have fewer : (digits n).length ≤ (digits n).length - 1 :=
      (Nat.length_toDigits_le_iff (by decide) more).2 (Nat.lt_of_not_le below)
    omega

theorem scaleUp_eq (base : Nat) (power : Int) (n : Nat) :
    scaleUp base power n = n * base ^ power.toNat := rfl

@[simp] theorem scaleUp_zero (base : Nat) (power : Int) : scaleUp base power 0 = 0 := by
  simp [scaleUp]

theorem scaleUp_pos {base n : Nat} (hb : 0 < base) (hn : 0 < n) (power : Int) :
    0 < scaleUp base power n :=
  Nat.mul_pos hn (Nat.pow_pos hb)

theorem scaleUp_le {base m n : Nat} {power greater : Int} (hb : 0 < base) (hn : m ≤ n)
    (hp : power ≤ greater) : scaleUp base power m ≤ scaleUp base greater n :=
  Nat.mul_le_mul hn (Nat.pow_le_pow_right hb (Int.toNat_le_toNat hp))

namespace Binary64

namespace Interval

theorem holds_zero {v : Interval} (h : 0 < v.low) (power : Int) : v.holds 0 power = false := by
  have low : 0 < scaleUp 10 (-power) v.low := scaleUp_pos (by decide) h _
  simp [holds, low.ne']

theorem onGrid_holds {v : Interval} {power : Int} {n : Nat} (h : v.onGrid power = some n) :
    v.holds n power = true := by
  simp only [onGrid] at h
  split_ifs at h with nearest under above
  · cases h
    exact nearest
  · cases h
    exact under
  · cases h
    exact above

theorem onGrid_ne_zero {v : Interval} (h : 0 < v.low) {power : Int} {n : Nat}
    (found : v.onGrid power = some n) : n ≠ 0 := by
  rintro rfl
  have held := onGrid_holds found
  rw [holds_zero h] at held
  cases held

/-- The leading power of ten is not above the number. -/
theorem leadingPower_le {v : Interval} (hv : 0 < v.value) (hd : 0 < v.denominator) :
    scaleUp 10 v.leadingPower v.denominator ≤ scaleUp 10 (-v.leadingPower) v.value := by
  rw [leadingPower, scaleUp_eq, scaleUp_eq]
  split
  · rename_i large
    have least := pow_length_digits_le (Nat.div_pos large hd)
    generalize hn : (digits (v.value / v.denominator)).length = n at least ⊢
    have power : ((n : Int) - 1).toNat = n - 1 := by omega
    have none : (-((n : Int) - 1)).toNat = 0 := by
      have some : 0 < n := hn ▸ Nat.length_toDigits_pos
      omega
    rw [power, none, Nat.pow_zero, Nat.mul_one]
    calc v.denominator * 10 ^ (n - 1)
        ≤ v.denominator * (v.value / v.denominator) := Nat.mul_le_mul_left _ least
      _ ≤ v.value := Nat.mul_div_le _ _
  · have most := lt_pow_length_digits (v.denominator / v.value)
    generalize (digits (v.denominator / v.value)).length = n at most ⊢
    have power : (-(-(n : Int))).toNat = n := by omega
    have none : (-(n : Int)).toNat = 0 := by omega
    rw [power, none, Nat.pow_zero, Nat.mul_one, Nat.mul_comm]
    exact (Nat.lt_mul_of_div_lt most hv).le

theorem search_ne_zero {v : Interval} (h : 0 < v.low) {lead : Int} (hd : 0 < v.denominator)
    (hlead : scaleUp 10 lead v.denominator ≤ scaleUp 10 (-lead) v.value) (tries count : Nat) :
    (v.search lead tries count).1 ≠ 0 := by
  induction tries generalizing count with
  | zero =>
    have size : scaleUp 10 (lead - count) v.denominator ≤ scaleUp 10 (count - lead) v.value :=
      calc scaleUp 10 (lead - count) v.denominator
          ≤ scaleUp 10 lead v.denominator := scaleUp_le (by decide) le_rfl (by omega)
        _ ≤ scaleUp 10 (-lead) v.value := hlead
        _ ≤ scaleUp 10 (count - lead) v.value := scaleUp_le (by decide) le_rfl (by omega)
    exact (Nat.div_pos size (scaleUp_pos (by decide) hd _)).ne'
  | succ tries ih =>
    rw [search]
    split
    · rename_i n found
      exact onGrid_ne_zero h found
    · exact ih (count + 1)

end Interval

theorem shortest_ne_zero {mantissa : Nat} (h : mantissa ≠ 0) (exponent : Int) :
    (shortest mantissa exponent).1 ≠ 0 := by
  have up : 0 < scaleUp 2 exponent 1 := scaleUp_pos (by decide) (by decide) _
  have positive : 0 < mantissa := Nat.pos_of_ne_zero h
  have low : 0 < (intervalOf mantissa exponent).low := by
    refine Nat.mul_pos ?_ up
    split <;> omega
  have value : 0 < (intervalOf mantissa exponent).value := Nat.mul_pos (by omega) up
  have denominator : 0 < (intervalOf mantissa exponent).denominator :=
    scaleUp_pos (by decide) (by decide) _
  exact Interval.search_ne_zero low denominator (Interval.leadingPower_le value denominator) 17 0

theorem dropTrailingZeros_digits {n : Nat} (h : n ≠ 0) : IsDigits (dropTrailingZeros (digits n)) := by
  obtain ⟨-, digit⟩ := IsDigits.digits n
  refine ⟨fun none => h ?_, fun c hc => ?_⟩
  · rw [dropTrailingZeros, List.reverse_eq_nil_iff, List.dropWhile_eq_nil_iff] at none
    have zeros : digits n = List.replicate (digits n).length '0' :=
      List.eq_replicate_iff.2 ⟨rfl, fun c hc => by simpa using none c (List.mem_reverse.2 hc)⟩
    have value : Nat.ofDigitChars 10 (digits n) 0 = n := Nat.ofDigitChars_ten_toDigits
    rw [zeros, Nat.ofDigitChars_replicate_zero] at value
    simpa using value.symm
  · rw [dropTrailingZeros, List.mem_reverse] at hc
    exact digit c (List.mem_reverse.1 ((List.dropWhile_sublist _).subset hc))

theorem positional_fixed {ds : List Char} (h : IsDigits ds) (point : Int) :
    IsFixed (positional ds point) := by
  simp only [positional]
  split_ifs with front behind
  · exact .pointed .zero (.zeros_append _ h)
  · exact .pointed (h.append fun c => isDigit_of_mem_zeros) .zero
  · obtain ⟨whole, fraction⟩ := h.cut (n := point.toNat) (by omega) (by omega)
    exact .pointed whole fraction

theorem exponential_unsigned {ds : List Char} (h : IsDigits ds) (power : Int) :
    IsUnsigned (exponential ds power) := by
  have sign : [if power < 0 then '-' else '+'] ∈ [[], ['+'], ['-']] := by
    split <;> decide
  exact .scaled _ h.mantissa (by decide) sign (.zeros_append _ (.digits _))

theorem chars_sqlNumber (negative : Bool) (mantissa : Nat) (exponent : Int) :
    IsSqlNumber (finite negative mantissa exponent).chars := by
  refine .signed negative ?_
  rw [magnitudeChars]
  split
  · exact .fixed (.pointed .zero .zero)
  · rename_i some
    have significant := dropTrailingZeros_digits (shortest_ne_zero some exponent)
    simp only
    split
    · exact .fixed (positional_fixed significant _)
    · exact exponential_unsigned significant _

end Binary64

theorem IsUnsigned.starts {cs : List Char} (h : IsUnsigned cs) :
    ∃ d rest, cs = d :: rest ∧ d.isDigit = true := by
  have starts {ds : List Char} (h : IsDigits ds) (behind : List Char) :
      ∃ d rest, ds ++ behind = d :: rest ∧ d.isDigit = true := by
    obtain ⟨d, rest, rfl⟩ := List.exists_cons_of_ne_nil h.1
    exact ⟨d, rest ++ behind, rfl, h.2 d List.mem_cons_self⟩
  have fixed {cs : List Char} (h : IsFixed cs) (behind : List Char) :
      ∃ d rest, cs ++ behind = d :: rest ∧ d.isDigit = true := by
    cases h with
    | whole h => exact starts h behind
    | pointed h _ =>
      rw [List.append_assoc]
      exact starts h _
  cases h with
  | fixed h => simpa using fixed h []
  | scaled _ h => exact fixed h _

/-- A number starts with a digit, or with a minus sign and a digit. -/
theorem IsSqlNumber.starts {cs : List Char} (h : IsSqlNumber cs) :
    ∃ d rest, (cs = d :: rest ∨ cs = '-' :: d :: rest) ∧ d.isDigit = true := by
  cases h with
  | unsigned h =>
    obtain ⟨d, rest, rfl, digit⟩ := h.starts
    exact ⟨d, rest, .inl rfl, digit⟩
  | negative h =>
    obtain ⟨d, rest, rfl, digit⟩ := h.starts
    exact ⟨d, rest, .inr rfl, digit⟩

end Number

open Number Grammar

/-- Numbers, the words for nothing and for the truth values, and quoted texts are SQL literals. -/
def IsSqlLiteral (text : String) : Prop :=
  IsSqlNumber text.toList ∨ text ∈ ["NULL", "TRUE", "FALSE"] ∨ ∃ content, text = Text.quote content

/-- A name, perhaps with a minus sign in front. -/
def IsWord (text : String) : Prop :=
  ∃ word, isName word = true ∧ (text = word ∨ text = "-" ++ word)

theorem isName_starts {word : String} (h : isName word = true) :
    ∃ c rest, word.toList = c :: rest ∧ c.isDigit = false ∧ c ≠ '-' ∧ c ≠ '\'' := by
  simp only [isName, Bool.and_eq_true, List.all_eq_true] at h
  obtain ⟨⟨starts, chars⟩, -⟩ := h
  cases spelled : word.toList with
  | nil => simp [spelled] at starts
  | cons c rest =>
    rw [spelled] at starts chars
    have member : isNameChar c = true := chars c List.mem_cons_self
    refine ⟨c, rest, rfl, by simpa using starts, ?_, ?_⟩
    all_goals
      rintro rfl
      exact absurd member (by decide)

theorem IsWord.not_isSqlLiteral {text : String} (h : IsWord text) : ¬ IsSqlLiteral text := by
  obtain ⟨word, named, written⟩ := h
  obtain ⟨c, rest, spelled, letter, unsigned, unquoted⟩ := isName_starts named
  have listed : text.toList = c :: rest ∨ text.toList = '-' :: c :: rest := by
    rcases written with rfl | rfl
    · exact .inl spelled
    · exact .inr (by simp [spelled])
  rintro (number | keyword | ⟨content, rfl⟩)
  · obtain ⟨d, behind, front, digit⟩ := number.starts
    have other : c ≠ d := by
      rintro rfl
      rw [letter] at digit
      cases digit
    have minus : d ≠ '-' := by
      rintro rfl
      cases digit
    rcases listed with same | same <;> rw [same] at front <;> rcases front with plain | signed
    · exact other (List.cons.inj plain).1
    · exact unsigned (List.cons.inj signed).1
    · exact minus (List.cons.inj plain).1.symm
    · exact other (List.cons.inj (List.cons.inj signed).2).1
  · rcases written with rfl | rfl
    · have known : ∀ k ∈ ["NULL", "TRUE", "FALSE"], isName k = false := by decide
      rw [known _ keyword] at named
      cases named
    · have signed : ∀ k ∈ ["NULL", "TRUE", "FALSE"], k.toList.head? ≠ some '-' := by decide
      exact signed _ keyword (by simp)
  · rw [Text.toList_quote, Text.quoteChars] at listed
    rcases listed with same | same
    · exact unquoted (List.cons.inj same).1.symm
    · cases (List.cons.inj same).1

def Scalar.isNumeric : Scalar → Bool
  | int _ | float _ | decimal _ => true
  | _ => false

theorem isName_nan (signalling : Bool) {ds : List Char} (h : ∀ c ∈ ds, c.isDigit = true) :
    isName (String.ofList ((if signalling then ['s'] else []) ++ "NaN".toList ++ ds)) = true := by
  have chars : ds.all isNameChar = true :=
    List.all_eq_true.2 fun c hc => by simp [isNameChar, Char.isAlphanum, h c hc]
  rw [isName, String.toList_ofList, List.all_append, chars]
  cases signalling <;> rfl

theorem Scalar.word_of_special {s : Scalar} (numeric : s.isNumeric = true) (special : s.number? = none) :
    ∃ text, s.literal = .ok text ∧ IsWord text := by
  cases s with
  | int value => cases special
  | float value =>
    refine ⟨value.text, rfl, ?_⟩
    cases value with
    | finite negative mantissa exponent => cases special
    | infinite negative =>
      refine ⟨"inf", by decide, ?_⟩
      cases negative
      · exact .inl rfl
      · exact .inr rfl
    | nan mark => exact ⟨"nan", by decide, .inl rfl⟩
  | decimal value =>
    refine ⟨value.text, rfl, ?_⟩
    cases value with
    | finite negative coefficient exponent => cases special
    | infinite negative =>
      refine ⟨"Infinity", by decide, ?_⟩
      cases negative
      · exact .inl rfl
      · exact .inr rfl
    | nan negative signalling payload mark =>
      have digit : ∀ c ∈ (if payload = 0 then [] else digits payload), c.isDigit = true := by
        split
        · simp
        · exact (IsDigits.digits payload).2
      refine ⟨_, isName_nan signalling digit, ?_⟩
      cases negative
      · exact .inl rfl
      · right
        rw [← String.toList_inj]
        simp [Decimal.text, Decimal.chars, Decimal.signText]
  | null | bool _ | text _ | bytes _ | date _ | time _ | dateTime _ | duration _ | uuid _ => cases numeric

theorem Scalar.sqlNumber_of_finite {s : Scalar} (numeric : s.isNumeric = true)
    (finite : s.number?.isSome = true) : ∃ text, s.literal = .ok text ∧ IsSqlNumber text.toList := by
  cases s with
  | int value => exact ⟨_, rfl, intText_sqlNumber value⟩
  | float value =>
    refine ⟨value.text, rfl, ?_⟩
    rw [Binary64.text, String.toList_ofList]
    cases value with
    | finite negative mantissa exponent => exact Binary64.chars_sqlNumber negative mantissa exponent
    | infinite _ | nan _ => cases finite
  | decimal value =>
    refine ⟨value.text, rfl, ?_⟩
    rw [Decimal.text, String.toList_ofList]
    cases value with
    | finite negative coefficient exponent => exact Decimal.chars_sqlNumber negative coefficient exponent
    | infinite _ | nan _ _ _ _ => cases finite
  | null | bool _ | text _ | bytes _ | date _ | time _ | dateTime _ | duration _ | uuid _ => cases numeric

/-- A finite number is written as an SQL number. Any other one is written as a name, which is no literal of
any kind. -/
theorem Scalar.number_written (s : Scalar) (numeric : s.isNumeric = true) :
    ∃ text, s.literal = .ok text ∧
      (s.number?.isSome = true → IsSqlNumber text.toList) ∧
      (s.number? = none → IsWord text ∧ ¬ IsSqlLiteral text) := by
  cases value : s.number? with
  | none =>
    obtain ⟨text, written, word⟩ := word_of_special numeric value
    exact ⟨text, written, nofun, fun _ => ⟨word, word.not_isSqlLiteral⟩⟩
  | some n =>
    obtain ⟨text, written, number⟩ := sqlNumber_of_finite numeric (by rw [value]; rfl)
    exact ⟨text, written, fun _ => number, nofun⟩

theorem Scalar.notNumber_written :
    (Scalar.float (.nan 0)).isNumeric = true ∧ (Scalar.float (.nan 0)).number? = none ∧
    (Scalar.float (.nan 0)).literal = .ok "nan" ∧ IsWord "nan" ∧ ¬ IsSqlLiteral "nan" := by
  obtain ⟨text, written, -, special⟩ := number_written (.float (.nan 0)) rfl
  have spelled : (Scalar.float (.nan 0)).literal = .ok "nan" := by decide
  rw [spelled] at written
  cases written
  exact ⟨rfl, rfl, spelled, special rfl⟩

end SqlComposition
