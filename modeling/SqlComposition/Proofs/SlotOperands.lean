import SqlComposition.Proofs.Adjacency
import SqlComposition.Proofs.Emission
import SqlComposition.Proofs.LiteralReading
import SqlComposition.Proofs.Slots

/-!
Values in slots as operands. Plain data is written as a literal, and a literal read by itself is one token.
In a slot it stands side by side with the text of the fragment and with the literals of other slots, with
nothing between them. The inlined text has one token for each value exactly when nothing goes together
where a slot begins or ends.
-/

namespace SqlComposition
open Adjacency
open Quotes (Mark Balanced IsClean)

namespace Constant

def token : Constant → Adjacency.Token
  | null => .word "NULL"
  | bool value => .word (if value then "TRUE" else "FALSE")
  | int value => .number (decide (value < 0)) (Number.natText value.natAbs)
  | text value => .quoted .single value

end Constant

/-- The tokens with values in the place of the first question marks. -/
def Adjacency.substitute : List Adjacency.Token → List Adjacency.Token → List Adjacency.Token
  | [], _ => []
  | tokens, [] => tokens
  | token :: rest, value :: values =>
    if token = .symbol '?' then value :: substitute rest values
    else token :: substitute rest (value :: values)

/-- A fragment of plain data. -/
def Fragment.ofConstants (sql : String) (values : List Constant) : Fragment :=
  ⟨sql, values.map fun c => .scalar c.scalar⟩

/-- The texts that are written side by side: those around the slots, and those that the slots are filled
with. -/
def Fragment.strips (sql : String) (values : List Constant) : List (List Char) :=
  Layout.fill String.toList (Slot.segments sql.toList) (values.map fun c => [c.literal.toList])

namespace Adjacency

theorem run_tokens_all (negative : Bool) (chars : List Char) {rest : List Char}
    (h : ∀ c ∈ rest, isRunChar c = true) :
    (Mode.run negative chars).tokens rest = [Mode.runToken negative (chars ++ rest)] := by
  induction rest generalizing chars with
  | nil => rw [Mode.tokens_nil, Mode.finish, List.append_nil]
  | cons c rest ih =>
    obtain ⟨member, others⟩ := List.forall_mem_cons.1 h
    rw [Mode.tokens_further (by rw [Mode.further?, if_pos member]), ih _ others, List.append_assoc,
      List.singleton_append]

theorem tokens_inside_doubled (content cs : List Char) :
    (Mode.inside .single content).tokens (Text.doubled cs ++ ['\'']) =
      [.quoted .single (String.ofList (content ++ cs))] := by
  induction cs generalizing content with
  | nil => simp [Text.doubled, Mode.tokens, Mode.further?, Mark.char, Mode.finish]
  | cons c cs ih =>
    have later := ih (content ++ [c])
    rw [List.append_assoc, List.singleton_append] at later
    by_cases h : c = '\''
    · simpa [Text.doubled, h, Mode.tokens, Mode.further?, Mark.char] using later
    · simpa [Text.doubled, h, Mode.tokens, Mode.further?, Mark.char] using later

end Adjacency

namespace Constant

theorem tokens_digits (negative : Bool) (n : Nat) :
    ∃ first rest, Number.digits n = first :: rest ∧ first.isDigit = true ∧
      (Mode.run negative [first]).tokens rest = [.number negative (Number.natText n)] := by
  obtain ⟨-, digit⟩ := digits_read n
  have some : Number.digits n ≠ [] := Nat.toDigits_ne_nil
  obtain ⟨first, rest, split⟩ := List.exists_cons_of_ne_nil some
  rw [split] at digit
  obtain ⟨start, others⟩ := List.forall_mem_cons.1 digit
  have run : ∀ c ∈ rest, isRunChar c = true := fun c hc => Mode.isRunChar_of_isDigit (others c hc)
  refine ⟨first, rest, split, start, ?_⟩
  rw [run_tokens_all _ _ run, List.singleton_append, ← split, Number.natText]
  simp [Mode.runToken, split, start]

/-- A literal by itself is one token. -/
theorem tokens_literal (c : Constant) : tokens c.literal.toList = [c.token] := by
  cases c with
  | null => decide
  | bool value => cases value <;> decide
  | int value =>
    cases value with
    | ofNat n =>
      obtain ⟨first, rest, split, digit, read⟩ := tokens_digits false n
      have nonnegative : decide (Int.ofNat n < 0) = false := by simp
      have opened : tokens (first :: rest) = (Mode.run false [first]).tokens rest := by
        have start := Mode.start_of_isRunChar (Mode.isRunChar_of_isDigit digit)
        simp [tokens, Mode.tokens, Mode.further?, Mode.finish, Mode.alone, start]
      rw [token, nonnegative, literal, Number.intText, Number.natText, String.toList_ofList, split, opened,
        read]
      rfl
    | negSucc n =>
      obtain ⟨first, rest, split, digit, read⟩ := tokens_digits true (n + 1)
      have negative : decide (Int.negSucc n < 0) = true := by simp [Int.negSucc_lt_zero]
      have sign : Mode.minus.further? first = some (.run true [first]) := by
        rw [Mode.further?, if_neg (Mode.ne_minus_of_isRunChar (Mode.isRunChar_of_isDigit digit)),
          if_pos digit]
      have opened : tokens ('-' :: first :: rest) = Mode.minus.tokens (first :: rest) := rfl
      rw [token, negative, literal, Number.intText, String.toList_ofList, split, opened,
        Mode.tokens_further sign, read]
      rfl
  | text value =>
    have opened (cs : List Char) : tokens ('\'' :: cs) = (Mode.inside .single []).tokens cs := rfl
    rw [literal, Text.toList_quote, Text.quoteChars, opened, tokens_inside_doubled, List.nil_append,
      String.ofList_toList]
    rfl

/-- A literal ends no line, and closes the quotes that it opens. -/
theorem isClosed_literal (c : Constant) : IsClosed c.literal.toList := by
  have free : hasComment c.literal.toList = false := by
    rw [hasComment, tokens_literal]
    cases c <;> rfl
  exact isClosed_of_balanced (Scalar.isLiteral c.scalar_literal).balanced free

end Constant

namespace Adjacency

theorem clings_mark (x : Char) : clings x '?' = false := by
  have apart : isRunChar '?' = false := rfl
  have sign : '?'.isDigit = false := rfl
  by_cases same : x = '?'
  · subst same
    rfl
  · simp [clings, apart, sign, same]

/-- A question mark goes together with nothing. -/
theorem tokens_mark {a : List Char} (ha : IsClosed a) (rest : List Char) :
    tokens (a ++ '?' :: rest) = tokens a ++ .symbol '?' :: tokens rest := by
  have alone : tokens ('?' :: rest) = .symbol '?' :: tokens rest := rfl
  by_cases some : a = []
  · subst some
    exact alone
  · have last := List.getLast?_eq_some_getLast some
    exact (tokens_append_eq_iff ha last '?' rest _).2 ⟨clings_mark _, alone⟩

theorem mark_notMem_finish (m : Mode) : .symbol '?' ∉ m.finish := by
  cases m with
  | run negative chars =>
    rw [Mode.finish, Mode.runToken]
    split <;> simp
  | _ => simp [Mode.finish]

theorem eq_mark_of_mem_passed {m : Mode} {c : Char} (h : .symbol '?' ∈ m.passed c) :
    m.open? = none ∧ c = '?' := by
  rw [Mode.passed] at h
  split at h
  · cases h
  · rename_i ends
    have shut : m.open? = none := by
      cases m with
      | inside mark content => cases ends
      | _ => rfl
    have alone := (List.mem_append.1 h).resolve_left (mark_notMem_finish m)
    unfold Mode.alone at alone
    split at alone
    · split at alone
      · cases alone
      · exact ⟨shut, (Token.symbol.inj (List.mem_singleton.1 alone)).symm⟩
    · cases alone

/-- Without comments, a question mark is read as itself only where it is a slot. -/
theorem mark_notMem_tokens {m : Mode} {cs : List Char}
    (hc : (m.tokens cs).any Token.isComment = false) (hu : Quotes.IsUncut m.open? cs) :
    .symbol '?' ∉ m.tokens cs := by
  induction cs generalizing m with
  | nil =>
    rw [Mode.tokens_nil]
    exact mark_notMem_finish m
  | cons c rest ih =>
    have now := Mode.isComment_of_tokens hc
    obtain ⟨slot, uncut⟩ := hu.of_cons
    rw [Mode.tokens_cons, List.any_append, Bool.or_eq_false_iff] at hc
    rw [← Mode.open?_next now] at uncut
    rw [Mode.tokens_cons, List.mem_append, not_or]
    exact ⟨fun first => slot (eq_mark_of_mem_passed first), ih hc.2 uncut⟩

/-- The text of a fragment is read segment by segment. -/
theorem tokens_intercalate {segments : List (List Char)} (hs : segments ≠ [])
    (clean : ∀ segment ∈ segments, IsClean segment)
    (hc : hasComment (['?'].intercalate segments) = false) :
    (∀ segment ∈ segments, IsClosed segment ∧ .symbol '?' ∉ tokens segment) ∧
      tokens (['?'].intercalate segments) = [.symbol '?'].intercalate (segments.map tokens) := by
  induction segments with
  | nil => exact absurd rfl hs
  | cons segment rest ih =>
    obtain ⟨first, others⟩ := List.forall_mem_cons.1 clean
    cases rest with
    | nil =>
      rw [List.intercalate_singleton] at hc
      have alone : IsClosed segment ∧ .symbol '?' ∉ tokens segment :=
        ⟨isClosed_of_balanced first.balanced hc, mark_notMem_tokens hc first.uncut⟩
      exact ⟨List.forall_mem_singleton.2 alone, by simp⟩
    | cons next rest =>
      rw [List.intercalate_cons_cons, List.append_assoc, List.singleton_append] at hc
      have free := hasComment_of_append hc
      have closed := isClosed_of_balanced first.balanced free
      have read := tokens_mark closed (['?'].intercalate (next :: rest))
      rw [hasComment, read, List.any_append, List.any_cons, Bool.or_eq_false_iff, Bool.or_eq_false_iff] at hc
      obtain ⟨all, later⟩ := ih (List.cons_ne_nil next rest) others hc.2.2
      refine ⟨List.forall_mem_cons.2 ⟨⟨closed, mark_notMem_tokens free first.uncut⟩, all⟩, ?_⟩
      rw [List.intercalate_cons_cons, List.append_assoc, List.singleton_append, read, later, List.map_cons,
        List.map_cons, List.map_cons, List.intercalate_cons_cons, List.append_assoc, List.singleton_append]

theorem substitute_nil (tokens : List Token) : substitute tokens [] = tokens := by
  cases tokens <;> rfl

theorem substitute_mark (later : List Token) (value : Token) (values : List Token) :
    substitute (.symbol '?' :: later) (value :: values) = value :: substitute later values := by
  simp [substitute]

theorem substitute_append {front : List Token} (hf : .symbol '?' ∉ front) (later values : List Token) :
    substitute (front ++ later) values = front ++ substitute later values := by
  cases values with
  | nil => rw [substitute_nil, substitute_nil]
  | cons value values =>
    induction front with
    | nil => rfl
    | cons token rest ih =>
      obtain ⟨other, free⟩ := List.ne_and_not_mem_of_not_mem_cons hf
      rw [List.cons_append, substitute, if_neg other.symm, ih free, List.cons_append]

/-- Values take the place of question marks as literals fill slots. -/
theorem substitute_intercalate {segments : List (List Char)}
    (free : ∀ segment ∈ segments, .symbol '?' ∉ tokens segment) (values : List Constant) :
    substitute ([.symbol '?'].intercalate (segments.map tokens)) (values.map Constant.token) =
      (Layout.fill String.toList segments (values.map fun c => [c.literal.toList])).flatMap tokens := by
  induction segments generalizing values with
  | nil => rfl
  | cons segment rest ih =>
    obtain ⟨first, others⟩ := List.forall_mem_cons.1 free
    by_cases some : rest = []
    · subst some
      rw [List.map_singleton, List.intercalate_singleton, ← List.append_nil (tokens segment),
        substitute_append first, Layout.fill]
      simp [substitute]
    · rw [List.map_cons, List.intercalate_cons_of_ne_nil (by simpa using some), List.append_assoc,
        List.singleton_append, substitute_append first]
      cases values with
      | nil =>
        have mark : tokens "?".toList = [.symbol '?'] := rfl
        have later := ih others []
        rw [List.map_nil, substitute_nil] at later
        rw [List.map_nil, List.map_nil, substitute_nil, Layout.fill, List.flatMap_cons, List.flatMap_cons,
          String.toList_ofList, mark, later]
        · rfl
        · exact some
      | cons c values =>
        rw [List.map_cons, List.map_cons, substitute_mark, ih others, Layout.fill, List.flatMap_cons,
          String.toList_ofList, List.singleton_append, List.flatMap_cons, c.tokens_literal,
          List.singleton_append]
        exact some

end Adjacency

namespace Fragment

theorem strips_closed {sql : String} (values : List Constant)
    (hs : ∀ segment ∈ Slot.segments sql.toList, IsClosed segment) :
    ∀ text ∈ strips sql values, IsClosed text := by
  intro text ht
  rcases Layout.mem_fill ht with ⟨segment, hm, rfl⟩ | ⟨rfl, -⟩ | ⟨_, hm, hx⟩
  · rw [String.toList_ofList]
    exact hs segment hm
  · exact rfl
  · obtain ⟨c, -, rfl⟩ := List.mem_map.1 hm
    rw [List.mem_singleton.1 hx]
    exact c.isClosed_literal

section Filling

variable {segments : List (List Char)}

theorem inlined_fill (segments : List (List Char)) (values : List Constant) :
    Piece.inlined (Layout.fill .text segments (values.map fun c => [.value (.scalar c.scalar)])) =
      .ok (String.ofList
        (Layout.fill String.toList segments (values.map fun c => [c.literal.toList])).flatten) := by
  induction segments generalizing values with
  | nil => rfl
  | cons segment rest ih =>
    cases rest with
    | nil => simp [Layout.fill, Piece.inlined, Except.map]
    | cons next rest =>
      cases values with
      | nil =>
        have later := ih []
        rw [List.map_nil] at later
        simp [Layout.fill, later, Except.map, String.ofList_append]
      | cons c values =>
        simp [Layout.fill, Piece.inlined, ih values, c.scalar_literal, Except.map, String.ofList_append,
          bind, Except.bind, pure, Except.pure]

/-- The values that have slots are listed, and each slot that has a value is written as a question mark. -/
theorem bound_fill (count : Nat) (hs : segments ≠ []) (values : List Constant) :
    Piece.bound (fun _ => "?") count
        (Layout.fill .text segments (values.map fun c => [.value (.scalar c.scalar)])) =
      .ok (String.ofList (['?'].intercalate segments),
        (values.take (segments.length - 1)).map fun c => .scalar c.scalar) := by
  induction segments generalizing values count with
  | nil => exact absurd rfl hs
  | cons segment rest ih =>
    cases rest with
    | nil => simp [Layout.fill, Piece.bound, bind, Except.bind, pure, Except.pure]
    | cons next rest =>
      have some : next :: rest ≠ [] := List.cons_ne_nil next rest
      cases values with
      | nil =>
        have later := ih count some []
        rw [List.map_nil] at later
        simp [Layout.fill, Piece.bound_text, later, Except.map, String.ofList_append]
      | cons c values =>
        simp [Layout.fill, Piece.bound_text, Piece.bound_value, ih _ some values, Except.map,
          String.ofList_append]

end Filling

theorem pieces_ofConstants (sql : String) (values : List Constant) (nesting : Nesting) :
    ((ofConstants sql values).layout nesting).pieces =
      Layout.fill .text (Slot.segments sql.toList) (values.map fun c => [.value (.scalar c.scalar)]) := by
  rw [ofConstants, layout, Layout.pieces, Layout.piecesOfEach_eq_map, Value.layouts_eq_map, List.map_map,
    List.map_map]
  congr 1

/-- Plain data is written into the slots of a fragment without blanks. The text that results is read as
the text with placeholders is, with a token for each value in the place of its placeholder, exactly when
no literal goes together with what stands next to it. -/
theorem slots_read {sql : String} (hb : Balanced sql.toList) (hc : hasComment sql.toList = false)
    (values : List Constant) (nesting : Nesting) (count : Nat) :
    ∃ written shown,
      Piece.inlined ((ofConstants sql values).layout nesting).pieces = .ok written ∧
        Piece.bound (fun _ => "?") count ((ofConstants sql values).layout nesting).pieces =
          .ok (shown, (values.take (Slot.count sql.toList)).map fun c => .scalar c.scalar) ∧
        (tokens written.toList = substitute (tokens shown.toList) (values.map Constant.token) ↔
          AreApart (strips sql values)) := by
  have some : Slot.segments sql.toList ≠ [] := Slot.segmentsFrom_ne_nil 0 sql.toList
  have whole := Slot.intercalate_segments sql.toList
  obtain ⟨closed, read⟩ := tokens_intercalate some (IsClean.segments hb) (by rwa [whole])
  rw [whole] at read
  refine ⟨_, sql, by rw [pieces_ofConstants, inlined_fill], ?_, ?_⟩
  · rw [pieces_ofConstants, bound_fill count some, whole, String.ofList_toList, Slot.count]
  · rw [String.toList_ofList, read, substitute_intercalate fun segment hs => (closed segment hs).2]
    exact tokens_flatten_iff (strips_closed values fun segment hs => (closed segment hs).1)

/-- A minus sign in front of a slot and that of a negative number start a comment. It ends in the text
that the second slot is filled with, so that what follows there is read as SQL. -/
theorem minus_slots_read :
    let sql := "a-? AND b = ?"
    let values : List Constant := [.int (-1), .text "\nOR 1=1 --"]
    ¬ AreApart (strips sql values) ∧
      tokens "a--1 AND b = '\nOR 1=1 --'".toList =
        [.word "a", .comment "1 AND b = '", .word "OR", .number false "1", .symbol '=', .number false "1",
          .comment "'"] ∧
      ∃ written shown,
        Piece.inlined ((ofConstants sql values).layout .full).pieces = .ok written ∧
          Piece.bound (fun _ => "?") 0 ((ofConstants sql values).layout .full).pieces =
            .ok (shown, (values.take (Slot.count sql.toList)).map fun c => .scalar c.scalar) ∧
          (tokens written.toList = substitute (tokens shown.toList) (values.map Constant.token) ↔
            AreApart (strips sql values)) :=
  ⟨by decide, by decide, slots_read (by decide) (by decide) _ .full 0⟩

end Fragment

end SqlComposition
