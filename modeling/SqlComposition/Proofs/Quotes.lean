import SqlComposition.Slot
import SqlComposition.Text.Quoted

/-!
Quotes in SQL text. The text is read from left to right into quoted literals, quoted names and single
characters; inside quotes, the mark that opened them stands for itself where it is doubled. Whether a
doubled mark or the end of the quotes was met shows only with the next character, so a text that follows
may go on with a literal that seemed to be over.
-/

namespace SqlComposition.Quotes

inductive Mark where
  | single | double
  deriving DecidableEq

namespace Mark

def char : Mark → Char
  | single => '\''
  | double => '"'

def ofChar? (c : Char) : Option Mark :=
  if c = '\'' then some single else if c = '"' then some double else none

theorem ofChar?_char (mark : Mark) : ofChar? mark.char = some mark := by
  cases mark <;> rfl

theorem ofChar?_eq_some {c : Char} {mark : Mark} (h : ofChar? c = some mark) : c = mark.char := by
  unfold ofChar? at h
  split at h
  · cases h
    assumption
  · split at h
    · cases h
      assumption
    · cases h

theorem exists_char_eq {c : Char} (h : c = '\'' ∨ c = '"') : ∃ mark, c = char mark := by
  rcases h with rfl | rfl
  · exact ⟨single, rfl⟩
  · exact ⟨double, rfl⟩

theorem ofChar?_eq_none {p : Char → Bool} (hp : ∀ mark, p (char mark) = false) {c : Char}
    (h : p c = true) : ofChar? c = none := by
  cases found : ofChar? c with
  | none => rfl
  | some mark =>
    rw [ofChar?_eq_some found, hp mark] at h
    cases h

end Mark

inductive Token where
  | quoted (mark : Mark) (content : String)
  | plain (c : Char)
  /-- A quotation that the text ends in. -/
  | unclosed (mark : Mark) (content : String)
  deriving DecidableEq

/-- Where the reading of a text stands. After a mark inside quotes it is open whether they are closed. -/
inductive Mode where
  | outside
  | inside (mark : Mark) (content : List Char)
  | closing (mark : Mark) (content : List Char)
  deriving DecidableEq

namespace Mode

def next : Mode → Char → Mode
  | outside, c => ((Mark.ofChar? c).map (inside · [])).getD outside
  | inside mark content, c =>
    if c = mark.char then closing mark content else inside mark (content ++ [c])
  | closing mark content, c =>
    if c = mark.char then inside mark (content ++ [c])
    else ((Mark.ofChar? c).map (inside · [])).getD outside

def emitted : Mode → Char → List Token
  | outside, c => if (Mark.ofChar? c).isSome then [] else [.plain c]
  | inside _ _, _ => []
  | closing mark content, c =>
    if c = mark.char then []
    else
      .quoted mark (String.ofList content) :: if (Mark.ofChar? c).isSome then [] else [.plain c]

def finish : Mode → List Token
  | outside => []
  | inside mark content => [.unclosed mark (String.ofList content)]
  | closing mark content => [.quoted mark (String.ofList content)]

def after (m : Mode) (cs : List Char) : Mode :=
  cs.foldl next m

/-- The tokens that are over by the end of a text. -/
def passed : Mode → List Char → List Token
  | _, [] => []
  | m, c :: rest => m.emitted c ++ (m.next c).passed rest

/-- The tokens of the rest of a text. -/
def tokens (m : Mode) (cs : List Char) : List Token :=
  m.passed cs ++ (m.after cs).finish

@[simp] theorem tokens_nil (m : Mode) : m.tokens [] = m.finish := rfl

@[simp] theorem tokens_cons (m : Mode) (c : Char) (rest : List Char) :
    m.tokens (c :: rest) = m.emitted c ++ (m.next c).tokens rest := by
  simp [tokens, passed, after]

theorem tokens_append (m : Mode) (a b : List Char) :
    m.tokens (a ++ b) = m.passed a ++ (m.after a).tokens b := by
  induction a generalizing m with
  | nil => rfl
  | cons c rest ih =>
    rw [List.cons_append, tokens_cons, ih, passed, List.append_assoc]
    rfl

/-- Quotes are over as soon as something other than their own mark follows. -/
theorem tokens_closing {mark : Mark} {c : Char} (h : c ≠ mark.char) (content rest : List Char) :
    (closing mark content).tokens (c :: rest) =
      .quoted mark (String.ofList content) :: outside.tokens (c :: rest) := by
  simp [emitted, next, h]

def open? : Mode → Option Mark
  | inside mark _ => some mark
  | _ => none

end Mode

/-- What is open after a character, going by what was open before it. -/
def toggle : Option Mark → Char → Option Mark
  | none, c => Mark.ofChar? c
  | some mark, c => if c = mark.char then none else some mark

theorem Mode.open?_next (m : Mode) (c : Char) : (m.next c).open? = toggle m.open? c := by
  cases m with
  | outside => cases h : Mark.ofChar? c <;> simp [next, open?, toggle, h]
  | inside mark content => by_cases h : c = mark.char <;> simp [next, open?, toggle, h]
  | closing mark content =>
    by_cases h : c = mark.char
    · simp [next, open?, toggle, h, Mark.ofChar?_char]
    · cases hc : Mark.ofChar? c <;> simp [next, open?, toggle, h, hc]

theorem Mode.open?_after (m : Mode) (cs : List Char) :
    (m.after cs).open? = cs.foldl toggle m.open? := by
  induction cs generalizing m with
  | nil => rfl
  | cons c rest ih =>
    rw [List.foldl_cons, ← open?_next]
    exact ih (m.next c)

/-- All quotes that are opened are closed. -/
def Balanced (cs : List Char) : Prop :=
  cs.foldl toggle none = none

instance (cs : List Char) : Decidable (Balanced cs) :=
  inferInstanceAs (Decidable (_ = _))

theorem Mode.open?_after_of_balanced {m : Mode} (hm : m.open? = none) {cs : List Char}
    (h : Balanced cs) : (m.after cs).open? = none := by
  rw [open?_after, hm, h]

theorem Balanced.append {a b : List Char} (ha : Balanced a) (hb : Balanced b) :
    Balanced (a ++ b) := by
  rw [Balanced, List.foldl_append, ha, hb]

def IsBare (cs : List Char) : Prop :=
  ∀ c ∈ cs, Mark.ofChar? c = none

instance (cs : List Char) : Decidable (IsBare cs) :=
  List.decidableBAll _ cs

namespace IsBare

theorem balanced {cs : List Char} (h : IsBare cs) : Balanced cs := by
  induction cs with
  | nil => rfl
  | cons c rest ih =>
    obtain ⟨bare, others⟩ := List.forall_mem_cons.1 h
    rw [Balanced, List.foldl_cons, toggle, bare]
    exact ih others

theorem ne_char {c : Char} (h : Mark.ofChar? c = none) (mark : Mark) : c ≠ mark.char := by
  rintro rfl
  rw [Mark.ofChar?_char] at h
  cases h

theorem next {m : Mode} (hm : m.open? = none) {c : Char} (h : Mark.ofChar? c = none) :
    m.next c = .outside := by
  cases m with
  | outside => simp [Mode.next, h]
  | inside mark content => cases hm
  | closing mark content => simp [Mode.next, h, ne_char h mark]

theorem after {m : Mode} (hm : m.open? = none) {c : Char} {rest : List Char}
    (h : IsBare (c :: rest)) : m.after (c :: rest) = .outside := by
  obtain ⟨bare, others⟩ := List.forall_mem_cons.1 h
  rw [Mode.after, List.foldl_cons, next hm bare]
  clear h hm bare
  induction rest with
  | nil => rfl
  | cons d rest ih =>
    obtain ⟨bare, others⟩ := List.forall_mem_cons.1 others
    rw [List.foldl_cons, next rfl bare]
    exact ih others

end IsBare

theorem foldl_toggle_doubled (cs : List Char) :
    (Text.doubled cs).foldl toggle (some .single) = some .single := by
  induction cs with
  | nil => rfl
  | cons c rest ih =>
    by_cases h : c = '\'' <;> simp [Text.doubled, h, toggle, Mark.char, Mark.ofChar?, ih]

theorem balanced_quoteChars (cs : List Char) : Balanced (Text.quoteChars cs) := by
  have opened : toggle none '\'' = some .single := rfl
  rw [Balanced, Text.quoteChars, List.foldl_cons, opened, List.foldl_append, foldl_toggle_doubled]
  rfl

theorem tokens_inside_doubled (content cs rest : List Char) :
    (Mode.inside .single content).tokens (Text.doubled cs ++ '\'' :: rest) =
      (Mode.closing .single (content ++ cs)).tokens rest := by
  induction cs generalizing content with
  | nil => simp [Text.doubled, Mode.emitted, Mode.next, Mark.char]
  | cons c cs ih =>
    have later := ih (content ++ [c])
    rw [List.append_assoc, List.singleton_append] at later
    by_cases h : c = '\''
    · simpa [Text.doubled, h, Mode.emitted, Mode.next, Mark.char] using later
    · simpa [Text.doubled, h, Mode.emitted, Mode.next, Mark.char] using later

/-- A text put between quotes is read back as it was, whatever it holds; the text that follows decides
whether it goes on. -/
theorem tokens_quoteChars (cs rest : List Char) :
    Mode.outside.tokens (Text.quoteChars cs ++ rest) = (Mode.closing .single cs).tokens rest := by
  have opened : Mode.outside.next '\'' = .inside .single [] := rfl
  have silent : Mode.outside.emitted '\'' = [] := rfl
  rw [Text.quoteChars, List.cons_append, Mode.tokens_cons, opened, silent, List.append_assoc,
    List.singleton_append, tokens_inside_doubled]
  rfl

section Slots

variable {mark : Mark}

/-- A quoted span ends where its quotes are closed. -/
theorem foldl_toggle_span {cs : List Char} {n : Nat} (h : Slot.spanLength mark.char cs = some n) :
    (cs.take n).foldl toggle (some mark) = none := by
  fun_induction Slot.spanLength mark.char cs generalizing n with
  | case1 => cases h
  | case2 =>
    cases h
    simp [toggle]
  | case3 => cases h
  | case4 rest m found ih =>
    cases h
    simpa [toggle, Mark.ofChar?_char] using ih found
  | case5 | case6 =>
    cases h
    simp [toggle]
  | case7 c d rest other ih =>
    obtain ⟨m, found, rfl⟩ := Option.map_eq_some_iff.1 h
    simpa [toggle, other] using ih found

/-- Quotes without a span stay open. -/
theorem foldl_toggle_noSpan {cs : List Char} (h : Slot.spanLength mark.char cs = none) :
    cs.foldl toggle (some mark) = some mark := by
  fun_induction Slot.spanLength mark.char cs with
  | case1 => rfl
  | case2 => cases h
  | case3 c other => simp [toggle, other]
  | case4 | case5 | case6 => cases h
  | case7 c d rest other ih =>
    have later := ih (Option.map_eq_none_iff.1 h)
    rw [List.foldl_cons, toggle, if_neg other]
    exact later

/-- The first segment closes what is open before it, and the others what they open. -/
def ClosedFrom (state : Option Mark) (segments : List (List Char)) : Prop :=
  ∃ first others, segments = first :: others ∧ first.foldl toggle state = none ∧
    ∀ segment ∈ others, Balanced segment

namespace ClosedFrom

variable {segments : List (List Char)}

theorem grow {state : Option Mark} {c : Char} (h : ClosedFrom (toggle state c) segments) :
    ClosedFrom state (Slot.grow c segments) := by
  obtain ⟨first, others, rfl, closed, all⟩ := h
  exact ⟨c :: first, others, rfl, closed, all⟩

theorem balanced (h : ClosedFrom none segments) : ∀ segment ∈ segments, Balanced segment := by
  obtain ⟨first, others, rfl, closed, all⟩ := h
  exact List.forall_mem_cons.2 ⟨closed, all⟩

theorem slot (h : ClosedFrom none segments) : ClosedFrom none ([] :: segments) :=
  ⟨[], segments, rfl, rfl, h.balanced⟩

end ClosedFrom

/-- Slots lie outside of quotes, so each segment between two of them closes what it opens. -/
theorem closedFrom_segmentsFrom {held : Nat} {cs : List Char} {state : Option Mark}
    (hh : (cs.take held).foldl toggle state = none) (hc : cs.foldl toggle state = none) :
    ClosedFrom state (Slot.segmentsFrom held cs) := by
  induction cs generalizing held state with
  | nil => exact ⟨[], [], by simp [Slot.segmentsFrom], hc, by simp⟩
  | cons c rest ih =>
    cases held with
    | succ held =>
      rw [Slot.segmentsFrom]
      exact (ih hh hc).grow
    | zero =>
      have start : state = none := hh
      subst start
      rw [Slot.segmentsFrom]
      split
      · rename_i slot
        subst slot
        have outside : (rest.take 0).foldl toggle none = none := rfl
        exact (ih outside hc).slot
      · split
        · rename_i quote
          obtain ⟨mark, rfl⟩ := Mark.exists_char_eq quote
          have opened : toggle none mark.char = some mark := Mark.ofChar?_char mark
          -- A quote that is open to the end would leave the whole open.
          cases span : Slot.spanLength mark.char rest with
          | none =>
            rw [List.foldl_cons, opened, foldl_toggle_noSpan span] at hc
            cases hc
          | some n =>
            have closed : (rest.take n).foldl toggle (toggle none mark.char) = none := by
              rw [opened, foldl_toggle_span span]
            exact (ih closed hc).grow
        · rename_i other
          have bare : toggle none c = none := by
            simp only [toggle, Mark.ofChar?]
            rw [if_neg fun h => other (.inl h), if_neg fun h => other (.inr h)]
          have closed : (rest.take 0).foldl toggle (toggle none c) = none := bare
          exact (ih closed hc).grow

theorem balanced_segments {cs : List Char} (h : Balanced cs) :
    ∀ segment ∈ Slot.segments cs, Balanced segment := by
  have start : (cs.take 0).foldl toggle none = none := rfl
  exact (closedFrom_segmentsFrom start h).balanced

end Slots

end SqlComposition.Quotes
