import SqlComposition.Slot

/-!
Quoted spans as such. A text is read from left to right into quoted spans, bare question marks and other
characters: where a span starts the longest one is taken, and a quote that starts none is a character like
any other. A text has one reading, and its slots are the bare question marks of it.
-/

namespace SqlComposition.Slot

/-- What may stand between the quotes of a span: each quote of their kind is doubled. -/
inductive IsInside (mark : Char) : List Char → Prop where
  | nil : IsInside mark []
  | other {c : Char} {rest : List Char} : c ≠ mark → IsInside mark rest → IsInside mark (c :: rest)
  | doubled {rest : List Char} : IsInside mark rest → IsInside mark (mark :: mark :: rest)

def IsQuote (c : Char) : Prop :=
  c = '\'' ∨ c = '"'

def IsSpan (cs : List Char) : Prop :=
  ∃ mark inside, IsQuote mark ∧ IsInside mark inside ∧ cs = mark :: (inside ++ [mark])

/-- The longest span that a text starts with. -/
structure IsLongestSpan (span cs : List Char) : Prop where
  isSpan : IsSpan span
  starts : span <+: cs
  longest : ∀ other, IsSpan other → other <+: cs → other.length ≤ span.length

/-- What a text is read into. -/
inductive Element where
  | quoted (span : List Char)
  | slot
  | plain (c : Char)
  deriving DecidableEq

namespace Element

def chars : Element → List Char
  | quoted span => span
  | slot => ['?']
  | plain c => [c]

def text (elements : List Element) : List Char :=
  elements.flatMap chars

end Element

open Element

/-- The elements of a text, found from left to right. -/
inductive Reads : List Char → List Element → Prop where
  | nil : Reads [] []
  | quoted {span rest cs : List Char} {elements : List Element} : IsLongestSpan span cs →
      cs = span ++ rest → Reads rest elements → Reads cs (quoted span :: elements)
  | slot {rest : List Char} {elements : List Element} : Reads rest elements →
      Reads ('?' :: rest) (slot :: elements)
  | plain {c : Char} {rest : List Char} {elements : List Element} : c ≠ '?' →
      (∀ span, IsSpan span → ¬span <+: c :: rest) → Reads rest elements →
      Reads (c :: rest) (plain c :: elements)

theorem IsSpan.head_ne_slot {span rest : List Char} (h : IsSpan span) : ¬span <+: '?' :: rest := by
  obtain ⟨mark, inside, quote, -, rfl⟩ := h
  intro starts
  have same : mark = '?' := (List.cons_prefix_cons.1 starts).1
  subst same
  rcases quote with h | h <;> cases h

/-- Two longest spans of a text are the same. -/
theorem IsLongestSpan.eq {a b cs : List Char} (ha : IsLongestSpan a cs) (hb : IsLongestSpan b cs) :
    a = b := by
  have length : a.length = b.length :=
    Nat.le_antisymm (hb.longest a ha.isSpan ha.starts) (ha.longest b hb.isSpan hb.starts)
  exact (List.prefix_of_prefix_length_le ha.starts hb.starts (Nat.le_of_eq length)).eq_of_length length

theorem Reads.text_eq {cs : List Char} {elements : List Element} (h : Reads cs elements) :
    text elements = cs := by
  induction h with
  | nil => rfl
  | quoted _ split _ ih =>
    rw [split, ← ih]
    rfl
  | slot _ ih =>
    rw [← ih]
    rfl
  | plain _ _ _ ih =>
    rw [← ih]
    rfl

theorem Reads.unique {cs : List Char} {a b : List Element} (ha : Reads cs a) (hb : Reads cs b) :
    a = b := by
  induction ha generalizing b with
  | nil =>
    cases hb with
    | nil => rfl
    | quoted longest _ _ =>
      obtain ⟨mark, inside, -, -, rfl⟩ := longest.isSpan
      exact absurd longest.starts (by simp)
  | quoted longest split _ ih =>
    cases hb with
    | nil =>
      obtain ⟨mark, inside, -, -, rfl⟩ := longest.isSpan
      exact absurd longest.starts (by simp)
    | quoted other again others =>
      obtain rfl := longest.eq other
      obtain rfl := List.append_cancel_left (split.symm.trans again)
      rw [ih others]
    | slot _ => exact absurd longest.starts longest.isSpan.head_ne_slot
    | plain _ free _ => exact absurd longest.starts (free _ longest.isSpan)
  | slot _ ih =>
    cases hb with
    | quoted longest _ _ => exact absurd longest.starts longest.isSpan.head_ne_slot
    | slot others => rw [ih others]
    | plain different _ _ => exact absurd rfl different
  | plain different free _ ih =>
    cases hb with
    | quoted longest _ _ => exact absurd longest.starts (free _ longest.isSpan)
    | slot _ => exact absurd rfl different
    | plain _ _ others => rw [ih others]

/-- What is found behind an opening quote ends with the closing one. -/
theorem isInside_of_spanLength {mark : Char} {cs : List Char} {n : Nat}
    (h : spanLength mark cs = some n) :
    n ≤ cs.length ∧ ∃ inside, IsInside mark inside ∧ cs.take n = inside ++ [mark] := by
  fun_induction spanLength mark cs generalizing n with
  | case1 => cases h
  | case2 =>
    cases h
    exact ⟨Nat.le_refl 1, [], .nil, rfl⟩
  | case3 => cases h
  | case4 rest m found ih =>
    cases h
    obtain ⟨short, inside, made, taken⟩ := ih found
    refine ⟨by simpa using short, mark :: mark :: inside, .doubled made, ?_⟩
    rw [List.take_succ_cons, List.take_succ_cons, taken]
    rfl
  | case5 | case6 =>
    cases h
    exact ⟨by simp, [], .nil, by simp⟩
  | case7 c d rest other ih =>
    obtain ⟨m, found, rfl⟩ := Option.map_eq_some_iff.1 h
    obtain ⟨short, inside, made, taken⟩ := ih found
    refine ⟨by simpa using short, c :: inside, .other other made, ?_⟩
    rw [List.take_succ_cons, taken]
    rfl

/-- No span goes on behind the one that is found. -/
theorem le_spanLength {mark : Char} {inside : List Char} (h : IsInside mark inside) (rest : List Char) :
    ∃ n, spanLength mark (inside ++ mark :: rest) = some n ∧ inside.length + 1 ≤ n := by
  induction h with
  | nil =>
    cases rest with
    | nil => exact ⟨1, by simp [spanLength], Nat.le_refl 1⟩
    | cons d rest =>
      rw [List.nil_append, spanLength, if_pos rfl]
      split
      · cases spanLength mark rest with
        | none => exact ⟨1, rfl, Nat.le_refl 1⟩
        | some n => exact ⟨n + 2, rfl, by simp⟩
      · exact ⟨1, rfl, Nat.le_refl 1⟩
  | @other c inside different _ ih =>
    obtain ⟨n, found, long⟩ := ih
    obtain ⟨d, others, shape⟩ : ∃ d others, inside ++ mark :: rest = d :: others :=
      List.exists_cons_of_ne_nil (by simp)
    rw [shape] at found
    refine ⟨n + 1, ?_, by simpa using long⟩
    rw [List.cons_append, shape, spanLength, if_neg different, found]
    rfl
  | @doubled inside _ ih =>
    obtain ⟨n, found, long⟩ := ih
    refine ⟨n + 2, ?_, by simpa using long⟩
    rw [List.cons_append, List.cons_append, spanLength, if_pos rfl, if_pos rfl, found]

theorem isLongestSpan_of_spanLength {mark : Char} (hm : IsQuote mark) {rest : List Char} {n : Nat}
    (h : spanLength mark rest = some n) :
    IsLongestSpan (mark :: rest.take n) (mark :: rest) := by
  obtain ⟨short, inside, made, taken⟩ := isInside_of_spanLength h
  refine ⟨⟨mark, inside, hm, made, by rw [taken]⟩,
    List.cons_prefix_cons.2 ⟨rfl, List.take_prefix n rest⟩, ?_⟩
  rintro _ ⟨other, inner, -, within, rfl⟩ starts
  obtain ⟨rfl, later, split⟩ := List.cons_prefix_cons.1 starts
  rw [List.append_assoc, List.singleton_append] at split
  obtain ⟨m, found, long⟩ := le_spanLength within later
  rw [split, h, Option.some.injEq] at found
  subst found
  simpa [Nat.min_eq_left short] using long

theorem not_isSpan_of_spanLength {mark : Char} {rest : List Char} (h : spanLength mark rest = none) :
    ∀ span, IsSpan span → ¬span <+: mark :: rest := by
  rintro _ ⟨other, inner, -, within, rfl⟩ starts
  obtain ⟨rfl, later, split⟩ := List.cons_prefix_cons.1 starts
  rw [List.append_assoc, List.singleton_append] at split
  obtain ⟨m, found, -⟩ := le_spanLength within later
  rw [split, h] at found
  cases found

theorem not_isSpan_of_not_isQuote {c : Char} (hc : ¬IsQuote c) {rest : List Char} :
    ∀ span, IsSpan span → ¬span <+: c :: rest := by
  rintro _ ⟨mark, inside, quote, -, rfl⟩ starts
  exact hc ((List.cons_prefix_cons.1 starts).1 ▸ quote)

theorem exists_reads (cs : List Char) : ∃ elements, Reads cs elements := by
  induction hl : cs.length using Nat.strongRecOn generalizing cs with
  | ind length ih =>
    cases cs with
    | nil => exact ⟨[], .nil⟩
    | cons c rest =>
      subst hl
      have later (n : Nat) : ∃ elements, Reads (rest.drop n) elements :=
        ih (rest.drop n).length (by rw [List.length_drop, List.length_cons]; omega) _ rfl
      by_cases slot : c = '?'
      · subst slot
        obtain ⟨elements, others⟩ := later 0
        exact ⟨_, .slot others⟩
      · by_cases quote : IsQuote c
        · cases found : spanLength c rest with
          | none =>
            obtain ⟨elements, others⟩ := later 0
            exact ⟨_, .plain slot (not_isSpan_of_spanLength found) others⟩
          | some n =>
            obtain ⟨elements, others⟩ := later n
            exact ⟨_, .quoted (isLongestSpan_of_spanLength quote found) (by simp) others⟩
        · obtain ⟨elements, others⟩ := later 0
          exact ⟨_, .plain slot (not_isSpan_of_not_isQuote quote) others⟩

theorem IsLongestSpan.found {span cs : List Char} (h : IsLongestSpan span cs) :
    ∃ mark rest n, IsQuote mark ∧ cs = mark :: rest ∧ spanLength mark rest = some n ∧
      span = mark :: rest.take n := by
  obtain ⟨mark, inside, quote, -, rfl⟩ := h.isSpan
  obtain ⟨later, rfl⟩ := h.starts
  rw [List.cons_append] at h ⊢
  cases found : spanLength mark (inside ++ [mark] ++ later) with
  | none => exact absurd h.starts (not_isSpan_of_spanLength found _ h.isSpan)
  | some n => exact ⟨mark, _, n, quote, rfl, found, h.eq (isLongestSpan_of_spanLength quote found)⟩

theorem segmentsFrom_held {held : Nat} {cs : List Char} (h : held ≤ cs.length) :
    segmentsFrom held cs = (cs.take held).foldr grow (segments (cs.drop held)) := by
  induction held generalizing cs with
  | zero => rfl
  | succ held ih =>
    cases cs with
    | nil => cases h
    | cons c rest =>
      rw [segmentsFrom, ih (Nat.le_of_succ_le_succ h), List.take_succ_cons, List.drop_succ_cons,
        List.foldr_cons]

theorem foldr_grow (cs first : List Char) (others : List (List Char)) :
    cs.foldr grow (first :: others) = (cs ++ first) :: others := by
  induction cs with
  | nil => rfl
  | cons c rest ih => rw [List.foldr_cons, ih, grow, List.cons_append]

theorem segments_slot (rest : List Char) : segments ('?' :: rest) = [] :: segments rest := by
  rw [segments, segmentsFrom, if_pos rfl, segments]

theorem segments_quoted {span rest : List Char} (h : IsLongestSpan span (span ++ rest)) :
    segments (span ++ rest) = span.foldr grow (segments rest) := by
  obtain ⟨mark, later, n, quote, split, found, rfl⟩ := h.found
  have noSlot : mark ≠ '?' := by
    rintro rfl
    rcases quote with h | h <;> cases h
  have behind : later.take n ++ rest = later.take n ++ later.drop n := by
    rw [List.take_append_drop]
    exact (List.cons.inj split).2
  have marked : mark = '\'' ∨ mark = '"' := quote
  rw [List.append_cancel_left behind, List.cons_append, List.take_append_drop, segments, segmentsFrom,
    if_neg noSlot, if_pos marked, found, Option.getD_some,
    segmentsFrom_held (isInside_of_spanLength found).1, List.foldr_cons]

theorem segments_plain {c : Char} {rest : List Char} (hs : c ≠ '?')
    (h : ∀ span, IsSpan span → ¬span <+: c :: rest) : segments (c :: rest) = grow c (segments rest) := by
  rw [segments, segmentsFrom, if_neg hs]
  split
  · rename_i quote
    cases found : spanLength c rest with
    | none => rfl
    | some n =>
      have longest := isLongestSpan_of_spanLength quote found
      exact absurd longest.starts (h _ longest.isSpan)
  · rfl

/-- The segments of a text are what its reading has between the slots. -/
theorem Reads.segments_eq {cs : List Char} {elements : List Element} (h : Reads cs elements) :
    segments cs = (elements.splitOn .slot).map text := by
  have other {element : Element} (he : element ≠ .slot) (later : List Element) :
      ((element :: later).splitOn .slot).map text =
        element.chars.foldr grow ((later.splitOn .slot).map text) := by
    obtain ⟨first, others, split⟩ := List.exists_cons_of_ne_nil (List.splitOn_ne_nil .slot later)
    rw [List.splitOn_cons_eq_if_modifyHead, if_neg (by simpa using he), split, List.modifyHead_cons,
      List.map_cons, List.map_cons, foldr_grow]
    rfl
  induction h with
  | nil => rfl
  | quoted longest split _ ih =>
    subst split
    rw [segments_quoted longest, ih, other (by simp)]
    rfl
  | slot _ ih =>
    rw [segments_slot, ih, List.splitOn_cons_eq_if_modifyHead, if_pos (by simp), List.map_cons]
    rfl
  | plain different free _ ih =>
    rw [segments_plain different free, ih, other (by simp)]
    rfl

end SqlComposition.Slot
