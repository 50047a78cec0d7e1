import SqlComposition.Proofs.Quotes

/-!
Finding the slots of a text piece by piece. A slot is a `?` outside of quotes, so it can be told from what
is open before it. Where a text closes all quotes it opens, this finds the same slots as looking for quoted
spans does, and a text put together of such texts has the slots of its parts, one after another: a quote at
the end of one part may meet a quote at the start of the next, but no slot comes or goes by that.
-/

namespace SqlComposition

namespace Slot

/-- How many slots a text has. -/
def count (cs : List Char) : Nat :=
  (segments cs).length - 1

/-- The text that stands before a slot; slots are counted from 0. -/
def before (cs : List Char) (slot : Nat) : List Char :=
  ['?'].intercalate ((segments cs).take (slot + 1))

theorem length_segments (cs : List Char) : (segments cs).length = count cs + 1 := by
  have some : 0 < (segments cs).length := List.length_pos_iff.2 (segmentsFrom_ne_nil 0 cs)
  rw [count]
  omega

end Slot

namespace Quotes
open Slot

/-- The texts before, between and after the slots, going by what is open before the text. -/
def cut : Option Mark → List Char → List (List Char)
  | _, [] => [[]]
  | state, c :: rest =>
    if state = none ∧ c = '?' then [] :: cut none rest else grow c (cut (toggle state c) rest)

/-- Joins the last text of some and the first text of others. -/
def graft : List (List Char) → List (List Char) → List (List Char)
  | [], later => later
  | [last], [] => [last]
  | [last], first :: later => (last ++ first) :: later
  | segment :: next :: rest, later => segment :: graft (next :: rest) later

theorem cut_ne_nil (state : Option Mark) (cs : List Char) : cut state cs ≠ [] := by
  cases cs with
  | nil => simp [cut]
  | cons c rest =>
    rw [cut]
    split
    · simp
    · exact grow_ne_nil _ _

theorem cut_slot (rest : List Char) : cut none ('?' :: rest) = [] :: cut none rest := by
  simp [cut]

theorem graft_grow (c : Char) {parts : List (List Char)} (hp : parts ≠ []) {later : List (List Char)}
    (hl : later ≠ []) : graft (grow c parts) later = grow c (graft parts later) := by
  obtain ⟨first, others, rfl⟩ := List.exists_cons_of_ne_nil hp
  obtain ⟨start, rest, rfl⟩ := List.exists_cons_of_ne_nil hl
  cases others <;> rfl

theorem graft_cons (segment : List Char) {parts : List (List Char)} (hp : parts ≠ [])
    (later : List (List Char)) : graft (segment :: parts) later = segment :: graft parts later := by
  obtain ⟨first, others, rfl⟩ := List.exists_cons_of_ne_nil hp
  rfl

/-- A text in two parts is cut part by part. -/
theorem cut_append (state : Option Mark) (a b : List Char) :
    cut state (a ++ b) = graft (cut state a) (cut (a.foldl toggle state) b) := by
  induction a generalizing state with
  | nil =>
    obtain ⟨first, later, h⟩ := List.exists_cons_of_ne_nil (cut_ne_nil state b)
    simp [cut, h, graft]
  | cons c rest ih =>
    rw [List.cons_append, cut, cut, List.foldl_cons]
    split
    · rename_i slot
      obtain ⟨rfl, rfl⟩ := slot
      have outside : toggle none '?' = none := rfl
      rw [ih, graft_cons _ (cut_ne_nil none rest), outside]
    · rw [ih, graft_grow c (cut_ne_nil _ _) (cut_ne_nil _ _)]

theorem eq_of_grow_eq_singleton {c : Char} {parts : List (List Char)} {cs : List Char}
    (h : grow c parts = [c :: cs]) (hp : parts ≠ []) : parts = [cs] := by
  obtain ⟨first, others, rfl⟩ := List.exists_cons_of_ne_nil hp
  simp only [grow, List.cons.injEq, true_and] at h
  rw [h.1, h.2]

/-- A text without slots when it stands where `state` is open. -/
def IsUncut (state : Option Mark) (cs : List Char) : Prop :=
  cut state cs = [cs]

instance (state : Option Mark) (cs : List Char) : Decidable (IsUncut state cs) :=
  inferInstanceAs (Decidable (_ = _))

namespace IsUncut

theorem nil (state : Option Mark) : IsUncut state [] := rfl

theorem cons {state next : Option Mark} {c : Char} {cs : List Char} (hc : ¬(state = none ∧ c = '?'))
    (ht : toggle state c = next) (h : IsUncut next cs) : IsUncut state (c :: cs) := by
  rw [IsUncut, cut, if_neg hc, ht, h]
  rfl

theorem of_cons {state : Option Mark} {c : Char} {cs : List Char} (h : IsUncut state (c :: cs)) :
    ¬(state = none ∧ c = '?') ∧ IsUncut (toggle state c) cs := by
  rw [IsUncut, cut] at h
  split at h
  · cases h
  · rename_i hc
    exact ⟨hc, eq_of_grow_eq_singleton h (cut_ne_nil _ _)⟩

/-- Quotes may run to the end of a span, and nothing in a span is a slot. -/
theorem span {mark : Mark} {cs : List Char} {n : Nat} (h : spanLength mark.char cs = some n) :
    IsUncut (some mark) (cs.take n) := by
  have closed : toggle (some mark) mark.char = none := if_pos rfl
  have opened : toggle none mark.char = some mark := Mark.ofChar?_char mark
  have last : IsUncut (some mark) [mark.char] := .cons (by simp) closed (.nil none)
  fun_induction spanLength mark.char cs generalizing n with
  | case1 => cases h
  | case2 =>
    cases h
    exact last
  | case3 => cases h
  | case4 rest m found ih =>
    cases h
    have again : IsUncut none (mark.char :: rest.take m) :=
      .cons (by cases mark <;> decide) opened (ih found)
    exact .cons (by simp) closed again
  | case5 | case6 =>
    cases h
    exact last
  | case7 c d rest other ih =>
    obtain ⟨m, found, rfl⟩ := Option.map_eq_some_iff.1 h
    have inside : toggle (some mark) c = some mark := if_neg other
    exact .cons (by simp) inside (ih found)

end IsUncut

/-- Looking for quoted spans finds the slots that lie outside of quotes, as long as all quotes are
closed. The first `held` characters belong to a span that was found. -/
theorem segmentsFrom_eq_cut {held : Nat} {cs : List Char} {state : Option Mark}
    (hu : IsUncut state (cs.take held)) (hh : (cs.take held).foldl toggle state = none)
    (hc : cs.foldl toggle state = none) : segmentsFrom held cs = cut state cs := by
  induction cs generalizing held state with
  | nil => rfl
  | cons c rest ih =>
    cases held with
    | succ held =>
      obtain ⟨noSlot, uncut⟩ := hu.of_cons
      rw [segmentsFrom, cut, if_neg noSlot, ih uncut hh hc]
    | zero =>
      have start : state = none := hh
      subst start
      have outside : IsUncut none (rest.take 0) := .nil none
      rw [segmentsFrom]
      split
      · rename_i slot
        subst slot
        rw [cut_slot, ih outside rfl hc]
      · rename_i noSlot
        rw [cut, if_neg (not_and_of_not_right _ noSlot)]
        split
        · rename_i quote
          obtain ⟨mark, rfl⟩ := Mark.exists_char_eq quote
          have opened : toggle none mark.char = some mark := Mark.ofChar?_char mark
          rw [List.foldl_cons, opened] at hc
          rw [opened]
          -- A quote that is open to the end would leave the whole open.
          cases span : spanLength mark.char rest with
          | none =>
            rw [foldl_toggle_noSpan span] at hc
            cases hc
          | some n => rw [Option.getD_some, ih (.span span) (foldl_toggle_span span) hc]
        · rename_i other
          have bare : toggle none c = none := by
            simp only [toggle, Mark.ofChar?]
            rw [if_neg fun h => other (.inl h), if_neg fun h => other (.inr h)]
          rw [List.foldl_cons, bare] at hc
          rw [bare, ih outside rfl hc]

theorem segments_eq_cut {cs : List Char} (h : Balanced cs) : segments cs = cut none cs :=
  segmentsFrom_eq_cut (.nil none) rfl h

theorem isUncut_cut (state : Option Mark) (cs : List Char) :
    ∃ first others, cut state cs = first :: others ∧ IsUncut state first ∧
      ∀ segment ∈ others, IsUncut none segment := by
  induction cs generalizing state with
  | nil => exact ⟨[], [], rfl, .nil state, by simp⟩
  | cons c rest ih =>
    rw [cut]
    split
    · rename_i slot
      obtain ⟨first, others, h, start, all⟩ := ih none
      exact ⟨[], _, rfl, .nil state, h ▸ List.forall_mem_cons.2 ⟨start, all⟩⟩
    · rename_i noSlot
      obtain ⟨first, others, h, start, all⟩ := ih (toggle state c)
      exact ⟨c :: first, others, by rw [h]; rfl, .cons noSlot rfl start, all⟩

/-- A text that closes all quotes it opens and has no slot. -/
structure IsClean (cs : List Char) : Prop where
  balanced : Balanced cs
  uncut : IsUncut none cs

namespace IsClean

theorem nil : IsClean [] := ⟨rfl, rfl⟩

theorem of_count {cs : List Char} (hb : Balanced cs) (hc : count cs = 0) : IsClean cs := by
  refine ⟨hb, ?_⟩
  obtain ⟨only, single⟩ := List.length_eq_one_iff.1 (by rw [length_segments, hc])
  have whole := intercalate_segments cs
  rw [single, List.intercalate_singleton] at whole
  rw [IsUncut, ← segments_eq_cut hb, single, whole]

theorem append {a b : List Char} (ha : IsClean a) (hb : IsClean b) : IsClean (a ++ b) := by
  refine ⟨ha.balanced.append hb.balanced, ?_⟩
  rw [IsUncut, cut_append, ha.uncut, ha.balanced, hb.uncut]
  rfl

theorem of_bare {cs : List Char} (h : IsBare cs) (hs : '?' ∉ cs) : IsClean cs := by
  refine ⟨h.balanced, ?_⟩
  induction cs with
  | nil => exact .nil none
  | cons c rest ih =>
    obtain ⟨bare, others⟩ := List.forall_mem_cons.1 h
    obtain ⟨other, later⟩ := List.ne_and_not_mem_of_not_mem_cons hs
    have outside : toggle none c = none := bare
    exact .cons (fun slot => other slot.2.symm) outside (ih others later)

/-- Nothing but the slots of a text are slots in it. -/
theorem segments {cs : List Char} (h : Balanced cs) : ∀ segment ∈ Slot.segments cs, IsClean segment := by
  intro segment hs
  refine ⟨balanced_segments h segment hs, ?_⟩
  obtain ⟨first, others, cut, start, all⟩ := isUncut_cut none cs
  rw [segments_eq_cut h, cut] at hs
  exact List.forall_mem_cons.2 ⟨start, all⟩ segment hs

end IsClean

/-- Clean texts with marks between them are cut at these marks. -/
theorem segments_intercalate {texts : List (List Char)} (ht : texts ≠ [])
    (h : ∀ text ∈ texts, IsClean text) : segments (['?'].intercalate texts) = texts := by
  have key : Balanced (['?'].intercalate texts) ∧ cut none (['?'].intercalate texts) = texts := by
    induction texts with
    | nil => exact absurd rfl ht
    | cons text rest ih =>
      obtain ⟨clean, others⟩ := List.forall_mem_cons.1 h
      cases rest with
      | nil =>
        rw [List.intercalate_singleton]
        exact ⟨clean.balanced, clean.uncut⟩
      | cons next rest =>
        obtain ⟨balanced, slots⟩ := ih (List.cons_ne_nil next rest) others
        rw [List.intercalate_cons_cons]
        have mark : Balanced ['?'] := by decide
        refine ⟨(clean.balanced.append mark).append balanced, ?_⟩
        rw [List.append_assoc, cut_append, clean.uncut, clean.balanced, List.singleton_append, cut_slot,
          slots, graft, List.append_nil]
  rw [segments_eq_cut key.1, key.2]

end Quotes

end SqlComposition
