import SqlComposition.Proofs.Composition
import SqlComposition.Proofs.Emission
import SqlComposition.Proofs.Spans

/-!
Filling slots. A fragment is written as its text with the first of its slots replaced, each by the text of
one binding, up to the last slot or the last binding. Nothing that is put into a slot is looked at again,
and what a binding lists apart is listed in the order of the slots.
-/

namespace SqlComposition

/-- A list of parts of which all behind the first `k` are put together again, with a mark between each two. -/
def Slot.merged {α : Type} (mark : α) (k : Nat) (parts : List (List α)) : List (List α) :=
  parts.take k ++ [[mark].intercalate (parts.drop k)]

/-- How values are written: as literals, or as placeholders with the values listed apart. -/
inductive Renderer where
  | literals
  | placeholders (placeholder : Nat → String)

namespace Renderer

/-- The text of pieces and the values that are listed for it, when `count` values are listed already. -/
def write (count : Nat) (pieces : List Piece) : Renderer → Except Failure (String × List Value)
  | literals => (Piece.inlined pieces).map (·, [])
  | placeholders placeholder => Piece.bound placeholder count pieces

def format (r : Renderer) (nesting : Nesting) (count : Nat) (v : Value) :
    Except Failure (String × List Value) :=
  r.write count (v.layout nesting).pieces

/-- The texts of values one after another, and all that is listed for them. -/
def formatEach (r : Renderer) (nesting : Nesting) :
    Nat → List Value → Except Failure (List String × List Value)
  | _, [] => .ok ([], [])
  | count, v :: rest => do
    let first ← r.format nesting count v
    let others ← formatEach r nesting (count + first.2.length) rest
    return (first.1 :: others.1, first.2 ++ others.2)

theorem write_text (r : Renderer) (count : Nat) (s : String) (rest : List Piece) :
    r.write count (.text s :: rest) = (r.write count rest).map fun form => (s ++ form.1, form.2) := by
  cases r with
  | literals =>
    rw [write, write, Piece.inlined_text]
    cases Piece.inlined rest <;> rfl
  | placeholders placeholder => exact Piece.bound_text placeholder count s rest

theorem write_append (r : Renderer) (count : Nat) (a b : List Piece) :
    r.write count (a ++ b) = (do
      let front ← r.write count a
      let back ← r.write (count + front.2.length) b
      return (front.1 ++ back.1, front.2 ++ back.2)) := by
  cases r with
  | literals =>
    rw [write, write, Piece.inlined_append_eq]
    cases Piece.inlined a with
    | error failure => rfl
    | ok x => cases h : Piece.inlined b <;> simp [write, h, Except.map, bind, Except.bind, pure, Except.pure]
  | placeholders placeholder => exact Piece.bound_append placeholder count a b

end Renderer

namespace Slot
open Element

variable {α : Type}

theorem merged_zero (mark : α) (parts : List (List α)) : merged mark 0 parts = [[mark].intercalate parts] := by
  rw [merged, List.take_zero, List.drop_zero, List.nil_append]

theorem merged_succ (mark : α) (k : Nat) (part : List α) (parts : List (List α)) :
    merged mark (k + 1) (part :: parts) = part :: merged mark k parts := by
  rw [merged, merged, List.take_succ_cons, List.drop_succ_cons, List.cons_append]

theorem intercalate_merged (mark : α) {k : Nat} {parts : List (List α)} (h : k < parts.length) :
    [mark].intercalate (merged mark k parts) = [mark].intercalate parts := by
  induction k generalizing parts with
  | zero => rw [merged_zero, List.intercalate_singleton]
  | succ k ih =>
    obtain ⟨part, rest, rfl⟩ := List.exists_cons_of_length_pos (Nat.zero_lt_of_lt h)
    have later : k < rest.length := Nat.lt_of_succ_lt_succ h
    have some : rest ≠ [] := List.ne_nil_of_length_pos (Nat.zero_lt_of_lt later)
    rw [merged_succ, List.intercalate_cons_of_ne_nil (by simp [merged]),
      List.intercalate_cons_of_ne_nil some, ih later]

theorem text_intercalate (sections : List (List Element)) :
    text ([slot].intercalate sections) = ['?'].intercalate (sections.map text) := by
  induction sections with
  | nil => rfl
  | cons first rest ih =>
    cases rest with
    | nil => simp
    | cons second rest =>
      rw [List.intercalate_cons_cons, List.map_cons, List.map_cons, List.intercalate_cons_cons, text,
        List.flatMap_append, List.flatMap_append]
      exact congrArg _ ih

theorem map_text_merged (k : Nat) (sections : List (List Element)) :
    (merged slot k sections).map text = merged '?' k (sections.map text) := by
  rw [merged, merged, List.map_append, List.map_take, List.map_singleton, text_intercalate, List.map_drop]

theorem length_splitOn [BEq α] (mark : α) (parts : List α) :
    (parts.splitOn mark).length = parts.count mark + 1 := by
  induction parts with
  | nil => rfl
  | cons first rest ih =>
    rw [List.splitOn_cons_eq_if_modifyHead, List.count_cons]
    split
    · rw [List.length_cons, ih]
    · rw [List.length_modifyHead, ih, Nat.add_zero]

theorem not_mem_of_mem_splitOn [BEq α] [LawfulBEq α] {mark : α} {parts part : List α}
    (h : part ∈ parts.splitOn mark) : mark ∉ part := by
  induction parts generalizing part with
  | nil => simp_all
  | cons first rest ih =>
    rw [List.splitOn_cons_eq_if_modifyHead] at h
    split at h
    · rcases List.mem_cons.1 h with rfl | h
      · exact List.not_mem_nil
      · exact ih h
    · rename_i other
      obtain ⟨start, others, split⟩ := List.exists_cons_of_ne_nil (List.splitOn_ne_nil mark rest)
      rw [split, List.modifyHead_cons] at h
      rcases List.mem_cons.1 h with rfl | h
      · have free : mark ∉ start := ih (split ▸ List.mem_cons_self)
        exact List.not_mem_cons_of_ne_of_not_mem (fun same => other (by simp [same])) free
      · exact ih (split ▸ List.mem_cons_of_mem _ h)

end Slot

namespace Renderer

variable (r : Renderer) (nesting : Nesting) (count : Nat)

theorem write_single (s : String) : r.write count [.text s] = .ok (s, []) := by
  have none : r.write count [] = .ok ("", []) := by cases r <;> rfl
  rw [write_text, none, Except.map, String.append_empty]

/-- Slots without bindings stay. -/
theorem write_fill_nil {segments : List (List Char)} (hs : segments ≠ []) :
    r.write count (Layout.fill .text segments []) =
      .ok (String.ofList (['?'].intercalate segments), []) := by
  induction segments with
  | nil => exact absurd rfl hs
  | cons segment rest ih =>
    cases rest with
    | nil => rw [Layout.fill, write_single, List.intercalate_singleton]
    | cons next rest =>
      rw [Layout.fill, write_text, write_text, ih (List.cons_ne_nil _ _), List.intercalate_cons_cons]
      · simp [Except.map, String.ofList_append]
      · exact List.cons_ne_nil _ _

/-- Each slot that has a binding is replaced, and all that is behind the last of them stays. -/
theorem write_fill {segments : List (List Char)} (hs : segments ≠ []) (values : List Value) {k : Nat}
    (hk : k = min (segments.length - 1) values.length) :
    r.write count (Layout.fill .text segments (values.map fun v => (v.layout nesting).pieces)) =
      (r.formatEach nesting count (values.take k)).map fun form =>
        (weave ((Slot.merged '?' k segments).map String.ofList) form.1, form.2) := by
  induction values generalizing count segments k with
  | nil =>
    obtain rfl : k = 0 := by simpa using hk
    rw [List.map_nil, write_fill_nil r count hs, List.take_nil, formatEach, Slot.merged_zero]
    rfl
  | cons v rest ih =>
    match segments with
    | [] => exact absurd rfl hs
    | [last] =>
      obtain rfl : k = 0 := by simpa using hk
      rw [Layout.fill, write_single, List.take_zero, formatEach, Slot.merged_zero,
        List.intercalate_singleton]
      rfl
    | segment :: next :: others =>
      obtain ⟨j, rfl, hj⟩ : ∃ j, k = j + 1 ∧ j = min ((next :: others).length - 1) rest.length :=
        ⟨_, by simp only [List.length_cons] at hk ⊢; omega, rfl⟩
      have some : next :: others ≠ [] := List.cons_ne_nil next others
      rw [List.map_cons, Layout.fill, write_text, write_append, List.take_succ_cons, formatEach,
        Slot.merged_succ, List.map_cons, format]
      · cases written : r.write count (v.layout nesting).pieces with
        | error failure => rfl
        | ok first =>
          have later := ih (count + first.2.length) some hj
          cases formed : r.formatEach nesting (count + first.2.length) (rest.take j) <;>
            simp [later, formed, weave, Except.map, bind, Except.bind, pure, Except.pure,
              String.append_assoc]
      · exact some

end Renderer

/-- The text of a fragment in sections. All but the last end before a slot and have none: these are the
first slots of the text, as many as there are slots and bindings for them. -/
structure Fragment.Cut (f : Fragment) (sections : List (List Slot.Element)) (filled : Nat) : Prop where
  reads : Slot.Reads f.sql.toList ([.slot].intercalate sections)
  only : ∀ elements, Slot.Reads f.sql.toList elements → elements = [.slot].intercalate sections
  whole : f.sql.toList = ['?'].intercalate (sections.map Slot.Element.text)
  length : sections.length = filled + 1
  free : ∀ part ∈ sections.take filled, .slot ∉ part
  number : filled = min (([.slot].intercalate sections).count .slot) f.bindings.length

/-- In both forms, the first slots of a fragment are replaced by what its bindings are written as, and
nothing else of its text is changed; listed are the values that are listed for these bindings, in order. -/
theorem Fragment.slots_filled (f : Fragment) :
    ∃ sections filled, f.Cut sections filled ∧
      ∀ (r : Renderer) (nesting : Nesting) (count : Nat),
        r.write count (f.layout nesting).pieces =
          (r.formatEach nesting count (f.bindings.take filled)).map fun form =>
            (weave (sections.map fun part => String.ofList (Slot.Element.text part)) form.1, form.2) := by
  obtain ⟨elements, reads⟩ := Slot.exists_reads f.sql.toList
  have split : [Slot.Element.slot].intercalate (elements.splitOn .slot) = elements :=
    List.intercalate_splitOn _
  have length := Slot.length_splitOn Slot.Element.slot elements
  generalize hk : min (elements.count .slot) f.bindings.length = k
  have short : k < (elements.splitOn .slot).length := by omega
  have joined : [Slot.Element.slot].intercalate (Slot.merged .slot k (elements.splitOn .slot)) = elements := by
    rw [Slot.intercalate_merged _ short, split]
  refine ⟨Slot.merged .slot k (elements.splitOn .slot), k, ?_, fun r nesting count => ?_⟩
  · exact {
      reads := by rwa [joined]
      only := fun other ho => by rw [joined, ho.unique reads]
      whole := by rw [← Slot.text_intercalate, joined, reads.text_eq]
      length := by simp [Slot.merged]; omega
      free := fun part hp => by
        rw [Slot.merged, List.take_left' (by rw [List.length_take]; omega)] at hp
        exact Slot.not_mem_of_mem_splitOn (List.mem_of_mem_take hp)
      number := by rw [joined, hk] }
  · obtain ⟨sql, bindings⟩ := f
    have some : Slot.segments sql.toList ≠ [] := Slot.segmentsFrom_ne_nil 0 _
    have slots : k = min ((Slot.segments sql.toList).length - 1) bindings.length := by
      rw [reads.segments_eq, List.length_map, length, Nat.add_sub_cancel, hk]
    rw [layout, Layout.pieces, Layout.piecesOfEach_eq_map, Value.layouts_eq_map, List.map_map,
      Function.comp_def, r.write_fill nesting count some bindings slots, reads.segments_eq,
      ← Slot.map_text_merged, List.map_map]
    rfl

end SqlComposition
