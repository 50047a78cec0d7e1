import SqlComposition.Proofs.Conditions
import SqlComposition.Proofs.SetOperations
import SqlComposition.Proofs.Slots

/-!
Frames: layouts with one place for a query. Whatever query is put there, the pieces before the place and
those after it are the same, and between them are the pieces of the query, with or without parentheses.
What is laid out around a frame is a frame.
-/

namespace SqlComposition

/-- Pieces with parentheses around them, or as they are. -/
def Piece.enclose (enclosed : Bool) (inner : List Piece) : List Piece :=
  if enclosed then .text "(" :: inner ++ [.text ")"] else inner

/-! ## One among several conditions -/

namespace Grouping

variable {α : Type} {join : String → List α → α} {p r : α → Prop}

theorem exists_of_flatten_eq {groups : List (List α)} {before after : List α} {x : α}
    (h : groups.flatten = before ++ x :: after) :
    ∃ first left right last, groups = first ++ (left ++ x :: right) :: last ∧
      before = first.flatten ++ left ∧ after = right ++ last.flatten := by
  rcases List.flatten_eq_append_iff.1 h with ⟨first, rest, rfl, rfl, hr⟩ |
    ⟨first, left, c, right, last, rfl, rfl, hr⟩
  · obtain ⟨none, right, last, rfl, empty, rfl⟩ := List.flatten_eq_cons_iff.1 hr.symm
    exact ⟨first ++ none, [], right, last, by simp,
      by simp [List.flatten_eq_nil_iff.2 empty], rfl⟩
  · obtain ⟨rfl, rfl⟩ := List.cons.inj hr
    exact ⟨first, left, right, last, rfl, rfl, rfl⟩

theorem connect_among {connective : String}
    (hj : ∀ before x after, (∀ y ∈ before, p y) → r x → (∀ y ∈ after, p y) →
      r (join connective (before ++ x :: after))) {before after : List α} {x : α}
    (hb : ∀ y ∈ before, p y) (hx : r x) (ha : ∀ y ∈ after, p y) :
    ∃ whole, connect join connective (before ++ x :: after) = some whole ∧ r whole := by
  match before, after with
  | [], [] => exact ⟨x, rfl, hx⟩
  | [], next :: rest => exact ⟨_, rfl, hj [] x _ hb hx ha⟩
  | [first], after => exact ⟨_, rfl, hj [first] x after hb hx ha⟩
  | first :: second :: rest, after => exact ⟨_, rfl, hj _ x after hb hx ha⟩

/-- What holds of one condition, and of what is joined around it of others, holds of the whole. -/
theorem assemble_among
    (hp : ∀ connective parts, (∀ y ∈ parts, p y) → p (join connective parts))
    (hr : ∀ connective before x after, (∀ y ∈ before, p y) → r x → (∀ y ∈ after, p y) →
      r (join connective (before ++ x :: after)))
    {before after : List (Bool × α)} {c : Bool × α} (hb : ∀ d ∈ before, p d.2) (hc : r c.2)
    (ha : ∀ d ∈ after, p d.2) :
    ∃ whole, assemble join (before ++ c :: after) = some whole ∧ r whole := by
  have flat := flatten_groups (before ++ c :: after)
  rw [List.map_append, List.map_cons] at flat
  obtain ⟨first, left, right, last, grouped, opening, closing⟩ := exists_of_flatten_eq flat
  have early : ∀ y ∈ first.flatten ++ left, p y := opening ▸ List.forall_mem_map.2 hb
  have late : ∀ y ∈ right ++ last.flatten, p y := closing ▸ List.forall_mem_map.2 ha
  rw [List.forall_mem_append] at early late
  have others {groups : List (List α)} (hg : ∀ y ∈ groups.flatten, p y) :
      ∀ y ∈ groups.filterMap (connect join " AND "), p y := by
    intro y hy
    obtain ⟨group, member, made⟩ := List.mem_filterMap.1 hy
    exact connect_of_forall (fun _ => id) (fun first rest => hp " AND " (first :: rest))
      (fun z hz => hg z (List.mem_flatten_of_mem member hz)) y made
  obtain ⟨inner, joined, holds⟩ := connect_among (hr " AND ") early.2 hc late.1
  rw [assemble, grouped, List.filterMap_append, List.filterMap_cons_some joined]
  exact connect_among (hr " OR ") (others early.1) holds (others late.2)

end Grouping

namespace Layout

/-- A part of a layout that has one place for a query. -/
def IsFrame (enclosed : Bool) (part : Query → Layout) : Prop :=
  ∃ front back : List Piece, ∀ q : Query,
    (part q).pieces = front ++ Piece.enclose enclosed q.layout.pieces ++ back

namespace IsFrame

variable {enclosed : Bool} {part : Query → Layout}

theorem whole : IsFrame false Query.layout :=
  ⟨[], [], fun q => by simp [Piece.enclose]⟩

theorem parenthesized : IsFrame true fun q => Layout.parenthesized q.layout :=
  ⟨[], [], fun q => by simp [Piece.enclose, Layout.parenthesized, pieces]⟩

theorem around (h : IsFrame enclosed part) {f : Layout → Layout} {a b : List Piece}
    (hf : ∀ inner, (f inner).pieces = a ++ inner.pieces ++ b) :
    IsFrame enclosed fun q => f (part q) := by
  obtain ⟨front, back, hp⟩ := h
  exact ⟨a ++ front, back ++ b, fun q => by rw [hf, hp]; simp only [List.append_assoc]⟩

theorem inParentheses (h : IsFrame enclosed part) :
    IsFrame enclosed fun q => Layout.parenthesized (part q) :=
  h.around (f := Layout.parenthesized) (a := [.text "("]) (b := [.text ")"]) fun inner => by
    simp [Layout.parenthesized, pieces]

theorem series (before : List Layout) (h : IsFrame enclosed part) (after : List Layout) :
    IsFrame enclosed fun q => Layout.series (before ++ part q :: after) :=
  h.around (f := fun inner => Layout.series (before ++ inner :: after)) (a := before.flatMap pieces)
    (b := after.flatMap pieces) fun inner => by simp

theorem joined (separator : String) (before : List Layout) (h : IsFrame enclosed part)
    (after : List Layout) :
    IsFrame enclosed fun q => Layout.joined separator (before ++ part q :: after) := by
  let later (parts : List Layout) : List Piece := parts.flatMap fun part => .text separator :: part.pieces
  cases before with
  | nil =>
    exact h.around (f := fun inner => Layout.joined separator (inner :: after)) (a := [])
      (b := later after) fun inner => pieces_joined_cons separator inner after
  | cons first others =>
    refine h.around (f := fun inner => Layout.joined separator (first :: others ++ inner :: after))
      (a := first.pieces ++ later others ++ [.text separator]) (b := later after) fun inner => ?_
    rw [List.cons_append, pieces_joined_cons]
    simp [later]

theorem aliased (h : IsFrame enclosed part) (label : Option String) :
    IsFrame enclosed fun q => Layout.aliased (part q) label := by
  cases label with
  | none => exact h
  | some text =>
    simp only [Layout.aliased]
    split
    · exact h
    · exact h.series [] [.keyword " AS ", .verbatim text]

end IsFrame

/-- A slot that is there is filled, and nothing else depends on what fills it. -/
theorem fill_slot {α : Type} (text : String → α) {segments : List (List Char)} {before : List (List α)}
    (h : before.length + 1 < segments.length) (after : List (List α)) :
    ∃ front back, ∀ slot, fill text segments (before ++ slot :: after) = front ++ slot ++ back := by
  induction before generalizing segments with
  | nil =>
    match segments, h with
    | segment :: next :: rest, _ =>
      exact ⟨[text (String.ofList segment)], fill text (next :: rest) after, fun slot => rfl⟩
  | cons first others ih =>
    match segments, h with
    | segment :: next :: rest, h =>
      have more : others.length + 1 < (next :: rest).length := by simpa using h
      obtain ⟨front, back, filled⟩ := ih more
      refine ⟨text (String.ofList segment) :: (first ++ front), back, fun slot => ?_⟩
      rw [List.cons_append, fill, filled]
      · simp
      · exact nofun

theorem IsFrame.filled {enclosed : Bool} {part : Query → Layout} (h : IsFrame enclosed part)
    {sql : String} {before : List Layout} (hb : before.length < Slot.count sql.toList)
    (after : List Layout) :
    IsFrame enclosed fun q => Layout.filled sql (before ++ part q :: after) := by
  have there : (before.map pieces).length + 1 < (Slot.segments sql.toList).length := by
    rw [Slot.length_segments, List.length_map]
    omega
  obtain ⟨front, back, filled⟩ := fill_slot Piece.text there (after.map pieces)
  refine h.around (f := fun inner => Layout.filled sql (before ++ inner :: after)) (a := front) (b := back)
    fun inner => ?_
  rw [pieces, piecesOfEach_eq_map, List.map_append, List.map_cons, filled]

/-! Conditions are put together as functions of the query, of which all but one are constant. -/

def IsConstant (part : Query → Layout) : Prop :=
  ∀ q q', part q = part q'

def groupedAt (connective : String) (parts : List (Query → Layout)) (q : Query) : Layout :=
  grouped connective (parts.map fun part => part q)

def fixed (c : Connective × Layout) : Bool × (Query → Layout) :=
  (c.1 == .or, fun _ => c.2)

theorem map_constant {parts : List (Query → Layout)} (h : ∀ part ∈ parts, IsConstant part)
    (q q' : Query) : (parts.map fun part => part q) = parts.map fun part => part q' :=
  List.map_congr_left fun part hp => h part hp q q'

theorem fixed_constant (conditions : List (Connective × Layout)) :
    ∀ c ∈ conditions.map fixed, IsConstant c.2 :=
  List.forall_mem_map.2 fun _ _ _ _ => rfl

theorem groupedAt_constant (connective : String) (parts : List (Query → Layout))
    (h : ∀ part ∈ parts, IsConstant part) : IsConstant (groupedAt connective parts) :=
  fun q q' => congrArg (grouped connective) (map_constant h q q')

theorem IsFrame.groupedAt {enclosed : Bool} (connective : String) (before : List (Query → Layout))
    (part : Query → Layout) (after : List (Query → Layout)) (hb : ∀ other ∈ before, IsConstant other)
    (h : IsFrame enclosed part) (ha : ∀ other ∈ after, IsConstant other) :
    IsFrame enclosed (Layout.groupedAt connective (before ++ part :: after)) := by
  have framed := (h.joined connective (before.map fun other => other .empty)
    (after.map fun other => other .empty)).inParentheses
  have same : Layout.groupedAt connective (before ++ part :: after) = fun q =>
      Layout.parenthesized (Layout.joined connective
        ((before.map fun other => other .empty) ++ part q :: after.map fun other => other .empty)) := by
    funext q
    rw [Layout.groupedAt, grouped, List.map_append, List.map_cons, map_constant hb q .empty,
      map_constant ha q .empty]
  rwa [same]

theorem IsFrame.condition {enclosed : Bool} {part : Query → Layout} (before : List (Connective × Layout))
    (connective : Connective) (h : IsFrame enclosed part) (after : List (Connective × Layout)) :
    IsFrame enclosed fun q => Grouping.layout (before ++ (connective, part q) :: after) := by
  let conditions := before.map fixed ++ (connective == .or, part) :: after.map fixed
  obtain ⟨whole, made, framed⟩ : ∃ whole, Grouping.assemble Layout.groupedAt conditions = some whole ∧
      IsFrame enclosed whole :=
    Grouping.assemble_among groupedAt_constant IsFrame.groupedAt (fixed_constant before) h
      (fixed_constant after)
  have same (q : Query) : whole q = Grouping.layout (before ++ (connective, part q) :: after) := by
    have put : (conditions.map fun c => (c.1, c.2 q)) =
        (before ++ (connective, part q) :: after).map fun c => (c.1 == .or, c.2) := by
      simp only [conditions, List.map_append, List.map_cons, List.map_map]
      rfl
    have at_q : Grouping.assemble grouped (conditions.map fun c => (c.1, c.2 q)) =
        (Grouping.assemble Layout.groupedAt conditions).map fun f => f q :=
      Grouping.assemble_map (f := fun part : Query → Layout => part q) (fun _ _ => rfl) conditions
    rw [Grouping.layout_eq, ← put, at_q, made]
    rfl
  rwa [← funext same]

/-! Lines of which one is a frame; the others do not depend on the query. -/

def IsFrameIn (enclosed : Bool) (lines : Query → List Layout) : Prop :=
  ∃ before part after, IsFrame enclosed part ∧ ∀ q, lines q = before ++ part q :: after

namespace IsFrameIn

variable {enclosed : Bool} {lines : Query → List Layout}

theorem among {part : Query → Layout} (before : List Layout) (h : IsFrame enclosed part)
    (after : List Layout) : IsFrameIn enclosed fun q => before ++ part q :: after :=
  ⟨before, part, after, h, fun _ => rfl⟩

theorem single {part : Query → Layout} (h : IsFrame enclosed part) :
    IsFrameIn enclosed fun q => [part q] :=
  among [] h []

theorem append (h : IsFrameIn enclosed lines) (others : List Layout) :
    IsFrameIn enclosed fun q => lines q ++ others := by
  obtain ⟨before, part, after, hp, hl⟩ := h
  exact ⟨before, part, after ++ others, hp, fun q => by simp [hl]⟩

theorem prepend (others : List Layout) (h : IsFrameIn enclosed lines) :
    IsFrameIn enclosed fun q => others ++ lines q := by
  obtain ⟨before, part, after, hp, hl⟩ := h
  exact ⟨others ++ before, part, after, hp, fun q => by simp [hl]⟩

theorem joined (separator : String) (h : IsFrameIn enclosed lines) :
    IsFrame enclosed fun q => Layout.joined separator (lines q) := by
  obtain ⟨before, part, after, hp, hl⟩ := h
  simp only [hl]
  exact hp.joined separator before after

theorem clause (word separator : String) (h : IsFrameIn enclosed lines) :
    IsFrameIn enclosed fun q => Layout.clause word separator (lines q) := by
  obtain ⟨before, part, after, hp, hl⟩ := h
  have line (q : Query) : Layout.clause word separator (lines q) =
      [.series [.keyword word, Layout.joined separator (before ++ part q :: after)]] := by
    rw [hl]
    cases before <;> rfl
  simp only [line]
  exact single ((hp.joined separator before after).series [.keyword word] [])

theorem groupedClause {part : Query → Layout} (word : String) (before : List (Connective × Layout))
    (connective : Connective) (h : IsFrame enclosed part) (after : List (Connective × Layout)) :
    IsFrameIn enclosed fun q => Layout.groupedClause word (before ++ (connective, part q) :: after) := by
  have line (q : Query) : Layout.groupedClause word (before ++ (connective, part q) :: after) =
      [.series [.keyword word, Grouping.layout (before ++ (connective, part q) :: after)]] := by
    cases before <;> rfl
  simp only [line]
  exact single ((h.condition before connective after).series [.keyword word] [])

end IsFrameIn

end Layout

end SqlComposition
