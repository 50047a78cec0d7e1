import SqlComposition.Proofs.Composition
import SqlComposition.Proofs.Rendering

/-!
The two forms of a query. Both are woven from the same texts: literals stand between them in the inlined
form, and placeholders numbered from 1 in the bound one. The values are plain data, and they are listed in
the order of the text.
-/

namespace SqlComposition

def weave : List String → List String → String
  | [], _ => ""
  | text :: _, [] => text
  | text :: rest, filler :: fillers => text ++ filler ++ weave rest fillers

namespace Piece

def IsPlain : Piece → Prop
  | value v => v.IsPlain
  | _ => True

def values : List Piece → List Value
  | [] => []
  | value v :: rest => v :: values rest
  | _ :: rest => values rest

def prepend (s : String) : List String → List String
  | [] => [s]
  | first :: rest => (s ++ first) :: rest

/-- The texts before, between and after the values. -/
def texts : List Piece → List String
  | [] => [""]
  | text s :: rest => prepend s (texts rest)
  | value _ :: rest => "" :: texts rest
  | _ :: rest => texts rest

theorem texts_ne_nil (pieces : List Piece) : texts pieces ≠ [] := by
  induction pieces with
  | nil => simp [texts]
  | cons piece rest ih =>
    cases piece with
    | text s => cases h : texts rest <;> simp [texts, prepend, h]
    | value v => simp [texts]
    | sourceless => exact ih
    | failed failure => exact ih

theorem length_texts (pieces : List Piece) : (texts pieces).length = (values pieces).length + 1 := by
  induction pieces with
  | nil => rfl
  | cons piece rest ih =>
    cases piece with
    | text s =>
      obtain ⟨first, others, h⟩ := List.exists_cons_of_ne_nil (texts_ne_nil rest)
      simpa [texts, prepend, values, h] using ih
    | value v => simp [texts, values, ih]
    | sourceless => exact ih
    | failed failure => exact ih

theorem weave_prepend (s : String) {parts : List String} (h : parts ≠ []) (fillers : List String) :
    weave (prepend s parts) fillers = s ++ weave parts fillers := by
  obtain ⟨first, others, rfl⟩ := List.exists_cons_of_ne_nil h
  cases fillers <;> simp [prepend, weave, String.append_assoc]

theorem values_plain {pieces : List Piece} (h : ∀ piece ∈ pieces, piece.IsPlain) :
    ∀ v ∈ values pieces, v.IsPlain := by
  induction pieces with
  | nil => simp [values]
  | cons piece rest ih =>
    obtain ⟨first, others⟩ := List.forall_mem_cons.1 h
    cases piece with
    | value v => exact List.forall_mem_cons.2 ⟨first, ih others⟩
    | text s => exact ih others
    | sourceless => exact ih others
    | failed failure => exact ih others

theorem inlined_value {v : Value} {rest : List Piece} {text : String}
    (h : inlined (value v :: rest) = .ok text) :
    ∃ literal tail, v.literal = .ok literal ∧ inlined rest = .ok tail ∧ literal ++ tail = text := by
  cases hl : v.literal <;> cases hr : inlined rest <;>
    simp_all [inlined, bind, Except.bind, pure, Except.pure]

theorem inlined_append_eq (a b : List Piece) :
    inlined (a ++ b) = (do return (← inlined a) ++ (← inlined b)) := by
  induction a with
  | nil => cases h : inlined b <;> simp [inlined, h, bind, Except.bind, pure, Except.pure]
  | cons piece rest ih =>
    cases piece with
    | failed _ => rfl
    | sourceless => exact ih
    | text s =>
      rw [List.cons_append, inlined_text, inlined_text, ih]
      cases inlined rest <;> cases inlined b <;>
        simp [Except.map, bind, Except.bind, pure, Except.pure, String.append_assoc]
    | value v =>
      rw [List.cons_append, inlined, inlined, ih]
      cases v.literal <;> cases inlined rest <;> cases inlined b <;>
        simp [bind, Except.bind, pure, Except.pure, String.append_assoc]

theorem bound_text (placeholder : Nat → String) (count : Nat) (s : String) (rest : List Piece) :
    bound placeholder count (.text s :: rest) =
      (bound placeholder count rest).map fun form => (s ++ form.1, form.2) := by
  rw [bound]
  cases bound placeholder count rest <;> rfl

theorem bound_value (placeholder : Nat → String) (count : Nat) (v : Value) (rest : List Piece) :
    bound placeholder count (.value v :: rest) =
      (bound placeholder (count + 1) rest).map fun form =>
        (placeholder (count + 1) ++ form.1, v :: form.2) := by
  rw [bound]
  cases bound placeholder (count + 1) rest <;> rfl

/-- Values are bound in the order of the text. -/
theorem bound_append (placeholder : Nat → String) (count : Nat) (a b : List Piece) :
    bound placeholder count (a ++ b) = (do
      let front ← bound placeholder count a
      let back ← bound placeholder (count + front.2.length) b
      return (front.1 ++ back.1, front.2 ++ back.2)) := by
  induction a generalizing count with
  | nil =>
    cases h : bound placeholder count b <;> simp [bound, h, bind, Except.bind, pure, Except.pure]
  | cons piece rest ih =>
    rw [List.cons_append]
    cases piece with
    | text s =>
      rw [bound_text, bound_text, ih]
      cases bound placeholder count rest with
      | error failure => rfl
      | ok front =>
        cases h : bound placeholder (count + front.2.length) b <;>
          simp [h, Except.map, bind, Except.bind, pure, Except.pure, String.append_assoc]
    | value v =>
      rw [bound_value, bound_value, ih]
      cases bound placeholder (count + 1) rest with
      | error failure => rfl
      | ok front =>
        have later : count + 1 + front.2.length = count + (front.2.length + 1) := by
          rw [Nat.add_assoc, Nat.add_comm 1]
        cases h : bound placeholder (count + (front.2.length + 1)) b <;>
          simp [later, h, Except.map, bind, Except.bind, pure, Except.pure, String.append_assoc]
    | sourceless => exact ih count
    | failed failure => rfl

theorem inlined_eq_weave {pieces : List Piece} {text : String} (h : inlined pieces = .ok text) :
    ∃ literals, (values pieces).mapM Value.literal = .ok literals ∧
      text = weave (texts pieces) literals := by
  induction pieces generalizing text with
  | nil =>
    simp only [inlined, Except.ok.injEq] at h
    exact ⟨[], rfl, by simp [texts, weave, h]⟩
  | cons piece rest ih =>
    cases piece with
    | text s =>
      rw [inlined_text] at h
      obtain ⟨tail, ht, rfl⟩ := Failure.of_map_eq_ok h
      obtain ⟨literals, written, rfl⟩ := ih ht
      exact ⟨literals, written, (weave_prepend s (texts_ne_nil rest) literals).symm⟩
    | value v =>
      obtain ⟨literal, tail, hl, ht, rfl⟩ := inlined_value h
      obtain ⟨literals, written, rfl⟩ := ih ht
      exact ⟨literal :: literals, by simp [values, hl, written, bind, Except.bind, pure, Except.pure],
        by simp [texts, weave]⟩
    | sourceless => exact ih h
    | failed failure => simp at h

/-- Pieces that can all be written. -/
def Sound (pieces : List Piece) : Prop :=
  ∀ failure, failed failure ∉ pieces

theorem Sound.of_cons {piece : Piece} {rest : List Piece} (h : Sound (piece :: rest)) :
    (∀ failure, piece ≠ failed failure) ∧ Sound rest :=
  ⟨fun failure he => h failure (he ▸ List.mem_cons_self),
    fun failure hm => h failure (List.mem_cons_of_mem _ hm)⟩

theorem Sound.cons {piece : Piece} {rest : List Piece} (hp : ∀ failure, piece ≠ failed failure)
    (h : Sound rest) : Sound (piece :: rest) := by
  intro failure hm
  rcases List.mem_cons.1 hm with rfl | hm
  · exact hp failure rfl
  · exact h failure hm

theorem sound_of_inlined {pieces : List Piece} {text : String} (h : inlined pieces = .ok text) :
    Sound pieces := by
  induction pieces generalizing text with
  | nil => simp [Sound]
  | cons piece rest ih =>
    cases piece with
    | text s =>
      rw [inlined_text] at h
      obtain ⟨tail, ht, -⟩ := Failure.of_map_eq_ok h
      exact .cons nofun (ih ht)
    | value v =>
      obtain ⟨-, tail, -, ht, -⟩ := inlined_value h
      exact .cons nofun (ih ht)
    | sourceless => exact .cons nofun (ih h)
    | failed failure => simp at h

theorem sound_of_bound {placeholder : Nat → String} {count : Nat} {pieces : List Piece}
    {form : String × List Value} (h : bound placeholder count pieces = .ok form) : Sound pieces := by
  induction pieces generalizing count form with
  | nil => simp [Sound]
  | cons piece rest ih =>
    cases piece with
    | text s =>
      cases ht : bound placeholder count rest with
      | error failure => simp [bound, ht, bind, Except.bind] at h
      | ok tail => exact .cons (by simp) (ih ht)
    | value v =>
      cases ht : bound placeholder (count + 1) rest with
      | error failure => simp [bound, ht, bind, Except.bind] at h
      | ok tail => exact .cons (by simp) (ih ht)
    | sourceless => exact .cons (by simp) (ih h)
    | failed failure => cases h

/-- Placeholders are numbered on from the values bound before. -/
theorem bound_of_sound {pieces : List Piece} (h : Sound pieces) (placeholder : Nat → String)
    (count : Nat) :
    bound placeholder count pieces =
      .ok (weave (texts pieces) ((List.range' (count + 1) (values pieces).length).map placeholder),
        values pieces) := by
  induction pieces generalizing count with
  | nil => rfl
  | cons piece rest ih =>
    obtain ⟨written, others⟩ := h.of_cons
    cases piece with
    | text s =>
      simp [bound, ih others, texts, values, weave_prepend s (texts_ne_nil rest), bind, Except.bind,
        pure, Except.pure]
    | value v =>
      simp [bound, ih others, texts, values, weave, List.range'_succ, bind, Except.bind, pure,
        Except.pure]
    | sourceless => exact ih others count
    | failed failure => exact absurd rfl (written failure)

/-- What can be inlined can be bound, with any placeholders. -/
theorem bound_eq_weave {pieces : List Piece} {text : String} (h : inlined pieces = .ok text)
    (placeholder : Nat → String) (count : Nat) :
    bound placeholder count pieces =
      .ok (weave (texts pieces) ((List.range' (count + 1) (values pieces).length).map placeholder),
        values pieces) :=
  bound_of_sound (sound_of_inlined h) placeholder count

end Piece

/-- What the pieces of a layout are made of: words, parentheses, plain operands and what is given. A slot
for which there is no binding is written as a question mark. -/
inductive Piece.IsMadeOf (p : Given → Prop) : Piece → Prop where
  | word {word : String} : Layout.isWord word = true → IsMadeOf p (.text word)
  | opening : IsMadeOf p (.text "(")
  | closing : IsMadeOf p (.text ")")
  | name {name : String} : p (.name name) → IsMadeOf p (.text name)
  | value {v : Value} : v.IsPlain → IsMadeOf p (.value v)
  | segment {sql : String} {bindings : Nat} {segment : List Char} : p (.fragment sql bindings) →
      segment ∈ Slot.segments sql.toList → IsMadeOf p (.text (String.ofList segment))
  | unfilled {sql : String} {bindings : Nat} : p (.fragment sql bindings) →
      bindings + 1 < (Slot.segments sql.toList).length → IsMadeOf p (.text "?")
  | bound {rows : Value} {text : String} : p (.bound rows) → rows.plainText = .ok text →
      IsMadeOf p (.text text)
  | sourceless : IsMadeOf p .sourceless
  | failed {failure : Failure} : IsMadeOf p (.failed failure)

theorem Piece.IsMadeOf.isPlain {p : Given → Prop} {piece : Piece} (h : IsMadeOf p piece) :
    piece.IsPlain := by
  cases h with
  | value plain => exact plain
  | word _ | opening | closing | name _ | segment _ _ | unfilled _ _ | bound _ _ | sourceless | failed =>
    trivial

namespace Layout

/-- A text is written, a slot is filled, or there is nothing for a slot. -/
theorem mem_fill {α : Type} {text : String → α} {segments : List (List Char)} {slots : List (List α)}
    {x : α} (h : x ∈ fill text segments slots) :
    (∃ segment ∈ segments, x = text (String.ofList segment)) ∨
      (x = text "?" ∧ slots.length + 1 < segments.length) ∨ ∃ slot ∈ slots, x ∈ slot := by
  fun_induction fill text segments slots with
  | case1 => simp at h
  | case2 last => exact .inl ⟨last, List.mem_cons_self, List.mem_singleton.1 h⟩
  | case3 segment rest more ih =>
    have longer : 1 < (segment :: rest).length :=
      Nat.succ_lt_succ (List.length_pos_iff.2 more)
    simp only [List.mem_cons] at h
    rcases h with h | h | h
    · exact .inl ⟨segment, List.mem_cons_self, h⟩
    · exact .inr (.inl ⟨h, longer⟩)
    · rcases ih h with ⟨later, hm, hx⟩ | ⟨mark, -⟩ | none
      · exact .inl ⟨later, List.mem_cons_of_mem _ hm, hx⟩
      · exact .inr (.inl ⟨mark, longer⟩)
      · exact .inr (.inr none)
  | case4 segment rest slot slots _ ih =>
    simp only [List.mem_cons, List.mem_append] at h
    rcases h with h | h | h
    · exact .inl ⟨segment, List.mem_cons_self, h⟩
    · exact .inr (.inr ⟨slot, List.mem_cons_self, h⟩)
    · rcases ih h with ⟨later, hm, hx⟩ | ⟨mark, short⟩ | ⟨later, hl, hx⟩
      · exact .inl ⟨later, List.mem_cons_of_mem _ hm, hx⟩
      · exact .inr (.inl ⟨mark, Nat.succ_lt_succ short⟩)
      · exact .inr (.inr ⟨later, List.mem_cons_of_mem _ hl, hx⟩)

theorem Composed.pieces_made {p : Given → Prop} {a b : Edge} {layout : Layout}
    (h : Composed p a layout b) : ∀ piece ∈ layout.pieces, piece.IsMadeOf p := by
  induction h with
  | keyword word => exact List.forall_mem_singleton.2 (.word word)
  | parenthesized _ ih =>
    intro piece hp
    simp only [Layout.parenthesized, pieces_series, pieces, List.flatMap_cons, List.flatMap_nil,
      List.append_nil, List.mem_append, List.mem_singleton] at hp
    rcases hp with rfl | hp | rfl
    · exact .opening
    · exact ih piece hp
    · exact .closing
  | verbatim given => exact List.forall_mem_singleton.2 (.name given)
  | operand plain => exact List.forall_mem_singleton.2 (.value plain)
  | @filled sql slots given plain _ ih =>
    intro piece hp
    rw [pieces, piecesOfEach_eq_map] at hp
    rcases mem_fill hp with ⟨_, hm, rfl⟩ | ⟨rfl, short⟩ | ⟨_, hs, hx⟩
    · exact .segment given hm
    · exact .unfilled given (by rwa [List.length_map] at short)
    · obtain ⟨slot, hslot, rfl⟩ := List.mem_map.1 hs
      cases slot with
      | operand v =>
        rw [List.mem_singleton.1 hx]
        exact .value (plain v hslot)
      | keyword _ | verbatim _ | filled _ _ | series _ | sourceless | failed _ =>
        exact ih _ hslot rfl piece hx
  | nil => simp
  | cons _ _ first others =>
    intro piece hp
    rw [pieces_series, List.flatMap_cons, ← pieces_series] at hp
    exact (List.mem_append.1 hp).elim (first piece) (others piece)
  | @bound rows given =>
    intro piece hp
    simp only [plainText, pieces_series, List.flatMap_append, List.flatMap_cons, List.flatMap_nil,
      List.append_nil, List.mem_append, List.mem_flatMap, List.mem_replicate] at hp
    rcases hp with ⟨_, ⟨_, rfl⟩, hx⟩ | hp
    · rw [List.mem_singleton.1 hx]
      exact .sourceless
    · cases written : rows.plainText with
      | ok text =>
        simp only [written, pieces, List.mem_singleton] at hp
        exact hp ▸ .bound given written
      | error failure =>
        simp only [written, pieces, List.mem_singleton] at hp
        exact hp ▸ .failed
  | sourceless => exact List.forall_mem_singleton.2 .sourceless
  | noSource => exact List.forall_mem_singleton.2 .failed
  | weaken _ _ _ ih => exact ih

theorem Composed.pieces_plain {p : Given → Prop} {a b : Edge} {layout : Layout}
    (h : Composed p a layout b) : ∀ piece ∈ layout.pieces, piece.IsPlain :=
  fun piece hp => (h.pieces_made piece hp).isPlain

end Layout

/-- Both forms of a query are woven from the same texts and values. The formatter writes the literals
of the values between the texts. The binder writes placeholders there, whatever the placeholders are,
numbered on from the values that were bound before, and adds its values to those. -/
structure Query.Woven (q : Query) (inlined : String) (texts : List String) (values : List Value)
    (literals : List String) : Prop where
  length_texts : texts.length = values.length + 1
  plain : ∀ v ∈ values, v.IsPlain
  literals_eq : values.mapM Value.literal = .ok literals
  inlined_eq : inlined = weave texts literals
  formatted : ∀ r : Runtime, ∃ r', q.render Rendering.format r = .ok inlined r' ∧ r'.bindings = r.bindings
  rendered : ∀ (placeholder : Nat → String) (r : Runtime), ∃ r',
    q.render (Rendering.bindValue fun position => .ok (placeholder position)) r =
        .ok (weave texts ((List.range' (r.bindings.length + 1) values.length).map placeholder)) r' ∧
      r'.bindings = r.bindings ++ values
  bind_eq : ∀ d : Dialect, (DialectChoice.known d).bind q =
    .ok ⟨weave texts ((List.range' 1 values.length).map d.placeholder), values, d.name⟩

/-- A query that the formatter renders is rendered by the binder for every dialect, and the two forms
differ in nothing but what stands for its values. -/
theorem Query.forms_agree (q : Query) {text : String} (h : q.rendition.text = .ok text) :
    ∃ texts values literals, q.Woven text texts values literals := by
  have inlined : q.inlined = .ok text := by rwa [q.rendition_eq] at h
  have plain := (q.composed (p := fun _ => True) fun _ _ => trivial).pieces_plain
  have forms := Piece.bound_eq_weave inlined
  obtain ⟨literals, written, woven⟩ := Piece.inlined_eq_weave inlined
  refine ⟨Piece.texts q.layout.pieces, Piece.values q.layout.pieces, literals, ?_⟩
  exact {
    length_texts := Piece.length_texts _
    plain := Piece.values_plain plain
    literals_eq := written
    inlined_eq := woven
    formatted := fun r => by
      rw [q.render_format, inlined]
      exact ⟨_, rfl, rfl⟩
    rendered := fun placeholder r => by
      rw [q.render_bindValue, forms, Piece.valuesReached_of_bound (forms placeholder 0)]
      exact ⟨_, rfl, rfl⟩
    bind_eq := fun d => by
      rw [DialectChoice.bind_known, Query.bound, Layout.bound, forms]
      rfl }

/-- A query with a slot in a fragment of a fragment, a subquery among its conditions and a member. -/
def Query.nestedSample : Query :=
  let names : Query :=
    { selection := [⟨.name "id", none⟩], source := some ⟨some "u", none, none⟩,
      conditions := [⟨.and, .comparison "n" "=" (.text "O'B")⟩] }
  let inner : Fragment := ⟨"? + '?'", [.int 1]⟩
  { ctes := [⟨"c", none, .raw ⟨"SELECT ?", [.fragment inner]⟩, false⟩],
    source := some ⟨some "t", none, none⟩,
    conditions := [⟨.and, .member "a" (.query names) false⟩, ⟨.or, .comparison "b" "=" (.int (-2))⟩],
    setOperations := [⟨.unionAll, names⟩] }

set_option maxRecDepth 10000 in
theorem Query.nestedSample_forms_agree :
    ∃ texts values literals, Query.nestedSample.Woven
      ("WITH c AS (SELECT 1 + '?')\nSELECT *\nFROM t\nWHERE (a IN (SELECT id\nFROM u\n" ++
        "WHERE n = 'O''B') OR b = -2)\nUNION ALL\nSELECT id\nFROM u\nWHERE n = 'O''B'")
      texts values literals :=
  Query.nestedSample.forms_agree rfl

end SqlComposition
