import Mathlib.Data.List.Infix
import SqlComposition.Proofs.Precedence

/-!
Grouped texts, read by the grammar of AND and OR. A text without parentheses and connectives is an atom.
Whatever the connectives are called, the reading of the grouped text has the value of the flat sequence,
of which only OR separates alternatives. When no atom starts or ends with a connective, there is no other
reading.
-/

namespace SqlComposition.Grouping
open Precedence

def character : Sign → List Char
  | .and => " AND ".toList
  | .or => " OR ".toList
  | .opening => ['(']
  | .closing => [')']

def IsConnective (w : List Char) : Prop :=
  w = character .and ∨ w = character .or

def HasNoParenthesis (cs : List Char) : Prop :=
  ∀ c ∈ cs, c ≠ '(' ∧ c ≠ ')'

instance (cs : List Char) : Decidable (HasNoParenthesis cs) :=
  cs.decidableBAll fun c => c ≠ '(' ∧ c ≠ ')'

structure IsAtom (text : String) : Prop where
  bare : HasNoParenthesis text.toList
  whole : ∀ w, IsConnective w → ¬ w <:+: text.toList

theorem forall_connective {p : List Char → Prop} :
    (∀ w, IsConnective w → p w) ↔ p (character .and) ∧ p (character .or) := by
  constructor
  · exact fun h => ⟨h _ (.inl rfl), h _ (.inr rfl)⟩
  · rintro ⟨hand, hor⟩ w (rfl | rfl)
    · exact hand
    · exact hor

theorem isAtom_iff {text : String} :
    IsAtom text ↔ HasNoParenthesis text.toList ∧
      ¬ character .and <:+: text.toList ∧ ¬ character .or <:+: text.toList :=
  ⟨fun h => ⟨h.bare, forall_connective.1 h.whole⟩, fun h => ⟨h.1, forall_connective.2 h.2⟩⟩

instance (text : String) : Decidable (IsAtom text) :=
  decidable_of_iff _ isAtom_iff.symm

abbrev Atom := { text : String // IsAtom text }

instance : Inhabited Atom :=
  ⟨"", by decide⟩

/-- No connective comes about at an end of the atom either, next to a blank. Without this, the text of
`x AND` and `y` would be the text of `x` and `AND y`. -/
def Atom.IsApart (a : Atom) : Prop :=
  ∀ w, IsConnective w → ¬ w <:+: ' ' :: (a.val.toList ++ [' '])

instance (a : Atom) : Decidable a.IsApart :=
  decidable_of_iff _ forall_connective.symm

def characters : Spelling Atom Char where
  sign := character
  atom a := a.val.toList

/-- The text is read as this, from its first to its last character. -/
def IsReading (d : Disjunction Atom) (text : String) : Prop :=
  d.interpret (.text characters) = text.toList

/-- The value of what follows a conjunction with a value: OR ends the conjunction and all else goes on. -/
def flatFrom (v : Atom → Truth) : Truth → List (String × Atom) → Truth
  | value, [] => value
  | value, (connective, a) :: rest =>
    if connective = "OR" then value.or (flatFrom v (v a) rest) else flatFrom v (value.and (v a)) rest

/-- How deep parentheses are nested: how many more of them have been opened than closed at most. -/
def nesting : List Char → ℕ
  | [] => 0
  | c :: rest =>
    if c = '(' then nesting rest + 1 else if c = ')' then nesting rest - 1 else nesting rest

section Legible

/-- What stands behind a factor; after a connective, `p` holds of the rest. -/
inductive Follows (p : List Char → Prop) : List Char → Prop
  | nil : Follows p []
  | closing (r : List Char) : Follows p (')' :: r)
  | connective {w r : List Char} (hw : IsConnective w) (hr : p r) : Follows p (w ++ r)

abbrev FollowsAny : List Char → Prop :=
  Follows fun _ => True

/-- The blank before it is not the start of a connective. -/
def Starts (r : List Char) : Prop :=
  ∀ w, IsConnective w → ¬ w <+: ' ' :: r

theorem Follows.any {p : List Char → Prop} {r : List Char} (h : Follows p r) : FollowsAny r := by
  cases h with
  | nil => exact .nil
  | closing r => exact .closing r
  | connective hw _ => exact .connective hw trivial

theorem Follows.ne_opening {p : List Char → Prop} {r s : List Char} (h : Follows p r) :
    r ≠ '(' :: s := by
  rintro rfl
  generalize same : '(' :: s = r at h
  cases h with
  | nil => cases same
  | closing r => cases same
  | connective hw _ => rcases hw with rfl | rfl <;> cases same

/-- The only part of a connective behind which something can follow is its last blank. -/
theorem suffix_of_followsAny {w k x : List Char} (hw : IsConnective w) (hk : k <:+ w)
    (h : FollowsAny (k ++ x)) : k = [] ∨ k = [' '] ∨ k = w := by
  have head : ∀ c rest, k = c :: rest → c = ' ' ∨ c = ')' := by
    rintro c rest rfl
    generalize same : c :: rest ++ x = r at h
    cases h with
    | nil => cases same
    | closing r => exact .inr (List.cons.inj same).1
    | connective hw _ => rcases hw with rfl | rfl <;> exact .inl (List.cons.inj same).1
  have parts : ∀ k' ∈ w.tails,
      k' = [] ∨ k' = [' '] ∨ k' = w ∨ k'.head? ≠ some ' ' ∧ k'.head? ≠ some ')' := by
    rcases hw with rfl | rfl <;> decide
  rcases parts k ((List.mem_tails _ _).2 hk) with h | h | h | ⟨blank, closing⟩
  · exact .inl h
  · exact .inr (.inl h)
  · exact .inr (.inr h)
  · cases k with
    | nil => exact .inl rfl
    | cons c rest =>
      rcases head c rest rfl with rfl | rfl
      · exact absurd rfl blank
      · exact absurd rfl closing

/-- Where something that follows a factor starts inside of a connective, it starts with the last blank. -/
theorem overlap {w m s x : List Char} (hw : IsConnective w) (whole : ¬ w <:+: m)
    (hs : FollowsAny s) (h : m ++ s = w ++ x) : m = [] ∨ m ++ [' '] = w ∧ s = ' ' :: x := by
  rcases List.append_eq_append_iff.1 h with ⟨k, split, rfl⟩ | ⟨k, rfl, -⟩
  · rcases suffix_of_followsAny hw ⟨m, split.symm⟩ hs with rfl | rfl | same
    · rw [List.append_nil] at split
      exact absurd (split ▸ List.infix_refl _) whole
    · exact .inr ⟨split.symm, rfl⟩
    · exact .inl (List.append_left_eq_self.1 (split.symm.trans same.symm))
  · exact absurd (List.prefix_append w k).isInfix whole

theorem Atom.starts {a : Atom} (ha : a.IsApart) {r : List Char} (hr : FollowsAny r) :
    Starts (a.val.toList ++ r) := by
  rintro w hw ⟨y, same⟩
  have own : ' ' :: a.val.toList <:+: ' ' :: (a.val.toList ++ [' ']) :=
    (List.prefix_append (' ' :: a.val.toList) [' ']).isInfix
  rcases overlap hw (fun h => ha w hw (h.trans own)) hr same.symm with empty | ⟨whole, -⟩
  · cases empty
  · exact ha w hw (whole ▸ List.infix_refl _)

/-- Of what stands behind a factor, an atom can only take a connective up to its last blank. -/
theorem Atom.overlap {a : Atom} {m : List Char} (inside : m <:+: a.val.toList)
    {p : List Char → Prop} {r s : List Char} (hr : Follows p r) (hs : FollowsAny s)
    (h : r = m ++ s) : m = [] ∨ IsConnective (m ++ [' ']) ∧ ∃ x, s = ' ' :: x ∧ p x := by
  cases hr with
  | nil => exact .inl (List.append_eq_nil_iff.1 h.symm).1
  | closing r =>
    cases m with
    | nil => exact .inl rfl
    | cons c rest =>
      obtain ⟨rfl, -⟩ := List.cons.inj h
      exact absurd rfl (a.property.bare _ (inside.subset List.mem_cons_self)).2
  | @connective w r hw holds =>
    rcases Grouping.overlap hw (fun h => a.property.whole w hw (h.trans inside)) hs h.symm with
      empty | ⟨whole, behind⟩
    · exact .inl empty
    · exact .inr ⟨whole ▸ hw, r, behind, holds⟩

theorem Atom.cancel {a b : Atom} (ha : a.IsApart) {r s : List Char} (hr : Follows Starts r)
    (hs : FollowsAny s) (h : a.val.toList ++ r = b.val.toList ++ s) : a = b ∧ r = s := by
  rcases List.append_eq_append_iff.1 h with ⟨m, longer, behind⟩ | ⟨m, longer, behind⟩
  · -- The second atom goes on with what follows the first one.
    have inside : m <:+: b.val.toList := longer ▸ (List.suffix_append _ m).isInfix
    rcases Atom.overlap inside hr hs behind with rfl | ⟨-, x, rfl, starts⟩
    · rw [List.append_nil] at longer
      exact ⟨Subtype.ext (String.toList_inj.1 longer.symm), behind⟩
    · generalize same : ' ' :: x = s at hs
      cases hs with
      | nil => cases same
      | closing s => cases same
      | @connective w y hw _ => exact absurd ⟨y, same.symm⟩ (starts w hw)
  · -- The first atom goes on with what follows the second one.
    have inside : m <:+: a.val.toList := longer ▸ (List.suffix_append _ m).isInfix
    rcases Atom.overlap inside hs hr.any behind with rfl | ⟨hw, -⟩
    · rw [List.append_nil] at longer
      exact ⟨Subtype.ext (String.toList_inj.1 longer), behind.symm⟩
    · have ending : m ++ [' '] <:+: ' ' :: (a.val.toList ++ [' ']) := by
        rw [longer, List.append_assoc, ← List.cons_append]
        exact (List.suffix_append _ _).isInfix
      exact absurd ending (ha _ hw)

theorem Atom.ne_opening (a : Atom) {p : List Char → Prop} {r s : List Char} (hr : Follows p r) :
    a.val.toList ++ r ≠ '(' :: s := by
  intro h
  rcases List.append_eq_cons_iff.1 h with ⟨-, rfl⟩ | ⟨rest, inside, -⟩
  · exact hr.ne_opening rfl
  · exact (a.property.bare '(' (inside ▸ List.mem_cons_self)).1 rfl

theorem characters_legible :
    characters.Legible Atom.IsApart (Follows Starts) FollowsAny Starts where
  sign_ne_nil sign := by cases sign <;> decide
  sign_inj {sign sign' r s} h := by
    cases sign <;> cases sign' <;> simp [characters, character] at h ⊢
  left_nil := .nil
  left_closing := .closing
  left_connective {sign r} hs hr := by
    refine .connective (?_ : IsConnective (character sign)) hr
    rcases hs with rfl | rfl
    · exact .inl rfl
    · exact .inr rfl
  starts_opening r := by
    rintro w (rfl | rfl) ⟨x, h⟩ <;> simp [characters, character] at h
  starts_atom ha hr := Atom.starts ha hr.any
  right_nil := .nil
  right_sign {sign} s hs := by
    cases sign with
    | and => exact .connective (.inl rfl) trivial
    | or => exact .connective (.inr rfl) trivial
    | opening => exact absurd rfl hs
    | closing => exact .closing s
  atom_atom ha hr hs h := Atom.cancel ha hr hs h
  atom_group {a d r s} _ hr _ h := by
    rw [Interpretation.text_group, List.append_assoc] at h
    exact a.ne_opening hr h
  group_atom {d b r s} _ hs h := by
    rw [Interpretation.text_group, List.append_assoc] at h
    exact b.ne_opening hs h.symm

end Legible

section Nesting

theorem nesting_append_bare {cs : List Char} (h : HasNoParenthesis cs) (rest : List Char) :
    nesting (cs ++ rest) = nesting rest := by
  induction cs with
  | nil => rfl
  | cons c cs ih =>
    obtain ⟨⟨opening, closing⟩, others⟩ := List.forall_mem_cons.1 h
    rw [List.cons_append, nesting, if_neg opening, if_neg closing, ih others]

theorem nesting_connective {sign : Sign} (hs : sign = .and ∨ sign = .or) (rest : List Char) :
    nesting (characters.sign sign ++ rest) = nesting rest :=
  nesting_append_bare (by rcases hs with rfl | rfl <;> decide) rest

theorem nesting_group (inside rest : List Char) :
    nesting (characters.sign .opening ++ (inside ++ (characters.sign .closing ++ rest))) =
      nesting (inside ++ ')' :: rest) + 1 := by
  rw [show characters.sign .opening = ['('] from rfl, List.singleton_append, nesting, if_pos rfl]
  rfl

mutual

/-- The parentheses of a text are nested as they are in its reading. -/
theorem nesting_disjunction : (d : Disjunction Atom) → (rest : List Char) →
    nesting (d.interpret (.text characters) ++ rest) = max (d.interpret .depth) (nesting rest)
  | .single c, rest => nesting_conjunction c rest
  | .or c d, rest => by
    rw [Interpretation.text_or, List.append_assoc, List.append_assoc, nesting_conjunction c,
      nesting_connective (.inr rfl), nesting_disjunction d, ← max_assoc]
    rfl

theorem nesting_conjunction : (c : Conjunction Atom) → (rest : List Char) →
    nesting (c.interpret (.text characters) ++ rest) = max (c.interpret .depth) (nesting rest)
  | .single f, rest => nesting_factor f rest
  | .and f c, rest => by
    rw [Interpretation.text_and, List.append_assoc, List.append_assoc, nesting_factor f,
      nesting_connective (.inl rfl), nesting_conjunction c, ← max_assoc]
    rfl

theorem nesting_factor : (f : Factor Atom) → (rest : List Char) →
    nesting (f.interpret (.text characters) ++ rest) = max (f.interpret .depth) (nesting rest)
  | .atom a, rest => (nesting_append_bare a.property.bare rest).trans (Nat.zero_max _).symm
  | .group d, rest => by
    have closing : nesting (')' :: rest) = nesting rest - 1 := by
      rw [nesting, if_neg (by decide), if_pos rfl]
    have deeper : (Factor.group d).interpret .depth = d.interpret .depth + 1 := rfl
    rw [Interpretation.text_group, List.append_assoc, List.append_assoc, nesting_group,
      nesting_disjunction d, closing, deeper]
    omega

end

end Nesting

section Flat

variable (v : Atom → Truth)

theorem flatFrom_eq (value : Truth) (rest : List (String × Atom)) :
    flatFrom v value rest =
      (value.and (.allOf (split (rest.map fun c => (c.1 == "OR", v c.2))).1)).or
        (.anyOf ((split (rest.map fun c => (c.1 == "OR", v c.2))).2.map .allOf)) := by
  induction rest generalizing value with
  | nil => simp [flatFrom, split, Truth.allOf, Truth.anyOf]
  | cons c rest ih =>
    obtain ⟨connective, a⟩ := c
    by_cases opens : connective = "OR"
    · subst opens
      rw [flatFrom, if_pos rfl, ih, List.map_cons, split]
      simp [Truth.allOf, Truth.anyOf]
    · have goes : (connective == "OR") = false := beq_false_of_ne opens
      rw [flatFrom, if_neg opens, ih, List.map_cons, split, goes]
      simp [Truth.allOf, ← Truth.and_assoc]

/-- The flat sequence has the value of any of the groups, of which all have theirs. -/
theorem flatFrom_eq_anyOf (first : String × Atom) (rest : List (String × Atom)) :
    flatFrom v (v first.2) rest =
      .anyOf (((first :: rest).splitBy fun _ next => !(next.1 == "OR")).map fun group =>
        .allOf (group.map fun c => v c.2)) := by
  have stretches := groups_eq_splitBy (fun c : String × Atom => c.1 == "OR") (fun c => v c.2)
    (first :: rest)
  have whole := congrArg (fun groups => Truth.anyOf (groups.map .allOf)) stretches
  rw [List.map_map] at whole
  exact (flatFrom_eq v _ rest).trans whole

end Flat

section Written

def written (d : Disjunction Atom) : String :=
  String.ofList (d.interpret (.text characters))

theorem written_joined {d first : Disjunction Atom} {rest : List (Disjunction Atom)}
    {connective : String}
    (h : d.interpret (.text characters) =
      '(' :: (connective.toList.intercalate
        ((first :: rest).map (Disjunction.interpret (.text characters))) ++ [')'])) :
    written d = "(" ++ connective.intercalate ((first :: rest).map written) ++ ")" := by
  have inside : ((first :: rest).map written).map String.toList =
      (first :: rest).map (Disjunction.interpret (.text characters)) := by
    rw [List.map_map]
    exact List.map_congr_left fun e _ => String.toList_ofList
  apply String.toList_inj.1
  rw [written, String.toList_ofList, h, String.toList_append, String.toList_append,
    String.toList_intercalate, inside]
  rfl

/-- The reading of grouped texts. -/
def reading (given : List (String × Atom)) : Option (Disjunction Atom) :=
  assemble Disjunction.join (given.map fun c => (c.1 == "OR", .ofAtom c.2))

theorem text_eq_reading (given : List (String × Atom)) :
    text (given.map fun c => (c.1, c.2.val)) = ((reading given).map written).getD "" := by
  rw [reading, ← assemble_map_of_groups (f := written) ?_ ?_]
  · have single : ∀ a : Atom, written (.ofAtom a) = a.val := fun a => String.ofList_toList
    rw [text, List.map_map, List.map_map]
    simp only [Function.comp_def, single]
    rfl
  · intro group _ several
    obtain ⟨first, rest, rfl⟩ := List.exists_cons_of_length_pos (Nat.lt_of_succ_lt several)
    apply written_joined
    rw [Disjunction.interpret_join_and (Interpretation.text_isSerial characters), List.map_cons,
      ← linked_separated]
    rfl
  · intro parts several
    obtain ⟨first, rest, rfl⟩ := List.exists_cons_of_length_pos (Nat.lt_of_succ_lt several)
    apply written_joined
    rw [Disjunction.interpret_join_or (Interpretation.text_isSerial characters).or_or,
      List.map_cons, ← linked_separated]
    rfl

end Written

/-- Grouped texts have a reading, with the value of the flat sequence. -/
theorem text_read (first : String × Atom) (rest : List (String × Atom)) :
    ∃ d : Disjunction Atom,
      IsReading d (text ((first :: rest).map fun c => (c.1, c.2.val))) ∧
      ((∀ c ∈ first :: rest, c.2.IsApart) → ∀ other : Disjunction Atom,
        IsReading other (text ((first :: rest).map fun c => (c.1, c.2.val))) → other = d) ∧
      (∀ v : Atom → Truth, d.interpret (.truth v) = flatFrom v (v first.2) rest) ∧
      d.interpret .atoms = (first :: rest).map Prod.snd ∧
      (∀ connective : String, text ((connective, first.2.val) :: rest.map fun c => (c.1, c.2.val)) =
        text ((first :: rest).map fun c => (c.1, c.2.val))) ∧
      nesting (text ((first :: rest).map fun c => (c.1, c.2.val))).toList ≤ 2 := by
  have some : first :: rest ≠ [] := List.cons_ne_nil first rest
  obtain ⟨d, hd⟩ : ∃ d, reading (first :: rest) = Option.some d := exists_assemble _ _ _ some
  have read : IsReading d (text ((first :: rest).map fun c => (c.1, c.2.val))) := by
    rw [IsReading, text_eq_reading, hd, Option.map_some, Option.getD_some, written,
      String.toList_ofList]
  have atoms : d.interpret .atoms = (first :: rest).map Prod.snd :=
    (Disjunction.atoms_assembled some hd).trans List.map_eq_flatMap.symm
  refine ⟨d, read, fun apart other ho => ?_, fun v => ?_, atoms, fun connective => rfl, ?_⟩
  · have plain : d.IsPlain Atom.IsApart := by
      rw [Disjunction.IsPlain, atoms]
      exact List.forall_mem_map.2 apart
    exact (Disjunction.text_inj characters_legible plain (read.trans ho.symm)).symm
  · rw [flatFrom_eq_anyOf]
    exact Disjunction.truth_assembled some (fun _ _ _ _ _ => .single _) hd v
  · rw [← read]
    have bare : ∀ c ∈ (first :: rest).map fun c => (c.1 == "OR", Disjunction.ofAtom c.2),
        c.2.interpret .depth ≤ 0 :=
      List.forall_mem_map.2 fun c _ => Nat.le_refl 0
    have nested := nesting_disjunction d []
    rw [List.append_nil] at nested
    rw [nested]
    exact max_le (Disjunction.depth_assemble bare d hd) (Nat.zero_le 2)

/-- Connectives of other names mean AND, and the first one means nothing. -/
def sample : List (String × Atom) :=
  [("OR", ⟨"a = 1", by decide⟩), ("and", ⟨"b IS NULL", by decide⟩), ("OR", ⟨"c", by decide⟩),
    ("XOR", ⟨"d", by decide⟩)]

theorem sample_text_read :
    (∀ c ∈ sample, c.2.IsApart) ∧
    ∃ d : Disjunction Atom,
      IsReading d "((a = 1 AND b IS NULL) OR (c AND d))" ∧
      (∀ other : Disjunction Atom,
        IsReading other "((a = 1 AND b IS NULL) OR (c AND d))" → other = d) ∧
      ∀ v : Atom → Truth, d.interpret (.truth v) =
        ((v ⟨"a = 1", by decide⟩).and (v ⟨"b IS NULL", by decide⟩)).or
          ((v ⟨"c", by decide⟩).and (v ⟨"d", by decide⟩)) := by
  have apart : ∀ c ∈ sample, c.2.IsApart := by decide
  obtain ⟨d, read, unique, value, -⟩ := text_read sample.head! sample.tail
  exact ⟨apart, d, read, unique apart, fun v => value v⟩

end SqlComposition.Grouping
