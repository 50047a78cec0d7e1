import Mathlib.Data.List.Forall2
import Mathlib.Order.Lattice
import SqlComposition.Proofs.Grouping

/-!
Boolean texts in which AND binds more than OR. A factor is an atom or something in parentheses; what the
atoms are and how the signs are written is left open. What two texts say when they are written one after
the other, with a connective between them, is computed from their trees: a text that has an OR outside of
parentheses gives away its last alternative to the AND that follows. In parentheses it stays whole, and so
does a text that stands alone.
-/

namespace SqlComposition.Precedence

/-- The truth values of SQL. -/
inductive Truth where
  | no | unknown | yes
  deriving DecidableEq

namespace Truth

def and : Truth → Truth → Truth
  | .no, _ => .no
  | _, .no => .no
  | .unknown, _ => .unknown
  | _, .unknown => .unknown
  | .yes, .yes => .yes

def or : Truth → Truth → Truth
  | .yes, _ => .yes
  | _, .yes => .yes
  | .unknown, _ => .unknown
  | _, .unknown => .unknown
  | .no, .no => .no

theorem and_assoc (a b c : Truth) : (a.and b).and c = a.and (b.and c) := by
  cases a <;> cases b <;> cases c <;> rfl

theorem or_assoc (a b c : Truth) : (a.or b).or c = a.or (b.or c) := by
  cases a <;> cases b <;> cases c <;> rfl

@[simp] theorem and_yes (a : Truth) : a.and .yes = a := by cases a <;> rfl

@[simp] theorem or_no (a : Truth) : a.or .no = a := by cases a <;> rfl

def allOf (values : List Truth) : Truth :=
  values.foldr and .yes

def anyOf (values : List Truth) : Truth :=
  values.foldr or .no

theorem allOf_eq_yes {values : List Truth} : allOf values = .yes ↔ ∀ value ∈ values, value = .yes := by
  induction values with
  | nil => simp [allOf]
  | cons value rest ih =>
    have both : value.and (allOf rest) = .yes ↔ value = .yes ∧ allOf rest = .yes := by
      cases value <;> cases allOf rest <;> decide
    rw [List.forall_mem_cons, ← ih]
    exact both

def join (connective : String) (values : List Truth) : Truth :=
  if connective = " OR " then anyOf values else allOf values

theorem join_single (connective : String) (value : Truth) : join connective [value] = value := by
  unfold join
  split <;> simp [anyOf, allOf]

end Truth

mutual

inductive Disjunction (α : Type) where
  | single (c : Conjunction α)
  | or (c : Conjunction α) (rest : Disjunction α)

inductive Conjunction (α : Type) where
  | single (f : Factor α)
  | and (f : Factor α) (rest : Conjunction α)

inductive Factor (α : Type) where
  | atom (a : α)
  | group (d : Disjunction α)

end

variable {α β τ : Type}

/-- What is made of a tree, from its atoms up. -/
structure Interpretation (α β : Type) where
  atom : α → β
  group : β → β
  and : β → β → β
  or : β → β → β

mutual

def Disjunction.interpret (i : Interpretation α β) : Disjunction α → β
  | .single c => c.interpret i
  | .or c rest => i.or (c.interpret i) (rest.interpret i)

def Conjunction.interpret (i : Interpretation α β) : Conjunction α → β
  | .single f => f.interpret i
  | .and f rest => i.and (f.interpret i) (rest.interpret i)

def Factor.interpret (i : Interpretation α β) : Factor α → β
  | .atom a => i.atom a
  | .group d => i.group (d.interpret i)

end

theorem Disjunction.interpret_single (i : Interpretation α β) (c : Conjunction α) :
    (Disjunction.single c).interpret i = c.interpret i :=
  rfl

theorem Conjunction.interpret_single (i : Interpretation α β) (f : Factor α) :
    (Conjunction.single f).interpret i = f.interpret i :=
  rfl

inductive Sign where
  | and | or | opening | closing
  deriving DecidableEq

/-- How the signs and the atoms are written. -/
structure Spelling (α τ : Type) where
  sign : Sign → List τ
  atom : α → List τ

namespace Interpretation

def text (spelling : Spelling α τ) : Interpretation α (List τ) where
  atom := spelling.atom
  group d := spelling.sign .opening ++ (d ++ spelling.sign .closing)
  and f rest := f ++ (spelling.sign .and ++ rest)
  or c rest := c ++ (spelling.sign .or ++ rest)

def atoms : Interpretation α (List α) where
  atom a := [a]
  group d := d
  and f rest := f ++ rest
  or c rest := c ++ rest

/-- How deep parentheses are nested. -/
def depth : Interpretation α ℕ where
  atom _ := 0
  group d := d + 1
  and := max
  or := max

def truth (v : α → Truth) : Interpretation α Truth where
  atom := v
  group d := d
  and := Truth.and
  or := Truth.or

variable (spelling : Spelling α τ)

theorem text_or (c : Conjunction α) (rest : Disjunction α) :
    (Disjunction.or c rest).interpret (text spelling) =
      c.interpret (text spelling) ++ (spelling.sign .or ++ rest.interpret (text spelling)) :=
  rfl

theorem text_and (f : Factor α) (rest : Conjunction α) :
    (Conjunction.and f rest).interpret (text spelling) =
      f.interpret (text spelling) ++ (spelling.sign .and ++ rest.interpret (text spelling)) :=
  rfl

theorem text_group (d : Disjunction α) :
    (Factor.group d).interpret (text spelling) =
      spelling.sign .opening ++ (d.interpret (text spelling) ++ spelling.sign .closing) :=
  rfl

/-- Neither connective binds more than the other one. -/
structure IsSerial (i : Interpretation α β) : Prop where
  and_and (x y z : β) : i.and (i.and x y) z = i.and x (i.and y z)
  and_or (x y z : β) : i.or (i.and x y) z = i.and x (i.or y z)
  or_and (x y z : β) : i.and (i.or x y) z = i.or x (i.and y z)
  or_or (x y z : β) : i.or (i.or x y) z = i.or x (i.or y z)

theorem text_isSerial : (text spelling).IsSerial := by
  constructor <;> simp [text]

theorem atoms_isSerial : (atoms (α := α)).IsSerial := by
  constructor <;> simp [atoms]

theorem depth_isSerial : (depth (α := α)).IsSerial := by
  constructor <;> simp [depth, max_assoc]

end Interpretation

/-- A text without an OR outside of parentheses. -/
inductive Disjunction.IsSingle : Disjunction α → Prop
  | single (c : Conjunction α) : IsSingle (.single c)

def Disjunction.ofFactor (f : Factor α) : Disjunction α :=
  .single (.single f)

def Disjunction.ofAtom (a : α) : Disjunction α :=
  .ofFactor (.atom a)

/-- A text, OR, and another text. -/
def Disjunction.either : Disjunction α → Disjunction α → Disjunction α
  | .single c, e => .or c e
  | .or c rest, e => .or c (rest.either e)

def Conjunction.append : Conjunction α → Conjunction α → Conjunction α
  | .single f, e => .and f e
  | .and f rest, e => .and f (rest.append e)

/-- A conjunction, AND, and a text, whose first alternative only goes on with the conjunction. -/
def Conjunction.before (c : Conjunction α) : Disjunction α → Disjunction α
  | .single c' => .single (c.append c')
  | .or c' rest => .or (c.append c') rest

/-- A text, AND, and another text: only the last alternative of the one and the first of the other meet. -/
def Disjunction.both : Disjunction α → Disjunction α → Disjunction α
  | .single c, e => c.before e
  | .or c rest, e => .or c (rest.both e)

section

variable {i : Interpretation α β}

theorem Conjunction.interpret_append
    (h : ∀ x y z, i.and (i.and x y) z = i.and x (i.and y z)) : (c c' : Conjunction α) →
    (c.append c').interpret i = i.and (c.interpret i) (c'.interpret i)
  | .single f, c' => rfl
  | .and f rest, c' => by
    rw [append, interpret, interpret_append h rest c', interpret, h]

theorem Disjunction.interpret_either
    (h : ∀ x y z, i.or (i.or x y) z = i.or x (i.or y z)) : (d e : Disjunction α) →
    (d.either e).interpret i = i.or (d.interpret i) (e.interpret i)
  | .single c, e => rfl
  | .or c rest, e => by
    rw [either, interpret, interpret_either h rest e, interpret, h]

theorem Disjunction.interpret_both_of_isSingle
    (h : ∀ x y z, i.and (i.and x y) z = i.and x (i.and y z)) {d e : Disjunction α}
    (hd : d.IsSingle) (he : e.IsSingle) :
    (d.both e).interpret i = i.and (d.interpret i) (e.interpret i) := by
  cases hd with
  | single c =>
    cases he with
    | single c' => exact c.interpret_append h c'

theorem Disjunction.interpret_both (h : i.IsSerial) : (d e : Disjunction α) →
    (d.both e).interpret i = i.and (d.interpret i) (e.interpret i)
  | .single c, .single c' => c.interpret_append h.and_and c'
  | .single c, .or c' rest => by
    simp only [both, Conjunction.before, interpret, Conjunction.interpret_append h.and_and, h.and_or]
  | .or c rest, e => by
    rw [both, interpret, interpret_both h rest e, interpret, h.or_and]

end

/-- Several parts one after the other. -/
def linked (combine : α → α → α) : α → List α → α
  | first, [] => first
  | first, second :: rest => combine first (linked combine second rest)

theorem linked_of_forall {combine : α → α → α} {p : α → Prop}
    (h : ∀ x y, p x → p y → p (combine x y)) {first : α} {rest : List α}
    (hp : ∀ x ∈ first :: rest, p x) : p (linked combine first rest) := by
  induction rest generalizing first with
  | nil => exact hp first (List.mem_singleton_self first)
  | cons second rest ih =>
    obtain ⟨start, others⟩ := List.forall_mem_cons.1 hp
    exact h _ _ start (ih others)

/-- What is made of linked parts, when the parts are of a kind that linking keeps. -/
theorem map_linked {combine : α → α → α} {link : β → β → β} {f : α → β} (p : α → Prop)
    (closed : ∀ x y, p x → p y → p (combine x y))
    (h : ∀ x y, p x → p y → f (combine x y) = link (f x) (f y)) {first : α} {rest : List α}
    (hp : ∀ x ∈ first :: rest, p x) :
    f (linked combine first rest) = linked link (f first) (rest.map f) := by
  induction rest generalizing first with
  | nil => rfl
  | cons second rest ih =>
    obtain ⟨start, others⟩ := List.forall_mem_cons.1 hp
    rw [linked, h _ _ start (linked_of_forall closed others), ih others]
    rfl

theorem linked_separated (separator first : List τ) (rest : List (List τ)) :
    linked (fun x y => x ++ (separator ++ y)) first rest =
      separator.intercalate (first :: rest) := by
  induction rest generalizing first with
  | nil => rw [linked, List.intercalate_singleton]
  | cons second rest ih => rw [linked, ih, List.intercalate_cons_cons, List.append_assoc]

theorem linked_append (first : List α) (rest : List (List α)) :
    linked (· ++ ·) first rest = (first :: rest).flatten := by
  induction rest generalizing first with
  | nil => simp [linked]
  | cons second rest ih =>
    rw [linked, ih]
    rfl

theorem linked_and (first : Truth) (rest : List Truth) :
    linked Truth.and first rest = Truth.allOf (first :: rest) := by
  induction rest generalizing first with
  | nil => simp [linked, Truth.allOf]
  | cons second rest ih =>
    rw [linked, ih]
    rfl

theorem linked_or (first : Truth) (rest : List Truth) :
    linked Truth.or first rest = Truth.anyOf (first :: rest) := by
  induction rest generalizing first with
  | nil => simp [linked, Truth.anyOf]
  | cons second rest ih =>
    rw [linked, ih]
    rfl

namespace Disjunction

/-- Texts with a connective between them, in parentheses. -/
def join [Inhabited α] (connective : String) : List (Disjunction α) → Disjunction α
  | [] => .ofAtom default
  | first :: rest =>
    .ofFactor (.group (linked (if connective = " OR " then either else both) first rest))

section Joined

variable [Inhabited α] {i : Interpretation α β} {first : Disjunction α} {rest : List (Disjunction α)}

theorem interpret_join_or (h : ∀ x y z, i.or (i.or x y) z = i.or x (i.or y z)) :
    (join " OR " (first :: rest)).interpret i =
      i.group (linked i.or (first.interpret i) (rest.map (interpret i))) := by
  have inner := map_linked (f := interpret i) (fun _ => True) (fun _ _ _ _ => trivial)
    (fun d e _ _ => interpret_either h d e) fun x (_ : x ∈ first :: rest) => trivial
  exact congrArg i.group inner

theorem interpret_join_and (h : i.IsSerial) :
    (join " AND " (first :: rest)).interpret i =
      i.group (linked i.and (first.interpret i) (rest.map (interpret i))) := by
  have inner := map_linked (f := interpret i) (fun _ => True) (fun _ _ _ _ => trivial)
    (fun d e _ _ => interpret_both h d e) fun x (_ : x ∈ first :: rest) => trivial
  exact congrArg i.group inner

theorem interpret_join_and_of_isSingle
    (h : ∀ x y z, i.and (i.and x y) z = i.and x (i.and y z))
    (single : ∀ d ∈ first :: rest, d.IsSingle) :
    (join " AND " (first :: rest)).interpret i =
      i.group (linked i.and (first.interpret i) (rest.map (interpret i))) := by
  have closed : ∀ d e : Disjunction α, d.IsSingle → e.IsSingle → (d.both e).IsSingle := by
    rintro _ _ ⟨c⟩ ⟨c'⟩
    exact .single _
  have inner := map_linked (f := interpret i) IsSingle closed
    (fun d e hd he => interpret_both_of_isSingle h hd he) single
  exact congrArg i.group inner

end Joined

section Assembled

variable [Inhabited α] {conditions : List (Bool × Disjunction α)}

theorem truth_assemble (v : α → Truth)
    (apart : ∀ group ∈ Grouping.groups conditions, 2 ≤ group.length → ∀ d ∈ group, d.IsSingle) :
    Grouping.assemble Truth.join (conditions.map fun c => (c.1, c.2.interpret (.truth v))) =
      (Grouping.assemble join conditions).map (interpret (.truth v)) := by
  apply Grouping.assemble_map_of_groups
  · intro group hg several
    obtain ⟨first, rest, rfl⟩ := List.exists_cons_of_length_pos (Nat.lt_of_succ_lt several)
    rw [interpret_join_and_of_isSingle Truth.and_assoc (apart _ hg several)]
    exact linked_and _ _
  · intro parts several
    obtain ⟨first, rest, rfl⟩ := List.exists_cons_of_length_pos (Nat.lt_of_succ_lt several)
    rw [interpret_join_or Truth.or_assoc]
    exact linked_or _ _

variable (conditions) in
theorem atoms_assemble :
    Grouping.assemble (fun _ => List.flatten) (conditions.map fun c => (c.1, c.2.interpret .atoms)) =
      (Grouping.assemble join conditions).map (interpret .atoms) := by
  apply Grouping.assemble_map_of_groups
  · intro group hg several
    obtain ⟨first, rest, rfl⟩ := List.exists_cons_of_length_pos (Nat.lt_of_succ_lt several)
    rw [interpret_join_and Interpretation.atoms_isSerial]
    exact linked_append _ _
  · intro parts several
    obtain ⟨first, rest, rfl⟩ := List.exists_cons_of_length_pos (Nat.lt_of_succ_lt several)
    rw [interpret_join_or Interpretation.atoms_isSerial.or_or]
    exact linked_append _ _

variable {γ : Type} {opens : γ → Bool} {tree : γ → Disjunction α} {given : List γ}

/-- The whole has a value, that of any of the groups of which all have theirs, when an OR that a condition
has outside of parentheses has no neighbour in its group. -/
theorem truth_assembled (some : given ≠ [])
    (apart : ∀ group ∈ given.splitBy fun _ next => !opens next, 2 ≤ group.length →
      ∀ c ∈ group, (tree c).IsSingle) {d : Disjunction α}
    (h : d ∈ Grouping.assemble join (given.map fun c => (opens c, tree c))) (v : α → Truth) :
    d.interpret (.truth v) =
      .anyOf ((given.splitBy fun _ next => !opens next).map fun group =>
        .allOf (group.map fun c => (tree c).interpret (.truth v))) := by
  have alone : ∀ group ∈ Grouping.groups (given.map fun c => (opens c, tree c)),
      2 ≤ group.length → ∀ d ∈ group, d.IsSingle := by
    rw [Grouping.groups_eq_splitBy, List.forall_mem_map]
    intro group hg several
    rw [List.length_map] at several
    exact List.forall_mem_map.2 (apart group hg several)
  have value := truth_assemble v alone
  rw [List.map_map, Option.mem_def.1 h, Option.map_some] at value
  have closed :=
    Grouping.assemble_eq_some opens (fun c => (tree c).interpret (.truth v)) Truth.join_single some
  exact Option.some.inj (value.symm.trans closed)

/-- No atom is lost or moved. -/
theorem atoms_assembled (some : given ≠ []) {d : Disjunction α}
    (h : d ∈ Grouping.assemble join (given.map fun c => (opens c, tree c))) :
    d.interpret .atoms = given.flatMap fun c => (tree c).interpret .atoms := by
  have whole := atoms_assemble (given.map fun c => (opens c, tree c))
  rw [List.map_map, Option.mem_def.1 h, Option.map_some] at whole
  have single : ∀ (connective : String) (atoms : List α), [atoms].flatten = atoms :=
    fun _ _ => List.flatten_singleton
  have closed := Grouping.assemble_eq_some opens (fun c => (tree c).interpret .atoms) single some
  calc d.interpret .atoms
    _ = ((given.splitBy fun _ next => !opens next).map fun group =>
          (group.map fun c => (tree c).interpret .atoms).flatten).flatten :=
        Option.some.inj (whole.symm.trans closed)
    _ = ((given.splitBy fun _ next => !opens next).map
          (List.map fun c => (tree c).interpret .atoms)).flatten.flatten := by
        rw [List.flatten_flatten, List.map_map]
        rfl
    _ = given.flatMap fun c => (tree c).interpret .atoms := by
        rw [← List.map_flatten, List.flatten_splitBy, List.flatMap_def]

/-- Putting conditions together adds two levels of parentheses at most. -/
theorem depth_assemble {n : ℕ} (h : ∀ c ∈ conditions, c.2.interpret .depth ≤ n) :
    ∀ d ∈ Grouping.assemble join conditions, d.interpret .depth ≤ n + 2 := by
  have linked_le {link : Disjunction α → Disjunction α → Disjunction α} {m : ℕ}
      (hl : ∀ d e, (link d e).interpret .depth = max (d.interpret .depth) (e.interpret .depth))
      (first rest) (hp : ∀ d ∈ first :: rest, d.interpret .depth ≤ m) :
      (linked link first rest).interpret .depth ≤ m :=
    linked_of_forall (fun d e hd he => (hl d e).trans_le (max_le hd he)) hp
  have serial := Interpretation.depth_isSerial (α := α)
  refine Grouping.assemble_of_layers (p := fun d : Disjunction α => d.interpret .depth ≤ n)
    (q := fun d : Disjunction α => d.interpret .depth ≤ n + 1) (fun d hd => hd.trans (Nat.le_succ _))
    (fun d hd => hd.trans (Nat.le_succ _)) ?_ ?_ h
  · intro first rest hp
    exact Nat.succ_le_succ (linked_le (interpret_both serial) first rest hp)
  · intro first rest hp
    exact Nat.succ_le_succ (linked_le (interpret_either serial.or_or) first rest hp)

end Assembled

end Disjunction

/-- Signs and atoms that can be told apart. Of the two trees that are compared, the atoms of the one are
`Plain`; `Left` and `Right` say what may stand behind a factor of the one and of the other tree, and `Starts`
what a factor of the first one starts. -/
structure Spelling.Legible (spelling : Spelling α τ) (Plain : α → Prop)
    (Left Right Starts : List τ → Prop) : Prop where
  sign_ne_nil (sign : Sign) : spelling.sign sign ≠ []
  sign_inj {sign sign' : Sign} {r s : List τ} :
    spelling.sign sign ++ r = spelling.sign sign' ++ s → sign = sign'
  left_nil : Left []
  left_closing (r : List τ) : Left (spelling.sign .closing ++ r)
  left_connective {sign : Sign} {r : List τ} :
    sign = .and ∨ sign = .or → Starts r → Left (spelling.sign sign ++ r)
  starts_opening (r : List τ) : Starts (spelling.sign .opening ++ r)
  starts_atom {a : α} {r : List τ} : Plain a → Left r → Starts (spelling.atom a ++ r)
  right_nil : Right []
  right_sign {sign : Sign} (s : List τ) : sign ≠ .opening → Right (spelling.sign sign ++ s)
  atom_atom {a b : α} {r s : List τ} : Plain a → Left r → Right s →
    spelling.atom a ++ r = spelling.atom b ++ s → a = b ∧ r = s
  atom_group {a : α} {d : Disjunction α} {r s : List τ} : Plain a → Left r → Right s →
    spelling.atom a ++ r ≠ (Factor.group d).interpret (.text spelling) ++ s
  group_atom {d : Disjunction α} {b : α} {r s : List τ} : Left r → Right s →
    (Factor.group d).interpret (.text spelling) ++ r ≠ spelling.atom b ++ s

section Legible

variable {spelling : Spelling α τ} {Plain : α → Prop} {Left Right Starts : List τ → Prop}

/-- What follows does not go on with this sign. -/
def Spelling.StopsAt (spelling : Spelling α τ) (sign : Sign) (rest : List τ) : Prop :=
  ∀ x, rest ≠ spelling.sign sign ++ x

theorem Spelling.Legible.stopsAt (h : spelling.Legible Plain Left Right Starts) {sign sign' : Sign}
    (other : sign' ≠ sign) (rest : List τ) : spelling.StopsAt sign (spelling.sign sign' ++ rest) :=
  fun _ same => other (h.sign_inj same)

theorem Spelling.Legible.stopsAt_nil (h : spelling.Legible Plain Left Right Starts) (sign : Sign) :
    spelling.StopsAt sign [] :=
  fun _ same => h.sign_ne_nil sign (List.append_eq_nil_iff.1 same.symm).1

/-- A tree whose atoms are plain. -/
def Disjunction.IsPlain (Plain : α → Prop) (d : Disjunction α) : Prop :=
  ∀ a ∈ d.interpret .atoms, Plain a

def Conjunction.IsPlain (Plain : α → Prop) (c : Conjunction α) : Prop :=
  ∀ a ∈ c.interpret .atoms, Plain a

def Factor.IsPlain (Plain : α → Prop) (f : Factor α) : Prop :=
  ∀ a ∈ f.interpret .atoms, Plain a

variable (h : spelling.Legible Plain Left Right Starts)

include h

theorem Factor.starts {f : Factor α} (hf : f.IsPlain Plain) {r : List τ} (hr : Left r) :
    Starts (f.interpret (.text spelling) ++ r) := by
  cases f with
  | atom a => exact h.starts_atom (hf a (List.mem_singleton_self a)) hr
  | group d =>
    rw [Interpretation.text_group, List.append_assoc]
    exact h.starts_opening _

theorem Conjunction.starts : (c : Conjunction α) → c.IsPlain Plain → {r : List τ} → Left r →
    Starts (c.interpret (.text spelling) ++ r)
  | .single f, hc, r, hr => Factor.starts h hc hr
  | .and f rest, hc, r, hr => by
    obtain ⟨hf, later⟩ := List.forall_mem_append.1 hc
    have behind := h.left_connective (.inl rfl) (starts rest later hr)
    rw [Interpretation.text_and, List.append_assoc, List.append_assoc]
    exact Factor.starts h hf behind

theorem Disjunction.starts : (d : Disjunction α) → d.IsPlain Plain → {r : List τ} → Left r →
    Starts (d.interpret (.text spelling) ++ r)
  | .single c, hd, r, hr => c.starts h hd hr
  | .or c rest, hd, r, hr => by
    obtain ⟨hc, later⟩ := List.forall_mem_append.1 hd
    have behind := h.left_connective (.inr rfl) (starts rest later hr)
    rw [Interpretation.text_or, List.append_assoc, List.append_assoc]
    exact c.starts h hc behind

mutual

theorem Disjunction.cancel : (d e : Disjunction α) → d.IsPlain Plain → {r s : List τ} →
    Left r → Right s → spelling.StopsAt .and r → spelling.StopsAt .or r →
    spelling.StopsAt .and s → spelling.StopsAt .or s →
    d.interpret (.text spelling) ++ r = e.interpret (.text spelling) ++ s → d = e ∧ r = s
  | .single c, .single c', hd, r, s, left, right, ra, _, sa, _, same => by
    simp only [Disjunction.interpret_single] at same
    obtain ⟨rfl, rfl⟩ := Conjunction.cancel c c' hd left right ra sa same
    exact ⟨rfl, rfl⟩
  | .single c, .or c' rest, hd, r, s, left, right, ra, ro, _, _, same => by
    -- Of two conjunctions one of which ends before OR, the other one ends there too.
    simp only [Disjunction.interpret_single, Interpretation.text_or, List.append_assoc] at same
    obtain ⟨rfl, later⟩ := Conjunction.cancel c c' hd left (h.right_sign _ (by decide)) ra
      (h.stopsAt (by decide) _) same
    exact absurd later (ro _)
  | .or c rest, .single c', hd, r, s, left, right, _, _, sa, so, same => by
    obtain ⟨hc, plain⟩ := List.forall_mem_append.1 hd
    simp only [Disjunction.interpret_single, Interpretation.text_or, List.append_assoc] at same
    obtain ⟨rfl, later⟩ := Conjunction.cancel c c' hc
      (h.left_connective (.inr rfl) (rest.starts h plain left)) right
      (h.stopsAt (by decide) _) sa same
    exact absurd later.symm (so _)
  | .or c rest, .or c' rest', hd, r, s, left, right, ra, ro, sa, so, same => by
    obtain ⟨hc, plain⟩ := List.forall_mem_append.1 hd
    simp only [Interpretation.text_or, List.append_assoc] at same
    obtain ⟨rfl, later⟩ := Conjunction.cancel c c' hc
      (h.left_connective (.inr rfl) (rest.starts h plain left)) (h.right_sign _ (by decide))
      (h.stopsAt (by decide) _) (h.stopsAt (by decide) _) same
    obtain ⟨rfl, rfl⟩ := Disjunction.cancel rest rest' plain left right ra ro sa so
      (List.append_cancel_left later)
    exact ⟨rfl, rfl⟩

theorem Conjunction.cancel : (c c' : Conjunction α) → c.IsPlain Plain → {r s : List τ} →
    Left r → Right s → spelling.StopsAt .and r → spelling.StopsAt .and s →
    c.interpret (.text spelling) ++ r = c'.interpret (.text spelling) ++ s → c = c' ∧ r = s
  | .single f, .single f', hc, r, s, left, right, _, _, same => by
    simp only [Conjunction.interpret_single] at same
    obtain ⟨rfl, rfl⟩ := Factor.cancel f f' hc left right same
    exact ⟨rfl, rfl⟩
  | .single f, .and f' rest, hc, r, s, left, right, ra, _, same => by
    simp only [Conjunction.interpret_single, Interpretation.text_and, List.append_assoc] at same
    obtain ⟨rfl, later⟩ := Factor.cancel f f' hc left (h.right_sign _ (by decide)) same
    exact absurd later (ra _)
  | .and f rest, .single f', hc, r, s, left, right, _, sa, same => by
    obtain ⟨hf, plain⟩ := List.forall_mem_append.1 hc
    simp only [Conjunction.interpret_single, Interpretation.text_and, List.append_assoc] at same
    obtain ⟨rfl, later⟩ := Factor.cancel f f' hf
      (h.left_connective (.inl rfl) (rest.starts h plain left)) right same
    exact absurd later.symm (sa _)
  | .and f rest, .and f' rest', hc, r, s, left, right, ra, sa, same => by
    obtain ⟨hf, plain⟩ := List.forall_mem_append.1 hc
    simp only [Interpretation.text_and, List.append_assoc] at same
    obtain ⟨rfl, later⟩ := Factor.cancel f f' hf
      (h.left_connective (.inl rfl) (rest.starts h plain left)) (h.right_sign _ (by decide)) same
    obtain ⟨rfl, rfl⟩ := Conjunction.cancel rest rest' plain left right ra sa
      (List.append_cancel_left later)
    exact ⟨rfl, rfl⟩

theorem Factor.cancel : (f f' : Factor α) → f.IsPlain Plain → {r s : List τ} → Left r → Right s →
    f.interpret (.text spelling) ++ r = f'.interpret (.text spelling) ++ s → f = f' ∧ r = s
  | .atom a, .atom b, hf, r, s, left, right, same => by
    obtain ⟨rfl, rfl⟩ := h.atom_atom (hf a (List.mem_singleton_self a)) left right same
    exact ⟨rfl, rfl⟩
  | .atom a, .group d, hf, r, s, left, right, same =>
    absurd same (h.atom_group (hf a (List.mem_singleton_self a)) left right)
  | .group d, .atom b, _, r, s, left, right, same => absurd same (h.group_atom left right)
  | .group d, .group e, hf, r, s, _, _, same => by
    simp only [Interpretation.text_group, List.append_assoc] at same
    obtain ⟨rfl, later⟩ := Disjunction.cancel d e hf (h.left_closing _)
      (h.right_sign _ (by decide)) (h.stopsAt (by decide) _) (h.stopsAt (by decide) _)
      (h.stopsAt (by decide) _) (h.stopsAt (by decide) _) (List.append_cancel_left same)
    exact ⟨rfl, List.append_cancel_left later⟩

end

/-- A text has one reading. -/
theorem Disjunction.text_inj {d e : Disjunction α} (hd : d.IsPlain Plain)
    (same : d.interpret (.text spelling) = e.interpret (.text spelling)) : d = e := by
  have whole : d.interpret (.text spelling) ++ [] = e.interpret (.text spelling) ++ [] := by rw [same]
  exact (cancel h d e hd h.left_nil h.right_nil (h.stopsAt_nil _) (h.stopsAt_nil _)
    (h.stopsAt_nil _) (h.stopsAt_nil _) whole).1

end Legible

end SqlComposition.Precedence
