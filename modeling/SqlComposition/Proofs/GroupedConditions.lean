import SqlComposition.Proofs.Conditions
import SqlComposition.Proofs.Precedence

/-!
Grouped conditions, raw ones included, read by the precedence of SQL. What a raw condition says is its own
text: lexemes that no AND or OR divides outside of parentheses are one operand, and the AND of a range
belongs to it. A list of conditions has one reading. It is made of the readings of the conditions, but not
always of each as a whole: a raw condition with an OR outside of parentheses is divided by the AND of a
neighbour, because no parentheses are put around it. It keeps its value where it is alone in its group.
-/

namespace SqlComposition
open Grammar (Lexeme lex)

namespace Precedence

/-- What is inside of it is not read: parentheses, and CASE up to END. -/
def opens : Lexeme → Bool
  | .symbol c => c == '('
  | .name word => word.toList.map Char.toUpper == "CASE".toList
  | _ => false

def closes : Lexeme → Bool
  | .symbol c => c == ')'
  | .name word => word.toList.map Char.toUpper == "END".toList
  | _ => false

def level (depth : ℕ) (t : Lexeme) : Option ℕ :=
  if opens t then some (depth + 1)
  else if closes t then
    match depth with
    | 0 => none
    | depth + 1 => some depth
  else some depth

def levels (depth : ℕ) (ts : List Lexeme) : Option ℕ :=
  ts.foldlM level depth

/-- How many ranges wait for their AND. No AND but theirs belongs to an operand, and no OR. -/
def awaited (ranges : ℕ) (t : Lexeme) : Option ℕ :=
  if t = .keyword "BETWEEN" then some (ranges + 1)
  else if t = .keyword "AND" then
    match ranges with
    | 0 => none
    | ranges + 1 => some ranges
  else if t = .keyword "OR" then none
  else some ranges

structure Progress where
  depth : ℕ
  ranges : ℕ
  deriving DecidableEq

namespace Progress

def step (progress : Progress) (t : Lexeme) : Option Progress :=
  (level progress.depth t).bind fun depth =>
    if progress.depth = 0 then (awaited progress.ranges t).map (Progress.mk depth)
    else some ⟨depth, progress.ranges⟩

def scan (progress : Progress) (ts : List Lexeme) : Option Progress :=
  ts.foldlM step progress

end Progress

/-- Lexemes that close what they open, and that no AND or OR divides. -/
def Undivided (ts : List Lexeme) : Prop :=
  Progress.scan ⟨0, 0⟩ ts = some ⟨0, 0⟩

instance (ts : List Lexeme) : Decidable (Undivided ts) :=
  inferInstanceAs (Decidable (_ = _))

/-- Lexemes that are one operand; what is altogether in one pair of parentheses is none. -/
structure IsPrimary (ts : List Lexeme) : Prop where
  some : ts ≠ []
  undivided : Undivided ts
  unenclosed : ts = .symbol '(' :: (ts.tail.dropLast ++ [.symbol ')']) →
    levels 0 ts.tail.dropLast ≠ Option.some 0

theorem isPrimary_iff {ts : List Lexeme} : IsPrimary ts ↔
    ts ≠ [] ∧ Undivided ts ∧
      (ts = .symbol '(' :: (ts.tail.dropLast ++ [.symbol ')']) →
        levels 0 ts.tail.dropLast ≠ Option.some 0) :=
  ⟨fun h => ⟨h.some, h.undivided, h.unenclosed⟩, fun h => ⟨h.1, h.2.1, h.2.2⟩⟩

instance (ts : List Lexeme) : Decidable (IsPrimary ts) :=
  decidable_of_iff _ isPrimary_iff.symm

abbrev Primary := { ts : List Lexeme // IsPrimary ts }

instance : Inhabited Primary :=
  ⟨[.keyword "TRUE"], by decide⟩

def lexemes : Spelling Primary Lexeme where
  sign
    | .and => [.keyword "AND"]
    | .or => [.keyword "OR"]
    | .opening => [.symbol '(']
    | .closing => [.symbol ')']
  atom a := a.val

section Levels

variable {depth last : ℕ} {ts : List Lexeme}

theorem levels_append (depth : ℕ) (a b : List Lexeme) :
    levels depth (a ++ b) = (levels depth a).bind fun reached => levels reached b :=
  List.foldlM_append

theorem level_succ {t : Lexeme} (h : level depth t = some last) :
    level (depth + 1) t = some (last + 1) := by
  unfold level at h ⊢
  split
  · rename_i opening
    rw [if_pos opening] at h
    cases h
    rfl
  · rename_i opening
    rw [if_neg opening] at h
    split
    · rename_i closing
      rw [if_pos closing] at h
      cases depth with
      | zero => cases h
      | succ depth =>
        cases h
        rfl
    · rename_i closing
      rw [if_neg closing] at h
      cases h
      rfl

theorem levels_succ (h : levels depth ts = some last) : levels (depth + 1) ts = some (last + 1) := by
  induction ts generalizing depth with
  | nil =>
    cases h
    rfl
  | cons t rest ih =>
    obtain ⟨next, first, others⟩ := Option.bind_eq_some_iff.1 h
    exact Option.bind_eq_some_iff.2 ⟨next + 1, level_succ first, ih others⟩

/-- What closes all that it opens does so at every depth. -/
theorem levels_closed (h : levels 0 ts = some 0) : (depth : ℕ) → levels depth ts = some depth
  | 0 => h
  | depth + 1 => levels_succ (levels_closed h depth)

end Levels

namespace Progress

variable {progress last : Progress} {ts : List Lexeme}

theorem scan_append (progress : Progress) (a b : List Lexeme) :
    progress.scan (a ++ b) = (progress.scan a).bind fun reached => reached.scan b :=
  List.foldlM_append

theorem level_of_step {t : Lexeme} (h : progress.step t = some last) :
    level progress.depth t = some last.depth := by
  obtain ⟨depth, reached, others⟩ := Option.bind_eq_some_iff.1 h
  rw [reached]
  split at others
  · obtain ⟨ranges, -, rfl⟩ := Option.map_eq_some_iff.1 others
    rfl
  · cases others
    rfl

theorem levels_of_scan (h : progress.scan ts = some last) :
    levels progress.depth ts = some last.depth := by
  induction ts generalizing progress with
  | nil =>
    cases h
    rfl
  | cons t rest ih =>
    obtain ⟨next, first, others⟩ := Option.bind_eq_some_iff.1 h
    exact Option.bind_eq_some_iff.2 ⟨next.depth, level_of_step first, ih others⟩

/-- In parentheses only parentheses are read. -/
theorem scan_inside {depth reached : ℕ} (ranges : ℕ) (h : levels depth ts = some reached) :
    scan ⟨depth + 1, ranges⟩ ts = some ⟨reached + 1, ranges⟩ := by
  induction ts generalizing depth with
  | nil =>
    cases h
    rfl
  | cons t rest ih =>
    obtain ⟨next, first, others⟩ := Option.bind_eq_some_iff.1 h
    have moved : step ⟨depth + 1, ranges⟩ t = some ⟨next + 1, ranges⟩ := by
      rw [step, level_succ first, Option.bind_some, if_neg (Nat.succ_ne_zero depth)]
    exact Option.bind_eq_some_iff.2 ⟨_, moved, ih others⟩

theorem scan_group (h : levels 0 ts = some 0) :
    Undivided (.symbol '(' :: (ts ++ [.symbol ')'])) := by
  have opening : scan ⟨0, 0⟩ [.symbol '('] = some ⟨1, 0⟩ := rfl
  rw [Undivided, ← List.singleton_append, scan_append, opening, Option.bind_some, scan_append,
    scan_inside 0 h]
  rfl

end Progress

/-- A lexeme that does not change how far an operand goes. -/
def IsInert (t : Lexeme) : Prop :=
  opens t = false ∧ closes t = false ∧ t ∉ [.keyword "BETWEEN", .keyword "AND", .keyword "OR"]

instance (t : Lexeme) : Decidable (IsInert t) :=
  inferInstanceAs (Decidable (_ ∧ _))

theorem IsInert.step {t : Lexeme} (h : IsInert t) (progress : Progress) :
    progress.step t = some progress := by
  obtain ⟨opening, closing, word⟩ := h
  simp only [List.mem_cons, List.not_mem_nil, or_false, not_or] at word
  have same : level progress.depth t = some progress.depth := by
    simp [level, opening, closing]
  have waits : awaited progress.ranges t = some progress.ranges := by
    simp [awaited, word]
  rw [Progress.step, same, Option.bind_some, waits]
  split <;> rfl

theorem Progress.scan_inert {ts : List Lexeme} (h : ∀ t ∈ ts, IsInert t) (progress : Progress) :
    progress.scan ts = some progress := by
  induction ts with
  | nil => rfl
  | cons t rest ih =>
    obtain ⟨first, others⟩ := List.forall_mem_cons.1 h
    exact Option.bind_eq_some_iff.2 ⟨progress, first.step progress, ih others⟩

namespace Undivided

variable {a b : List Lexeme}

theorem append (ha : Undivided a) (hb : Undivided b) : Undivided (a ++ b) := by
  rw [Undivided, Progress.scan_append, ha]
  exact hb

theorem inert (h : ∀ t ∈ a, IsInert t) : Undivided a :=
  Progress.scan_inert h _

theorem group (h : ∀ t ∈ a, IsInert t) : Undivided (.symbol '(' :: (a ++ [.symbol ')'])) :=
  Progress.scan_group (Progress.levels_of_scan (Progress.scan_inert h ⟨0, 0⟩))

theorem range (ha : ∀ t ∈ a, IsInert t) (hb : ∀ t ∈ b, IsInert t) :
    Undivided (.keyword "BETWEEN" :: (a ++ .keyword "AND" :: b)) := by
  have opening : Progress.scan ⟨0, 0⟩ [.keyword "BETWEEN"] = some ⟨0, 1⟩ := rfl
  have closing : Progress.scan ⟨0, 1⟩ [.keyword "AND"] = some ⟨0, 0⟩ := rfl
  rw [Undivided, ← List.singleton_append, ← List.singleton_append (l := b), Progress.scan_append,
    opening, Option.bind_some, Progress.scan_append, Progress.scan_inert ha, Option.bind_some,
    Progress.scan_append, closing]
  exact Progress.scan_inert hb _

end Undivided

/-- What may stand behind an operand. -/
def Stops (rest : List Lexeme) : Prop :=
  ∀ t ∈ rest.head?, t = .symbol ')' ∨ t = .keyword "AND" ∨ t = .keyword "OR"

theorem Stops.scan_eq_none {t : Lexeme} {rest : List Lexeme} (h : Stops (t :: rest))
    (more : List Lexeme) : Progress.scan ⟨0, 0⟩ (t :: more) = none := by
  have stuck : Progress.step ⟨0, 0⟩ t = none := by
    rcases h t rfl with rfl | rfl | rfl <;> rfl
  exact Option.bind_eq_none_iff.2 fun next reached => by
    rw [stuck] at reached
    cases reached

theorem Primary.levels_eq (a : Primary) (depth : ℕ) : levels depth a.val = some depth :=
  levels_closed (Progress.levels_of_scan a.property.undivided) depth

/-- An operand goes on as far as it can. -/
theorem Primary.maximal {b : Primary} {a m r s : List Lexeme}
    (ha : Undivided a) (longer : b.val = a ++ m) (behind : r = m ++ s)
    (hr : Stops r) : m = [] := by
  cases m with
  | nil => rfl
  | cons t rest =>
    subst behind
    have whole := b.property.undivided
    rw [Undivided, longer, Progress.scan_append, ha, Option.bind_some, hr.scan_eq_none] at whole
    cases whole

theorem Primary.cancel {a b : Primary} {r s : List Lexeme} (hr : Stops r) (hs : Stops s)
    (h : a.val ++ r = b.val ++ s) : a = b ∧ r = s := by
  rcases List.append_eq_append_iff.1 h with ⟨m, longer, behind⟩ | ⟨m, longer, behind⟩
  · obtain rfl := Primary.maximal a.property.undivided longer behind hr
    rw [List.append_nil] at longer
    exact ⟨Subtype.ext longer.symm, behind⟩
  · obtain rfl := Primary.maximal b.property.undivided longer behind hs
    rw [List.append_nil] at longer
    exact ⟨Subtype.ext longer, behind.symm⟩

mutual

/-- A reading closes all that it opens. -/
theorem levels_disjunction : (d : Disjunction Primary) → (depth : ℕ) →
    levels depth (d.interpret (.text lexemes)) = some depth
  | .single c, depth => levels_conjunction c depth
  | .or c d, depth => by
    rw [Interpretation.text_or, levels_append, levels_conjunction c, Option.bind_some, levels_append]
    exact levels_disjunction d depth

theorem levels_conjunction : (c : Conjunction Primary) → (depth : ℕ) →
    levels depth (c.interpret (.text lexemes)) = some depth
  | .single f, depth => levels_factor f depth
  | .and f c, depth => by
    rw [Interpretation.text_and, levels_append, levels_factor f, Option.bind_some, levels_append]
    exact levels_conjunction c depth

theorem levels_factor : (f : Factor Primary) → (depth : ℕ) →
    levels depth (f.interpret (.text lexemes)) = some depth
  | .atom a, depth => a.levels_eq depth
  | .group d, depth => by
    have inside := levels_disjunction d (depth + 1)
    have opening : levels depth (lexemes.sign .opening) = some (depth + 1) := rfl
    rw [Interpretation.text_group, levels_append, opening, Option.bind_some, levels_append, inside]
    rfl

end

/-- An operand is not something in parentheses. -/
theorem Primary.ne_group (a : Primary) (d : Disjunction Primary) (r : List Lexeme)
    {s : List Lexeme} (hs : Stops s) :
    a.val ++ r ≠ .symbol '(' :: (d.interpret (.text lexemes) ++ .symbol ')' :: s) := by
  intro h
  obtain ⟨empty, -⟩ | ⟨inside, first, rest⟩ := List.append_eq_cons_iff.1 h
  · exact a.property.some empty
  have opened : levels 1 inside = some 0 := by
    have whole := a.levels_eq 0
    rw [first] at whole
    exact whole
  have closed := levels_disjunction d 0
  rcases List.append_eq_append_iff.1 rest.symm with ⟨m, longer, -⟩ | ⟨m, longer, behind⟩
  · -- The operand would close a parenthesis of its own inside of the group.
    rw [longer, levels_append] at closed
    obtain ⟨depth, reached, -⟩ := Option.bind_eq_some_iff.1 closed
    have deeper := levels_succ reached
    rw [opened] at deeper
    cases deeper
  cases m with
  | nil =>
    rw [List.append_nil] at longer
    have deeper := levels_disjunction d 1
    rw [← longer, opened] at deeper
    cases deeper
  | cons t m =>
    obtain ⟨rfl, later⟩ := List.cons.inj behind
    have whole : a.val = .symbol '(' :: (d.interpret (.text lexemes) ++ [.symbol ')']) ++ m := by
      rw [first, longer]
      simp
    obtain rfl := Primary.maximal (Progress.scan_group closed) whole later hs
    rw [List.append_nil] at whole
    have inner : a.val.tail.dropLast = d.interpret (.text lexemes) := by
      rw [whole, List.tail_cons, List.dropLast_concat]
    exact a.property.unenclosed (by rw [inner, whole]) (inner ▸ closed)

theorem lexemes_legible : lexemes.Legible (fun _ => True) Stops Stops fun _ => True where
  sign_ne_nil sign := by cases sign <;> exact List.cons_ne_nil _ _
  sign_inj {sign sign' r s} h := by
    cases sign <;> cases sign' <;> simp [lexemes] at h ⊢
  left_nil := fun _ ht => nomatch ht
  left_closing r := by
    rintro t ⟨⟩
    exact .inl rfl
  left_connective {sign r} hs _ := by
    rcases hs with rfl | rfl <;> rintro t ⟨⟩ <;> simp
  starts_opening _ := trivial
  starts_atom _ _ := trivial
  right_nil := fun _ ht => nomatch ht
  right_sign {sign} s hs := by
    cases sign <;> rintro t ⟨⟩ <;> simp at hs ⊢
  atom_atom _ hr hs h := Primary.cancel hr hs h
  atom_group {a d r s} _ _ hs h := by
    rw [Interpretation.text_group, List.append_assoc, List.append_assoc] at h
    exact a.ne_group d r hs h
  group_atom {d b r s} hr _ h := by
    rw [Interpretation.text_group, List.append_assoc, List.append_assoc] at h
    exact b.ne_group d s hr h.symm

end Precedence

open Precedence Layout

/-- A layout is written as text of which this is the reading. -/
def Layout.ReadAs (layout : Layout) (d : Disjunction Primary) : Prop :=
  Spells layout (d.interpret (.text lexemes))

/-- This is a reading of the whole text. -/
def Precedence.Disjunction.IsReading (d : Disjunction Primary) (text : String) : Prop :=
  d.interpret (.text lexemes) = lex text.toList

instance (d : Disjunction Primary) (text : String) : Decidable (d.IsReading text) :=
  inferInstanceAs (Decidable (_ = _))

theorem Precedence.Disjunction.IsReading.unique {d e : Disjunction Primary} {text : String}
    (hd : d.IsReading text) (he : e.IsReading text) : e = d :=
  (Disjunction.text_inj lexemes_legible (fun _ _ => trivial) (hd.trans he.symm)).symm

namespace Layout.ReadAs

variable {layout : Layout} {d : Disjunction Primary} {parts : List Layout}
  {readings : List (Disjunction Primary)}

theorem linked (connective : String) (hw : Grammar.isDivider connective.toList = true)
    (first : ReadAs layout d) (others : List.Forall₂ ReadAs parts readings) :
    Spells (joined connective (layout :: parts))
      (Precedence.linked (fun x y => x ++ (lex connective.toList ++ y)) (d.interpret (.text lexemes))
        (readings.map (Disjunction.interpret (.text lexemes)))) := by
  induction others generalizing layout d with
  | nil => exact first.single
  | cons second _ ih => exact first.joined_cons connective hw (ih second)

theorem all : Grouping.JoinsRel ReadAs (grouped " AND ") (Disjunction.join " AND ") := by
  intro parts readings several h
  cases h with
  | nil => cases several
  | cons first others =>
    have word : lex " AND ".toList = lexemes.sign .and := by decide
    have inside := linked " AND " (by decide) first others
    rw [word] at inside
    rw [ReadAs, Disjunction.interpret_join_and (Interpretation.text_isSerial lexemes)]
    exact inside.parenthesized

theorem any : Grouping.JoinsRel ReadAs (grouped " OR ") (Disjunction.join " OR ") := by
  intro parts readings several h
  cases h with
  | nil => cases several
  | cons first others =>
    have word : lex " OR ".toList = lexemes.sign .or := by decide
    have inside := linked " OR " (by decide) first others
    rw [word] at inside
    rw [ReadAs, Disjunction.interpret_join_or (Interpretation.text_isSerial lexemes).or_or]
    exact inside.parenthesized

end Layout.ReadAs

section Tests

open Grammar

theorem negation_inert (negated : Bool) : ∀ t ∈ Grammar.negation negated, IsInert t := by
  cases negated <;> decide

theorem Constant.inert (c : Constant) : ∀ t ∈ c.operand.lexemes, IsInert t := by
  have number (n : ℕ) : IsInert (.number n) := ⟨rfl, rfl, by simp⟩
  cases c with
  | null => decide
  | bool value => cases value <;> decide
  | int value =>
    rw [operand]
    cases decide (value < 0)
    · exact List.forall_mem_singleton.2 (number _)
    · exact List.forall_mem_cons.2 ⟨by decide, List.forall_mem_singleton.2 (number _)⟩
  | text value => exact List.forall_mem_singleton.2 ⟨rfl, rfl, by simp⟩

theorem Constant.inert_members (first : Constant) (rest : List Constant) :
    ∃ inside, first.operand.lexemes ++ Operand.remaining (rest.map operand) = inside ++ [.symbol ')'] ∧
      ∀ t ∈ inside, IsInert t := by
  induction rest generalizing first with
  | nil => exact ⟨_, rfl, first.inert⟩
  | cons second rest ih =>
    obtain ⟨inside, same, inert⟩ := ih second
    refine ⟨first.operand.lexemes ++ .symbol ',' :: inside, ?_, ?_⟩
    · rw [List.map_cons, Operand.remaining, same, List.append_assoc, List.cons_append]
    · exact List.forall_mem_append.2 ⟨first.inert, List.forall_mem_cons.2 ⟨by decide, inert⟩⟩

theorem Criterion.undivided (c : Criterion) : Undivided c.test.check.lexemes := by
  cases c with
  | comparison column comparator value =>
    have word : IsInert comparator.lexeme := by cases comparator <;> decide
    exact .inert (List.forall_mem_cons.2 ⟨word, value.inert⟩)
  | member column values negated =>
    cases values with
    | nil => cases negated <;> rfl
    | cons first rest =>
      obtain ⟨inside, same, inert⟩ := first.inert_members rest
      have list := (Undivided.inert (a := [.keyword "IN"]) (by decide)).append (.group inert)
      rw [← same] at list
      exact (Undivided.inert (negation_inert negated)).append list
  | null column negated =>
    refine .inert (List.forall_mem_cons.2 ⟨by decide, List.forall_mem_append.2 ⟨?_, by decide⟩⟩)
    exact negation_inert negated
  | between column low high negated =>
    exact (Undivided.inert (negation_inert negated)).append (.range low.inert high.inert)

theorem Grammar.Operand.lexemes_ne_nil (o : Operand) : o.lexemes ≠ [] := by
  rcases o with _ | _ | (_ | _) | ⟨_ | _, _⟩ | _ <;> exact List.cons_ne_nil _ _

/-- A test is one operand. -/
theorem Criterion.isPrimary (c : Criterion) (h : ∀ t ∈ c.test.operand.lexemes, IsInert t) :
    IsPrimary c.test.lexemes where
  some empty := c.test.operand.lexemes_ne_nil (List.append_eq_nil_iff.1 empty).1
  undivided := (Undivided.inert h).append c.undivided
  unenclosed enclosed := absurd enclosed (c.test.operand.head_ne_parenthesis _ _)

/-- A test reads as one operand, unless its column is called like a word of SQL. -/
theorem Criterion.reads (c : Criterion) (h : ∀ t ∈ c.test.operand.lexemes, IsInert t) :
    (c.predicate.layout .full).ReadAs (.ofAtom ⟨c.test.lexemes, c.isPrimary h⟩) :=
  c.spells

end Tests

section Raw

theorem Piece.inlined_fill (segments : List (List Char)) :
    Piece.inlined (fill .text segments []) = .ok (String.ofList (['?'].intercalate segments)) := by
  induction segments with
  | nil => rfl
  | cons segment rest ih =>
    cases rest with
    | nil => simp [fill, Piece.inlined, Except.map]
    | cons next rest =>
      rw [fill, Piece.inlined_text, Piece.inlined_text, ih, List.intercalate_cons_cons]
      · simp [Except.map, String.ofList_append]
      · exact List.cons_ne_nil _ _

/-- A raw condition without bindings is written as it is, and says what its text says. -/
theorem Predicate.reads_raw {sql : String} (balanced : Quotes.Balanced sql.toList)
    {d : Disjunction Primary} (h : d.IsReading sql) : ((raw ⟨sql, []⟩).layout .full).ReadAs d := by
  refine ⟨sql.toList, ?_, balanced, h.symm⟩
  have written := Piece.inlined_fill (Slot.segments sql.toList)
  rw [Slot.intercalate_segments] at written
  rw [Predicate.layout, Fragment.layout, Value.layouts]
  exact written

end Raw

namespace Condition

def IsWritten (conditions : List Condition) (text : String) : Prop :=
  (Grouping.layout (layouts .full conditions)).inlined = .ok text

variable {given : List (Condition × Disjunction Primary)}

/-- The conditions are read together as their readings are put together. -/
theorem exists_reading (some : given ≠ [])
    (own : ∀ c ∈ given, (c.1.predicate.layout .full).ReadAs c.2) :
    ∃ text, IsWritten (given.map Prod.fst) text ∧ ∃ d : Disjunction Primary, d.IsReading text ∧
      Grouping.assemble Disjunction.join (given.map fun c => (c.1.connective == .or, c.2)) =
        Option.some d := by
  obtain ⟨d, hd⟩ := Grouping.exists_assemble Disjunction.join
    (fun c : Condition × Disjunction Primary => c.1.connective == .or) Prod.snd some
  have each : List.Forall₂ (Grouping.Corresponds ReadAs)
      ((layouts .full (given.map Prod.fst)).map fun c => (c.1 == .or, c.2))
      (given.map fun c => (c.1.connective == .or, c.2)) := by
    rw [layouts_eq_map, List.map_map, List.map_map, List.forall₂_map_left_iff,
      List.forall₂_map_right_iff, List.forall₂_same]
    exact fun c hc => ⟨rfl, own c hc⟩
  have whole : Option.Rel ReadAs (Grouping.assemble grouped _) (Grouping.assemble Disjunction.join _) :=
    Grouping.assemble_rel ReadAs.all ReadAs.any each
  rw [hd] at whole
  obtain ⟨cs, written, -, read⟩ : (Grouping.layout (layouts .full (given.map Prod.fst))).ReadAs d := by
    rw [Grouping.layout_eq]
    generalize Grouping.assemble grouped _ = made at whole ⊢
    cases whole with
    | some reads => exact reads
  refine ⟨_, written, d, ?_, hd⟩
  rw [Disjunction.IsReading, String.toList_ofList, read]

/-- Where all conditions are joined by AND and none has an OR outside of parentheses, what is selected
satisfies every one of them. -/
theorem yes_iff_of_all_and (some : given ≠ []) (single : ∀ c ∈ given, c.2.IsSingle)
    (joined : ∀ c ∈ given.tail, c.1.connective = .and) {d : Disjunction Primary}
    (hd : Grouping.assemble Disjunction.join (given.map fun c => (c.1.connective == .or, c.2)) =
      Option.some d) (v : Primary → Truth) :
    d.interpret (.truth v) = .yes ↔ ∀ c ∈ given, c.2.interpret (.truth v) = .yes := by
  obtain ⟨first, rest, rfl⟩ := List.exists_cons_of_ne_nil some
  have closed : ∀ c ∈ rest, (c.1.connective == Connective.or) = false := by
    intro c hc
    rw [joined c hc]
    rfl
  have one : ((first :: rest).splitBy fun _ next => !(next.1.connective == .or)) = [first :: rest] :=
    List.splitBy_of_isChain some (Grouping.isChain_of_closed _ closed)
  have value := Disjunction.truth_assembled some (by
    rw [one]
    exact List.forall_mem_singleton.2 fun _ => single) hd v
  rw [one] at value
  rw [value, List.map_singleton, Truth.anyOf, List.foldr_cons, List.foldr_nil, Truth.or_no,
    Truth.allOf_eq_yes, List.forall_mem_map]

/-- Conditions are written as text with one reading, which is put together of their own readings. Where an
OR that a condition has outside of parentheses has no neighbour in its group, the value of the whole is that
of any of the groups, of which all have theirs; and what is selected by several conditions joined by AND, of
which none has such an OR, is selected by the first of them alone. -/
theorem read_in_groups (some : given ≠ [])
    (own : ∀ c ∈ given, (c.1.predicate.layout .full).ReadAs c.2) :
    ∃ text, IsWritten (given.map Prod.fst) text ∧ ∃ d : Disjunction Primary, d.IsReading text ∧
      (∀ other : Disjunction Primary, other.IsReading text → other = d) ∧
      Grouping.assemble Disjunction.join (given.map fun c => (c.1.connective == .or, c.2)) =
        Option.some d ∧
      d.interpret .atoms = given.flatMap (fun c => c.2.interpret .atoms) ∧
      ((∀ group ∈ given.splitBy fun _ next => !(next.1.connective == .or), 2 ≤ group.length →
          ∀ c ∈ group, c.2.IsSingle) →
        ∀ v : Primary → Truth, d.interpret (.truth v) =
          .anyOf ((given.splitBy fun _ next => !(next.1.connective == .or)).map fun group =>
            .allOf (group.map fun c => c.2.interpret (.truth v)))) ∧
      ((∀ c ∈ given, c.2.IsSingle) → (∀ c ∈ given.tail, c.1.connective = .and) →
        ∀ before, before ≠ [] → before <+: given →
          ∃ text', IsWritten (before.map Prod.fst) text' ∧
            ∃ e : Disjunction Primary, e.IsReading text' ∧
              ∀ v : Primary → Truth, d.interpret (.truth v) = .yes →
                e.interpret (.truth v) = .yes) := by
  obtain ⟨text, written, d, read, hd⟩ := exists_reading some own
  refine ⟨text, written, d, read, fun _ => read.unique, hd, Disjunction.atoms_assembled some hd,
    fun apart => Disjunction.truth_assembled some apart hd, fun single joined before hb front => ?_⟩
  obtain ⟨text', written', e, read', he⟩ := exists_reading hb fun c hc => own c (front.subset hc)
  refine ⟨text', written', e, read', fun v selected => ?_⟩
  have each := (yes_iff_of_all_and some single joined hd v).1 selected
  have joined' : ∀ c ∈ before.tail, c.1.connective = .and := by
    intro c hc
    obtain ⟨more, rfl⟩ := front
    exact joined c (List.tail_append_of_ne_nil hb ▸ List.mem_append_left more hc)
  exact (yes_iff_of_all_and hb (fun c hc => single c (front.subset hc)) joined' he v).2
    fun c hc => each c (front.subset hc)

def tenant : Criterion :=
  .comparison ⟨"tenant_id", by decide⟩ .equal (.int 7)

def tenantReading : Primary :=
  ⟨tenant.test.lexemes, tenant.isPrimary (by decide)⟩

def aReading : Primary :=
  ⟨[.name "a", .operator "=", .number 1], by decide⟩

def bReading : Primary :=
  ⟨[.name "b", .operator "=", .number 2], by decide⟩

/-- The condition on a tenant, after or before a raw condition with an OR of its own. -/
def sample (connective : Connective) : List (Condition × Disjunction Primary) :=
  let raw : Condition := ⟨connective, .raw ⟨"a = 1 OR b = 2", []⟩⟩
  let reading := (Disjunction.ofAtom aReading).either (.ofAtom bReading)
  match connective with
  | .or => [(tenant.condition .and, .ofAtom tenantReading), (raw, reading)]
  | .and => [(raw, reading), (tenant.condition .and, .ofAtom tenantReading)]

theorem sample_reads (connective : Connective) :
    ∀ c ∈ sample connective, (c.1.predicate.layout .full).ReadAs c.2 := by
  have raw : ((Predicate.raw ⟨"a = 1 OR b = 2", []⟩).layout .full).ReadAs
      ((Disjunction.ofAtom aReading).either (.ofAtom bReading)) :=
    Predicate.reads_raw (by decide) (by decide)
  have test : ((tenant.condition .and).predicate.layout .full).ReadAs (.ofAtom tenantReading) :=
    tenant.reads (by decide)
  cases connective
  · exact List.forall_mem_cons.2 ⟨raw, List.forall_mem_singleton.2 test⟩
  · exact List.forall_mem_cons.2 ⟨test, List.forall_mem_singleton.2 raw⟩

/-- Alone in its group the raw condition keeps its value. -/
theorem sample_read_in_groups :
    (sample .or ≠ [] ∧ ∀ c ∈ sample .or, (c.1.predicate.layout .full).ReadAs c.2) ∧
    ∃ d : Disjunction Primary, d.IsReading "(tenant_id = 7 OR a = 1 OR b = 2)" ∧
      (∀ other : Disjunction Primary,
        other.IsReading "(tenant_id = 7 OR a = 1 OR b = 2)" → other = d) ∧
      ∀ v, d.interpret (.truth v) = (v tenantReading).or ((v aReading).or (v bReading)) := by
  have some : sample .or ≠ [] := List.cons_ne_nil _ _
  obtain ⟨text, written, d, read, unique, -, -, value, -⟩ := read_in_groups some (sample_reads .or)
  obtain rfl : "(tenant_id = 7 OR a = 1 OR b = 2)" = text := Except.ok.inj written
  have groups : ((sample .or).splitBy fun _ next => !(next.1.connective == .or)) =
      [(sample .or).take 1, (sample .or).drop 1] := rfl
  rw [groups] at value
  have alone : ∀ group ∈ [(sample .or).take 1, (sample .or).drop 1], 2 ≤ group.length →
      ∀ c ∈ group, c.2.IsSingle := by
    simp [sample]
  refine ⟨⟨some, sample_reads .or⟩, d, read, unique, fun v => ?_⟩
  rw [value alone v]
  exact congrArg₂ Truth.or (Truth.and_yes _) ((Truth.or_no _).trans (Truth.and_yes _))

/-- Before the condition on a tenant it does not: what satisfies its first alternative is selected for every
tenant. -/
theorem sample_divided :
    (∀ c ∈ sample .and, (c.1.predicate.layout .full).ReadAs c.2) ∧
    IsWritten ((sample .and).map Prod.fst) "(a = 1 OR b = 2 AND tenant_id = 7)" ∧
    ∃ d : Disjunction Primary, d.IsReading "(a = 1 OR b = 2 AND tenant_id = 7)" ∧
      (∀ other : Disjunction Primary,
        other.IsReading "(a = 1 OR b = 2 AND tenant_id = 7)" → other = d) ∧
      ∃ v : Primary → Truth, d.interpret (.truth v) = .yes ∧
        .anyOf (((sample .and).splitBy fun _ next => !(next.1.connective == .or)).map fun group =>
          .allOf (group.map fun c => c.2.interpret (.truth v))) = Truth.no := by
  have read : (Disjunction.ofFactor (.group (((Disjunction.ofAtom aReading).either
      (.ofAtom bReading)).both (.ofAtom tenantReading)))).IsReading
        "(a = 1 OR b = 2 AND tenant_id = 7)" := by
    decide
  exact ⟨sample_reads .and, rfl, _, read, fun _ => read.unique,
    fun operand => if operand = aReading then .yes else .no, by decide, by decide⟩

end Condition

end SqlComposition
