import SqlComposition.Layout

/-!
Conditions joined by AND and OR. Every OR starts a new group and every AND goes on with the current
one; the connective of the first condition counts for nothing. A group of several is put in parentheses,
and so are several groups.
-/

namespace SqlComposition.Grouping

/-- The members that belong to the group before, and the groups that start later. -/
def split {α : Type} : List (Bool × α) → List α × List (List α)
  | [] => ([], [])
  | (opens, x) :: rest =>
    let (members, later) := split rest
    if opens then ([], (x :: members) :: later) else (x :: members, later)

def groups {α : Type} : List (Bool × α) → List (List α)
  | [] => []
  | (_, x) :: rest =>
    let (members, later) := split rest
    (x :: members) :: later

/-- One part stands alone; several are joined. -/
def connect {α : Type} (join : String → List α → α) (connective : String) : List α → Option α
  | [] => none
  | [only] => some only
  | parts => some (join connective parts)

def assemble {α : Type} (join : String → List α → α) (conditions : List (Bool × α)) : Option α :=
  connect join " OR " ((groups conditions).filterMap (connect join " AND "))

def text (conditions : List (String × String)) : String :=
  let join (connective : String) (parts : List String) : String :=
    "(" ++ connective.intercalate parts ++ ")"
  (assemble join (conditions.map fun c => (c.1 == Connective.or.keyword, c.2))).getD ""

def layout (conditions : List (Connective × Layout)) : Layout :=
  let join (connective : String) (parts : List Layout) : Layout :=
    .parenthesized (.joined connective parts)
  (assemble join (conditions.map fun c => (c.1 == .or, c.2))).getD (.series [])

@[simp] theorem layout_nil : layout [] = .series [] := rfl

@[simp] theorem layout_single (connective : Connective) (condition : Layout) :
    layout [(connective, condition)] = condition := rfl

theorem flatten_split {α : Type} (conditions : List (Bool × α)) :
    (split conditions).1 ++ (split conditions).2.flatten = conditions.map Prod.snd := by
  induction conditions with
  | nil => rfl
  | cons c rest ih =>
    obtain ⟨opens, x⟩ := c
    cases opens <;> simp [split, ← ih]

/-- No condition is lost or moved. -/
theorem flatten_groups {α : Type} (conditions : List (Bool × α)) :
    (groups conditions).flatten = conditions.map Prod.snd := by
  cases conditions with
  | nil => rfl
  | cons c rest => simp [groups, ← flatten_split rest]

end SqlComposition.Grouping
