import Mathlib.Data.List.Forall2
import Mathlib.Data.List.SplitBy
import SqlComposition.Grouping

/-!
Groups of conditions, whatever the conditions are made of. Putting conditions together does not look into
them: conditions that correspond one to one make wholes that correspond. The groups are the stretches
between the conditions that open one.
-/

namespace SqlComposition.Grouping

variable {α β : Type} {R : α → β → Prop}

abbrev Corresponds (R : α → β → Prop) (c : Bool × α) (c' : Bool × β) : Prop :=
  c.1 = c'.1 ∧ R c.2 c'.2

theorem split_rel {a : List (Bool × α)} {b : List (Bool × β)}
    (h : List.Forall₂ (Corresponds R) a b) :
    List.Forall₂ R (split a).1 (split b).1 ∧
      List.Forall₂ (List.Forall₂ R) (split a).2 (split b).2 := by
  induction h with
  | nil => exact ⟨.nil, .nil⟩
  | @cons c c' _ _ first _ ih =>
    obtain ⟨opens, x⟩ := c
    obtain ⟨opens', y⟩ := c'
    obtain ⟨rfl, related⟩ := first
    cases opens
    · exact ⟨.cons related ih.1, ih.2⟩
    · exact ⟨.nil, .cons (.cons related ih.1) ih.2⟩

theorem groups_rel {a : List (Bool × α)} {b : List (Bool × β)}
    (h : List.Forall₂ (Corresponds R) a b) :
    List.Forall₂ (List.Forall₂ R) (groups a) (groups b) := by
  cases h with
  | nil => exact .nil
  | cons first rest =>
    obtain ⟨members, later⟩ := split_rel rest
    exact .cons (.cons first.2 members) later

/-- Two ways of joining several parts that take corresponding parts to corresponding wholes. -/
def JoinsRel (R : α → β → Prop) (join : List α → α) (combine : List β → β) : Prop :=
  ∀ parts parts', 2 ≤ parts.length → List.Forall₂ R parts parts' → R (join parts) (combine parts')

variable {join : String → List α → α} {combine : String → List β → β}

theorem connect_rel {connective : String} (hj : JoinsRel R (join connective) (combine connective))
    {a : List α} {b : List β} (h : List.Forall₂ R a b) :
    Option.Rel R (connect join connective a) (connect combine connective b) := by
  match a, b, h with
  | [], [], .nil => exact .none
  | [_], [_], .cons only .nil => exact .some only
  | first :: second :: rest, _ :: _ :: _, .cons one (.cons two others) =>
    exact .some (hj _ _ (by simp) (.cons one (.cons two others)))

theorem assemble_rel (hand : JoinsRel R (join " AND ") (combine " AND "))
    (hor : JoinsRel R (join " OR ") (combine " OR ")) {a : List (Bool × α)} {b : List (Bool × β)}
    (h : List.Forall₂ (Corresponds R) a b) :
    Option.Rel R (assemble join a) (assemble combine b) :=
  connect_rel hor (List.rel_filterMap (fun _ _ group => connect_rel hand group) (groups_rel h))

theorem split_map (f : α → β) (conditions : List (Bool × α)) :
    split (conditions.map fun c => (c.1, f c.2)) =
      ((split conditions).1.map f, (split conditions).2.map (List.map f)) := by
  induction conditions with
  | nil => rfl
  | cons c rest ih =>
    obtain ⟨opens, x⟩ := c
    rw [List.map_cons, split, ih]
    cases opens <;> rfl

theorem groups_map (f : α → β) (conditions : List (Bool × α)) :
    groups (conditions.map fun c => (c.1, f c.2)) = (groups conditions).map (List.map f) := by
  cases conditions with
  | nil => rfl
  | cons c rest =>
    rw [List.map_cons, groups, split_map]
    rfl

theorem connect_map {connective : String} {f : α → β} {parts : List α}
    (h : 2 ≤ parts.length → f (join connective parts) = combine connective (parts.map f)) :
    connect combine connective (parts.map f) = (connect join connective parts).map f := by
  match parts, h with
  | [], _ => rfl
  | [_], _ => rfl
  | _ :: _ :: _, h => exact congrArg some (h (by simp)).symm

/-- Replacing conditions before or after they are put together, when it can be done in each group. -/
theorem assemble_map_of_groups {f : α → β} {conditions : List (Bool × α)}
    (hand : ∀ group ∈ groups conditions, 2 ≤ group.length →
      f (join " AND " group) = combine " AND " (group.map f))
    (hor : ∀ parts, 2 ≤ parts.length → f (join " OR " parts) = combine " OR " (parts.map f)) :
    assemble combine (conditions.map fun c => (c.1, f c.2)) = (assemble join conditions).map f := by
  have members : (groups conditions).filterMap (fun group => connect combine " AND " (group.map f)) =
      (groups conditions).filterMap fun group => (connect join " AND " group).map f :=
    List.filterMap_congr fun group hg => connect_map (hand group hg)
  rw [assemble, groups_map, List.filterMap_map, assemble, ← connect_map (hor _), List.map_filterMap]
  exact congrArg (connect combine " OR ") members

/-- Conditions can be replaced one by one before or after they are put together. -/
theorem assemble_map {f : α → β}
    (hj : ∀ connective parts, f (join connective parts) = combine connective (parts.map f))
    (conditions : List (Bool × α)) :
    assemble combine (conditions.map fun c => (c.1, f c.2)) = (assemble join conditions).map f :=
  assemble_map_of_groups (fun group _ _ => hj _ group) fun parts _ => hj _ parts

/-- What holds of the parts holds of one that stands alone, and `q` holds of what several are joined to. -/
theorem connect_of_forall {connective : String} {p q : α → Prop} (weaken : ∀ x, p x → q x)
    (hj : ∀ first rest, (∀ x ∈ first :: rest, p x) → q (join connective (first :: rest)))
    {parts : List α} (h : ∀ x ∈ parts, p x) : ∀ x ∈ connect join connective parts, q x := by
  match parts, h with
  | [], _ => exact fun x hx => nomatch hx
  | [only], h =>
    rintro x ⟨⟩
    exact weaken only (h only (List.mem_singleton_self only))
  | first :: second :: rest, h =>
    rintro x ⟨⟩
    exact hj first (second :: rest) h

/-- Conditions that satisfy `p`, put together to groups that satisfy `q` and a whole that satisfies `r`. -/
theorem assemble_of_layers {p q r : α → Prop} (weaken : ∀ x, p x → q x) (weaken' : ∀ x, q x → r x)
    (hand : ∀ first rest, (∀ x ∈ first :: rest, p x) → q (join " AND " (first :: rest)))
    (hor : ∀ first rest, (∀ x ∈ first :: rest, q x) → r (join " OR " (first :: rest)))
    {conditions : List (Bool × α)} (h : ∀ c ∈ conditions, p c.2) :
    ∀ x ∈ assemble join conditions, r x := by
  refine connect_of_forall weaken' hor fun x hx => ?_
  obtain ⟨group, hg, member⟩ := List.mem_filterMap.1 hx
  refine connect_of_forall weaken hand (fun y hy => ?_) x member
  have given : y ∈ conditions.map Prod.snd := by
    rw [← flatten_groups]
    exact List.mem_flatten_of_mem hg hy
  obtain ⟨c, hc, rfl⟩ := List.mem_map.1 given
  exact h c hc

/-- What holds of all conditions, and of what is joined of such, holds of the whole. -/
theorem assemble_of_forall {p : α → Prop}
    (hj : ∀ connective ∈ [" AND ", " OR "], ∀ parts, (∀ x ∈ parts, p x) → p (join connective parts))
    {conditions : List (Bool × α)} (h : ∀ c ∈ conditions, p c.2) :
    ∀ x ∈ assemble join conditions, p x :=
  assemble_of_layers (fun _ => id) (fun _ => id) (fun _ _ => hj _ (by simp) _)
    (fun _ _ => hj _ (by simp) _) h

section Stretches

variable {γ : Type} (opens : γ → Bool)

/-- A group that its first condition opens, and no other. -/
def IsOpened (group : List γ) : Prop :=
  ∃ c rest, group = c :: rest ∧ opens c = true ∧ ∀ d ∈ rest, opens d = false

theorem split_opened (conditions : List γ) :
    (∀ c ∈ (split (conditions.map fun c => (opens c, c))).1, opens c = false) ∧
      ∀ group ∈ (split (conditions.map fun c => (opens c, c))).2, IsOpened opens group := by
  induction conditions with
  | nil => simp [split]
  | cons c rest ih =>
    rw [List.map_cons, split]
    cases h : opens c
    · exact ⟨List.forall_mem_cons.2 ⟨h, ih.1⟩, ih.2⟩
    · exact ⟨List.forall_mem_nil _, List.forall_mem_cons.2 ⟨⟨_, _, rfl, h, ih.1⟩, ih.2⟩⟩

theorem isChain_of_closed {c : γ} {rest : List γ} (h : ∀ d ∈ rest, opens d = false) :
    (c :: rest).IsChain fun _ next => (!opens next) = true := by
  induction rest generalizing c with
  | nil => exact .singleton c
  | cons d rest ih =>
    obtain ⟨first, others⟩ := List.forall_mem_cons.1 h
    exact .cons_cons (by rw [first]; rfl) (ih others)

theorem isChain_of_opened {first : List γ} {later : List (List γ)} (hf : first ≠ [])
    (h : ∀ group ∈ later, IsOpened opens group) :
    (first :: later).IsChain fun a b =>
      ∃ (_ : a ≠ []) (hb : b ≠ []), (!opens (b.head hb)) = false := by
  induction later generalizing first with
  | nil => exact .singleton first
  | cons group later ih =>
    obtain ⟨⟨c, rest, rfl, start, -⟩, others⟩ := List.forall_mem_cons.1 h
    exact .cons_cons ⟨hf, List.cons_ne_nil c rest, by simp [start]⟩ (ih (List.cons_ne_nil c rest) others)

theorem splitBy_eq_groups (conditions : List γ) :
    (conditions.splitBy fun _ next => !opens next) =
      groups (conditions.map fun c => (opens c, c)) := by
  rw [List.splitBy_eq_iff]
  refine ⟨by simp [flatten_groups, Function.comp_def], ?_⟩
  cases conditions with
  | nil => simp [groups]
  | cons c rest =>
    obtain ⟨members, later⟩ := split_opened opens rest
    have start : groups ((c :: rest).map fun c => (opens c, c)) =
        (c :: (split (rest.map fun c => (opens c, c))).1) ::
          (split (rest.map fun c => (opens c, c))).2 := rfl
    rw [start]
    refine ⟨?_, List.forall_mem_cons.2 ⟨isChain_of_closed opens members, ?_⟩,
      isChain_of_opened opens (List.cons_ne_nil _ _) later⟩
    · rintro (_ | ⟨_, hmem⟩)
      obtain ⟨_, _, empty, -⟩ := later [] hmem
      cases empty
    · intro group hg
      obtain ⟨c, rest, rfl, -, closed⟩ := later group hg
      exact isChain_of_closed opens closed

/-- The groups are the stretches of conditions up to the next one that opens a group. -/
theorem groups_eq_splitBy (part : γ → α) (conditions : List γ) :
    groups (conditions.map fun c => (opens c, part c)) =
      (conditions.splitBy fun _ next => !opens next).map (List.map part) := by
  rw [splitBy_eq_groups, ← groups_map, List.map_map]
  rfl

end Stretches

theorem connect_eq_some {connective : String} (hs : ∀ x, join connective [x] = x) {parts : List α}
    (hp : parts ≠ []) : connect join connective parts = some (join connective parts) := by
  match parts, hp with
  | [only], _ => rw [connect, hs]
  | _ :: _ :: _, _ => rfl

section Closed

variable {γ : Type} (opens : γ → Bool) (part : γ → α) {conditions : List γ}

theorem assemble_eq_some (hs : ∀ connective x, join connective [x] = x) (hc : conditions ≠ []) :
    assemble join (conditions.map fun c => (opens c, part c)) =
      some (join " OR " ((conditions.splitBy fun _ next => !opens next).map fun group =>
        join " AND " (group.map part))) := by
  have members : ∀ group ∈ conditions.splitBy fun _ next => !opens next,
      connect join " AND " (group.map part) = some (join " AND " (group.map part)) := by
    intro group hg
    have some := List.ne_nil_of_mem_splitBy hg
    exact connect_eq_some (hs _) (by simpa using some)
  have joined := (List.filterMap_congr members).trans (congrFun List.filterMap_eq_map' _)
  have several : (conditions.splitBy fun _ next => !opens next).map (fun group =>
      join " AND " (group.map part)) ≠ [] := by
    simpa using hc
  rw [assemble, groups_eq_splitBy, List.filterMap_map]
  exact (congrArg _ joined).trans (connect_eq_some (hs _) several)

variable (join) in
theorem exists_assemble (hc : conditions ≠ []) :
    ∃ x, assemble join (conditions.map fun c => (opens c, part c)) = some x := by
  let units : String → List Unit → Unit := fun _ _ => ()
  have image : assemble units (conditions.map fun c => (opens c, ())) =
      (assemble join (conditions.map fun c => (opens c, part c))).map fun _ => () := by
    calc assemble units (conditions.map fun c => (opens c, ()))
      _ = assemble units ((conditions.map fun c => (opens c, part c)).map fun c => (c.1, ())) := by
          rw [List.map_map]
          rfl
      _ = (assemble join (conditions.map fun c => (opens c, part c))).map fun _ => () :=
          assemble_map (f := fun _ => ()) (fun _ _ => rfl) _
  have closed : assemble units (conditions.map fun c => (opens c, ())) = some () :=
    assemble_eq_some opens (fun _ => ()) (fun _ _ => rfl) hc
  obtain ⟨x, hx, -⟩ := Option.map_eq_some_iff.1 (image.symm.trans closed)
  exact ⟨x, hx⟩

end Closed

section Effects

variable {m : Type → Type} [Monad m] {α β γ δ : Type}

/-- The conditions after an effect on each, from first to last. -/
def traverse (f : α → m β) (conditions : List (Bool × α)) : m (List (Bool × β)) :=
  conditions.mapM fun c => do return (c.1, ← f c.2)

variable [LawfulMonad m] {f : α → m β}

theorem split_mapM (conditions : List (Bool × α)) :
    (do
      let members ← (split conditions).1.mapM f
      return (members, ← (split conditions).2.mapM (List.mapM f))) =
    split <$> traverse f conditions := by
  induction conditions with
  | nil => simp [split, traverse]
  | cons c rest ih =>
    obtain ⟨opens, x⟩ := c
    have step : split <$> traverse f ((opens, x) :: rest) = (do
        let y ← f x
        let tail ← split <$> traverse f rest
        return if opens then ([], (y :: tail.1) :: tail.2) else (y :: tail.1, tail.2)) := by
      simp only [traverse, List.mapM_cons, bind_assoc, pure_bind, map_bind, map_pure, bind_map_left, split]
    rw [step, ← ih, split]
    cases opens <;> simp only [List.mapM_cons, List.mapM_nil, bind_assoc, pure_bind, if_true, if_false,
      Bool.false_eq_true]

theorem groups_mapM (conditions : List (Bool × α)) :
    (groups conditions).mapM (List.mapM f) = groups <$> traverse f conditions := by
  cases conditions with
  | nil => simp [groups, traverse]
  | cons c rest =>
    have step : groups <$> traverse f (c :: rest) = (do
        let y ← f c.2
        let tail ← split <$> traverse f rest
        return (y :: tail.1) :: tail.2) := by
      simp only [traverse, List.mapM_cons, bind_assoc, pure_bind, map_bind, map_pure, bind_map_left, groups]
    rw [step, ← split_mapM, groups]
    simp only [List.mapM_cons, bind_assoc, pure_bind]

variable {join : String → List α → α} {combine : String → List β → β}

theorem connect_mapM {connective : String}
    (hj : ∀ parts, f (join connective parts) = combine connective <$> parts.mapM f) (parts : List α) :
    (connect join connective parts).mapM f = connect combine connective <$> parts.mapM f := by
  match parts with
  | [] => simp [connect]
  | [only] => simp [connect]
  | first :: second :: rest => simp [connect, hj]

theorem filterMap_mapM {g : γ → Option α} {h : δ → Option β} {k : γ → m δ}
    (hg : ∀ c, (g c).mapM f = h <$> k c) (items : List γ) :
    (items.filterMap g).mapM f = List.filterMap h <$> items.mapM k := by
  induction items with
  | nil => simp
  | cons c rest ih =>
    have head : ((c :: rest).filterMap g).mapM f = (do
        let first ← (g c).mapM f
        let others ← (rest.filterMap g).mapM f
        return first.toList ++ others) := by
      cases made : g c <;> simp [made]
    have whole (y : δ) (ys : List δ) : (y :: ys).filterMap h = (h y).toList ++ ys.filterMap h := by
      cases made : h y <;> simp [made]
    simp only [head, hg, ih, List.mapM_cons, bind_map_left, map_bind, map_pure, whole]

/-- The effects of the conditions take place in the order in which they are given. -/
theorem assemble_mapM
    (hj : ∀ connective parts, f (join connective parts) = combine connective <$> parts.mapM f)
    (conditions : List (Bool × α)) :
    (assemble join conditions).mapM f = assemble combine <$> traverse f conditions := by
  rw [assemble, connect_mapM (hj _), filterMap_mapM (connect_mapM (hj _)), groups_mapM,
    Functor.map_map, Functor.map_map]
  rfl

end Effects

end SqlComposition.Grouping
