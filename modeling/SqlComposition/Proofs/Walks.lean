import SqlComposition.Query.Objects

/-!
Where objects are. The walk through a query does its work on the objects in it one after another, in places
that do not depend on the work; so whatever the work is, the result has what came of it in these places and
is otherwise as it was.
-/

namespace SqlComposition

/-- What may have objects in it, with the way through it that does some work on each of them. -/
class HasObjects (α : Type) where
  walk {m : Type → Type} [Monad m] (f : Object → m Object) (a : α) : m α

namespace HasObjects

variable {α β γ : Type} [HasObjects α] [HasObjects β] [HasObjects γ] {a : α} {b : β}

/-- With so many objects in its places something is filled, and the walk through it does its work on these
objects one after another. -/
def Fills (count : Nat) (fill : List Object → α) : Prop :=
  ∀ objects, objects.length = count → ∀ {m : Type → Type} [Monad m] [LawfulMonad m]
    (f : Object → m Object), walk f (fill objects) = fill <$> objects.mapM f

/-- The walk meets the objects in some places, and nothing else comes into it. -/
def HasPlaces (a : α) : Prop :=
  ∃ objects fill, fill objects = a ∧ Fills objects.length fill

/-- As many objects as there are come out of the work on them. -/
theorem bind_mapM_congr {δ : Type} {m : Type → Type} [Monad m] [LawfulMonad m] (f : Object → m Object)
    {objects : List Object} {next other : List Object → m δ}
    (h : ∀ done, done.length = objects.length → next done = other done) :
    objects.mapM f >>= next = objects.mapM f >>= other := by
  induction objects generalizing next other with
  | nil => simpa using h [] rfl
  | cons o rest ih =>
    simp only [List.mapM_cons, bind_assoc, pure_bind]
    refine congrArg _ (funext fun first => ih fun done hd => h _ ?_)
    rw [List.length_cons, List.length_cons, hd]

instance : HasObjects (α × β) where
  walk f p := do
    let a ← walk f p.1
    let b ← walk f p.2
    return (a, b)

namespace HasPlaces

theorem none (h : ∀ {m : Type → Type} [Monad m] [LawfulMonad m] (f : Object → m Object),
    walk f a = pure a) : HasPlaces a := by
  refine ⟨[], fun _ => a, rfl, fun objects none m _ _ f => ?_⟩
  rw [List.length_eq_zero_iff.1 none, h, List.mapM_nil, map_pure]

theorem map {c : α → γ} (ha : HasPlaces a)
    (h : ∀ {m : Type → Type} [Monad m] [LawfulMonad m] (f : Object → m Object) (a : α),
      walk f (c a) = c <$> walk f a) : HasPlaces (c a) := by
  obtain ⟨objects, fill, rfl, fills⟩ := ha
  refine ⟨objects, fun others => c (fill others), rfl, fun others count m _ _ f => ?_⟩
  rw [h, fills others count, Functor.map_map]

theorem both {c : α → β → γ} (ha : HasPlaces a) (hb : HasPlaces b)
    (h : ∀ {m : Type → Type} [Monad m] [LawfulMonad m] (f : Object → m Object) (a : α) (b : β),
      walk f (c a b) = do
        let a ← walk f a
        let b ← walk f b
        return c a b) : HasPlaces (c a b) := by
  obtain ⟨first, fill, rfl, fills⟩ := ha
  obtain ⟨second, fill', rfl, fills'⟩ := hb
  refine ⟨first ++ second,
    fun others => c (fill (others.take first.length)) (fill' (others.drop first.length)),
    by simp, fun others count m _ _ f => ?_⟩
  rw [List.length_append] at count
  have taken : (others.take first.length).length = first.length := by
    rw [List.length_take]
    omega
  have dropped : (others.drop first.length).length = second.length := by
    rw [List.length_drop]
    omega
  have split : others.mapM f = do
      let a ← (others.take first.length).mapM f
      let b ← (others.drop first.length).mapM f
      return a ++ b := by
    rw [← List.mapM_append, List.take_append_drop]
  rw [h, fills _ taken, fills' _ dropped, split]
  simp only [bind_map_left, map_bind, map_pure]
  refine bind_mapM_congr f fun done hd => ?_
  rw [taken] at hd
  simp [← hd]

theorem pair (ha : HasPlaces a) (hb : HasPlaces b) : HasPlaces (a, b) :=
  ha.both hb fun _ _ _ => rfl

end HasPlaces

end HasObjects

open HasObjects

instance : HasObjects Value := ⟨Value.traverse⟩

instance : HasObjects (List Value) := ⟨Value.traverseAll⟩

instance : HasObjects (List (Value × Value)) := ⟨Value.traverseEntries⟩

instance : HasObjects (Option Value) := ⟨Value.traverseOption⟩

instance : HasObjects Fragment := ⟨Fragment.traverse⟩

instance : HasObjects (Option Fragment) := ⟨Fragment.traverseOption⟩

instance : HasObjects Members := ⟨Members.traverse⟩

instance : HasObjects Predicate := ⟨Predicate.traverse⟩

instance : HasObjects Condition := ⟨Condition.traverse⟩

instance : HasObjects (List Condition) := ⟨Condition.traverseAll⟩

instance : HasObjects Expression := ⟨Expression.traverse⟩

instance : HasObjects (List Expression) := ⟨Expression.traverseAll⟩

instance : HasObjects SelectItem := ⟨SelectItem.traverse⟩

instance : HasObjects (List SelectItem) := ⟨SelectItem.traverseAll⟩

instance : HasObjects Source := ⟨Source.traverse⟩

instance : HasObjects (Option Source) := ⟨Source.traverseOption⟩

instance : HasObjects JoinTarget := ⟨JoinTarget.traverse⟩

instance : HasObjects Join := ⟨Join.traverse⟩

instance : HasObjects (List Join) := ⟨Join.traverseAll⟩

instance : HasObjects OrderItem := ⟨OrderItem.traverse⟩

instance : HasObjects (List OrderItem) := ⟨OrderItem.traverseAll⟩

instance : HasObjects CteBody := ⟨CteBody.traverse⟩

instance : HasObjects Cte := ⟨Cte.traverse⟩

instance : HasObjects (List Cte) := ⟨Cte.traverseAll⟩

instance : HasObjects SetOperation := ⟨SetOperation.traverse⟩

instance : HasObjects (List SetOperation) := ⟨SetOperation.traverseAll⟩

instance : HasObjects Query := ⟨Query.traverse⟩

instance : HasObjects (Option Query) := ⟨Query.traverseOption⟩

instance : HasObjects Part := ⟨Part.traverse⟩

instance : HasObjects BoundQuery := ⟨BoundQuery.traverse⟩

theorem HasObjects.HasPlaces.object (o : Object) : HasPlaces (Value.object o) := by
  refine ⟨[o], fun objects => .object (objects.headD o), rfl, fun objects one m _ _ f => ?_⟩
  obtain ⟨other, rfl⟩ := List.length_eq_one_iff.1 one
  simp [walk, Value.traverse]

mutual

theorem Value.hasPlaces : (a : Value) → HasPlaces a
  | .scalar _ => .none fun _ => by simp [walk, Value.traverse]
  | .list items => (Value.all_havePlaces items).map fun _ _ => by simp [walk, Value.traverse]
  | .tuple items => (Value.all_havePlaces items).map fun _ _ => by simp [walk, Value.traverse]
  | .mapping entries => (Value.entries_havePlaces entries).map fun _ _ => by simp [walk, Value.traverse]
  | .fragment x => x.hasPlaces.map fun _ _ => by simp [walk, Value.traverse]
  | .query q => q.hasPlaces.map fun _ _ => by simp [walk, Value.traverse]
  | .part p => p.hasPlaces.map fun _ _ => by simp [walk, Value.traverse]
  | .bound b => b.hasPlaces.map fun _ _ => by simp [walk, Value.traverse]
  | .object o => .object o

theorem Value.all_havePlaces : (a : List Value) → HasPlaces a
  | [] => .none fun _ => by simp [walk, Value.traverseAll]
  | a :: rest =>
    a.hasPlaces.both (Value.all_havePlaces rest) fun _ _ _ => by simp [walk, Value.traverseAll]

theorem Value.entries_havePlaces : (a : List (Value × Value)) → HasPlaces a
  | [] => .none fun _ => by simp [walk, Value.traverseEntries]
  | (key, content) :: rest =>
    (key.hasPlaces.pair content.hasPlaces).both (Value.entries_havePlaces rest)
      (c := fun e rest => (e.1, e.2) :: rest) fun _ _ _ => by simp [walk, Value.traverseEntries]

theorem Value.option_hasPlaces : (a : Option Value) → HasPlaces a
  | none => .none fun _ => by simp [walk, Value.traverseOption]
  | some a => a.hasPlaces.map fun _ _ => by simp [walk, Value.traverseOption]

theorem Fragment.hasPlaces : (a : Fragment) → HasPlaces a
  | ⟨_, bindings⟩ => (Value.all_havePlaces bindings).map fun _ _ => by simp [walk, Fragment.traverse]

theorem Fragment.option_hasPlaces : (a : Option Fragment) → HasPlaces a
  | none => .none fun _ => by simp [walk, Fragment.traverseOption]
  | some a => a.hasPlaces.map fun _ _ => by simp [walk, Fragment.traverseOption]

theorem Members.hasPlaces : (a : Members) → HasPlaces a
  | .listed values => (Value.all_havePlaces values).map fun _ _ => by simp [walk, Members.traverse]
  | .query q => q.hasPlaces.map fun _ _ => by simp [walk, Members.traverse]

theorem Predicate.hasPlaces : (a : Predicate) → HasPlaces a
  | .comparison _ _ value => value.hasPlaces.map fun _ _ => by simp [walk, Predicate.traverse]
  | .member column members negated =>
    members.hasPlaces.map (c := (Predicate.member column · negated)) fun _ _ => by
      simp [walk, Predicate.traverse]
  | .null _ _ => .none fun _ => by simp [walk, Predicate.traverse]
  | .between column low high negated =>
    low.hasPlaces.both high.hasPlaces (c := (Predicate.between column · · negated)) fun _ _ _ => by
      simp [walk, Predicate.traverse]
  | .nonempty q negated =>
    q.hasPlaces.map (c := (Predicate.nonempty · negated)) fun _ _ => by simp [walk, Predicate.traverse]
  | .raw x => x.hasPlaces.map fun _ _ => by simp [walk, Predicate.traverse]

theorem Condition.hasPlaces : (a : Condition) → HasPlaces a
  | ⟨_, predicate⟩ => predicate.hasPlaces.map fun _ _ => by simp [walk, Condition.traverse]

theorem Condition.all_havePlaces : (a : List Condition) → HasPlaces a
  | [] => .none fun _ => by simp [walk, Condition.traverseAll]
  | a :: rest =>
    a.hasPlaces.both (Condition.all_havePlaces rest) fun _ _ _ => by simp [walk, Condition.traverseAll]

theorem Expression.hasPlaces : (a : Expression) → HasPlaces a
  | .name _ => .none fun _ => by simp [walk, Expression.traverse]
  | .raw x => x.hasPlaces.map fun _ _ => by simp [walk, Expression.traverse]

theorem Expression.all_havePlaces : (a : List Expression) → HasPlaces a
  | [] => .none fun _ => by simp [walk, Expression.traverseAll]
  | a :: rest =>
    a.hasPlaces.both (Expression.all_havePlaces rest) fun _ _ _ => by
      simp [walk, Expression.traverseAll]

theorem SelectItem.hasPlaces : (a : SelectItem) → HasPlaces a
  | ⟨expression, label⟩ =>
    expression.hasPlaces.map (c := (SelectItem.mk · label)) fun _ _ => by
      simp [walk, SelectItem.traverse]

theorem SelectItem.all_havePlaces : (a : List SelectItem) → HasPlaces a
  | [] => .none fun _ => by simp [walk, SelectItem.traverseAll]
  | a :: rest =>
    a.hasPlaces.both (SelectItem.all_havePlaces rest) fun _ _ _ => by
      simp [walk, SelectItem.traverseAll]

theorem Source.hasPlaces : (a : Source) → HasPlaces a
  | ⟨table, subquery, label⟩ =>
    (Query.option_hasPlaces subquery).map (c := (Source.mk table · label)) fun _ _ => by
      simp [walk, Source.traverse]

theorem Source.option_hasPlaces : (a : Option Source) → HasPlaces a
  | none => .none fun _ => by simp [walk, Source.traverseOption]
  | some a => a.hasPlaces.map fun _ _ => by simp [walk, Source.traverseOption]

theorem JoinTarget.hasPlaces : (a : JoinTarget) → HasPlaces a
  | .table _ => .none fun _ => by simp [walk, JoinTarget.traverse]
  | .query q => q.hasPlaces.map fun _ _ => by simp [walk, JoinTarget.traverse]

theorem Join.hasPlaces : (a : Join) → HasPlaces a
  | ⟨kind, target, label, on⟩ =>
    target.hasPlaces.both (Fragment.option_hasPlaces on) (c := (Join.mk kind · label ·)) fun _ _ _ => by
      simp [walk, Join.traverse]

theorem Join.all_havePlaces : (a : List Join) → HasPlaces a
  | [] => .none fun _ => by simp [walk, Join.traverseAll]
  | a :: rest =>
    a.hasPlaces.both (Join.all_havePlaces rest) fun _ _ _ => by simp [walk, Join.traverseAll]

theorem OrderItem.hasPlaces : (a : OrderItem) → HasPlaces a
  | ⟨expression, direction⟩ =>
    expression.hasPlaces.map (c := (OrderItem.mk · direction)) fun _ _ => by
      simp [walk, OrderItem.traverse]

theorem OrderItem.all_havePlaces : (a : List OrderItem) → HasPlaces a
  | [] => .none fun _ => by simp [walk, OrderItem.traverseAll]
  | a :: rest =>
    a.hasPlaces.both (OrderItem.all_havePlaces rest) fun _ _ _ => by simp [walk, OrderItem.traverseAll]

theorem CteBody.hasPlaces : (a : CteBody) → HasPlaces a
  | .query q => q.hasPlaces.map fun _ _ => by simp [walk, CteBody.traverse]
  | .raw x => x.hasPlaces.map fun _ _ => by simp [walk, CteBody.traverse]

theorem Cte.hasPlaces : (a : Cte) → HasPlaces a
  | ⟨name, columns, body, isRecursive⟩ =>
    body.hasPlaces.map (c := (Cte.mk name columns · isRecursive)) fun _ _ => by
      simp [walk, Cte.traverse]

theorem Cte.all_havePlaces : (a : List Cte) → HasPlaces a
  | [] => .none fun _ => by simp [walk, Cte.traverseAll]
  | a :: rest => a.hasPlaces.both (Cte.all_havePlaces rest) fun _ _ _ => by simp [walk, Cte.traverseAll]

theorem SetOperation.hasPlaces : (a : SetOperation) → HasPlaces a
  | ⟨_, query⟩ => query.hasPlaces.map fun _ _ => by simp [walk, SetOperation.traverse]

theorem SetOperation.all_havePlaces : (a : List SetOperation) → HasPlaces a
  | [] => .none fun _ => by simp [walk, SetOperation.traverseAll]
  | a :: rest =>
    a.hasPlaces.both (SetOperation.all_havePlaces rest) fun _ _ _ => by
      simp [walk, SetOperation.traverseAll]

theorem Query.hasPlaces : (a : Query) → HasPlaces a
  | ⟨ctes, distinct, selection, source, joins, conditions, grouping, having, setOperations, ordering,
      limit, offset⟩ =>
    ((Cte.all_havePlaces ctes).pair <| (SelectItem.all_havePlaces selection).pair <|
      (Source.option_hasPlaces source).pair <| (Join.all_havePlaces joins).pair <|
      (Condition.all_havePlaces conditions).pair <| (Expression.all_havePlaces grouping).pair <|
      (Condition.all_havePlaces having).pair <| (SetOperation.all_havePlaces setOperations).pair <|
      (OrderItem.all_havePlaces ordering).pair <| (Value.option_hasPlaces limit).pair
      (Value.option_hasPlaces offset)).map
      (c := fun (ctes, selection, source, joins, conditions, grouping, having, setOperations, ordering,
          limit, offset) =>
        Query.mk ctes distinct selection source joins conditions grouping having setOperations ordering
          limit offset)
      fun _ _ => by simp [walk, Query.traverse]

theorem Query.option_hasPlaces : (a : Option Query) → HasPlaces a
  | none => .none fun _ => by simp [walk, Query.traverseOption]
  | some a => a.hasPlaces.map fun _ _ => by simp [walk, Query.traverseOption]

theorem Part.hasPlaces : (a : Part) → HasPlaces a
  | .selectItem p => p.hasPlaces.map fun _ _ => by simp [walk, Part.traverse]
  | .source p => p.hasPlaces.map fun _ _ => by simp [walk, Part.traverse]
  | .join p => p.hasPlaces.map fun _ _ => by simp [walk, Part.traverse]
  | .condition p => p.hasPlaces.map fun _ _ => by simp [walk, Part.traverse]
  | .predicate p => p.hasPlaces.map fun _ _ => by simp [walk, Part.traverse]
  | .orderItem p => p.hasPlaces.map fun _ _ => by simp [walk, Part.traverse]
  | .cte p => p.hasPlaces.map fun _ _ => by simp [walk, Part.traverse]
  | .setOperation p => p.hasPlaces.map fun _ _ => by simp [walk, Part.traverse]

theorem BoundQuery.hasPlaces : (a : BoundQuery) → HasPlaces a
  | ⟨sql, values, dialect⟩ =>
    (Value.all_havePlaces values).map (c := (BoundQuery.mk sql · dialect)) fun _ _ => by
      simp [walk, BoundQuery.traverse]

end

end SqlComposition
