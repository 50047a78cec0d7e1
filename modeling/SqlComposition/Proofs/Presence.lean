import SqlComposition.Proofs.Looks
import SqlComposition.Proofs.PlainData
import SqlComposition.Proofs.Walks

/-!
What is there already. Of values, queries and all that is in them it is said that the objects in them have
numbers below some number: then what is done with other objects makes no difference. What is met in going
through such a value, and what is read of it, is of the same sort.
-/

namespace SqlComposition
open Store

namespace HasObjects

variable {α : Type} [HasObjects α] {a : α} {fill : List Object → α} {objects : List Object} {count more : Nat}

/-- Puts others in the places of the objects. -/
def replace (f : Object → Object) (a : α) : α :=
  Id.run (walk (fun o => pure (f o)) a)

/-- All objects in it have numbers below `count`, so what is done with others makes no difference. -/
def IsPresent (count : Nat) (a : α) : Prop :=
  ∀ f g : Object → Object, (∀ o, o.number < count → f o = g o) → replace f a = replace g a

theorem IsPresent.mono (h : IsPresent count a) (le : count ≤ more) : IsPresent more a :=
  fun f g same => h f g fun o ho => same o (ho.trans_le le)

namespace Fills

theorem replace_fill (h : Fills count fill) (length : objects.length = count) (f : Object → Object) :
    replace f (fill objects) = fill (objects.map f) := by
  rw [replace, h objects length]
  change fill (Id.run (objects.mapM fun o => pure (f o))) = _
  rw [List.mapM_pure]
  rfl

/-- Keeps a list of the objects that are met. -/
def note (o : Object) : StateM (List Object) Object :=
  fun before => (o, before ++ [o])

theorem mapM_note (objects before : List Object) :
    (objects.mapM note).run before = (objects, before ++ objects) := by
  induction objects generalizing before with
  | nil => rw [List.mapM_nil, List.append_nil]; rfl
  | cons o rest ih =>
    have first : (note o).run before = (o, before ++ [o]) := rfl
    rw [List.mapM_cons, StateT.run_bind, first]
    change (do let r ← (rest.mapM note).run (before ++ [o]); (pure (o :: r.1, r.2) : Id _)) = _
    rw [ih, ← List.append_cons]
    rfl

theorem injective (h : Fills count fill) {others : List Object} (length : objects.length = count)
    (length' : others.length = count) (same : fill objects = fill others) : objects = others := by
  have met {objects : List Object} (length : objects.length = count) :
      ((walk note (fill objects)).run []).2 = objects := by
    rw [h objects length, StateT.run_map, mapM_note]
    rfl
  rw [← met length, same, met length']

theorem isPresent_iff (h : Fills count fill) (length : objects.length = count) :
    IsPresent more (fill objects) ↔ ∀ o ∈ objects, o.number < more := by
  constructor
  · intro present o ho
    by_contra away
    let other (o : Object) : Object := if o.number < more then o else { o with number := o.number + 1 }
    have same := present id other fun o ho => (if_pos ho).symm
    rw [h.replace_fill length, h.replace_fill length, List.map_id] at same
    have here := h.injective length (by rw [List.length_map, length]) same
    have fixed : other o = o := List.map_inj_left.1 (here.symm.trans (List.map_id objects).symm) o ho
    have changed : (other o).number = o.number + 1 := by rw [show other o = _ from if_neg away]
    rw [fixed] at changed
    omega
  · intro below f g same
    rw [h.replace_fill length, h.replace_fill length, List.map_congr_left fun o ho => same o (below o ho)]

end Fills

/-- Where objects are put in the place of others, those numbers count that they get. -/
theorem HasPlaces.isPresent_replace (h : HasPlaces a) (present : IsPresent count a)
    {f : Object → Object} (hf : ∀ o, o.number < count → (f o).number < more) :
    IsPresent more (replace f a) := by
  obtain ⟨objects, fill, rfl, fills⟩ := h
  rw [fills.replace_fill rfl, fills.isPresent_iff (List.length_map _)]
  exact List.forall_mem_map.2 fun o ho => hf o ((fills.isPresent_iff rfl).1 present o ho)

/-- What is made of something that is there is there. -/
theorem IsPresent.made {β : Type} [HasObjects β] {c : α → β} (h : IsPresent count a)
    (hc : ∀ f a, replace f (c a) = c (replace f a)) : IsPresent count (c a) :=
  fun f g same => by rw [hc, hc, h f g same]

theorem isPresent_iff_of_replace {β : Type} [HasObjects β] {c : α → β} (inj : Function.Injective c)
    (h : ∀ f a, replace f (c a) = c (replace f a)) : IsPresent count (c a) ↔ IsPresent count a := by
  refine forall_congr' fun f => forall_congr' fun g => imp_congr_right fun _ => ?_
  rw [h, h, inj.eq_iff]

theorem isPresent_all [HasObjects (List α)]
    (h : ∀ f (items : List α), replace f items = items.map (replace f))
    {items : List α} : IsPresent count items ↔ ∀ a ∈ items, IsPresent count a := by
  constructor
  · intro present a ha f g same
    have mapped := present f g same
    rw [h, h] at mapped
    exact List.map_inj_left.1 mapped a ha
  · intro present f g same
    rw [h, h, List.map_congr_left fun a ha => present a ha f g same]

theorem isPresent_pair {β : Type} [HasObjects β] {e : α × β} :
    IsPresent count e ↔ IsPresent count e.1 ∧ IsPresent count e.2 :=
  ⟨fun h => ⟨fun f g same => congrArg Prod.fst (h f g same), fun f g same => congrArg Prod.snd (h f g same)⟩,
    fun h f g same => Prod.ext (h.1 f g same) (h.2 f g same)⟩

end HasObjects

open HasObjects

variable {count : Nat}

/-! ## Values -/

namespace Value

theorem run_traverseEntries (f : Object → Object) (entries : List (Value × Value)) :
    Id.run (traverseEntries (fun o => pure (f o)) entries) =
      entries.map fun e => (e.1.mapObjects f, e.2.mapObjects f) :=
  eq_map_of_cons (by rw [traverseEntries]; rfl) (fun _ _ => by rw [traverseEntries]; rfl) entries

theorem isPresent_scalar (s : Scalar) : IsPresent count (scalar s) := fun _ _ _ => rfl

theorem isPresent_all {values : List Value} : IsPresent count values ↔ ∀ v ∈ values, IsPresent count v :=
  HasObjects.isPresent_all run_traverseAll

theorem isPresent_list {items : List Value} : IsPresent count (list items) ↔ IsPresent count items :=
  isPresent_iff_of_replace (fun _ _ => list.inj) fun _ _ => rfl

theorem isPresent_tuple {items : List Value} : IsPresent count (tuple items) ↔ IsPresent count items :=
  isPresent_iff_of_replace (fun _ _ => tuple.inj) fun _ _ => rfl

theorem isPresent_entries {entries : List (Value × Value)} :
    IsPresent count entries ↔ ∀ e ∈ entries, IsPresent count e.1 ∧ IsPresent count e.2 :=
  (HasObjects.isPresent_all run_traverseEntries).trans (forall₂_congr fun _ _ => isPresent_pair)

theorem mapObjects_mapping (f : Object → Object) (entries : List (Value × Value)) :
    (mapping entries).mapObjects f = mapping (entries.map fun e => (e.1.mapObjects f, e.2.mapObjects f)) := by
  rw [mapObjects, traverse, ← run_traverseEntries]
  rfl

theorem isPresent_mapping {entries : List (Value × Value)} :
    IsPresent count (mapping entries) ↔ IsPresent count entries :=
  isPresent_iff_of_replace (fun _ _ => mapping.inj) fun _ _ => rfl

theorem isPresent_fragment {x : Fragment} : IsPresent count (fragment x) ↔ IsPresent count x :=
  isPresent_iff_of_replace (fun _ _ => fragment.inj) fun _ _ => rfl

theorem isPresent_query {q : Query} : IsPresent count (query q) ↔ IsPresent count q :=
  isPresent_iff_of_replace (fun _ _ => query.inj) fun _ _ => rfl

theorem isPresent_bound {b : BoundQuery} : IsPresent count (bound b) ↔ IsPresent count b.values := by
  obtain ⟨sql, values, dialect⟩ := b
  exact isPresent_iff_of_replace (c := fun values => bound ⟨sql, values, dialect⟩)
    (fun _ _ same => (BoundQuery.mk.inj (bound.inj same)).2.1) fun _ _ => rfl

theorem isPresent_object {o : Object} : IsPresent count (object o) ↔ o.number < count :=
  have fills : Fills 1 fun objects => object (objects.headD o) := fun objects one m _ _ f => by
    obtain ⟨other, rfl⟩ := List.length_eq_one_iff.1 one
    simp [walk, traverse]
  (fills.isPresent_iff (show [o].length = 1 from rfl)).trans List.forall_mem_singleton

theorem isPresent_text (s : String) : IsPresent count (text s) :=
  isPresent_scalar _

theorem mapObjects_ofOption {α : Type} {make : α → Value} {f : Object → Object} {g : α → α}
    (h : ∀ a, (make a).mapObjects f = make (g a)) (a : Option α) :
    (ofOption make a).mapObjects f = ofOption make (a.map g) := by
  cases a with
  | none => rfl
  | some a => exact h a

theorem mapObjects_ofExpression (f : Object → Object) (e : Expression) :
    (ofExpression e).mapObjects f = ofExpression (e.mapObjects f) := by
  cases e with
  | name _ => rw [Expression.mapObjects, Expression.traverse]; rfl
  | raw x => rw [Expression.mapObjects, Expression.traverse]; exact mapObjects_fragment f x

theorem mapObjects_parts {α : Type} {f : Object → Object} {make : α → Part} {g : α → α}
    (h : ∀ a, (part (make a)).mapObjects f = part (make (g a))) (parts : List α) :
    (list (parts.map fun a => part (make a))).mapObjects f =
      list ((parts.map g).map fun a => part (make a)) := by
  rw [mapObjects_list, List.map_map, List.map_map]
  exact congrArg list (List.map_congr_left fun a _ => h a)

end Value

theorem Value.mapObjects_part {α : Type} (f : Object → Object) (make : α → Part) {walked : α → α}
    (h : ∀ a, (make a).traverse (fun o => (pure (f o) : Id Object)) = pure (make (walked a))) (a : α) :
    (part (make a)).mapObjects f = part (make (walked a)) := by
  rw [mapObjects, traverse, h]
  rfl

open Value in
theorem Query.fields_mapObjects (f : Object → Object) (q : Query) :
    (q.mapObjects f).fields = q.fields.map fun e => (e.1, e.2.mapObjects f) := by
  have ctes := mapObjects_parts (mapObjects_part f .cte fun _ => by rw [Part.traverse]; rfl) q.ctes
  have selection :=
    mapObjects_parts (mapObjects_part f .selectItem fun _ => by rw [Part.traverse]; rfl) q.selection
  have source := mapObjects_ofOption (mapObjects_part f .source fun _ => by rw [Part.traverse]; rfl) q.source
  have joins := mapObjects_parts (mapObjects_part f .join fun _ => by rw [Part.traverse]; rfl) q.joins
  have tests (conditions : List Condition) :
      (ofConditions conditions).mapObjects f = ofConditions (conditions.map (·.mapObjects f)) :=
    mapObjects_parts (mapObjects_part f .condition fun _ => by rw [Part.traverse]; rfl) conditions
  have grouping : (list (q.grouping.map ofExpression)).mapObjects f =
      list ((q.grouping.map (·.mapObjects f)).map ofExpression) := by
    rw [mapObjects_list, List.map_map, List.map_map]
    exact congrArg list (List.map_congr_left fun e _ => mapObjects_ofExpression f e)
  have members :=
    mapObjects_parts (mapObjects_part f .setOperation fun _ => by rw [Part.traverse]; rfl) q.setOperations
  have ordering := mapObjects_parts (mapObjects_part f .orderItem fun _ => by rw [Part.traverse]; rfl) q.ordering
  have rows (v : Option Value) : (ofOption id v).mapObjects f = ofOption id (v.map (·.mapObjects f)) :=
    @mapObjects_ofOption _ id f _ (fun _ => rfl) v
  rw [Query.mapObjects_eq]
  simp only [Query.fields, List.map_cons, List.map_nil, ctes, selection, source, joins, tests, grouping,
    members, ordering, rows, mapObjects_scalar]
  rfl

namespace Value

/-- What is met in going through a value is met after objects are replaced in it, with these replaced. -/
theorem items?_mapObjects (f : Object → Object) (v : Value) :
    (v.mapObjects f).items? = v.items?.map (List.map (·.mapObjects f)) := by
  cases v with
  | scalar s => cases s <;> simp [items?, text, int]
  | list items => simp [mapObjects_list, items?]
  | tuple items => simp [mapObjects_tuple, items?]
  | mapping entries => simp [mapObjects_mapping, items?]
  | fragment x =>
    obtain ⟨sql, bindings⟩ := x
    rw [mapObjects_fragment, Fragment.mapObjects_mk]
    simp [items?, fieldItems, Fragment.fields, mapObjects_tuple, mapObjects_list, text]
  | query q =>
    rw [mapObjects_query, items?, items?, Query.fields_mapObjects]
    simp [fieldItems, mapObjects_tuple, text]
  | part _ | bound _ =>
    rw [mapObjects, traverse]
    rfl
  | object _ => rfl

variable {v : Value}

theorem isPresent_items (h : IsPresent count v) {items : List Value} (found : v.items? = some items) :
    ∀ item ∈ items, IsPresent count item := by
  refine isPresent_all.1 fun f g same => ?_
  have met (f : Object → Object) : (v.mapObjects f).items? = some (replace f items) := by
    rw [items?_mapObjects, found, Option.map_some, ← run_traverseAll]
    rfl
  exact Option.some.inj ((met f).symm.trans ((congrArg items? (h f g same)).trans (met g)))

theorem isPresent_listed (h : IsPresent count v) {items : List Value} (found : v.items = .ok items) :
    ∀ item ∈ items, IsPresent count item :=
  isPresent_items h (items?_of_items found)

theorem isPresent_putEntry {entries : List (Value × Value)} (h : IsPresent count entries)
    {key content : Value} (hk : IsPresent count key) (hc : IsPresent count content) :
    IsPresent count (putEntry key content entries) := by
  rw [isPresent_entries] at h ⊢
  induction entries with
  | nil => exact List.forall_mem_singleton.2 ⟨hk, hc⟩
  | cons e rest ih =>
    obtain ⟨first, others⟩ := List.forall_mem_cons.1 h
    rw [putEntry]
    split
    · exact List.forall_mem_cons.2 ⟨⟨first.1, hc⟩, others⟩
    · exact List.forall_mem_cons.2 ⟨first, ih others⟩

theorem isPresent_insertEntry {entries made : List (Value × Value)} (h : IsPresent count entries)
    {key content : Value} (hk : IsPresent count key) (hc : IsPresent count content)
    (put : insertEntry entries key content = .ok made) : IsPresent count made := by
  unfold insertEntry at put
  split at put
  · cases put
  · obtain rfl := Except.ok.inj put
    exact isPresent_putEntry h hk hc

theorem isPresent_entryOf (h : IsPresent count v) {position : Nat} {e : Value × Value}
    (made : entryOf position v = .ok e) : IsPresent count e.1 ∧ IsPresent count e.2 := by
  unfold entryOf at made
  split at made
  · cases made
  · rename_i key content found
    have met := isPresent_items h found
    split at made
    · cases made
    · obtain rfl := Except.ok.inj made
      exact ⟨met key (by simp), met content (by simp)⟩
  · cases made

theorem isPresent_entriesOf (h : IsPresent count v) {e : Value × Value} (he : .ok e ∈ v.entriesOf) :
    IsPresent count e.1 ∧ IsPresent count e.2 := by
  unfold entriesOf at he
  split at he
  · rename_i entries
    obtain ⟨_, there, same⟩ := List.mem_map.1 he
    obtain rfl := Except.ok.inj same
    exact isPresent_entries.1 (isPresent_mapping.1 h) _ there
  · split at he
    · cases List.mem_singleton.1 he
    · rename_i pairs found
      obtain ⟨position, bound, made⟩ := List.mem_mapIdx.1 he
      exact isPresent_entryOf (isPresent_listed h found _ (List.getElem_mem bound)) made

end Value

/-! ## What is read of values -/

theorem Fragment.isPresent_mk {sql : String} {bindings : List Value} :
    IsPresent count (Fragment.mk sql bindings) ↔ IsPresent count bindings :=
  isPresent_iff_of_replace (c := Fragment.mk sql) (fun _ _ same => (Fragment.mk.inj same).2) fun _ _ => rfl

theorem Expression.isPresent_name (text : String) : IsPresent count (Expression.name text) :=
  fun _ _ _ => rfl

/-! ## Parts of queries -/

namespace Members

theorem isPresent_listed {values : List Value} (h : IsPresent count values) :
    IsPresent count (listed values) :=
  h.made fun _ _ => rfl

theorem isPresent_query {q : Query} (h : IsPresent count q) : IsPresent count (query q) :=
  h.made fun _ _ => rfl

end Members

namespace Predicate

variable {column : String} {negated : Bool}

theorem isPresent_comparison {operator : String} {v : Value} (h : IsPresent count v) :
    IsPresent count (comparison column operator v) :=
  h.made fun _ _ => rfl

theorem isPresent_member {members : Members} (h : IsPresent count members) :
    IsPresent count (member column members negated) :=
  h.made (c := (member column · negated)) fun _ _ => rfl

theorem isPresent_null (column : String) (negated : Bool) : IsPresent count (null column negated) :=
  fun _ _ _ => rfl

theorem isPresent_between {low high : Value} (hl : IsPresent count low) (hh : IsPresent count high) :
    IsPresent count (between column low high negated) :=
  fun f g same => congrArg₂ (between column · · negated) (hl f g same) (hh f g same)

theorem isPresent_nonempty {q : Query} (h : IsPresent count q) : IsPresent count (nonempty q negated) :=
  h.made (c := (nonempty · negated)) fun _ _ => rfl

theorem isPresent_raw {x : Fragment} (h : IsPresent count x) : IsPresent count (raw x) :=
  h.made fun _ _ => rfl

end Predicate

theorem Condition.isPresent_mk {connective : Connective} {p : Predicate} (h : IsPresent count p) :
    IsPresent count (Condition.mk connective p) :=
  h.made fun _ _ => rfl

theorem Condition.isPresent_all {conditions : List Condition} :
    IsPresent count conditions ↔ ∀ c ∈ conditions, IsPresent count c :=
  HasObjects.isPresent_all Condition.run_traverseAll

theorem Expression.isPresent_raw {x : Fragment} (h : IsPresent count x) :
    IsPresent count (Expression.raw x) :=
  h.made fun _ _ => rfl

theorem SelectItem.isPresent_mk {e : Expression} {label : Option String} (h : IsPresent count e) :
    IsPresent count (SelectItem.mk e label) :=
  h.made (c := (SelectItem.mk · label)) fun _ _ => rfl

theorem Source.isPresent_query {table label : Option String} {q : Query} (h : IsPresent count q) :
    IsPresent count (Source.mk table (some q) label) :=
  h.made (c := fun q => Source.mk table (some q) label) fun _ _ => rfl

theorem Source.isPresent_table (table label : Option String) : IsPresent count (Source.mk table none label) :=
  fun _ _ _ => rfl

theorem JoinTarget.isPresent_table (name : String) : IsPresent count (JoinTarget.table name) :=
  fun _ _ _ => rfl

theorem JoinTarget.isPresent_query {q : Query} (h : IsPresent count q) :
    IsPresent count (JoinTarget.query q) :=
  h.made fun _ _ => rfl

theorem Join.isPresent_mk {kind : JoinKind} {target : JoinTarget} {label : Option String}
    {on : Option Fragment} (ht : IsPresent count target) (ho : IsPresent count on) :
    IsPresent count (Join.mk kind target label on) :=
  fun f g same => congrArg₂ (Join.mk kind · label ·) (ht f g same) (ho f g same)

theorem CteBody.isPresent_query {q : Query} (h : IsPresent count q) : IsPresent count (CteBody.query q) :=
  h.made fun _ _ => rfl

theorem CteBody.isPresent_raw {x : Fragment} (h : IsPresent count x) : IsPresent count (CteBody.raw x) :=
  h.made fun _ _ => rfl

theorem Cte.isPresent_mk {name : String} {columns : Option (List String)} {body : CteBody}
    {isRecursive : Bool} (h : IsPresent count body) :
    IsPresent count (Cte.mk name columns body isRecursive) :=
  h.made (c := (Cte.mk name columns · isRecursive)) fun _ _ => rfl

theorem OrderItem.isPresent_mk {e : Expression} {direction : Option String} (h : IsPresent count e) :
    IsPresent count (OrderItem.mk e direction) :=
  h.made (c := (OrderItem.mk · direction)) fun _ _ => rfl

theorem SetOperation.isPresent_mk {operator : SetOperator} {q : Query} (h : IsPresent count q) :
    IsPresent count (SetOperation.mk operator q) :=
  h.made fun _ _ => rfl

namespace Schema

variable {v : Value}

theorem isPresent_fragment (h : IsPresent count v) {x : Fragment} (read : fragment v = .valid x) :
    IsPresent count x := by
  cases v with
  | fragment given =>
    obtain rfl := Checked.valid.inj read
    exact Value.isPresent_fragment.1 h
  | mapping entries =>
    obtain ⟨_, bindings, sql, given, rfl⟩ := Checked.of_seq_eq_valid (Checked.of_closed read)
    obtain ⟨sql, -, rfl⟩ := Checked.of_map_eq_valid sql
    rw [Fragment.isPresent_mk]
    rcases Checked.of_optional given with ⟨e, he, listed⟩ | rfl
    · have here := (Value.isPresent_entries.1 (Value.isPresent_mapping.1 h) e he).2
      unfold list at listed
      split at listed
      · cases listed
      · cases listed
      · cases listed
      · rename_i items found _ _
        rw [of_each_anything listed]
        exact Value.isPresent_all.2 (Value.isPresent_items here found)
    · exact Value.isPresent_all.2 (List.forall_mem_nil _)
  | scalar _ | list _ | tuple _ | query _ | part _ | bound _ | object _ => cases read

theorem isPresent_expression (h : IsPresent count v) {e : Expression} (read : expression v = .valid e) :
    IsPresent count e := by
  rcases Checked.of_either_eq_valid read with name | raw
  · obtain ⟨s, -, rfl⟩ := Checked.of_map_eq_valid (Checked.of_under_eq_valid name)
    exact Expression.isPresent_name s
  · obtain ⟨x, given, rfl⟩ := Checked.of_map_eq_valid (Checked.of_under_eq_valid raw)
    exact (isPresent_fragment h given).made fun f x => by
      rw [replace, walk]
      rfl

end Schema

end SqlComposition
