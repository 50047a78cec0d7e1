import SqlComposition.Proofs.Looks
import SqlComposition.Proofs.Mutations
import SqlComposition.Proofs.PlainData

/-!
One call made in two runs. In each of them other calls have been made on the builder before. An argument is
steady if it stands for the same in both, whatever those calls were: it is written alike, it is taken as a
query that looks alike, and so is what is read of it. A call with steady arguments makes changes that look
alike in the end.
-/

namespace SqlComposition
open SqlComposition.Action Store

/-- How two things look, each in a store of its own. -/
abbrev Likeness (α : Type) :=
  (Object → Object) → (Object → Object) → α → α → Prop

def Likeness.same {α : Type} : Likeness α :=
  fun _ _ a b => a = b

def Likeness.by {α β : Type} (look : (Object → Object) → α → β) : Likeness α :=
  fun f g a b => look f a = look g b

/-- What is made of two things looks the same if the things do. -/
theorem Likeness.made {α β α' β' : Type} {look : (Object → Object) → α → α'}
    {look' : (Object → Object) → β → β'} {make : α → β} {make' : α' → β'}
    (h : ∀ f a, look' f (make a) = make' (look f a)) {f g : Object → Object} {a b : α}
    (like : Likeness.by look f g a b) : Likeness.by look' f g (make a) (make b) :=
  (h f a).trans ((congrArg make' like).trans (h g b).symm)

/-- Seen from two stores, what holds in any later ones, where all is looked at from inside a builder. -/
def Eventually (number : Nat) (s t : Store) (R : (Object → Object) → (Object → Object) → Prop) : Prop :=
  ∀ s' t', ChangedAt number s s' → ChangedAt number t t' → R (s'.lookFrom number) (t'.lookFrom number)

/-- Two actions that come to things that are alike in the end, when they are run in stores that are later
than two stores. -/
def Action.Alike {α : Type} (setting : Setting) (number : Nat) (s t : Store) (R : Likeness α)
    (first second : Action α) : Prop :=
  ∀ ⦃before before' : Stage⦄ ⦃a a' : α⦄ ⦃after after' : Stage⦄, ChangedAt number s before.store →
    ChangedAt number t before'.store → first setting before = .ok a after →
    second setting before' = .ok a' after' → Eventually number after.store after'.store fun f g => R f g a a'

variable {setting : Setting} {number : Nat} {s t s' t' : Store}

namespace Eventually

variable {R R' : (Object → Object) → (Object → Object) → Prop}

theorem of_forall (h : ∀ f g, R f g) : Eventually number s t R :=
  fun _ _ _ _ => h _ _

theorem later (h : Eventually number s t R) (hs : ChangedAt number s s') (ht : ChangedAt number t t') :
    Eventually number s' t' R :=
  fun _ _ hs' ht' => h _ _ (hs.trans hs') (ht.trans ht')

theorem imp (h : Eventually number s t R) (hR : ∀ f g, R f g → R' f g) : Eventually number s t R' :=
  fun _ _ hs ht => hR _ _ (h _ _ hs ht)

theorem mp (h : Eventually number s t R) (h' : Eventually number s t fun f g => R f g → R' f g) :
    Eventually number s t R' :=
  fun _ _ hs ht => h' _ _ hs ht (h _ _ hs ht)

theorem of_const {P : Prop} (h : Eventually number s t fun _ _ => P) : P :=
  h s t (.refl _ _) (.refl _ _)

end Eventually

namespace Action.Alike

variable {α β : Type} {R : Likeness α} {R' : Likeness β}

theorem later {first second : Action α} (h : Alike setting number s t R first second)
    (hs : ChangedAt number s s') (ht : ChangedAt number t t') :
    Alike setting number s' t' R first second :=
  fun _ _ _ _ _ _ hb hb' => h (hs.trans hb) (ht.trans hb')

theorem pure {a a' : α} (h : Eventually number s t fun f g => R f g a a') :
    Alike setting number s t R (pure a) (pure a') := by
  intro before before' _ _ _ _ hb hb' run run'
  cases run
  cases run'
  exact h.later hb hb'

theorem throw (failure : Failure) (second : Action α) :
    Alike setting number s t R (throw failure) second := by
  intro _ _ _ _ _ _ _ _ run
  cases run

theorem map {first second : Action α} {f g : α → β} (h : Alike setting number s t R first second)
    (hf : ∀ x y a a', R x y a a' → R' x y (f a) (g a')) :
    Alike setting number s t R' (f <$> first) (g <$> second) := by
  intro _ _ _ _ _ _ hb hb' run run'
  obtain ⟨a, ran, rfl⟩ := of_run_map run
  obtain ⟨a', ran', rfl⟩ := of_run_map run'
  exact (h hb hb' ran ran').imp fun x y => hf x y a a'

/-- Work that only adds objects is done in both runs; what follows may make use of what it has come to. -/
theorem bind {work : Action α} {next next' : α → Action β} {gives : α → Prop}
    (adds : ∀ base, Adds setting base gives work) (h : Alike setting number s t R work work)
    (hn : ∀ s' t' a a', ChangedAt number s s' → ChangedAt number t t' →
      Eventually number s' t' (fun f g => R f g a a') →
      Alike setting number s' t' R' (next a) (next' a')) :
    Alike setting number s t R' (work >>= next) (work >>= next') := by
  intro before before' _ _ _ _ hb hb' run run'
  obtain ⟨a, middle, first, last⟩ := of_run_bind run
  obtain ⟨a', middle', first', last'⟩ := of_run_bind run'
  have grown := hb.trans (.of_grown (grown_of_run adds first).1)
  have grown' := hb'.trans (.of_grown (grown_of_run adds first').1)
  exact hn _ _ a a' grown grown' (h hb hb' first first') (.refl _ _) (.refl _ _) last last'

theorem bindSame {work : Action α} {next next' : α → Action β} {gives : α → Prop}
    (adds : ∀ base, Adds setting base gives work) (h : Alike setting number s t .same work work)
    (hn : ∀ s' t' a, ChangedAt number s s' → ChangedAt number t t' →
      Alike setting number s' t' R' (next a) (next' a)) :
    Alike setting number s t R' (work >>= next) (work >>= next') := by
  refine bind adds h fun s' t' a a' hs ht same => ?_
  obtain rfl : a = a' := Eventually.of_const same
  exact hn s' t' a hs ht

theorem read {result : Except Failure α} {next next' : α → Action β}
    (hn : ∀ a, result = .ok a → Alike setting number s t R' (next a) (next' a)) :
    Alike setting number s t R' (Action.ofExcept result >>= next) (Action.ofExcept result >>= next') := by
  cases result with
  | ok a => exact hn a rfl
  | error failure => exact throw failure _

theorem mapM {look : (Object → Object) → β → β} {items : List α} {work : α → Action β}
    {gives : β → Prop} (adds : ∀ a ∈ items, ∀ base, Adds setting base gives (work a))
    (h : ∀ a ∈ items, Alike setting number s t (.by look) (work a) (work a)) :
    Alike setting number s t (.by fun f => List.map (look f)) (items.mapM work) (items.mapM work) := by
  induction items generalizing s t with
  | nil =>
    rw [List.mapM_nil]
    exact pure (.of_forall fun _ _ => rfl)
  | cons a rest ih =>
    obtain ⟨addsFirst, addsRest⟩ := List.forall_mem_cons.1 adds
    obtain ⟨first, others⟩ := List.forall_mem_cons.1 h
    have addsLater : ∀ base, Adds setting base (fun _ => True) (rest.mapM work) :=
      fun base => .weaken (.mapM fun a ha => addsRest a ha base) fun _ _ => trivial
    rw [List.mapM_cons]
    refine bind addsFirst first fun s' t' b b' hs ht like => ?_
    refine bind addsLater (ih addsRest fun a ha => (others a ha).later hs ht)
      fun s'' t'' bs bs' hs' ht' likes => ?_
    exact pure ((like.later hs' ht').mp (likes.imp fun f g rest first => congrArg₂ List.cons first rest))

end Action.Alike

/-! ## Steady arguments -/

/-- A value that stands for the same in two runs. -/
structure Value.IsSteady (setting : Setting) (number : Nat) (s t : Store) (v : Value) : Prop where
  kept : Eventually number s t fun f g => v.mapObjects f = v.mapObjects g
  looks : ∀ s' t', ChangedAt number s s' → ChangedAt number t t' → s'.look v = t'.look v
  /-- Where it stands for a query, the query looks the same. -/
  query : Alike setting number s t (.by Query.mapObjects) (Action.query v) (Action.query v)
  /-- Where it is read as an expression, so does the expression. -/
  expression : ∀ e, Schema.expression v = .valid e →
    Eventually number s t fun f g => e.mapObjects f = e.mapObjects g

/-- An argument is steady with all its items. -/
structure Value.IsSteadyArgument (setting : Setting) (number : Nat) (s t : Store) (v : Value) : Prop
    extends v.IsSteady setting number s t where
  items : ∀ items, v.items? = some items → ∀ item ∈ items, item.IsSteady setting number s t

namespace Value

theorem IsSteady.later {v : Value} (h : v.IsSteady setting number s t) (hs : ChangedAt number s s')
    (ht : ChangedAt number t t') : v.IsSteady setting number s' t' :=
  ⟨h.kept.later hs ht, fun _ _ hs' ht' => h.looks _ _ (hs.trans hs') (ht.trans ht'), h.query.later hs ht,
    fun e he => (h.expression e he).later hs ht⟩

theorem IsSteady.text {v : Value} (h : v.IsSteady setting number s t) :
    Alike setting number s t .same (Action.write v) (Action.write v) := by
  have written (stage : Stage) : Action.write v setting stage =
      Action.ofExcept (stage.store.look v).write.outcome.1 setting
        { stage with log := stage.log ++ Emission.lines (stage.store.look v).write.outcome.2 } := rfl
  intro before before' a a' _ _ hb hb' run run'
  rw [written] at run run'
  obtain ⟨first, -⟩ := of_run_ofExcept run
  obtain ⟨second, -⟩ := of_run_ofExcept run'
  rw [h.looks _ _ hb hb'] at first
  exact .of_forall fun _ _ => Except.ok.inj (first.symm.trans second)

theorem IsSteadyArgument.later {v : Value} (h : v.IsSteadyArgument setting number s t)
    (hs : ChangedAt number s s') (ht : ChangedAt number t t') :
    v.IsSteadyArgument setting number s' t' :=
  ⟨h.toIsSteady.later hs ht, fun items hi item hm => (h.items items hi item hm).later hs ht⟩

end Value

def GivenSteady (setting : Setting) (number : Nat) (s t : Store) (given : Option Value) : Prop :=
  ∀ v, given = some v → v.IsSteadyArgument setting number s t

theorem GivenSteady.later {given : Option Value} (h : GivenSteady setting number s t given)
    (hs : ChangedAt number s s') (ht : ChangedAt number t t') : GivenSteady setting number s' t' given :=
  fun v hv => (h v hv).later hs ht

theorem GivenSteady.none : GivenSteady setting number s t .none :=
  fun _ given => by cases given

theorem GivenSteady.some {v : Value} (h : v.IsSteadyArgument setting number s t) :
    GivenSteady setting number s t (.some v) :=
  fun _ same => Option.some.inj same ▸ h

/-! ## Steady values -/

namespace Value

theorem expression_eventually {v : Value} (h : ∀ e, Schema.expression v = .valid e → e.IsSettled)
    (e : Expression) (read : Schema.expression v = .valid e) :
    Eventually number s t fun f g => e.mapObjects f = e.mapObjects g := by
  have settled (f : Object → Object) : e.mapObjects f = e := by
    rw [Expression.mapObjects, e.traverse_settled _ (h e read)]
    rfl
  exact .of_forall fun f g => (settled f).trans (settled g).symm

theorem IsSettled.isSteady {v : Value} (h : v.IsSettled) : v.IsSteady setting number s t where
  kept := .of_forall fun f g => (h.mapObjects f).trans (h.mapObjects g).symm
  looks := fun s' t' _ _ => (h.mapObjects _).trans (h.mapObjects _).symm
  query := by
    cases v with
    | object _ => rw [Value.IsSettled] at h; exact h.elim
    | _ => exact .throw _ _
  expression := expression_eventually fun _ => Schema.expression_of_data h

theorem IsSettled.isSteadyArgument {v : Value} (h : v.IsSettled) :
    v.IsSteadyArgument setting number s t :=
  ⟨h.isSteady, fun _ hi item hm => (h.items hi item hm).isSteady⟩

/-- A list is steady with its items, and so is a tuple. -/
theorem steadyArgument_items {make : List Value → Value} (hm : make = list ∨ make = tuple)
    {items : List Value} (h : ∀ v ∈ items, v.IsSteady setting number s t) :
    (make items).IsSteadyArgument setting number s t := by
  have mapped (f : Object → Object) : (make items).mapObjects f = make (items.map (·.mapObjects f)) := by
    obtain rfl | rfl := hm
    · exact mapObjects_list f items
    · exact mapObjects_tuple f items
  have trusted : (make items).IsTrusted := by
    obtain rfl | rfl := hm <;> trivial
  have same {f g : Object → Object} (h : ∀ v ∈ items, v.mapObjects f = v.mapObjects g) :
      (make items).mapObjects f = (make items).mapObjects g := by
    rw [mapped, mapped, List.map_congr_left h]
  refine ⟨⟨fun s' t' hs' ht' => same fun v hv => (h v hv).kept s' t' hs' ht',
    fun s' t' hs' ht' => same fun v hv => (h v hv).looks s' t' hs' ht', ?_,
    expression_eventually fun _ => Schema.expression_settled trusted⟩, fun others found => ?_⟩
  · obtain rfl | rfl := hm <;> exact .throw _ _
  · obtain rfl : items = others := by
      obtain rfl | rfl := hm <;> exact Option.some.inj found
    exact h

/-- Another builder is steady, as long as its query holds no object. -/
theorem steadyArgument_builder {other : Nat} {form : Rendition} {b : Builder} (ho : other ≠ number)
    (hs : s.builder? other = some b) (ht : t.builder? other = some b) (hb : b.query.IsSettled) :
    (Value.object ⟨other, .builder, form⟩).IsSteadyArgument setting number s t := by
  have still {s s' : Store} (hs : s.builder? other = some b) (later : ChangedAt number s s') :
      s'.builder? other = some b := by
    have same := later.same other (lt_length_of_builder? hs) ho
    rw [builder?_eq_of_content? same, hs]
  have looked {s' : Store} (hs : s'.builder? other = some b) :
      s'.lookFrom number ⟨other, .builder, form⟩ = ⟨other, .builder, b.query.rendition⟩ := by
    have there := lt_length_of_builder? hs
    obtain ⟨length, count⟩ := Nat.exists_eq_succ_of_ne_zero (Nat.ne_of_gt (Nat.zero_lt_of_lt there))
    have inside : s'.shownWithin s'.contents.length [number] other = some (.builder b) := by
      rw [count, shownWithin, if_neg (by simpa using ho), content?_of_builder? hs, Option.map_some,
        Content.shownBy, hb.mapObjects]
    change (⟨other, .builder, ((s'.shownWithin _ _ other).map Content.rendition).getD .endless⟩ : Object) = _
    rw [inside]
    rfl
  have shown {s' : Store} (hs : s'.builder? other = some b) :
      s'.look (.object ⟨other, .builder, form⟩) = .object ⟨other, .builder, b.query.rendition⟩ := by
    rw [look_object rfl, rendition, shown_builder hs hb]
    rfl
  have trusted : (Value.object ⟨other, .builder, form⟩).IsTrusted := trivial
  refine ⟨⟨fun s' t' hs' ht' => congrArg object ((looked (still hs hs')).trans (looked (still ht ht')).symm),
    fun s' t' hs' ht' => ?_, ?_, expression_eventually fun _ => Schema.expression_settled trusted⟩,
    fun _ items => by cases items⟩
  · rw [shown (still hs hs'), shown (still ht ht')]
  · intro before before' q q' _ _ hb' hb'' run run'
    obtain ⟨p, found, rfl, -⟩ := of_run_snapshot run
    obtain ⟨p', found', rfl, -⟩ := of_run_snapshot run'
    obtain rfl := Option.some.inj ((still hs hb').symm.trans found)
    obtain rfl := Option.some.inj ((still ht hb'').symm.trans found')
    rw [copyQuery_settled _ hb, copyQuery_settled _ hb]
    exact .of_forall fun f g => (hb.mapObjects f).trans (hb.mapObjects g).symm

/-- A function is steady if builders with one query come of all calls of it. -/
theorem steadyArgument_function {other : Nat} {form : Rendition} {f : Function} {q : Query}
    (ho : other ≠ number) (hs : s.function? other = some f) (ht : t.function? other = some f)
    (hq : q.IsSettled) (called : ∀ stage made after, setting.call f stage = .ok made after →
      ∃ dialect, after.store.builder? made = some ⟨dialect, q⟩) :
    (Value.object ⟨other, .function, form⟩).IsSteadyArgument setting number s t := by
  have still {s s' : Store} (hs : s.function? other = some f) (later : ChangedAt number s s') :
      s'.content? other = some (.function f) := by
    have there := content?_of_function? hs
    rw [later.same other (List.getElem?_eq_some_iff.1 there).1 ho, there]
  have queried {s : Store} (hs : s.function? other = some f) {before after : Stage} {p : Query}
      (later : ChangedAt number s before.store)
      (run : Action.query (.object ⟨other, .function, form⟩) setting before = .ok p after) : p = q := by
    have found : before.store.function? other = some f := by
      rw [function?, still hs later]
    have within : (MonadReader.read : Action Setting) setting before = .ok setting before := rfl
    rw [Action.query, run_bind (run_known found), run_bind within] at run
    obtain ⟨made, called', call, copied⟩ := of_run_bind run
    obtain ⟨dialect, there⟩ := called before made called' call
    obtain ⟨b, here, rfl, -⟩ := of_run_snapshot copied
    obtain rfl := Option.some.inj (there.symm.trans here)
    exact congrArg Prod.fst (copyQuery_settled _ hq)
  have unwritten (look : Nat → Option Content) :
      (Value.object ⟨other, .function, form⟩).mapObjects (·.shownBy look) =
        .object ⟨other, .function, form⟩ := by
    rw [Value.mapObjects_object]
    rfl
  have trusted : (Value.object ⟨other, .function, form⟩).IsTrusted := trivial
  refine ⟨⟨fun _ _ _ _ => (unwritten _).trans (unwritten _).symm,
    fun _ _ _ _ => (unwritten _).trans (unwritten _).symm, ?_,
    expression_eventually fun _ => Schema.expression_settled trusted⟩, fun _ items => by cases items⟩
  intro before before' p p' _ _ hb hb' run run'
  obtain rfl := queried hs hb run
  obtain rfl := queried ht hb' run'
  exact .of_forall fun f g => (hq.mapObjects f).trans (hq.mapObjects g).symm

end Value

end SqlComposition
