import SqlComposition.Proofs.Admission
import SqlComposition.Proofs.Keeping

/-!
Objects that stay apart. While sound calls are made, the contents of an object change only by a call of
that object, and no query of a builder and no condition of a statement comes to hold an object: a builder
that is given to a call is copied on the way, and the copy of a query without objects is the query itself.
-/

namespace SqlComposition

/-- No query and no condition in the contents holds an object, and a function makes sound calls. -/
def Content.IsSettled (resolve : String → Except Failure Value) : Content → Prop
  | builder b => b.query.IsSettled
  | statement s => Condition.AllSettled s.conditions
  | function f => f.IsSound resolve
  | factory _ | table _ | executor _ | dialect _ => True

def Content.isBuilder : Content → Bool
  | builder _ => true
  | statement _ | factory _ | table _ | executor _ | dialect _ | function _ => false

def Content.isFunction : Content → Bool
  | function _ => true
  | builder _ | statement _ | factory _ | table _ | executor _ | dialect _ => false

namespace Store

theorem content?_set (s : Store) (c : Content) {number : Nat} (h : number < s.contents.length) :
    (s.set number c).content? number = some c := by
  rw [content?, set, List.getElem?_set_self h]

/-- Seen from an earlier store, objects were only added, and the contents of the objects there were are
the same, except for those that are open to changes; these are still builders if they were. -/
structure IsApart (resolve : String → Except Failure Value) (base : Store) (isOpen : Nat → Prop)
    (s : Store) : Prop where
  grown : base.contents.length ≤ s.contents.length
  same : ∀ number < base.contents.length, ¬isOpen number → s.content? number = base.content? number
  builders : ∀ number < base.contents.length, (s.builder? number).isSome = (base.builder? number).isSome
  settled : ∀ number c, s.content? number = some c → c.IsSettled resolve

/-- An object that a call may change: one that is open, or that was not there before. -/
def MayChange (base : Store) (isOpen : Nat → Prop) (number : Nat) : Prop :=
  isOpen number ∨ base.contents.length ≤ number

theorem content?_of_builder? {s : Store} {number : Nat} {b : Builder} (h : s.builder? number = some b) :
    s.content? number = some (.builder b) := by
  rw [builder?] at h
  split at h
  · rename_i found
    rw [found, Option.some.inj h]
  · cases h

theorem lt_length_of_builder? {s : Store} {number : Nat} {b : Builder} (h : s.builder? number = some b) :
    number < s.contents.length :=
  (List.getElem?_eq_some_iff.1 (content?_of_builder? h)).1

theorem builder?_set {s : Store} {number : Nat} {b : Builder} (h : s.builder? number = some b)
    (c : Builder) : (s.set number (.builder c)).builder? number = some c := by
  rw [builder?, content?_set _ _ (lt_length_of_builder? h)]

theorem content?_of_statement? {s : Store} {number : Nat} {x : Statement}
    (h : s.statement? number = some x) : s.content? number = some (.statement x) := by
  rw [statement?] at h
  split at h
  · rename_i found
    rw [found, Option.some.inj h]
  · cases h

theorem content?_of_function? {s : Store} {number : Nat} {f : Function}
    (h : s.function? number = some f) : s.content? number = some (.function f) := by
  rw [function?] at h
  split at h
  · rename_i found
    rw [found, Option.some.inj h]
  · cases h

theorem builder?_eq_of_content? {s t : Store} {number : Nat} (h : s.content? number = t.content? number) :
    s.builder? number = t.builder? number := by
  rw [builder?, builder?, h]

/-- Where there is nothing to copy, the copy of a query is the query. -/
theorem copyQuery_settled (s : Store) {q : Query} (h : q.IsSettled) : s.copyQuery q = (q, s) := by
  have same : s.renumberQuery [] q = (q, []) := by
    rw [renumberQuery, q.traverse_settled _ h]
    rfl
  have none : s.copyContents s.contents.length [] [] = [] := by
    cases s.contents.length <;> rfl
  rw [copyQuery, same]
  simp only [withCopies, none, List.append_nil]

theorem copyBuilder_settled (s : Store) (number : Nat) {b : Builder} (h : b.query.IsSettled) :
    s.copyBuilder number b = s.add (.builder b) := by
  have same : s.renumberQuery [number] b.query = (b.query, [number]) := by
    rw [renumberQuery, b.query.traverse_settled _ h]
    rfl
  have none (copy : Content) : s.copyContents s.contents.length [number] [copy] = [copy] := by
    cases s.contents.length <;> rfl
  rw [copyBuilder, same]
  simp only [withCopies, none, add]

namespace IsApart

variable {resolve : String → Except Failure Value} {base s : Store} {isOpen : Nat → Prop}

theorem refl (h : ∀ number c, base.content? number = some c → c.IsSettled resolve) :
    IsApart resolve base isOpen base :=
  ⟨Nat.le_refl _, fun _ _ _ => rfl, fun _ _ => rfl, h⟩

theorem add (h : IsApart resolve base isOpen s) {c : Content} (hc : c.IsSettled resolve) :
    IsApart resolve base isOpen (s.add c) where
  grown := by simpa [Store.add] using Nat.le_succ_of_le h.grown
  same := fun number hn hf => by
    rw [content?_add_of_lt s c (Nat.lt_of_lt_of_le hn h.grown), h.same number hn hf]
  builders := fun number hn => by
    rw [builder?_eq_of_content? (content?_add_of_lt s c (Nat.lt_of_lt_of_le hn h.grown)),
      h.builders number hn]
  settled := fun number d hd => by
    rcases Nat.lt_trichotomy number s.contents.length with before | rfl | after
    · rw [content?_add_of_lt s c before] at hd
      exact h.settled number d hd
    · rw [content?_add, Option.some.injEq] at hd
      exact hd ▸ hc
    · rw [content?, Store.add, List.getElem?_eq_none (by simpa using Nat.succ_le_of_lt after)] at hd
      cases hd

theorem set (h : IsApart resolve base isOpen s) {number : Nat} (hn : MayChange base isOpen number)
    {c : Content} (hb : number < base.contents.length → (base.builder? number).isSome = c.isBuilder)
    (hc : c.IsSettled resolve) : IsApart resolve base isOpen (s.set number c) where
  grown := by simpa [Store.set] using h.grown
  same := fun other ho hf => by
    have different : number ≠ other := by
      rintro rfl
      exact hn.elim hf (Nat.not_le.2 ho)
    rw [content?_set_of_ne s c different, h.same other ho hf]
  builders := fun other ho => by
    by_cases different : number = other
    · subst different
      have there := content?_set s c (Nat.lt_of_lt_of_le ho h.grown)
      rw [hb ho, builder?, there]
      cases c <;> rfl
    · rw [builder?_eq_of_content? (content?_set_of_ne s c different), h.builders other ho]
  settled := fun other d hd => by
    by_cases different : number = other
    · subst different
      have some := (List.getElem?_eq_some_iff.1 hd).1
      rw [content?_set s c (by simpa [Store.set] using some), Option.some.injEq] at hd
      exact hd ▸ hc
    · rw [content?_set_of_ne s c different] at hd
      exact h.settled other d hd

theorem mark (h : IsApart resolve base isOpen s) :
    IsApart resolve base isOpen { s with marks := s.marks + 1 } :=
  ⟨h.grown, h.same, h.builders, h.settled⟩

theorem builder (h : IsApart resolve base isOpen s) {number : Nat} {b : Builder}
    (hb : s.builder? number = some b) : b.query.IsSettled :=
  h.settled number _ (content?_of_builder? hb)

end IsApart

end Store

open SqlComposition.Action Store

section Actions

variable {setting : Setting} {resolve : String → Except Failure Value} {base : Store}
  {isOpen : Nat → Prop}

namespace Action.Keeps

theorem add {c : Content} (hc : c.IsSettled resolve) :
    Keeps setting (IsApart resolve base isOpen) (base.contents.length ≤ ·) (Action.add c) :=
  bind store fun _ hs => bind (update fun _ h => h.add hc) fun _ _ => pure hs.grown

theorem make {c : Content} (kind : ObjectKind) (hc : c.IsSettled resolve) :
    Keeps setting (IsApart resolve base isOpen) (fun v => ∃ number, v = .object ⟨number, kind, .endless⟩)
      (Action.make kind c) :=
  bind (add hc) fun number _ => pure ⟨number, rfl⟩

theorem makeDialect (d : Dialect) :
    Keeps setting (IsApart resolve base isOpen)
      (fun v => ∃ number, v = .object ⟨number, .dialect d, .endless⟩) (Action.makeDialect d) :=
  make _ trivial

theorem mark : Keeps setting (IsApart resolve base isOpen) (fun _ => True) Action.mark :=
  bind store fun _ _ => bind (update fun _ h => h.mark) fun _ _ => pure trivial

theorem builder (number : Nat) :
    Keeps setting (IsApart resolve base isOpen) (fun b : Builder => b.query.IsSettled)
      (Action.known Store.builder? number) :=
  known fun _ _ h hb => h.builder hb

theorem snapshot (number : Nat) :
    Keeps setting (IsApart resolve base isOpen) Query.IsSettled (Action.snapshot number) := by
  refine bind (builder number) fun b hb => bind store fun s hs => ?_
  rw [copyQuery_settled s hb]
  exact bind (update fun _ _ => hs) fun _ _ => pure hb

theorem clone (number : Nat) :
    Keeps setting (IsApart resolve base isOpen) (base.contents.length ≤ ·) (Action.clone number) := by
  refine bind (builder number) fun b hb => bind store fun s hs => bind (update fun t ht => ?_) fun _ _ =>
    pure hs.grown
  rw [copyBuilder_settled t number hb]
  exact ht.add hb

theorem newBuilder (dialect : Value) :
    Keeps setting (IsApart resolve base isOpen) (base.contents.length ≤ ·)
      (Action.newBuilder dialect .empty) :=
  add Query.settled_empty

theorem chooseDialect (v : Value) :
    Keeps setting (IsApart resolve base isOpen) (fun _ => True) (Action.chooseDialect v) := by
  have create (name : String) : Keeps setting (IsApart resolve base isOpen) (fun _ => True)
      (do Action.makeDialect (← Action.ofExcept ((← MonadReader.read).registry.create name))) :=
    bind read fun _ _ => bind (anyOf _) fun d _ => weaken (makeDialect d) fun _ _ => trivial
  unfold Action.chooseDialect
  split
  · exact create _
  · exact create _
  · exact pure trivial

theorem operand {v : Value} (h : v.IsOperand) :
    Keeps setting (IsApart resolve base isOpen) Value.IsSettled (Action.operand v) := by
  unfold Action.operand
  split
  · rename_i number _
    exact map (snapshot number) fun q hq => by rwa [Value.IsSettled]
  · rename_i other
    cases v with
    | scalar s => exact pure (by rw [Value.IsSettled]; trivial)
    | fragment f => exact pure (by rwa [Value.IsSettled])
    | object o =>
      obtain ⟨number, kind, form⟩ := o
      obtain rfl : kind = .builder := h
      exact absurd rfl (other number form)
    | list _ | tuple _ | mapping _ | query _ | part _ | bound _ => exact h.elim

end Action.Keeps

end Actions

end SqlComposition
