import SqlComposition.Proofs.Readings

/-!
Data without objects. All that one meets when going through such data is of the same sort, and so is a
fragment that is read of it.
-/

namespace SqlComposition

/-! ## What there is in data -/

namespace Value

theorem settled_scalar (x : Scalar) : (scalar x).IsSettled := by
  rw [IsSettled]
  trivial

theorem settled_list {items : List Value} (h : ∀ v ∈ items, v.IsSettled) : (list items).IsSettled := by
  rwa [IsSettled, allSettled_iff]

theorem settled_ofOption {α : Type} {make : α → Value} {a : Option α}
    (h : ∀ x, a = some x → (make x).IsSettled) : (ofOption make a).IsSettled := by
  cases a with
  | none => exact settled_scalar .null
  | some x => exact h x rfl

theorem settled_ofConditions {conditions : List Condition} (h : ∀ c ∈ conditions, c.IsSettled) :
    (ofConditions conditions).IsSettled :=
  settled_list <| List.forall_mem_map.2 fun c hc => by
    rw [IsSettled, Part.IsSettled]
    exact h c hc

theorem settled_ofExpression {e : Expression} (h : e.IsSettled) : (ofExpression e).IsSettled := by
  cases e with
  | name s => exact settled_scalar _
  | raw f => rwa [Expression.IsSettled] at h

theorem items?_of_items {v : Value} {items : List Value} (h : v.items = .ok items) :
    v.items? = some items := by
  unfold Value.items at h
  split at h
  · rename_i found
    rw [found, Except.ok.inj h]
  · cases h

end Value

theorem Fragment.IsSettled.fields {f : Fragment} (h : f.IsSettled) : ∀ e ∈ f.fields, e.2.IsSettled := by
  obtain ⟨sql, bindings⟩ := f
  rw [Fragment.IsSettled, Value.allSettled_iff] at h
  simp only [Fragment.fields, List.forall_mem_cons]
  exact ⟨Value.settled_scalar _, Value.settled_list h, List.forall_mem_nil _⟩

theorem Query.IsSettled.fields {q : Query} (h : q.IsSettled) : ∀ e ∈ q.fields, e.2.IsSettled := by
  have part {α : Type} {make : α → Part} {parts : List α} (h : ∀ a ∈ parts, (make a).IsSettled) :
      (Value.list (parts.map fun a => .part (make a))).IsSettled :=
    Value.settled_list <| List.forall_mem_map.2 fun a ha => by
      rw [Value.IsSettled]
      exact h a ha
  have given {v : Option Value} (h : Value.OptionSettled v) : (Value.ofOption id v).IsSettled :=
    Value.settled_ofOption fun v hv => by
      subst hv
      rwa [Value.OptionSettled] at h
  have clauses := Query.isSettled_iff.1 h
  simp only [Query.fields, List.forall_mem_cons]
  refine ⟨part fun c hc => ?_, Value.settled_scalar _, part fun item hi => ?_,
    Value.settled_ofOption fun s hs => ?_, part fun j hj => ?_, Value.settled_ofConditions clauses.conditions,
    Value.settled_list (List.forall_mem_map.2 fun e he => Value.settled_ofExpression (clauses.grouping e he)),
    Value.settled_ofConditions clauses.having, part fun s hs => ?_, part fun item hi => ?_,
    given clauses.limit, given clauses.offset, List.forall_mem_nil _⟩
  · rw [Part.IsSettled]
    exact clauses.ctes c hc
  · rw [Part.IsSettled]
    exact clauses.selection item hi
  · have source := clauses.source
    rw [hs, Source.OptionSettled] at source
    rwa [Value.IsSettled, Part.IsSettled]
  · rw [Part.IsSettled]
    exact clauses.joins j hj
  · rw [Part.IsSettled]
    exact clauses.setOperations s hs
  · rw [Part.IsSettled]
    exact clauses.ordering item hi

/-- What one meets when going through data without objects are data without objects. -/
theorem Value.IsSettled.items {v : Value} (h : v.IsSettled) {items : List Value}
    (hi : v.items? = some items) : ∀ item ∈ items, item.IsSettled := by
  have fields {entries : List (String × Value)} (h : ∀ e ∈ entries, e.2.IsSettled) :
      ∀ item ∈ fieldItems entries, item.IsSettled :=
    List.forall_mem_map.2 fun e he => by
      rw [IsSettled, allSettled_iff]
      simpa using ⟨settled_scalar _, h e he⟩
  cases v with
  | scalar x =>
    cases x with
    | text _ | bytes _ =>
      obtain rfl := Option.some.inj hi
      exact List.forall_mem_map.2 fun _ _ => settled_scalar _
    | _ => cases hi
  | list _ | tuple _ =>
    obtain rfl := Option.some.inj hi
    rwa [IsSettled, allSettled_iff] at h
  | mapping entries =>
    obtain rfl := Option.some.inj hi
    rw [IsSettled, entriesSettled_iff] at h
    exact List.forall_mem_map.2 fun e he => (h e he).1
  | fragment f =>
    obtain rfl := Option.some.inj hi
    rw [IsSettled] at h
    exact fields h.fields
  | query q =>
    obtain rfl := Option.some.inj hi
    rw [IsSettled] at h
    exact fields h.fields
  | part _ | bound _ | object _ => cases hi

/-! ## Records read of data -/

namespace Checked

variable {α : Type} {entries : Schema.Entries} {name : String} {a : α}

theorem of_optional {read : Value → Checked α} {absent : α}
    (h : Schema.optional read absent entries name = valid a) :
    (∃ e ∈ entries, read e.2 = valid a) ∨ absent = a := by
  unfold Schema.optional at h
  split at h
  · rename_i v found
    obtain ⟨e, he, rfl⟩ := Option.map_eq_some_iff.1 found
    exact .inl ⟨e, List.mem_of_find?_eq_some he, of_under_eq_valid h⟩
  · exact .inr (valid.inj h)

theorem of_closed {names : List String} {fields : Checked α}
    (h : Schema.closed names entries fields = valid a) : fields = valid a := by
  unfold Schema.closed at h
  split at h
  · exact h
  · obtain ⟨_, _, -, no, -⟩ := of_seq_eq_valid h
    cases no

end Checked

theorem Schema.of_each_anything {index : Nat} {items values : List Value}
    (h : each anything index items = .valid values) : values = items := by
  induction items generalizing index values with
  | nil => exact (Checked.valid.inj h).symm
  | cons a rest ih =>
    obtain ⟨_, others, first, later, rfl⟩ := Checked.of_seq_eq_valid h
    obtain ⟨_, read, rfl⟩ := Checked.of_map_eq_valid first
    obtain rfl := Checked.valid.inj (Checked.of_under_eq_valid read)
    rw [ih later]

/-- A fragment that is read of data without objects holds none. -/
theorem Schema.fragment_of_data {v : Value} (hv : v.IsSettled) {f : Fragment}
    (h : fragment v = .valid f) : f.IsSettled := by
  cases v with
  | fragment given =>
    obtain rfl := Checked.valid.inj h
    rwa [Value.IsSettled] at hv
  | mapping entries =>
    obtain ⟨_, bindings, sql, read, rfl⟩ := Checked.of_seq_eq_valid (Checked.of_closed h)
    obtain ⟨sql, -, rfl⟩ := Checked.of_map_eq_valid sql
    rw [Fragment.IsSettled]
    rcases Checked.of_optional read with ⟨e, he, read⟩ | rfl
    · rw [Value.IsSettled, Value.entriesSettled_iff] at hv
      unfold list at read
      split at read
      · cases read
      · cases read
      · cases read
      · rename_i items found _ _
        rw [of_each_anything read]
        exact Value.allSettled_iff.2 ((hv e he).2.items found)
    · rw [Value.AllSettled]
      trivial
  | scalar _ | list _ | tuple _ | query _ | part _ | bound _ | object _ => cases h

theorem Schema.expression_of_data {v : Value} (hv : v.IsSettled) {e : Expression}
    (h : expression v = .valid e) : e.IsSettled :=
  expression_of_fragment (fun _ read => fragment_of_data hv read) h

end SqlComposition
