import SqlComposition.Proofs.Edits

/-!
Evaluating sound terms keeps objects apart. The calls in a term are made on new objects only, so nothing
that was there before is changed, and what a term comes to is of its kind. Functions may call functions;
they are followed call by call, to the greatest depth.
-/

namespace SqlComposition
open SqlComposition.Action Store

variable {setting : Setting} {resolve : String → Except Failure Value} {base : Store}
  {isOpen : Nat → Prop}

namespace Reading

theorem boundForm_keeps (number : Nat) :
    Keeps setting (IsApart resolve base isOpen) (fun _ => True) (boundForm number) :=
  .bind (.shownBuilder number) fun _ _ => .bind (.logSourceless _) fun _ _ => .anyOf _

theorem perform_keeps (number : Nat) (r : Reading) :
    Keeps setting (IsApart resolve base isOpen) (fun _ => True) (r.perform number) := by
  cases r with
  | text => exact .map (.write _) fun _ _ => trivial
  | bound => exact .map (boundForm_keeps number) fun _ _ => trivial
  | values => exact .bind (boundForm_keeps number) fun _ _ => .pure trivial
  | query => exact .map (.snapshot number) fun _ _ => trivial
  | copy => exact .map (.clone number) fun _ _ => trivial

theorem call_keeps (number : Nat) (name : String) (arguments : List Value) :
    Keeps setting (IsApart resolve base isOpen) (fun _ => True) (call number name arguments) := by
  unfold call
  split
  · split
    · exact perform_keeps number _
    · exact .throw _
  · split
    · exact .bind (.builder number) fun _ _ => .throw _
    · exact .throw _

end Reading

theorem Action.callBuilder_keeps (hs : setting.KeepsApart resolve) {number : Nat}
    (hn : MayChange base isOpen number) {name : String} {arguments : List Value}
    (h : Call.Admits name arguments) :
    Keeps setting (IsApart resolve base isOpen) (fun _ => True)
      (Action.callBuilder number name arguments) := by
  unfold Action.callBuilder
  split
  · rename_i m named
    exact Edit.apply_keeps hn (m.edit_safe hs name (h m named))
  · exact .discard (Reading.call_keeps number name arguments)

theorem Action.checkName_keeps (name : String) :
    Keeps setting (IsApart resolve base isOpen) (fun _ => True) (Action.checkName name) := by
  unfold Action.checkName
  split
  · exact .pure trivial
  · exact .throw _

mutual

theorem Term.eval_keeps (hs : setting.KeepsApart resolve) : (t : Term) → t.IsSound resolve →
    Keeps setting (IsApart resolve base isOpen) (t.Yields resolve) t.eval
  | .scalar s, _ => by
    rw [Term.eval]
    split
    · exact .bind .mark fun mark _ => .pure (by rw [Term.Yields]; exact .inr ⟨mark, rfl⟩)
    · exact .pure (by rw [Term.Yields]; exact .inl rfl)
  | .unreadable failure, _ => by
    rw [Term.eval]
    exact .throw failure
  | .list items, h => by
    rw [Term.IsSound] at h
    rw [Term.eval]
    exact .map (Term.evalAll_keeps hs items h) fun values hv => by
      rw [Term.Yields]
      exact ⟨values, rfl, hv⟩
  | .tuple items, h => by
    rw [Term.IsSound] at h
    rw [Term.eval]
    exact .map (Term.evalAll_keeps hs items h) fun values hv => by
      rw [Term.Yields]
      exact ⟨values, rfl, hv⟩
  | .mapping entries, h => by
    rw [Term.IsSound] at h
    rw [Term.eval]
    exact .map (Term.evalEntries_keeps hs [] entries h) fun made _ => by
      rw [Term.Yields]
      exact ⟨made, rfl⟩
  | .fragment sql bindings, h => by
    rw [Term.IsSound] at h
    obtain ⟨sound, given, trusted, meant⟩ := h
    rw [Term.eval]
    refine .bind (sql.eval_keeps hs sound) fun v hv => .bind (Term.evalOption_keeps hs bindings given)
      fun w hw => .bind (.fragment (trusted v hv) fun b hb => ?_) fun f hf => .pure (by
        rw [Term.Yields]
        exact ⟨f, rfl, hf⟩)
    obtain ⟨t, ht, yields⟩ := hw b hb
    exact meant t ht b yields
  | .builder dialect calls, h => by
    rw [Term.IsSound] at h
    rw [Term.eval]
    exact .bind (Term.evalOption_keeps hs dialect h.1) fun d _ => .bind (.chooseDialect _) fun chosen _ =>
      .bind (.newBuilder chosen) fun number hn => .bind (Call.runAll_keeps hs (.inr hn) calls h.2)
        fun _ _ => .pure (by
          rw [Term.Yields]
          exact ⟨number, rfl⟩)
  | .query calls, h => by
    rw [Term.IsSound] at h
    rw [Term.eval]
    exact .bind (.chooseDialect _) fun chosen _ => .bind (.newBuilder chosen) fun number hn =>
      .bind (Call.runAll_keeps hs (.inr hn) calls h) fun _ _ => .bind (.snapshot number) fun q hq =>
        .pure (by
          rw [Term.Yields]
          exact ⟨q, rfl, hq⟩)
  | .function calls returned, h => by
    rw [Term.IsSound] at h
    rw [Term.eval]
    exact .weaken (.make .function h) fun v hv => by
      rw [Term.Yields]
      exact hv
  | .dialect name template, _ => by
    rw [Term.eval]
    exact .weaken (.makeDialect _) fun v hv => by
      rw [Term.Yields]
      exact hv
  | .variable name, _ => by
    rw [Term.eval]
    refine .bind .read ?_
    rintro _ rfl
    exact .ofExcept fun v hv => by
      rw [Term.Yields, ← hs.resolved]
      exact hv

theorem Term.evalOption_keeps (hs : setting.KeepsApart resolve) : (t : Option Term) →
    Term.OptionSound resolve t →
    Keeps setting (IsApart resolve base isOpen)
      (fun v => ∀ w, v = some w → ∃ u, t = some u ∧ u.Yields resolve w) (Term.evalOption t)
  | none, _ => by
    rw [Term.evalOption]
    exact .pure nofun
  | some t, h => by
    rw [Term.OptionSound] at h
    rw [Term.evalOption]
    exact .map (t.eval_keeps hs h) fun v hv w hw => ⟨t, rfl, Option.some.inj hw ▸ hv⟩

theorem Term.evalAll_keeps (hs : setting.KeepsApart resolve) : (terms : List Term) →
    Term.AllSound resolve terms →
    Keeps setting (IsApart resolve base isOpen) (Term.AllYield resolve terms) (Term.evalAll terms)
  | [], _ => by
    rw [Term.evalAll]
    exact .pure (by rw [Term.AllYield])
  | t :: rest, h => by
    rw [Term.AllSound] at h
    rw [Term.evalAll]
    exact .bind (t.eval_keeps hs h.1) fun v hv => .bind (Term.evalAll_keeps hs rest h.2)
      fun others ho => .pure (by
        rw [Term.AllYield]
        exact ⟨v, others, rfl, hv, ho⟩)

theorem Term.evalEntries_keeps (hs : setting.KeepsApart resolve) (made : List (Value × Value)) :
    (entries : List (Term × Term)) → Term.EntriesSound resolve entries →
    Keeps setting (IsApart resolve base isOpen) (fun _ => True) (Term.evalEntries made entries)
  | [], _ => by
    rw [Term.evalEntries]
    exact .pure trivial
  | (key, content) :: rest, h => by
    rw [Term.EntriesSound] at h
    rw [Term.evalEntries]
    exact .bind (key.eval_keeps hs h.1) fun _ _ => .bind (content.eval_keeps hs h.2.1) fun _ _ =>
      .bind (.anyOf _) fun more _ => Term.evalEntries_keeps hs more rest h.2.2

theorem Call.run_keeps (hs : setting.KeepsApart resolve) {number : Nat}
    (hn : MayChange base isOpen number) : (c : Call) → c.IsSound resolve →
    Keeps setting (IsApart resolve base isOpen) (fun _ => True) (c.run number)
  | .mk name arguments, h => by
    rw [Call.IsSound] at h
    rw [Call.run]
    exact .bind (Action.checkName_keeps name) fun _ _ => .bind (Term.evalAll_keeps hs arguments h.1)
      fun values hv => Action.callBuilder_keeps hs hn (h.2 values hv)

theorem Call.runAll_keeps (hs : setting.KeepsApart resolve) {number : Nat}
    (hn : MayChange base isOpen number) : (calls : List Call) → Call.AllSound resolve calls →
    Keeps setting (IsApart resolve base isOpen) (fun _ => True) (Call.runAll number calls)
  | [], _ => by
    rw [Call.runAll]
    exact .pure trivial
  | c :: rest, h => by
    rw [Call.AllSound] at h
    rw [Call.runAll]
    exact .bind (c.run_keeps hs hn h.1) fun _ _ => Call.runAll_keeps hs hn rest h.2

end

theorem Function.run_keeps (hs : setting.KeepsApart resolve) {f : Function} (h : f.IsSound resolve) :
    Keeps setting (IsApart resolve base isOpen) (fun _ => True) f.run := by
  refine .bind (.chooseDialect _) fun chosen _ => .bind (.newBuilder chosen) fun fresh hn =>
    .bind (Call.runAll_keeps hs (.inr hn) f.calls h.1) fun _ _ =>
      .bind (Term.evalOption_keeps hs f.returned h.2) fun v _ => ?_
  split <;> exact .pure trivial

namespace Scope

/-- By induction on how deep functions may call functions. -/
theorem settingWithin_keepsApart (scope : Scope) (depth : Nat) :
    (scope.settingWithin depth).KeepsApart scope.resolve := by
  induction depth with
  | zero => exact ⟨rfl, fun _ _ _ _ => .throw .endless⟩
  | succ depth ih =>
    refine ⟨rfl, fun base isOpen f hf => ⟨fun stage hp => ?_⟩⟩
    exact (Function.run_keeps ih hf).outcome stage hp

end Scope

end SqlComposition
