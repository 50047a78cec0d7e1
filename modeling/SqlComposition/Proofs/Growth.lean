import Mathlib.Data.List.Perm.Subperm
import SqlComposition.Proofs.Mutations

/-!
Objects that nothing holds. Where all that is held is there, an object is written with what there is, and
objects that are added later are not met in writing it.
-/

namespace SqlComposition
open Store

/-- Contents that are written with the objects below a number, and with no others. -/
def Content.IsWithin (count : Nat) (c : Content) : Prop :=
  ∀ inside others : Nat → Option Content, (∀ number < count, inside number = others number) →
    c.shownBy inside = c.shownBy others

/-- Every object that is held in a store is there. -/
def Store.IsClosed (s : Store) : Prop :=
  ∀ number c, s.content? number = some c → c.IsWithin s.contents.length

/-- No object is held by the contents. -/
def Content.HoldsNone : Content → Prop
  | builder b => b.query.IsSettled
  | statement x => x.IsSettled
  | factory _ | table _ | executor _ | dialect _ | function _ => True

theorem Content.HoldsNone.shownBy {c : Content} (h : c.HoldsNone) (inside : Nat → Option Content) :
    c.shownBy inside = c := by
  cases c with
  | builder b =>
    replace h : b.query.IsSettled := h
    rw [Content.shownBy, h.mapObjects]
  | statement x =>
    replace h : x.IsSettled := h
    rw [Content.shownBy, h.mapData fun v hv => hv.cellBy inside]
  | factory _ | table _ | executor _ | dialect _ | function _ => rfl

theorem Store.isClosed_of_holdsNone {s : Store} (h : ∀ c ∈ s.contents, c.HoldsNone) : s.IsClosed := by
  intro number c found inside others _
  have none := h c (List.mem_of_getElem? found)
  rw [none.shownBy, none.shownBy]

/-- Some objects that are there and are written with each other, and with no others. -/
structure Store.IsSelfContained (s : Store) (P : Nat → Prop) : Prop where
  known : ∀ number, P number → number < s.contents.length
  holds : ∀ number, P number → ∀ c, s.content? number = some c →
    ∀ inside others : Nat → Option Content, (∀ k, P k → inside k = others k) →
      c.shownBy inside = c.shownBy others

/-- If all that is held is there, the objects that are there are such. -/
theorem Store.IsClosed.isSelfContained {s : Store} (h : s.IsClosed) :
    s.IsSelfContained (· < s.contents.length) :=
  ⟨fun _ hn => hn, fun number _ c found => h number c found⟩

namespace Store

variable {s t : Store} {number : Nat}

theorem length_path_le {path : List Nat} {count : Nat} (nodup : path.Nodup)
    (known : ∀ k ∈ path, k < count) : path.length ≤ count := by
  simpa using (nodup.subperm fun k hk => List.mem_range.2 (known k hk)).length_le

/-- Where such objects have the same contents, apart from those on the path, they are shown the same. By
induction on the depth: the path has no number twice, so it is never longer than there are objects, and
neither depth is used up. -/
theorem shownWithin_same {P : Nat → Prop} (own : s.IsSelfContained P) {path : List Nat}
    (same : ∀ k, P k → k ∉ path → t.content? k = s.content? k) {depth deeper : Nat} (nodup : path.Nodup)
    (known : ∀ k ∈ path, P k) (hn : P number) (hd : s.contents.length < depth + path.length)
    (hd' : s.contents.length < deeper + path.length) :
    t.shownWithin deeper path number = s.shownWithin depth path number := by
  induction depth generalizing deeper path number with
  | zero => exact absurd (length_path_le nodup fun k hk => own.known k (known k hk)) (by omega)
  | succ depth ih =>
    have short := length_path_le nodup fun k hk => own.known k (known k hk)
    obtain ⟨deeper, rfl⟩ : ∃ d, deeper = d + 1 := Nat.exists_eq_succ_of_ne_zero (by omega)
    rw [shownWithin, shownWithin]
    by_cases met : number ∈ path
    · rw [if_pos (by simpa using met), if_pos (by simpa using met)]
    · rw [if_neg (by simpa using met), if_neg (by simpa using met), same number hn met]
      cases found : s.content? number with
      | none => rfl
      | some c =>
        have fresh : (number :: path).Nodup := List.nodup_cons.2 ⟨met, nodup⟩
        have known : ∀ k ∈ number :: path, P k := List.forall_mem_cons.2 ⟨hn, known⟩
        refine congrArg some (own.holds number hn c found _ _ fun k hk => ?_)
        exact ih (fun k hk away => same k hk fun on => away (List.mem_cons_of_mem _ on)) fresh known hk
          (by simp only [List.length_cons]; omega) (by simp only [List.length_cons]; omega)

/-- Objects that are added change nothing of what is written of such objects. -/
theorem IsSelfContained.shown_grown {P : Nat → Prop} (own : s.IsSelfContained P) (grown : s.Grown t)
    (hn : P number) : t.shown number = s.shown number :=
  shownWithin_same own (fun k hk _ => grown.content?_eq (own.known k hk)) .nil (List.forall_mem_nil _) hn
    (Nat.lt_succ_self _) (Nat.lt_succ_of_le grown.length_le)

theorem shown_grown (closed : s.IsClosed) (grown : s.Grown t) (hn : number < s.contents.length) :
    t.shown number = s.shown number :=
  closed.isSelfContained.shown_grown grown hn

/-- So the forms of a builder stay the same. -/
theorem outcome_grown (closed : s.IsClosed) (grown : s.Grown t) {b : Builder}
    (hb : s.builder? number = some b) (w : Session.World) {r : Reading}
    (hr : r = .text ∨ r = .bound ∨ r = .values) :
    { w with store := t }.outcome (r.perform number) = { w with store := s }.outcome (r.perform number) := by
  have before := shown_of_builder? hb
  have after := (shown_grown closed grown (lt_length_of_builder? hb)).trans before
  exact Session.World.outcome_of_shown (w := { w with store := s }) before after hr

end Store

end SqlComposition
