/-
The fault a computation ends in.

Computations stop at their first fault. Where the fault of a step does not hang on what earlier steps gave, the fault of
the whole is that of the first step that has one.

- `fault?`: the fault a computation ends in, if it ends in one.
- `findSome?_eq_some_iff_first`: the first element that gives something.
- `fault?_bind`, `fault?_mapM`, `fault?_forM`, `fault?_foldlM`: the first fault of steps one after the other.
-/
import ErlangRecords.SchemaFault

namespace ErlangRecords

variable {ε α β σ : Type}

/-- the fault a computation ends in -/
def fault? : Except ε α → Option ε
  | .error e => some e
  | .ok _ => none

theorem fault?_eq_some_iff {x : Except ε α} {e : ε} : fault? x = some e ↔ x = .error e := by
  cases x <;> simp [fault?]

theorem fault?_eq_none_iff {x : Except ε α} : fault? x = none ↔ ∃ a, x = .ok a := by
  cases x <;> simp [fault?]

theorem fault?_atPlace (place : String) (x : Except SchemaFault α) :
    fault? (atPlace place x) = (fault? x).map (.context place) := by
  cases x <;> rfl

/-- of two steps: the fault of the first, or else that of the second, which is `later` whatever the first gave -/
theorem fault?_bind {x : Except ε α} {f : α → Except ε β} {later : Option ε}
    (h : ∀ a, x = .ok a → fault? (f a) = later) : fault? (x >>= f) = (fault? x).or later := by
  cases x with
  | error e => rfl
  | ok a => exact h a rfl

theorem fault?_map (f : α → β) (x : Except ε α) : fault? (x.map f) = fault? x := by
  cases x <;> rfl

theorem fault?_bind_pure (x : Except ε α) (f : α → β) : fault? (x >>= fun a => pure (f a)) = fault? x := by
  cases x <;> rfl

theorem findSome?_cons_eq_or (f : α → Option β) (a : α) (l : List α) :
    (a :: l).findSome? f = (f a).or (l.findSome? f) := by
  rw [List.findSome?_cons]
  cases f a <;> rfl

/-- the first element that gives something, where it is known which elements give nothing and what the others give -/
theorem findSome?_eq_some_iff_first {f : α → Option β} {Free : α → Prop} {Gives : α → β → Prop} {l : List α}
    (hfree : ∀ a ∈ l, f a = none ↔ Free a) (hgives : ∀ a ∈ l, ∀ b, f a = some b ↔ Gives a b) {b : β} :
    l.findSome? f = some b ↔
      ∃ before a after, l = before ++ a :: after ∧ (∀ a' ∈ before, Free a') ∧ Gives a b := by
  rw [List.findSome?_eq_some_iff]
  refine exists_congr fun before => exists_congr fun a => exists_congr fun after => and_congr_right fun hl => ?_
  have hbefore : ∀ a' ∈ before, a' ∈ l := fun a' ha' => hl ▸ List.mem_append_left _ ha'
  have ha : a ∈ l := hl ▸ List.mem_append_right _ List.mem_cons_self
  rw [hgives a ha, and_comm]
  exact and_congr_left fun _ => forall₂_congr fun a' ha' => hfree a' (hbefore a' ha')

/-- **Traversals** end in the fault of the first element that has one. -/
theorem fault?_mapM (f : α → Except ε β) (l : List α) : fault? (l.mapM f) = l.findSome? fun a => fault? (f a) := by
  induction l with
  | nil => rfl
  | cons a l ih =>
    rw [List.mapM_cons, findSome?_cons_eq_or, ← ih]
    exact fault?_bind fun b _ => fault?_bind_pure (l.mapM f) _

theorem fault?_forM (f : α → Except ε Unit) (l : List α) : fault? (l.forM f) = l.findSome? fun a => fault? (f a) := by
  induction l with
  | nil => rfl
  | cons a l ih =>
    rw [findSome?_cons_eq_or, ← ih]
    exact fault?_bind (x := f a) (f := fun _ => l.forM f) fun _ _ => rfl

/-- **Loops** end in the fault of the first element that has one, where an invariant of the state and the elements still
to come makes the fault of each step known. -/
theorem fault?_foldlM {f : σ → α → Except ε σ} {I : List α → σ → Prop} {g : α → Option ε}
    (hstep : ∀ a rest s, I (a :: rest) s → fault? (f s a) = g a)
    (hkeeps : ∀ a rest s s', I (a :: rest) s → f s a = .ok s' → I rest s') {l : List α} {s : σ} (h : I l s) :
    fault? (l.foldlM f s) = l.findSome? g := by
  induction l generalizing s with
  | nil => rfl
  | cons a l ih =>
    rw [List.foldlM_cons, findSome?_cons_eq_or, ← hstep a l s h]
    exact fault?_bind fun s' hs' => ih (hkeeps a l s s' h hs')

end ErlangRecords
