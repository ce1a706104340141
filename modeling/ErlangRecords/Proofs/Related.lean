/-
Lists related element by element, and positions in lists.

- `mem_right_of_forall₂`, `mem_iff_of_forall₂_some`, `exists_forall₂`: elements of related lists, and lists related to a
  given one.
- `exists_map_of_forall₂`, `map_eq_of_forall₂`: related lists, and images.
- `forall₂_filterMap`: leaving out the same elements on both sides.
- `eq_of_ordered`: a list in strict order is determined by its elements.
- `mem_positions`, `positions_ordered`, `length_positions`, `forall₂_positions`: the positions of the elements with a
  property, and the elements there.
- `nodup_of_positions`: elements at distinct positions.
-/
import Mathlib.Data.List.Forall2

namespace ErlangRecords

variable {α β γ : Type} {R : α → β → Prop} {l : List α} {l' : List β}

theorem mem_right_of_forall₂ (h : List.Forall₂ R l l') {b : β} (hb : b ∈ l') : ∃ a ∈ l, R a b := by
  obtain ⟨i, hi, rfl⟩ := List.getElem_of_mem hb
  have hi' : i < l.length := h.length_eq ▸ hi
  exact ⟨l[i], List.getElem_mem hi', h.get hi' hi⟩

/-- what stands in a list of results -/
theorem mem_iff_of_forall₂_some {f : α → Option β} (h : List.Forall₂ (fun a b => f a = some b) l l') {b : β} :
    b ∈ l' ↔ ∃ a ∈ l, f a = some b := by
  constructor
  · exact fun hb => mem_right_of_forall₂ h hb
  · rintro ⟨a, ha, hab⟩
    obtain ⟨b', hb', hab'⟩ := mem_right_of_forall₂ h.flip ha
    rw [hab, Option.some.injEq] at hab'
    exact hab' ▸ hb'

theorem exists_forall₂ (h : ∀ a ∈ l, ∃ b, R a b) : ∃ l', List.Forall₂ R l l' := by
  induction l with
  | nil => exact ⟨[], .nil⟩
  | cons a l ih =>
    obtain ⟨⟨b, hb⟩, hl⟩ := List.forall_mem_cons.1 h
    obtain ⟨l', hl'⟩ := ih hl
    exact ⟨b :: l', .cons hb hl'⟩

theorem forall₂_congr_mem {S : α → β → Prop} (h : ∀ a ∈ l, ∀ b, R a b ↔ S a b) :
    List.Forall₂ R l l' ↔ List.Forall₂ S l l' := by
  rw [List.forall₂_iff_get, List.forall₂_iff_get]
  refine and_congr_right fun _ => forall_congr' fun i => forall_congr' fun hi => forall_congr' fun _ => ?_
  exact h _ (List.get_mem l ⟨i, hi⟩) _

/-- related lists, where each step from one has a step from the other that ends in related elements -/
theorem forall₂_related {α' β' : Type} {S : α → α' → Prop} {S' : β → β' → Prop} {R' : α' → β' → Prop}
    (hstep : ∀ a a' b, S a a' → R a b → ∃ b', R' a' b' ∧ S' b b') {m : List α'} (h : List.Forall₂ S l m)
    (hl : List.Forall₂ R l l') : ∃ m', List.Forall₂ R' m m' ∧ List.Forall₂ S' l' m' := by
  induction h generalizing l' with
  | nil =>
    cases hl
    exact ⟨[], .nil, .nil⟩
  | cons hs _ ih =>
    cases hl with
    | cons hr hrest =>
      obtain ⟨b', hb', hs'⟩ := hstep _ _ _ hs hr
      obtain ⟨m', hm', hall⟩ := ih hrest
      exact ⟨b' :: m', .cons hb' hm', .cons hs' hall⟩

/-- a list of images is the image of a list -/
theorem exists_map_of_forall₂ {g : β → γ} {images : List γ}
    (h : List.Forall₂ (fun a c => ∃ b, R a b ∧ c = g b) l images) :
    ∃ l', List.Forall₂ R l l' ∧ images = l'.map g := by
  induction h with
  | nil => exact ⟨[], .nil, rfl⟩
  | cons hr _ ih =>
    obtain ⟨b, hb, rfl⟩ := hr
    obtain ⟨l', hl', rfl⟩ := ih
    exact ⟨b :: l', .cons hb hl', rfl⟩

/-- a list is recovered from its image, element by element -/
theorem map_eq_of_forall₂ {g : β → α} (h : ∀ a ∈ l, ∀ b, R a b → g b = a) (hall : List.Forall₂ R l l') :
    l'.map g = l := by
  induction hall with
  | nil => rfl
  | cons hr _ ih =>
    obtain ⟨hhere, hrest⟩ := List.forall_mem_cons.1 h
    rw [List.map_cons, hhere _ hr, ih hrest]

/-- where related elements have one image, so have the lists -/
theorem map_eq_map_of_forall₂ {f : α → γ} {g : β → γ} (h : ∀ a b, R a b → f a = g b) (hall : List.Forall₂ R l l') :
    l.map f = l'.map g := by
  rw [← List.forall₂_eq_eq_eq, List.forall₂_map_left_iff, List.forall₂_map_right_iff]
  exact hall.imp h

/-- lists of the same keys have the same images, where elements of one key have -/
theorem map_eq_map_of_key {κ : Type} {l₁ l₂ : List α} {k : α → κ} {f : α → γ} (hkeys : l₁.map k = l₂.map k)
    (h : ∀ a ∈ l₁, ∀ b ∈ l₂, k a = k b → f a = f b) : l₁.map f = l₂.map f := by
  induction l₁ generalizing l₂ with
  | nil =>
    rw [List.map_nil, eq_comm, List.map_eq_nil_iff] at hkeys
    rw [hkeys]
  | cons a l₁ ih =>
    obtain ⟨b, l₂, rfl, hkey, hrest⟩ := List.map_eq_cons_iff.1 hkeys.symm
    have hhere := h a List.mem_cons_self b List.mem_cons_self hkey.symm
    have hall := ih hrest.symm fun a ha b hb => h a (List.mem_cons_of_mem _ ha) b (List.mem_cons_of_mem _ hb)
    rw [List.map_cons, List.map_cons, hhere, hall]

theorem flatMap_eq_of_forall₂ {f : α → List γ} {g : β → List γ} (h : ∀ a b, R a b → f a = g b)
    (hall : List.Forall₂ R l l') : l.flatMap f = l'.flatMap g := by
  rw [List.flatMap_def, List.flatMap_def, map_eq_map_of_forall₂ h hall]

theorem flatMap_perm_of_forall₂ {f : α → List γ} {g : β → List γ} (h : ∀ a b, R a b → (f a).Perm (g b))
    (hall : List.Forall₂ R l l') : (l.flatMap f).Perm (l'.flatMap g) := by
  induction hall with
  | nil => exact List.Perm.refl _
  | cons hr _ ih =>
    rw [List.flatMap_cons, List.flatMap_cons]
    exact (h _ _ hr).append ih

/-- where both leave out the same elements, related ones are left -/
theorem forall₂_filterMap {f : γ → Option α} {g : γ → Option β} {l : List γ}
    (h : ∀ a ∈ l, Option.Rel R (f a) (g a)) : List.Forall₂ R (l.filterMap f) (l.filterMap g) := by
  have hsame : List.Forall₂ (fun a b => a = b ∧ Option.Rel R (f a) (g a)) l l :=
    List.forall₂_same.2 fun a ha => ⟨rfl, h a ha⟩
  exact List.rel_filterMap (fun a b hab => hab.1 ▸ hab.2) hsame

/-- the element at a position, and the one related to it -/
theorem getElem?_of_forall₂ (h : List.Forall₂ R l l') {i : Nat} {a : α} (ha : l[i]? = some a) :
    ∃ b, l'[i]? = some b ∧ R a b := by
  obtain ⟨hi, rfl⟩ := List.getElem?_eq_some_iff.1 ha
  have hi' : i < l'.length := h.length_eq ▸ hi
  exact ⟨l'[i], List.getElem?_eq_getElem hi', h.get hi hi'⟩

/-- relations one after the other -/
theorem forall₂_trans {S : β → γ → Prop} {T : α → γ → Prop} (hstep : ∀ a b c, R a b → S b c → T a c) {l'' : List γ}
    (h : List.Forall₂ R l l') (h' : List.Forall₂ S l' l'') : List.Forall₂ T l l'' := by
  induction h generalizing l'' with
  | nil =>
    cases h'
    exact .nil
  | cons hr _ ih =>
    cases h' with
    | cons hs hrest => exact .cons (hstep _ _ _ hr hs) (ih hrest)

/-! ## Lists in strict order -/

section

variable {key : α → Nat} {m : List α}

theorem nodup_of_ordered (h : l.Pairwise fun a b => key a < key b) : l.Nodup := by
  refine h.imp fun hlt heq => ?_
  rw [heq] at hlt
  exact Nat.lt_irrefl _ hlt

/-- **Order fixes a list**: two in strict order with the same elements are one. -/
theorem eq_of_ordered (hl : l.Pairwise fun a b => key a < key b) (hm : m.Pairwise fun a b => key a < key b)
    (hmem : ∀ a, a ∈ l ↔ a ∈ m) : l = m := by
  have hperm : l.Perm m := (List.perm_ext_iff_of_nodup (nodup_of_ordered hl) (nodup_of_ordered hm)).2 hmem
  exact hperm.eq_of_pairwise (fun _ _ _ _ hlt hgt => absurd hlt (Nat.lt_asymm hgt)) hl hm

end

/-! ## Positions -/

/-- positions of the elements with a property, in order -/
def positions (p : α → Bool) (l : List α) : List Nat := (l.zipIdx.filter (p ·.1)).map Prod.snd

theorem mem_positions {p : α → Bool} {i : Nat} : i ∈ positions p l ↔ ∃ a, l[i]? = some a ∧ p a = true := by
  simp [positions, List.mk_mem_zipIdx_iff_getElem?]

theorem positions_ordered (p : α → Bool) (l : List α) : (positions p l).Pairwise (· < ·) := by
  have hall : (l.zipIdx.map Prod.snd).Pairwise (· < ·) := by
    rw [List.zipIdx_map_snd]
    exact List.pairwise_lt_range'
  exact hall.sublist (List.filter_sublist.map _)

theorem positions_nodup (p : α → Bool) (l : List α) : (positions p l).Nodup :=
  (positions_ordered p l).imp Nat.ne_of_lt

/-- positions in order are known by which they are -/
theorem eq_positions_of_ordered {p : α → Bool} {indices : List Nat} (hordered : indices.Pairwise (· < ·))
    (hmem : ∀ i, i ∈ indices ↔ ∃ a, l[i]? = some a ∧ p a = true) : indices = positions p l :=
  eq_of_ordered hordered (positions_ordered p l) fun i => (hmem i).trans mem_positions.symm

/-- at the positions stand the elements, in order -/
theorem forall₂_positions (p : α → Bool) (l : List α) :
    List.Forall₂ (fun i a => l[i]? = some a) (positions p l) (l.filter p) := by
  have hfilter : l.filter p = (l.zipIdx.filter (p ·.1)).map Prod.fst := by
    conv_lhs => rw [← List.zipIdx_map_fst 0 l, List.filter_map]
    rfl
  rw [hfilter, positions, List.forall₂_map_left_iff, List.forall₂_map_right_iff, List.forall₂_same]
  rintro ⟨a, i⟩ hin
  exact List.mk_mem_zipIdx_iff_getElem?.1 (List.mem_of_mem_filter hin)

theorem length_positions (p : α → Bool) (l : List α) : (positions p l).length = l.countP p := by
  rw [positions, List.length_map, ← List.countP_eq_length_filter]
  conv_rhs => rw [← List.zipIdx_map_fst 0 l, List.countP_map]
  rfl

/-- elements at distinct positions of a list without repetitions are distinct -/
theorem nodup_of_positions {l₁ : List α} {indices : List Nat}
    (h : List.Forall₂ (fun i a => l[i]? = some a) indices l₁) (hindices : indices.Nodup) (hl : l.Nodup) :
    l₁.Nodup := by
  induction h with
  | nil => exact List.nodup_nil
  | cons hia hrest ih =>
    obtain ⟨hnew, hindices⟩ := List.nodup_cons.1 hindices
    refine List.nodup_cons.2 ⟨fun hin => hnew ?_, ih hindices⟩
    obtain ⟨j, hj, hja⟩ := mem_right_of_forall₂ hrest hin
    have hi := (List.getElem?_eq_some_iff.1 hia).1
    rwa [(List.getElem?_inj hi hl).1 (hia.trans hja.symm)]

end ErlangRecords
