import EntityGraph.Proofs.Outcome
import Mathlib.Data.List.Perm.Basic

/-!
Lists whose items belong together one by one, in the same order or up to order. One relation with a
flag covers both, so that what keeps pairs is shown for both at once.
-/

namespace EntityGraph

/-- The items of two lists belong together one by one: in the same order if the flag says so, and
otherwise up to order. -/
def Paired {α β : Type} (ordered : Bool) (r : α → β → Prop) (xs : List α) (ys : List β) : Prop :=
  ∃ zs, List.Forall₂ r xs zs ∧ zs.Perm ys ∧ (ordered = true → zs = ys)

namespace Paired

variable {α β γ δ : Type} {ordered : Bool} {r : α → β → Prop} {xs : List α} {ys : List β}

theorem of_forall₂ (h : List.Forall₂ r xs ys) : Paired ordered r xs ys :=
  ⟨ys, h, .refl ys, fun _ => rfl⟩

/-- With order, pairing is place by place. -/
theorem true_iff : Paired true r xs ys ↔ List.Forall₂ r xs ys := by
  refine ⟨?_, of_forall₂⟩
  rintro ⟨zs, hzs, _, hordered⟩
  exact hordered rfl ▸ hzs

theorem nil : Paired ordered r [] [] := of_forall₂ .nil

theorem single {x : α} {y : β} (h : r x y) : Paired ordered r [x] [y] := of_forall₂ (.cons h .nil)

theorem length_eq (h : Paired ordered r xs ys) : xs.length = ys.length := by
  obtain ⟨zs, hzs, hperm, _⟩ := h
  exact hzs.length_eq.trans hperm.length_eq

theorem eq_nil (h : Paired ordered r [] ys) : ys = [] :=
  List.eq_nil_of_length_eq_zero h.length_eq.symm

theorem of_single {x : α} (h : Paired ordered r [x] ys) : ∃ y, r x y ∧ ys = [y] := by
  obtain ⟨zs, hzs, hperm, _⟩ := h
  obtain ⟨y, zs, hy, hnil, rfl⟩ := List.forall₂_cons_left_iff.mp hzs
  obtain rfl := List.forall₂_nil_left_iff.mp hnil
  exact ⟨y, hy, (List.singleton_perm.mp hperm).symm⟩

theorem imp {s : α → β → Prop} (h : Paired ordered r xs ys) (hs : ∀ x ∈ xs, ∀ y, r x y → s x y) :
    Paired ordered s xs ys := by
  obtain ⟨zs, hzs, hperm, hordered⟩ := h
  exact ⟨zs, Outcome.forall₂_imp_of_mem hzs hs, hperm, hordered⟩

theorem exists_left (h : Paired ordered r xs ys) {y : β} (hy : y ∈ ys) : ∃ x ∈ xs, r x y := by
  obtain ⟨zs, hzs, hperm, _⟩ := h
  exact Outcome.exists_mem_left hzs (hperm.mem_iff.mpr hy)

theorem exists_right (h : Paired ordered r xs ys) {x : α} (hx : x ∈ xs) : ∃ y ∈ ys, r x y := by
  obtain ⟨zs, hzs, hperm, _⟩ := h
  obtain ⟨y, hy, hxy⟩ := Outcome.exists_mem_right hzs hx
  exact ⟨y, hperm.mem_iff.mp hy, hxy⟩

theorem append {xs' : List α} {ys' : List β} (h : Paired ordered r xs ys)
    (h' : Paired ordered r xs' ys') : Paired ordered r (xs ++ xs') (ys ++ ys') := by
  obtain ⟨zs, hzs, hperm, hordered⟩ := h
  obtain ⟨zs', hzs', hperm', hordered'⟩ := h'
  refine ⟨zs ++ zs', List.rel_append hzs hzs', hperm.append hperm', fun ho => ?_⟩
  rw [hordered ho, hordered' ho]

/-- Pairing goes through two levels. -/
theorem flatten {xss : List (List α)} {yss : List (List β)}
    (h : Paired ordered (Paired ordered r) xss yss) :
    Paired ordered r xss.flatten yss.flatten := by
  obtain ⟨zss, hzss, hperm, hordered⟩ := h
  -- The lists are joined in the order of the first ones, and then brought into that of the others.
  have hjoined : Paired ordered r xss.flatten zss.flatten := by
    clear hperm hordered
    induction hzss with
    | nil => exact .nil
    | cons hx _ ih => exact hx.append ih
  obtain ⟨zs, hzs, hperm', hordered'⟩ := hjoined
  refine ⟨zs, hzs, hperm'.trans hperm.flatten, fun ho => ?_⟩
  rw [hordered' ho, hordered ho]

/-- What goes with the items of paired lists is paired. -/
theorem transfer {p : α → γ → Prop} {q : β → δ → Prop} {s : γ → δ → Prop} {us : List γ}
    {vs : List δ} (h : Paired ordered r xs ys) (hu : List.Forall₂ p xs us)
    (hv : List.Forall₂ q ys vs)
    (hs : ∀ x ∈ xs, ∀ y u v, r x y → p x u → q y v → s u v) : Paired ordered s us vs := by
  obtain ⟨zs, hzs, hperm, hordered⟩ := h
  -- The permutation is moved to the other side of the images.
  obtain ⟨ws, hws, hwsperm, hwsordered⟩ : ∃ ws, List.Forall₂ q zs ws ∧ ws.Perm vs ∧
      (ordered = true → ws = vs) := by
    cases ordered with
    | true =>
      obtain rfl := hordered rfl
      exact ⟨vs, hv, .refl vs, fun _ => rfl⟩
    | false =>
      obtain ⟨ws, hws, hwsperm⟩ := List.perm_comp_forall₂ hperm hv
      exact ⟨ws, hws, hwsperm, nofun⟩
  refine ⟨ws, ?_, hwsperm, hwsordered⟩
  clear hperm hordered hwsperm hwsordered hv
  induction hzs generalizing us ws with
  | nil =>
    cases hu
    cases hws
    exact .nil
  | cons hxy _ ih =>
    cases hu with
    | cons hxu hu =>
      cases hws with
      | cons hyv hws =>
        rw [List.forall_mem_cons] at hs
        exact .cons (hs.1 _ _ _ hxy hxu hyv) (ih hu hs.2 _ hws)

theorem map {s : γ → δ → Prop} {f : α → γ} {g : β → δ} (h : Paired ordered r xs ys)
    (hs : ∀ x ∈ xs, ∀ y, r x y → s (f x) (g y)) :
    Paired ordered s (xs.map f) (ys.map g) := by
  refine h.transfer (p := fun x u => f x = u) (q := fun y v => g y = v) ?_ ?_ ?_
  · exact List.forall₂_map_right_iff.mpr (List.forall₂_same.mpr fun _ _ => rfl)
  · exact List.forall₂_map_right_iff.mpr (List.forall₂_same.mpr fun _ _ => rfl)
  · rintro x hx y _ _ hxy rfl rfl
    exact hs x hx y hxy

/-- Filters that agree on pairs leave pairs. -/
theorem filter {p : α → Bool} {q : β → Bool} (h : Paired ordered r xs ys)
    (hpq : ∀ x y, r x y → p x = q y) : Paired ordered r (xs.filter p) (ys.filter q) := by
  obtain ⟨zs, hzs, hperm, hordered⟩ := h
  refine ⟨zs.filter q, ?_, hperm.filter q, fun ho => by rw [hordered ho]⟩
  clear hperm hordered
  induction hzs with
  | nil => exact .nil
  | @cons x y _ _ hxy _ ih =>
    rw [List.filter_cons, List.filter_cons, hpq x y hxy]
    split
    · exact .cons hxy ih
    · exact ih

end Paired

end EntityGraph
