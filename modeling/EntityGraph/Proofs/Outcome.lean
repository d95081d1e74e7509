import Mathlib.Data.List.Flatten
import Mathlib.Data.List.Forall2

/-!
Computations that may fail: when one of them, or a row of them, ends well, and where a row fails.
-/

namespace EntityGraph.Outcome

variable {ε ε' α β : Type}

/-- Of two steps that succeed both do. -/
theorem bind_eq_ok {x : Except ε α} {f : α → Except ε β} {b : β} :
    x >>= f = .ok b ↔ ∃ a, x = .ok a ∧ f a = .ok b := by
  cases x <;> simp [bind, Except.bind]

theorem bind_of_eq_ok {x : Except ε α} {a : α} (h : x = .ok a) (f : α → Except ε β) :
    x >>= f = f a := by
  rw [h]
  rfl

/-- What follows matters only where it is reached. -/
theorem bind_congr {x : Except ε α} {f g : α → Except ε β} (h : ∀ a, x = .ok a → f a = g a) :
    x >>= f = x >>= g := by
  cases x with
  | error e => rfl
  | ok a => exact h a rfl

/-- Two steps fail in the first or in the second. -/
theorem bind_eq_error {x : Except ε α} {f : α → Except ε β} {err : ε} :
    x >>= f = .error err ↔ x = .error err ∨ ∃ a, x = .ok a ∧ f a = .error err := by
  cases x <;> simp [bind, Except.bind]

theorem map_eq_ok {x : Except ε α} {f : α → β} {b : β} :
    x.map f = .ok b ↔ ∃ a, x = .ok a ∧ f a = b := by
  cases x <;> simp [Except.map]

theorem map_eq_error {x : Except ε α} {f : α → β} {err : ε} :
    x.map f = .error err ↔ x = .error err := by
  cases x <;> simp [Except.map]

theorem map_isOk {x : Except ε α} {f : α → β} :
    (∃ b, x.map f = .ok b) ↔ ∃ a, x = .ok a := by
  cases x <;> simp [Except.map]

theorem mapError_eq_ok {x : Except ε α} {f : ε → ε'} {a : α} :
    x.mapError f = .ok a ↔ x = .ok a := by
  cases x <;> simp [Except.mapError]

theorem mapError_eq_error {x : Except ε α} {f : ε → ε'} {err : ε'} :
    x.mapError f = .error err ↔ ∃ err', x = .error err' ∧ f err' = err := by
  cases x <;> simp [Except.mapError]

theorem toOption_eq_some {x : Except ε α} {a : α} : x.toOption = some a ↔ x = .ok a := by
  cases x <;> simp [Except.toOption]

theorem toOption_map (x : Except ε α) (f : α → β) : (x.map f).toOption = x.toOption.map f := by
  cases x <;> rfl

theorem toOption_mapError (x : Except ε α) (f : ε → ε') : (x.mapError f).toOption = x.toOption := by
  cases x <;> rfl

theorem toOption_bind (x : Except ε α) (f : α → Except ε β) :
    (x >>= f).toOption = x.toOption.bind fun a => (f a).toOption := by
  cases x <;> rfl

def FailsIn (x : Except ε α) (P : ε → Prop) : Prop := ∀ err, x = .error err → P err

namespace FailsIn

variable {x : Except ε α} {P Q : ε → Prop}

theorem of_ok (a : α) : FailsIn (.ok a : Except ε α) P := nofun

theorem of_error {err : ε} (h : P err) : FailsIn (.error err : Except ε α) P := by
  rintro _ ⟨⟩
  exact h

theorem imp (h : FailsIn x P) (hPQ : ∀ err, P err → Q err) : FailsIn x Q :=
  fun err hx => hPQ err (h err hx)

theorem bind {f : α → Except ε β} (h : FailsIn x P) (hf : ∀ a, x = .ok a → FailsIn (f a) P) :
    FailsIn (x >>= f) P := by
  cases x with
  | ok a => exact hf a rfl
  | error err => exact of_error (h err rfl)

theorem map (h : FailsIn x P) (f : α → β) : FailsIn (x.map f) P := by
  cases x with
  | ok a => exact of_ok (f a)
  | error err => exact of_error (h err rfl)

theorem mapError {Q : ε' → Prop} {f : ε → ε'} (h : FailsIn x P) (hf : ∀ err, P err → Q (f err)) :
    FailsIn (x.mapError f) Q := by
  cases x with
  | ok a => exact of_ok a
  | error err => exact of_error (hf err (h err rfl))

theorem mapM {f : β → Except ε α} {xs : List β} (h : ∀ b ∈ xs, FailsIn (f b) P) :
    FailsIn (xs.mapM f) P := by
  induction xs with
  | nil => exact of_ok []
  | cons b xs ih =>
    rw [List.forall_mem_cons] at h
    rw [List.mapM_cons]
    exact h.1.bind fun a _ => (ih h.2).bind fun as _ => of_ok (a :: as)

theorem foldlM {f : β → α → Except ε β} {xs : List α} {b : β}
    (h : ∀ b, ∀ a ∈ xs, FailsIn (f b a) P) : FailsIn (xs.foldlM f b) P := by
  induction xs generalizing b with
  | nil => exact of_ok b
  | cons a xs ih =>
    rw [List.foldlM_cons]
    exact (h b a (List.mem_cons_self ..)).bind fun b' _ =>
      ih fun b a ha => h b a (List.mem_cons_of_mem _ ha)

end FailsIn

/-- A computation fails exactly if something is the case, and then with a failure of a kind. -/
structure FailsExactly (x : Except ε α) (p : Prop) (P : ε → Prop) : Prop where
  fails : p → ∃ err, x = .error err ∧ P err
  ends : ¬ p → ∃ a, x = .ok a

namespace FailsExactly

variable {x : Except ε α} {p q : Prop} {P : ε → Prop}

theorem of_ok {a : α} (hx : x = .ok a) (hp : ¬ p) : FailsExactly x p P :=
  ⟨fun h => absurd h hp, fun _ => ⟨a, hx⟩⟩

theorem of_error {err : ε} (hx : x = .error err) (hP : P err) (hp : p) : FailsExactly x p P :=
  ⟨fun _ => ⟨err, hx, hP⟩, fun h => absurd hp h⟩

theorem congr (h : FailsExactly x p P) (hpq : p ↔ q) : FailsExactly x q P :=
  ⟨fun hq => h.fails (hpq.mpr hq), fun hq => h.ends fun hp => hq (hpq.mp hp)⟩

theorem map (h : FailsExactly x p P) (f : α → β) : FailsExactly (x.map f) p P := by
  constructor
  · intro hp
    obtain ⟨err, rfl, hP⟩ := h.fails hp
    exact ⟨err, rfl, hP⟩
  · intro hp
    obtain ⟨a, rfl⟩ := h.ends hp
    exact ⟨f a, rfl⟩

theorem bind {f : α → Except ε β} (h : FailsExactly x p P)
    (hf : ∀ a, x = .ok a → FailsExactly (f a) q P) : FailsExactly (x >>= f) (p ∨ q) P := by
  by_cases hp : p
  · obtain ⟨err, rfl, hP⟩ := h.fails hp
    exact of_error rfl hP (.inl hp)
  · obtain ⟨a, rfl⟩ := h.ends hp
    exact (hf a rfl).congr (or_iff_right hp).symm

/-- A row fails exactly if one of its members does, here told by what they are made from. -/
theorem mapM {γ : Type} {f : β → Except ε α} {p : γ → Prop} {cs : List γ} {bs : List β}
    (h : List.Forall₂ (fun c b => FailsExactly (f b) (p c) P) cs bs) :
    FailsExactly (bs.mapM f) (∃ c ∈ cs, p c) P := by
  induction h with
  | nil => exact of_ok rfl (by simp)
  | cons hc _ ih =>
    rw [List.mapM_cons]
    have hrest := hc.bind fun a _ => ih.map (a :: ·)
    exact hrest.congr (List.exists_mem_cons_iff _ _ _).symm

end FailsExactly

/-- What holds of the steps that are done, and is kept by one step more, holds after the row. -/
theorem of_foldlM_along {f : β → α → Except ε β} {I : List α → β → Prop} {xs : List α}
    (hstep : ∀ {done : List α} {a : α} {after : List α} {b b' : β}, xs = done ++ a :: after →
      I done b → f b a = .ok b' → I (done ++ [a]) b')
    {b b' : β} (hb : I [] b) (h : xs.foldlM f b = .ok b') : I xs b' := by
  suffices hrest : ∀ (after done : List α) (b : β), xs = done ++ after → I done b →
      after.foldlM f b = .ok b' → I xs b' from hrest xs [] b rfl hb h
  intro after
  induction after with
  | nil =>
    intro done b hxs hb h
    rw [hxs, List.append_nil]
    exact Except.ok.inj h ▸ hb
  | cons a after ih =>
    intro done b hxs hb h
    rw [List.foldlM_cons] at h
    obtain ⟨b₁, hb₁, h⟩ := bind_eq_ok.mp h
    exact ih (done ++ [a]) b₁ (by rw [hxs, List.append_assoc]; rfl) (hstep hxs hb hb₁) h

/-- What every step of a row keeps holds after the row. -/
theorem of_foldlM_eq_ok {f : β → α → Except ε β} {I : β → Prop}
    (hstep : ∀ {b : β} (a : α) {b' : β}, I b → f b a = .ok b' → I b') {xs : List α} {b b' : β}
    (hb : I b) (h : xs.foldlM f b = .ok b') : I b' :=
  of_foldlM_along (I := fun _ => I) (fun {_ a _ _ _} _ hb hb' => hstep a hb hb') hb h

theorem mapM_cons_eq_ok {f : α → Except ε β} {x : α} {xs : List α} {zs : List β} :
    (x :: xs).mapM f = .ok zs ↔ ∃ y ys, f x = .ok y ∧ xs.mapM f = .ok ys ∧ y :: ys = zs := by
  rw [List.mapM_cons, bind_eq_ok]
  constructor
  · rintro ⟨y, hy, h⟩
    obtain ⟨ys, hys, h⟩ := bind_eq_ok.mp h
    exact ⟨y, ys, hy, hys, Except.ok.inj h⟩
  · rintro ⟨y, ys, hy, hys, rfl⟩
    exact ⟨y, hy, bind_eq_ok.mpr ⟨ys, hys, rfl⟩⟩

/-- A row ends well when each of its members does. -/
theorem mapM_eq_ok {f : α → Except ε β} {xs : List α} {ys : List β} :
    xs.mapM f = .ok ys ↔ List.Forall₂ (fun x y => f x = .ok y) xs ys := by
  induction xs generalizing ys with
  | nil => cases ys <;> simp [pure, Except.pure]
  | cons x xs ih =>
    rw [mapM_cons_eq_ok, List.forall₂_cons_left_iff]
    simp only [ih]
    constructor
    · rintro ⟨y, ys, hy, hys, rfl⟩
      exact ⟨y, ys, hy, hys, rfl⟩
    · rintro ⟨y, ys, hy, hys, rfl⟩
      exact ⟨y, ys, hy, hys, rfl⟩

/-- A row of steps succeeds when each does. -/
theorem mapM_isOk {f : α → Except ε β} {xs : List α} :
    (∃ ys, xs.mapM f = .ok ys) ↔ ∀ x ∈ xs, ∃ y, f x = .ok y := by
  simp only [mapM_eq_ok]
  induction xs with
  | nil => simp
  | cons x xs ih =>
    simp only [List.forall_mem_cons, ← ih, List.forall₂_cons_left_iff]
    constructor
    · intro h
      obtain ⟨_, y, ys, hy, hys, rfl⟩ := h
      exact ⟨⟨y, hy⟩, ys, hys⟩
    · intro h
      obtain ⟨⟨y, hy⟩, ys, hys⟩ := h
      exact ⟨_, y, ys, hy, hys, rfl⟩

/-- A row whose members end well, each with a result of a kind, has results of that kind. -/
theorem mapM_isOk_of {f : α → Except ε β} {P : β → Prop} {xs : List α}
    (h : ∀ x ∈ xs, ∃ y, f x = .ok y ∧ P y) : ∃ ys, xs.mapM f = .ok ys ∧ ∀ y ∈ ys, P y := by
  induction xs with
  | nil => exact ⟨[], rfl, List.forall_mem_nil P⟩
  | cons x xs ih =>
    rw [List.forall_mem_cons] at h
    obtain ⟨⟨y, hy, hP⟩, hxs⟩ := h
    obtain ⟨ys, hys, hall⟩ := ih hxs
    exact ⟨y :: ys, mapM_cons_eq_ok.mpr ⟨y, ys, hy, hys, rfl⟩, List.forall_mem_cons.mpr ⟨hP, hall⟩⟩

/-- A row fails with the failure of its first member that fails. -/
theorem mapM_eq_error {f : α → Except ε β} {xs : List α} {err : ε} :
    xs.mapM f = .error err ↔ ∃ before x after, xs = before ++ x :: after ∧
      (∀ y ∈ before, ∃ b, f y = .ok b) ∧ f x = .error err := by
  induction xs with
  | nil => simp [pure, Except.pure]
  | cons x xs ih =>
    rw [List.mapM_cons, bind_eq_error]
    constructor
    · rintro (h | ⟨y, hy, h⟩)
      · exact ⟨[], x, xs, rfl, by simp, h⟩
      · rcases bind_eq_error.mp h with h | ⟨ys, _, h⟩
        · obtain ⟨before, z, after, rfl, hb, hz⟩ := ih.mp h
          refine ⟨x :: before, z, after, rfl, ?_, hz⟩
          intro w hw
          rcases List.mem_cons.mp hw with rfl | hw
          · exact ⟨y, hy⟩
          · exact hb w hw
        · cases h
    · rintro ⟨before, z, after, h, hb, hz⟩
      cases before with
      | nil =>
        obtain ⟨rfl, rfl⟩ := List.cons.inj h
        exact Or.inl hz
      | cons w before =>
        -- The head ends well, so that the failure is one of the rest.
        obtain ⟨rfl, rfl⟩ := List.cons.inj h
        obtain ⟨y, hy⟩ := hb x (List.mem_cons_self ..)
        refine Or.inr ⟨y, hy, bind_eq_error.mpr (Or.inl (ih.mpr ⟨before, z, after, rfl, ?_, hz⟩))⟩
        exact fun w hw => hb w (List.mem_cons_of_mem x hw)

/-- Two rows end well together when their members do, each result of the second changed alike. -/
theorem toOption_mapM_congr {f g : α → Except ε β} {h : β → β} {xs : List α}
    (hfg : ∀ x ∈ xs, (f x).toOption = (g x).toOption.map h) :
    (xs.mapM f).toOption = (xs.mapM g).toOption.map (List.map h) := by
  induction xs with
  | nil => rfl
  | cons x xs ih =>
    rw [List.forall_mem_cons] at hfg
    simp only [List.mapM_cons, toOption_bind, ih hfg.2, hfg.1]
    cases (g x).toOption with
    | none => rfl
    | some b =>
      cases (xs.mapM g).toOption <;> rfl

/-- Splitting related lists at a place of the first. -/
theorem forall₂_append_cons {R : α → β → Prop} {xs ys : List α} {x : α} {zs : List β} :
    List.Forall₂ R (xs ++ x :: ys) zs ↔ ∃ as b cs, List.Forall₂ R xs as ∧ R x b ∧
      List.Forall₂ R ys cs ∧ as ++ b :: cs = zs := by
  constructor
  · intro h
    induction xs generalizing zs with
    | nil =>
      cases h with
      | cons hb hcs => exact ⟨[], _, _, .nil, hb, hcs, rfl⟩
    | cons y xs ih =>
      cases h with
      | cons ha h =>
        obtain ⟨as, b, cs, has, hb, hcs, rfl⟩ := ih h
        exact ⟨_ :: as, b, cs, .cons ha has, hb, hcs, rfl⟩
  · intro h
    obtain ⟨as, b, cs, has, hb, hcs, rfl⟩ := h
    exact List.rel_append has (.cons hb hcs)

theorem forall₂_imp_of_mem {R S : α → β → Prop} {xs : List α} {ys : List β}
    (h : List.Forall₂ R xs ys) (hRS : ∀ x ∈ xs, ∀ y, R x y → S x y) : List.Forall₂ S xs ys := by
  induction h with
  | nil => exact .nil
  | cons hR _ ih =>
    rw [List.forall_mem_cons] at hRS
    exact .cons (hRS.1 _ hR) (ih hRS.2)

theorem map_eq_of_forall₂ {γ : Type} {R : α → β → Prop} {xs : List α} {ys : List β} {f : α → γ}
    {g : β → γ} (h : List.Forall₂ R xs ys) (hfg : ∀ x ∈ xs, ∀ y, R x y → g y = f x) :
    ys.map g = xs.map f := by
  induction h with
  | nil => rfl
  | cons hR _ ih =>
    rw [List.forall_mem_cons] at hfg
    rw [List.map_cons, List.map_cons, hfg.1 _ hR, ih hfg.2]

theorem exists_mem_left {R : α → β → Prop} {xs : List α} {ys : List β}
    (h : List.Forall₂ R xs ys) {y : β} (hy : y ∈ ys) : ∃ x ∈ xs, R x y := by
  induction h with
  | nil => simp at hy
  | cons hR _ ih =>
    rcases List.mem_cons.mp hy with rfl | hy
    · exact ⟨_, by simp, hR⟩
    · obtain ⟨x, hx, hR⟩ := ih hy
      exact ⟨x, List.mem_cons_of_mem _ hx, hR⟩

theorem exists_mem_right {R : α → β → Prop} {xs : List α} {ys : List β}
    (h : List.Forall₂ R xs ys) {x : α} (hx : x ∈ xs) : ∃ y ∈ ys, R x y := by
  obtain ⟨y, hy, hR⟩ := exists_mem_left (R := fun y x => R x y) h.flip hx
  exact ⟨y, hy, hR⟩

theorem forall₂_map_map {γ : Type} {R : β → γ → Prop} {f : α → β} {g : α → γ} {xs : List α}
    (h : ∀ x ∈ xs, R (f x) (g x)) : List.Forall₂ R (xs.map f) (xs.map g) :=
  List.forall₂_map_left_iff.mpr (List.forall₂_map_right_iff.mpr (List.forall₂_same.mpr h))

/-- What each member of a row has beside its result, the row has beside its results. -/
theorem exists_forall₂ {γ : Type} {R : α → β → Prop} {S : α → γ → Prop} {T : β → γ → Prop}
    {xs : List α} {ys : List β} (h : List.Forall₂ R xs ys)
    (hR : ∀ x y, R x y → ∃ z, S x z ∧ T y z) :
    ∃ zs, List.Forall₂ S xs zs ∧ List.Forall₂ T ys zs := by
  induction h with
  | nil => exact ⟨[], .nil, .nil⟩
  | cons hxy _ ih =>
    obtain ⟨z, hS, hT⟩ := hR _ _ hxy
    obtain ⟨zs, hSs, hTs⟩ := ih
    exact ⟨z :: zs, .cons hS hSs, .cons hT hTs⟩

theorem option_mapM_eq_some {f : α → Option β} {xs : List α} {ys : List β} :
    xs.mapM f = some ys ↔ List.Forall₂ (fun x y => f x = some y) xs ys := by
  induction xs generalizing ys with
  | nil => cases ys <;> simp
  | cons x xs ih =>
    rw [List.mapM_cons, List.forall₂_cons_left_iff]
    simp only [← ih, Option.bind_eq_bind, Option.bind_eq_some_iff, Option.pure_def,
      Option.some.injEq]
    constructor
    · rintro ⟨y, hy, ys, hys, rfl⟩
      exact ⟨y, ys, hy, hys, rfl⟩
    · rintro ⟨y, ys, hy, hys, rfl⟩
      exact ⟨y, hy, ys, hys, rfl⟩

/-- A row of options has none as soon as one is none. -/
theorem option_mapM_eq_none {f : α → Option β} {xs : List α} :
    xs.mapM f = none ↔ ∃ x ∈ xs, f x = none := by
  induction xs with
  | nil => simp
  | cons x xs ih =>
    rw [List.mapM_cons]
    cases hx : f x with
    | none => simp [hx]
    | some y => cases hxs : xs.mapM f <;> simp [hx, ← ih, hxs]

end EntityGraph.Outcome
