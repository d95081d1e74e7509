import EntityGraph.Proofs.Keyed
import EntityGraph.Proofs.Number
import EntityGraph.Proofs.Paired
import EntityGraph.Value

namespace EntityGraph

/-- Equal numbers are the same integer, or floating-point numbers that are equal. -/
theorem Number.beq_cases {m n : Number} (h : (m == n) = true) :
    (∃ i, m = .integer i ∧ n = .integer i) ∨
      ∃ x y : Float, m = .float x ∧ n = .float y ∧ (x == y) = true := by
  cases m with
  | integer i =>
    cases n with
    | integer j =>
      have hij : i = j := beq_iff_eq.mp h
      exact Or.inl ⟨i, rfl, hij ▸ rfl⟩
    | float y => cases h
  | float x =>
    cases n with
    | integer j => cases h
    | float y => exact Or.inr ⟨x, y, rfl, rfl, h⟩

namespace Value

/-- Induction over the items of lists and the fields of objects. -/
@[elab_as_elim]
theorem induction {P : Value → Prop} (null : P .null) (boolean : ∀ b, P (.boolean b))
    (number : ∀ n, P (.number n)) (string : ∀ s, P (.string s)) (enum : ∀ name, P (.enum name))
    (list : ∀ items, (∀ item ∈ items, P item) → P (.list items))
    (object : ∀ fields, (∀ field ∈ fields, P field.2) → P (.object fields)) : ∀ v, P v := by
  intro v
  refine @Value.rec P (fun items => ∀ item ∈ items, P item)
    (fun fields => ∀ field ∈ fields, P field.2) (fun field => P field.2) null boolean number string enum list object ?_ ?_ ?_ ?_ ?_ v
  · simp
  · exact fun item items hitem hitems => List.forall_mem_cons.mpr ⟨hitem, hitems⟩
  · simp
  · exact fun field fields hfield hfields => List.forall_mem_cons.mpr ⟨hfield, hfields⟩
  · exact fun _ _ h => h

inductive Keyed : Value → Prop
  | null : Keyed .null
  | boolean (b : Bool) : Keyed (.boolean b)
  | number (n : Number) : Keyed (.number n)
  | string (s : String) : Keyed (.string s)
  | enum (name : String) : Keyed (.enum name)
  | list {items : List Value} : (∀ item ∈ items, Keyed item) → Keyed (.list items)
  | object {fields : Arguments} : (fields.map Prod.fst).Nodup →
      (∀ field ∈ fields, Keyed field.2) → Keyed (.object fields)

def characters? : Value → Option String
  | .string s => some s
  | .enum name => some name
  | _ => none

/-- Values are equal in all that they hold. The fields of objects stand in the same order if the
flag says so, and otherwise in any order. -/
inductive Alike (ordered : Bool) : Value → Value → Prop
  | null : Alike ordered .null .null
  | boolean (b : Bool) : Alike ordered (.boolean b) (.boolean b)
  | number {m n : Number} : (m == n) = true → Alike ordered (.number m) (.number n)
  | text {v w : Value} {s : String} : v.characters? = some s → w.characters? = some s →
      Alike ordered v w
  | list {xs ys : List Value} : List.Forall₂ (Alike ordered) xs ys →
      Alike ordered (.list xs) (.list ys)
  | object {xs zs ys : Arguments} : xs.map Prod.fst = zs.map Prod.fst →
      List.Forall₂ (Alike ordered) (xs.map Prod.snd) (zs.map Prod.snd) → zs.Perm ys →
      (ordered = true → zs = ys) → Alike ordered (.object xs) (.object ys)

end Value

def Arguments.Matches (ordered : Bool) (x y : String × Value) : Prop :=
  x.1 = y.1 ∧ x.2.Alike ordered y.2

namespace Value

variable {ordered : Bool}

theorem forall₂_matches {xs zs : Arguments} : List.Forall₂ (Arguments.Matches ordered) xs zs ↔
    xs.map Prod.fst = zs.map Prod.fst ∧
      List.Forall₂ (Alike ordered) (xs.map Prod.snd) (zs.map Prod.snd) := by
  induction xs generalizing zs with
  | nil => cases zs <;> simp
  | cons x xs ih =>
    cases zs with
    | nil => simp
    | cons z zs =>
      simp only [List.forall₂_cons, ih, List.map_cons, List.cons.injEq, Arguments.Matches]
      tauto

theorem alike_object {xs ys : Arguments} (h : Paired ordered (Arguments.Matches ordered) xs ys) :
    Alike ordered (.object xs) (.object ys) := by
  obtain ⟨zs, hzs, hperm, hordered⟩ := h
  obtain ⟨hkeys, hvalues⟩ := forall₂_matches.mp hzs
  exact .object hkeys hvalues hperm hordered

namespace Alike

theorem of_object {xs : Arguments} {w : Value} (h : Alike ordered (.object xs) w) :
    ∃ ys, w = .object ys ∧ Paired ordered (Arguments.Matches ordered) xs ys := by
  cases h with
  | text hv _ => cases hv
  | object hkeys hvalues hperm hordered =>
    exact ⟨_, rfl, _, forall₂_matches.mpr ⟨hkeys, hvalues⟩, hperm, hordered⟩

theorem of_list {xs : List Value} {w : Value} (h : Alike ordered (.list xs) w) :
    ∃ ys, w = .list ys ∧ List.Forall₂ (Alike ordered) xs ys := by
  cases h with
  | text hv _ => cases hv
  | list hitems => exact ⟨_, rfl, hitems⟩

theorem of_null {w : Value} (h : Alike ordered .null w) : w = .null := by
  cases h with
  | null => rfl
  | text hv _ => cases hv

theorem isNull_eq {v w : Value} (h : Alike ordered v w) : v.isNull = w.isNull := by
  cases h with
  | @text _ _ s hv hw =>
    have hnot : ∀ {u : Value}, u.characters? = some s → u.isNull = false := by
      intro u hu
      cases u with
      | null => cases hu
      | _ => rfl
    rw [hnot hv, hnot hw]
  | _ => rfl

end Alike

/-- Fields are compared by name, one way. -/
theorem beqFields_iff {xs ys : Arguments} : beqFields xs ys = true ↔
    ∀ x ∈ xs, ∃ y, ys.lookup x.1 = some y ∧ beq x.2 y = true := by
  induction xs with
  | nil => simp [beqFields]
  | cons x xs ih =>
    obtain ⟨key, value⟩ := x
    rw [beqFields, Bool.and_eq_true, ih, List.forall_mem_cons]
    refine and_congr_left fun _ => ?_
    cases ys.lookup key <;> simp

/-- Fields with names of their own that are equal are those of the other list in some order. -/
theorem exists_perm_of_beqFields {xs ys : Arguments} (hx : (xs.map Prod.fst).Nodup)
    (hlength : xs.length = ys.length) (h : beqFields xs ys = true) :
    ∃ zs, List.Forall₂ (fun x z => x.1 = z.1 ∧ beq x.2 z.2 = true) xs zs ∧ zs.Perm ys := by
  obtain ⟨zs, hzs⟩ : ∃ zs,
      List.Forall₂ (fun x z => z ∈ ys ∧ x.1 = z.1 ∧ beq x.2 z.2 = true) xs zs := by
    have hall := beqFields_iff.mp h
    clear h hx hlength
    induction xs with
    | nil => exact ⟨[], .nil⟩
    | cons x xs ih =>
      rw [List.forall_mem_cons] at hall
      obtain ⟨y, hlookup, hbeq⟩ := hall.1
      obtain ⟨zs, hzs⟩ := ih hall.2
      exact ⟨(x.1, y) :: zs, .cons ⟨Keyed.mem_of_lookup hlookup, rfl, hbeq⟩ hzs⟩
  refine ⟨zs, hzs.imp fun _ _ hxz => hxz.2, ?_⟩
  -- As many fields of the other list, none of them twice, are all of its fields.
  have hkeys : xs.map Prod.fst = zs.map Prod.fst := by
    clear hx hlength h
    induction hzs with
    | nil => rfl
    | cons hxz _ ih => rw [List.map_cons, List.map_cons, hxz.2.1, ih]
  have hnodup : zs.Nodup := List.Nodup.of_map Prod.fst (hkeys ▸ hx)
  have hsubset : zs ⊆ ys := by
    intro z hz
    obtain ⟨x, _, hxz⟩ := Outcome.exists_mem_left hzs hz
    exact hxz.1
  exact (List.subperm_of_subset hnodup hsubset).perm_of_length_le
    (Nat.le_of_eq (hlength.symm.trans hzs.length_eq))

theorem beqItems_iff {xs ys : List Value} :
    beqItems xs ys = true ↔ List.Forall₂ (fun x y => beq x y = true) xs ys := by
  induction xs generalizing ys with
  | nil => cases ys <;> simp [beqItems]
  | cons x xs ih => cases ys <;> simp [beqItems, ih]

/-- Equal values are alike, where the first has no name twice in an object. -/
theorem alike_of_beq {v w : Value} (hv : v.Keyed) (h : beq v w = true) : Alike false v w := by
  induction hv generalizing w with
  | null =>
    cases w with
    | null => exact .null
    | _ => cases h
  | boolean b =>
    cases w with
    | boolean b' =>
      rw [beq, beq_iff_eq] at h
      exact h ▸ .boolean b
    | _ => cases h
  | number m =>
    cases w with
    | number n => exact .number h
    | _ => cases h
  | string s =>
    cases w with
    | string t | enum t =>
      rw [beq, beq_iff_eq] at h
      exact .text rfl (congrArg some h.symm)
    | _ => cases h
  | enum s =>
    cases w with
    | string t | enum t =>
      rw [beq, beq_iff_eq] at h
      exact .text rfl (congrArg some h.symm)
    | _ => cases h
  | @list xs _ ih =>
    cases w with
    | list ys => exact .list (Outcome.forall₂_imp_of_mem (beqItems_iff.mp h) fun x hx y => ih x hx)
    | _ => cases h
  | @object xs hkeys _ ih =>
    cases w with
    | object ys =>
      rw [beq, Bool.and_eq_true, beq_iff_eq] at h
      -- Keys are distinct, so that looking up one way makes a permutation.
      obtain ⟨zs, hzs, hperm⟩ := exists_perm_of_beqFields hkeys h.1 h.2
      have hmatches : List.Forall₂ (Arguments.Matches false) xs zs :=
        Outcome.forall₂_imp_of_mem hzs fun x hx z hxz => ⟨hxz.1, ih x hx hxz.2⟩
      exact alike_object ⟨zs, hmatches, hperm, nofun⟩
    | _ => cases h

theorem beq_of_characters {v w : Value} {s : String} (hv : v.characters? = some s) :
    beq v w = true ↔ w.characters? = some s := by
  have htext : ∀ t : String, (s == t) = true ↔ some t = some s := fun t => by
    rw [beq_iff_eq, Option.some.injEq, eq_comm]
  cases v with
  | string _ | enum _ =>
    obtain rfl := Option.some.inj hv
    cases w with
    | string t | enum t => exact htext t
    | _ => exact iff_of_false Bool.false_ne_true nofun
  | _ => cases hv

theorem beqItems_trans {xs ys zs : List Value}
    (h : ∀ x ∈ xs, ∀ v w, beq x v = true → beq v w = true → beq x w = true)
    (hxy : beqItems xs ys = true) (hyz : beqItems ys zs = true) : beqItems xs zs = true := by
  rw [beqItems_iff] at hxy hyz ⊢
  induction hxy generalizing zs with
  | nil => exact hyz
  | cons hx _ ih =>
    rw [List.forall_mem_cons] at h
    cases hyz with
    | cons hy hyz => exact .cons (h.1 _ _ hx hy) (ih h.2 hyz)

theorem beqFields_trans {xs ys zs : Arguments}
    (h : ∀ x ∈ xs, ∀ v w, beq x.2 v = true → beq v w = true → beq x.2 w = true)
    (hxy : beqFields xs ys = true) (hyz : beqFields ys zs = true) : beqFields xs zs = true := by
  rw [beqFields_iff] at hxy hyz ⊢
  intro x hx
  obtain ⟨v, hv, hxv⟩ := hxy x hx
  obtain ⟨w, hw, hvw⟩ := hyz (x.1, v) (Keyed.mem_of_lookup hv)
  exact ⟨w, hw, h x hx v w hxv hvw⟩

/-- Equality of values is transitive, whatever stands twice in them. -/
theorem beq_trans {u v w : Value} (huv : beq u v = true) (hvw : beq v w = true) :
    beq u w = true := by
  -- On the first value: being alike does not help, as names may stand twice in an object here.
  induction u using Value.induction generalizing v w with
  | null =>
    cases v with
    | null => exact hvw
    | _ => cases huv
  | boolean b =>
    cases v with
    | boolean b' =>
      rw [beq, beq_iff_eq] at huv
      exact huv ▸ hvw
    | _ => cases huv
  | number m =>
    cases v with
    | number n =>
      rcases Number.beq_cases huv with ⟨i, rfl, rfl⟩ | ⟨x, y, rfl, rfl, hxy⟩
      · exact hvw
      · cases w with
        | number k =>
          rcases Number.beq_cases hvw with ⟨i, hi, _⟩ | ⟨y', z, hy, rfl, hyz⟩
          · cases hi
          · cases hy
            show (x == z) = true
            exact PartialEquivBEq.trans hxy hyz
        | _ => cases hvw
    | _ => cases huv
  | string s | enum s =>
    have hv : v.characters? = some s := (beq_of_characters rfl).mp huv
    exact (beq_of_characters rfl).mpr ((beq_of_characters hv).mp hvw)
  | list xs ih =>
    cases v with
    | list ys =>
      cases w with
      | list zs =>
        exact beqItems_trans (fun x hx _ _ => ih x hx) huv hvw
      | _ => cases hvw
    | _ => cases huv
  | object xs ih =>
    cases v with
    | object ys =>
      cases w with
      | object zs =>
        rw [beq, Bool.and_eq_true, beq_iff_eq] at huv hvw ⊢
        exact ⟨huv.1.trans hvw.1, beqFields_trans (fun x hx _ _ => ih x hx) huv.2 hvw.2⟩
      | _ => cases hvw
    | _ => cases huv

end Value

/-- Arguments that are the same are alike, one by one and in any order. -/
theorem Arguments.paired_of_same {xs ys : Arguments} (hkeys : (xs.map Prod.fst).Nodup)
    (hvalues : ∀ x ∈ xs, x.2.Keyed) (h : xs.same ys = true) :
    Paired false (Arguments.Matches false) xs ys := by
  have halike : Value.Alike false (.object xs) (.object ys) :=
    Value.alike_of_beq (.object hkeys hvalues) h
  obtain ⟨_, hys, hpaired⟩ := halike.of_object
  cases hys
  exact hpaired

/-- Arguments that are the same as others are the same as what these are the same as. -/
theorem Arguments.same_trans {xs ys zs : Arguments} (hxy : xs.same ys = true)
    (hyz : ys.same zs = true) : xs.same zs = true :=
  Value.beq_trans (u := .object xs) (v := .object ys) (w := .object zs) hxy hyz

end EntityGraph
