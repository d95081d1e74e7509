import EntityGraph.Proofs.Filter.Alike
import EntityGraph.Proofs.Filter.Equality
import EntityGraph.Proofs.Filter.Operands
import EntityGraph.Proofs.Value
import Mathlib.Data.List.Permutation

namespace EntityGraph.Filter

open FilterTree (Alike alike_node)

variable {ordered : Bool} {kind : ScalarKind} {field : String} {op : Operator} {v w : Value}

/-- Equal literals are equal operands, whichever numeral or name they are written as. -/
theorem operand?_alike (h : v.Alike ordered w) {x y : Operand} (hx : operand? kind v = some x)
    (hy : operand? kind w = some y) : (x == y) = true := by
  have hstring : ∀ s, (Operand.string s == Operand.string s) = true := fun s =>
    beq_self_eq_true (α := String) s
  cases h with
  | null => cases kind <;> cases hx
  | boolean b =>
    obtain rfl := Option.some.inj (hx.symm.trans hy)
    cases kind with
    | boolean =>
      obtain rfl := Option.some.inj hx
      exact beq_self_eq_true (α := Bool) b
    | _ => cases hx
  | number hmn =>
    rcases Number.beq_cases hmn with ⟨i, rfl, rfl⟩ | ⟨x', y', rfl, rfl, hxy⟩
    · obtain rfl := Option.some.inj (hx.symm.trans hy)
      have hfree : (Value.number (.integer i)).NaNFree := .number rfl
      exact operand?_beq_self hfree hx
    · cases kind with
      | float =>
        obtain rfl := Option.some.inj hx
        obtain rfl := Option.some.inj hy
        exact hxy
      | _ => cases hx
  | @text _ _ s hv hw =>
    -- The name of an enum value is no operand, so that both are strings.
    cases v with
    | string t =>
      obtain rfl := Option.some.inj hv
      cases w with
      | string t' =>
        obtain rfl := Option.some.inj hw
        cases kind with
        | string | id =>
          obtain rfl := Option.some.inj hx
          obtain rfl := Option.some.inj hy
          exact hstring _
        | _ => cases hx
      | enum name => cases kind <;> cases hy
      | _ => cases hw
    | enum name => cases kind <;> cases hx
    | _ => cases hv
  | list _ => cases kind <;> cases hx
  | object _ _ _ _ => cases kind <;> cases hx

theorem readOperand_alike (h : v.Alike ordered w) {x y : Operand}
    (hx : readOperand kind field op v = .ok x) (hy : readOperand kind field op w = .ok y) :
    (x == y) = true :=
  operand?_alike h (readOperand_eq_ok.mp hx) (readOperand_eq_ok.mp hy)

theorem readOperands_single (hv : ∀ items, v ≠ .list items) :
    readOperands kind field op v = (readOperand kind field op v).map ([·]) := by
  rw [readOperands.eq_def]
  split
  · exact absurd rfl (hv _)
  · rfl

/-- A single value is alike only to a single value, so the lists of operands agree. -/
theorem readOperands_alike (h : v.Alike ordered w) {xs ys : List Operand}
    (hx : readOperands kind field op v = .ok xs) (hy : readOperands kind field op w = .ok ys) :
    (xs == ys) = true := by
  by_cases hlist : ∃ items, v = .list items
  · obtain ⟨items, rfl⟩ := hlist
    obtain ⟨items', rfl, hitems⟩ := h.of_list
    have hpaired : Paired true (Value.Alike ordered) items items' := .of_forall₂ hitems
    refine beq_list_iff.mpr (Paired.true_iff.mp ?_)
    exact hpaired.transfer (Outcome.mapM_eq_ok.mp hx) (Outcome.mapM_eq_ok.mp hy)
      fun _ _ _ _ _ hitem ho ho' => readOperand_alike hitem ho ho'
  · have hv : ∀ items, v ≠ .list items := fun items heq => hlist ⟨items, heq⟩
    have hw : ∀ items, w ≠ .list items := by
      rintro items rfl
      cases h with
      | text _ hw => cases hw
      | list hitems => exact hv _ rfl
    rw [readOperands_single hv] at hx
    rw [readOperands_single hw] at hy
    obtain ⟨x, hread, rfl⟩ := Outcome.map_eq_ok.mp hx
    obtain ⟨y, hread', rfl⟩ := Outcome.map_eq_ok.mp hy
    exact beq_list_iff.mpr (.cons (readOperand_alike h hread hread') .nil)

theorem readText_alike (h : v.Alike ordered w) {s t : String} (hs : readText field op v = .ok s)
    (ht : readText field op w = .ok t) : s = t := by
  cases v with
  | string s' =>
    cases w with
    | string t' =>
      cases h with
      | text hv hw =>
        obtain rfl := Except.ok.inj hs
        obtain rfl := Except.ok.inj ht
        exact Option.some.inj (hv.trans hw.symm)
    | _ => cases ht
  | _ => cases hs

theorem readFlag_alike (h : v.Alike ordered w) {b b' : Bool} (hb : readFlag field op v = .ok b)
    (hb' : readFlag field op w = .ok b') : b = b' := by
  cases h with
  | boolean b => exact Except.ok.inj (hb.symm.trans hb')
  | @text _ _ s hv hw =>
    cases v with
    | boolean b => cases hv
    | _ => cases hb
  | _ => cases hb

/-- An operator reads equal values as equal conditions. -/
theorem readCondition_alike (h : v.Alike ordered w) {x y : Condition}
    (hx : readCondition kind field op v = .ok x) (hy : readCondition kind field op w = .ok y) :
    (x == y) = true := by
  rw [Condition.beq_iff]
  cases op with
  -- Half of a range is no condition.
  | lower | upper => cases hx
  | null | notNull =>
    obtain ⟨b, hb, rfl⟩ := Outcome.map_eq_ok.mp hx
    obtain ⟨b', hb', rfl⟩ := Outcome.map_eq_ok.mp hy
    obtain rfl := readFlag_alike h hb hb'
    cases b <;> exact ⟨rfl, rfl⟩
  | like | findInSet =>
    obtain ⟨s, hs, rfl⟩ := Outcome.map_eq_ok.mp hx
    obtain ⟨t, ht, rfl⟩ := Outcome.map_eq_ok.mp hy
    obtain rfl := readText_alike h hs ht
    exact ⟨rfl, rfl⟩
  | isIn | notIn =>
    obtain ⟨xs, hxs, rfl⟩ := Outcome.map_eq_ok.mp hx
    obtain ⟨ys, hys, rfl⟩ := Outcome.map_eq_ok.mp hy
    exact ⟨rfl, readOperands_alike h hxs hys⟩
  | _ =>
    obtain ⟨o, ho, rfl⟩ := Outcome.map_eq_ok.mp hx
    obtain ⟨o', ho', rfl⟩ := Outcome.map_eq_ok.mp hy
    have hoperand : (o == o') = true := readOperand_alike h ho ho'
    exact ⟨rfl, by simp [Condition.operands, hoperand]⟩

theorem readRange_alike {l l' u u' : Value} (hl : l.Alike ordered l') (hu : u.Alike ordered u')
    {x y : Condition} (hx : readRange kind field l u = .ok x)
    (hy : readRange kind field l' u' = .ok y) : (x == y) = true := by
  obtain ⟨a, ha, hx⟩ := Outcome.bind_eq_ok.mp hx
  obtain ⟨b, hb, hx⟩ := Outcome.bind_eq_ok.mp hx
  obtain ⟨a', ha', hy⟩ := Outcome.bind_eq_ok.mp hy
  obtain ⟨b', hb', hy⟩ := Outcome.bind_eq_ok.mp hy
  obtain rfl := Except.ok.inj hx
  obtain rfl := Except.ok.inj hy
  have hlower : (a == a') = true := readOperand_alike hl ha ha'
  have hupper : (b == b') = true := readOperand_alike hu hb hb'
  exact Condition.beq_iff.mpr ⟨rfl, by simp [Condition.operands, hlower, hupper]⟩

def MatchesOperator (ordered : Bool) (x y : Operator × Value) : Prop :=
  x.1 = y.1 ∧ x.2.Alike ordered y.2

theorem readOperators_alike {xs ys : Arguments}
    (h : Paired ordered (Arguments.Matches ordered) xs ys) {ops ops' : List (Operator × Value)}
    (hops : readOperators kind field xs = .ok ops)
    (hops' : readOperators kind field ys = .ok ops') :
    Paired ordered (MatchesOperator ordered) ops ops' := by
  have hgiven : Paired ordered (Arguments.Matches ordered) (given xs) (given ys) :=
    h.filter fun x y hxy => congrArg not hxy.2.isNull_eq
  refine hgiven.transfer (readOperators_eq_ok.mp hops) (readOperators_eq_ok.mp hops') ?_
  rintro ⟨key, _⟩ _ ⟨key', _⟩ ⟨op, _⟩ ⟨op', _⟩ ⟨hkey, hvalue⟩ ⟨⟨_, hop⟩, rfl⟩ ⟨⟨_, hop'⟩, rfl⟩
  exact ⟨Operator.key_injective (hop.trans (hkey.trans hop'.symm)), hvalue⟩

/-- The ends of a range make the same condition in either order. -/
theorem readCombination_perm {ops ops' : List (Operator × Value)} (h : ops.Perm ops')
    {x : Condition} (hx : readCombination kind field ops = .ok x) :
    readCombination kind field ops' = .ok x := by
  rw [readCombination.eq_def] at hx
  split at hx
  · rcases List.pair_perm.mp h with rfl | rfl <;> exact hx
  · rcases List.pair_perm.mp h with rfl | rfl <;> exact hx
  · obtain rfl := List.singleton_perm.mp h
    rw [readCombination_single]
    exact hx
  · cases hx

/-- The two ends of a range may stand in any order; the condition is the same. -/
theorem readCombination_alike {ops ops' : List (Operator × Value)}
    (h : Paired ordered (MatchesOperator ordered) ops ops') {x y : Condition}
    (hx : readCombination kind field ops = .ok x) (hy : readCombination kind field ops' = .ok y) :
    (x == y) = true := by
  -- The second operators may be taken in the order of the first.
  obtain ⟨mid, hmid, hperm, _⟩ := h
  have hy : readCombination kind field mid = .ok y := readCombination_perm hperm.symm hy
  rw [readCombination.eq_def] at hx
  split at hx
  · obtain ⟨⟨_, l'⟩, _, ⟨rfl, hl⟩, hrest, rfl⟩ := List.forall₂_cons_left_iff.mp hmid
    obtain ⟨⟨_, u'⟩, _, ⟨rfl, hu⟩, hnil, rfl⟩ := List.forall₂_cons_left_iff.mp hrest
    obtain rfl := List.forall₂_nil_left_iff.mp hnil
    exact readRange_alike hl hu hx hy
  · obtain ⟨⟨_, u'⟩, _, ⟨rfl, hu⟩, hrest, rfl⟩ := List.forall₂_cons_left_iff.mp hmid
    obtain ⟨⟨_, l'⟩, _, ⟨rfl, hl⟩, hnil, rfl⟩ := List.forall₂_cons_left_iff.mp hrest
    obtain rfl := List.forall₂_nil_left_iff.mp hnil
    exact readRange_alike hl hu hx hy
  · obtain ⟨⟨_, v'⟩, _, ⟨rfl, hv⟩, hrest, rfl⟩ := List.forall₂_cons_left_iff.mp hmid
    obtain rfl := List.forall₂_nil_left_iff.mp hrest
    rw [readCombination_single] at hy
    exact readCondition_alike hv hx hy
  · cases hx

/-- Constraints of one field that are read of values that are alike. -/
theorem readConstraint_alike (h : v.Alike ordered w) {x y : Constraint}
    (hx : readConstraint kind field v = .ok x) (hy : readConstraint kind field w = .ok y) :
    (x == y) = true := by
  obtain ⟨entries, ops, rfl, hops, hcondition, hfield⟩ := readConstraint_eq_ok.mp hx
  obtain ⟨entries', ops', rfl, hops', hcondition', hfield'⟩ := readConstraint_eq_ok.mp hy
  obtain ⟨_, hentries, hpaired⟩ := h.of_object
  cases hentries
  have hoperators := readOperators_alike hpaired hops hops'
  exact Constraint.beq_iff.mpr ⟨hfield.trans hfield'.symm,
    readCombination_alike hoperators hcondition hcondition'⟩

/-- A join may be written as a name or as a text. -/
theorem namedJoin_alike (h : v.Alike ordered w) : namedJoin v = namedJoin w := by
  cases h with
  | @text _ _ s hv hw =>
    have hname : ∀ {u : Value}, u.characters? = some s →
        namedJoin u = if s = Join.any.name then .any else .all := by
      intro u hu
      cases u with
      | string t | enum t =>
        obtain rfl := Option.some.inj hu
        rfl
      | _ => cases hu
    rw [hname hv, hname hw]
  | _ => rfl

/-- Only fields that name a join make a difference to the join. -/
theorem joinFrom_filter (join : Join) (fields : Arguments) :
    joinFrom join fields = joinFrom join (fields.filter fun field => field.1 = joinKey) := by
  induction fields generalizing join with
  | nil => rfl
  | cons field fields ih =>
    rw [joinFrom, List.foldl_cons, ← joinFrom, List.filter_cons]
    by_cases hj : field.1 = joinKey
    · rw [if_pos hj, if_pos (decide_eq_true hj), ih, joinFrom, joinFrom, List.foldl_cons, if_pos hj]
    · rw [if_neg hj, if_neg (by simpa using hj), ih]

/-- Objects with each key once have the same join whatever the order of their fields. -/
theorem joinOf_alike {xs ys : Arguments} (hn : (xs.map Prod.fst).Nodup)
    (h : Paired ordered (Arguments.Matches ordered) xs ys) : joinOf xs = joinOf ys := by
  have hjoins : Paired ordered (Arguments.Matches ordered)
      (xs.filter fun field => field.1 = joinKey) (ys.filter fun field => field.1 = joinKey) :=
    h.filter fun x y hxy => by rw [hxy.1]
  have hkeys : ((xs.filter fun field => field.1 = joinKey).map Prod.fst).Nodup :=
    hn.sublist (List.filter_sublist.map Prod.fst)
  have hjoin : ∀ x ∈ xs.filter fun field => field.1 = joinKey, x.1 = joinKey := fun x hx =>
    of_decide_eq_true (List.mem_filter.mp hx).2
  rw [joinOf, joinOf, joinFrom_filter, joinFrom_filter .all ys]
  -- There is at most one such field.
  generalize xs.filter (fun field => field.1 = joinKey) = joins at hjoins hkeys hjoin
  generalize ys.filter (fun field => field.1 = joinKey) = joins' at hjoins
  rcases joins with _ | ⟨x, _ | ⟨x', rest⟩⟩
  · obtain rfl := hjoins.eq_nil
    rfl
  · obtain ⟨y, hxy, rfl⟩ := hjoins.of_single
    have hy : y.1 = joinKey := hxy.1 ▸ hjoin x (.head _)
    rw [joinFrom, joinFrom, List.foldl_cons, List.foldl_cons, if_pos (hjoin x (.head _)), if_pos hy,
      namedJoin_alike hxy.2]
  · have heq : x.1 = x'.1 := (hjoin x (.head _)).trans (hjoin x' (.tail _ (.head _))).symm
    rw [List.map_cons, List.nodup_cons] at hkeys
    exact absurd (heq ▸ .head _) hkeys.1

abbrev SameTrees (ordered : Bool) : FilterTree Constraint → FilterTree Constraint → Prop :=
  Alike ordered fun k k' => (k == k') = true

variable {c : Catalog} {e : Entity} {a : Attribute} {t u : FilterTree Constraint}
  {ts us : List (FilterTree Constraint)}

theorem SameTrees.below (path : String) (h : SameTrees ordered t u) :
    SameTrees ordered (t.map (Constraint.below path)) (u.map (Constraint.below path)) := by
  refine h.map fun k k' hk => ?_
  obtain ⟨hfield, hcondition⟩ := Constraint.beq_iff.mp hk
  exact Constraint.beq_iff.mpr ⟨congrArg (path ++ ·) hfield, hcondition⟩

/-- Trees that are the same impose the same on the record above a repeating attribute. -/
theorem belowAttribute_alike (h : SameTrees ordered t u) (ht : belowAttribute a t = .ok ts)
    (hu : belowAttribute a u = .ok us) : Paired ordered (SameTrees ordered) ts us := by
  cases hrep : a.repeating with
  | false =>
    obtain rfl := (belowAttribute_single hrep).mp ht
    obtain rfl := (belowAttribute_single hrep).mp hu
    exact .single h
  | true =>
    obtain ⟨kept, hkept, rfl⟩ := (belowAttribute_repeating hrep).mp ht
    obtain ⟨kept', hkept', rfl⟩ := (belowAttribute_repeating hrep).mp hu
    have hsimple := FilterTree.alike_simplify h
    rw [(FilterTree.perElement?_eq_some hkept).1, (FilterTree.perElement?_eq_some hkept').1]
      at hsimple
    cases hsimple with
    | none => exact .nil
    | some hs => exact .single hs

def ReadAlike (ordered : Bool) (c : Catalog) (v : Value) : Prop :=
  ∀ {e : Entity} {w : Value} {t u : FilterTree Constraint}, v.Keyed → v.Alike ordered w →
    readObject c e "" v = .ok t → readObject c e "" w = .ok u → SameTrees ordered t u

/-- Fields of one name give the same of values that are alike, if that holds of the filters in
them. -/
theorem gives_alike {key : String} (hkeyed : v.Keyed) (h : v.Alike ordered w)
    (hfield : ReadAlike ordered c v)
    (hitem : ∀ items, v = .list items → ∀ item ∈ items, ReadAlike ordered c item)
    (hts : Gives c e key v ts) (hus : Gives c e key w us) :
    Paired ordered (SameTrees ordered) ts us := by
  have hentity : ∀ {a : Attribute} {target : Entity}, Constrained e key v a →
      a.scalarKind? = none → c.entity? a.typeName = some target →
      Paired ordered (SameTrees ordered) ts us := by
    intro a target hcon hkind htarget
    have hcon' : Constrained e key w a := { hcon with not_null := h.isNull_eq ▸ hcon.not_null }
    obtain ⟨t, ht, hts⟩ := (gives_entity hcon hkind htarget).mp hts
    obtain ⟨u, hu, hus⟩ := (gives_entity hcon' hkind htarget).mp hus
    have hread : SameTrees ordered t u := hfield hkeyed h ht hu
    exact belowAttribute_alike (hread.below (key ++ ".")) hts hus
  -- On the rule by which the first field gives what it gives; the other one falls under the same.
  cases hts with
  | join _ =>
    have hus := readField_of_gives hus
    rw [readField_join] at hus
    obtain ⟨_, _, rfl⟩ := Outcome.map_eq_ok.mp hus
    exact .nil
  | noChildren =>
    obtain rfl := h.of_null
    have hnone : Gives c e childrenKey .null [] := .noChildren
    obtain rfl := Except.ok.inj ((readField_of_gives hnone).symm.trans (readField_of_gives hus))
    exact .nil
  | child hread =>
    obtain ⟨_, rfl, _⟩ := h.of_object
    obtain ⟨u, hu, rfl⟩ := gives_child.mp hus
    exact .single (hfield hkeyed h hread hu)
  | @children items _ hread =>
    obtain ⟨items', rfl, hitems⟩ := h.of_list
    have hpaired : Paired ordered (Value.Alike ordered) items items' := .of_forall₂ hitems
    have hkeyeds : ∀ item ∈ items, Value.Keyed item := by
      cases hkeyed with
      | list hkeyeds => exact hkeyeds
    exact hpaired.transfer hread (gives_children.mp hus) fun item hi _ _ _ halike ht hu =>
      hitem _ rfl item hi (hkeyeds item hi) halike ht hu
  | absent hj hc ha =>
    obtain rfl := h.of_null
    have habsent : Gives c e key .null [] := .absent hj hc ha
    obtain rfl := Except.ok.inj ((readField_of_gives habsent).symm.trans (readField_of_gives hus))
    exact .nil
  | @scalar _ _ a kind k hcon hkind hread =>
    have hcon' : Constrained e key w a := { hcon with not_null := h.isNull_eq ▸ hcon.not_null }
    have hus := readField_of_gives hus
    rw [readField_constrained c "" hcon', String.empty_append, readAttribute_scalar c key w hkind]
      at hus
    obtain ⟨k', hread', rfl⟩ := Outcome.map_eq_ok.mp hus
    exact .single (.leaf (readConstraint_alike h hread (Outcome.mapError_eq_ok.mp hread')))
  | single hcon hkind htarget _ _ => exact hentity hcon hkind htarget
  | repeating hcon hkind htarget _ _ _ => exact hentity hcon hkind htarget

/-- Filter objects that are alike are read as trees that are alike. -/
theorem alike_readObject (c : Catalog) (v : Value) : ReadAlike ordered c v := by
  induction v using Value.filter_induction with
  | other v hv =>
    intro e w t u _ _ ht _
    obtain ⟨fields, rfl⟩ := isObject_of_readObject ht
    cases hv
  | object fields ihfield ihitem =>
    intro e w t u hkeyed h ht hu
    obtain ⟨fields', rfl, hpaired⟩ := h.of_object
    obtain ⟨trees, htrees, rfl⟩ := readObject_gives.mp ht
    obtain ⟨trees', htrees', rfl⟩ := readObject_gives.mp hu
    cases hkeyed with
    | object hnames hvalues =>
      have hfields : Paired ordered (Paired ordered (SameTrees ordered)) trees trees' := by
        refine hpaired.transfer htrees htrees' ?_
        rintro ⟨key, value⟩ hf ⟨_, value'⟩ ts us ⟨rfl, hvalue⟩ hts hus
        exact gives_alike (hvalues _ hf) hvalue (ihfield _ hf) (ihitem _ hf) hts hus
      rw [joinOf_alike hnames hpaired]
      exact alike_node hfields.flatten

abbrev SameGroups (ordered : Bool) : List FilterGroup → List FilterGroup → Prop :=
  Paired ordered (Paired ordered fun k k' : Constraint => (k == k') = true)

/-- In order, the same groups are equal groups. -/
theorem sameGroups_true_iff {groups groups' : List FilterGroup} :
    SameGroups true groups groups' ↔ (groups == groups') = true := by
  have hgroup : ∀ {g g' : FilterGroup},
      Paired true (fun k k' : Constraint => (k == k') = true) g g' ↔ (g == g') = true :=
    Paired.true_iff.trans beq_list_iff.symm
  rw [SameGroups, Paired.true_iff, beq_list_iff]
  exact ⟨fun h => h.imp fun _ _ => hgroup.mp, fun h => h.imp fun _ _ => hgroup.mpr⟩

/-- Filters of equal values have the same groups, up to order where fields may be in any order. -/
theorem compile_alike (hkeyed : v.Keyed) (h : v.Alike ordered w) {groups groups' : List FilterGroup}
    (hv : compile c e v = .ok groups) (hw : compile c e w = .ok groups') :
    SameGroups ordered groups groups' := by
  rcases compile_eq_ok.mp hv with ⟨rfl, rfl⟩ | ⟨t, ht, hgroups⟩
  · obtain rfl := h.of_null
    obtain rfl := Except.ok.inj ((compile_null c e).symm.trans hw)
    exact .nil
  · rcases compile_eq_ok.mp hw with ⟨rfl, rfl⟩ | ⟨u, hu, hgroups'⟩
    · obtain ⟨fields, rfl⟩ := isObject_of_readObject ht
      obtain ⟨_, hnull, _⟩ := h.of_object
      cases hnull
    · exact FilterTree.alike_groups? (alike_readObject c v hkeyed h ht hu) hgroups hgroups'

/-- Filters of equal values on bare scalars have the same groups. -/
theorem compileScalar_alike (h : v.Alike ordered w) {groups groups' : List FilterGroup}
    (hv : compileScalar kind v = .ok groups) (hw : compileScalar kind w = .ok groups') :
    SameGroups ordered groups groups' := by
  rw [compileScalar] at hv hw
  rw [← h.isNull_eq] at hw
  split at hv
  · next hnull =>
    rw [if_pos hnull] at hw
    obtain rfl := Except.ok.inj hv
    obtain rfl := Except.ok.inj hw
    exact .nil
  · next hnull =>
    rw [if_neg hnull] at hw
    obtain ⟨k, hread, hv⟩ := Outcome.bind_eq_ok.mp hv
    obtain ⟨k', hread', hw⟩ := Outcome.bind_eq_ok.mp hw
    obtain rfl := Except.ok.inj hv
    obtain rfl := Except.ok.inj hw
    exact .single (.single (readConstraint_alike h hread hread'))

end EntityGraph.Filter
