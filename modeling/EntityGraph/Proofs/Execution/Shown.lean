import EntityGraph.Proofs.Execution.Scalars
import EntityGraph.Proofs.Filter.Lists

namespace EntityGraph

def Operand.data : Operand → Json
  | .boolean b => .bool b
  | .int n => .int n
  | .float x => .number (.float x)
  | .string s => .string s

namespace Filter

variable {kind : ScalarKind} {v : AttributeValue} {x y : Operand} {k : Json}

def equals (k : Json) : Value := .object [("eq", .ofJson k)]

def equalsGroups (x : Operand) : List FilterGroup := [[⟨"", .eq x⟩]]

/-- A filter by equality is read as one constraint with the operand of its kind. -/
theorem readConstraint_equals {field : String} {c : Constraint} :
    readConstraint kind field (equals k) = .ok c ↔
      ∃ x, operand? kind (.ofJson k) = some x ∧ ⟨field, .eq x⟩ = c := by
  have hmem : Operator.eq ∈ Operator.vocabulary kind := by cases kind <;> decide
  change readConstraint kind field (single .eq (.ofJson k)) = .ok c ↔ _
  constructor
  · intro h
    obtain ⟨_, condition, hcondition, rfl⟩ := readConstraint_single.mp h
    obtain ⟨x, hx, rfl⟩ := Outcome.map_eq_ok.mp hcondition
    exact ⟨x, readOperand_eq_ok.mp hx, rfl⟩
  · rintro ⟨x, hx, rfl⟩
    exact read_one rfl hmem hx

/-- It compiles to one group of one constraint. -/
theorem compileScalar_equals {groups : List FilterGroup} :
    compileScalar kind (equals k) = .ok groups ↔
      ∃ x, operand? kind (.ofJson k) = some x ∧ equalsGroups x = groups := by
  have hnull : (equals k).isNull = false := rfl
  rw [compileScalar, hnull, if_neg Bool.false_ne_true]
  constructor
  · intro h
    obtain ⟨c, hc, h⟩ := Outcome.bind_eq_ok.mp h
    obtain ⟨x, hx, rfl⟩ := readConstraint_equals.mp hc
    exact ⟨x, hx, Except.ok.inj h⟩
  · rintro ⟨x, hx, rfl⟩
    exact Outcome.bind_eq_ok.mpr ⟨_, readConstraint_equals.mpr ⟨x, hx, rfl⟩, rfl⟩

/-- On a value that is no list the group admits what compares as equal. -/
theorem admitsValue_equalsGroups [RegexLibrary] (hv : ∀ items, v ≠ .list items) :
    admitsValue (equalsGroups x) v = true ↔ compare? v x = some .eq := by
  have hholds : admitsValue (equalsGroups x) v = holds (.eq x) v := by
    simp [admitsValue, equalsGroups]
  rw [hholds]
  cases v with
  | list items => exact absurd rfl (hv items)
  | _ => simp [holds, holdsSingle]

inductive Takes : ScalarKind → Operand → Prop
  | string (s : String) : Takes .string (.string s)
  | id (s : String) : Takes .id (.string s)
  | int (n : Int) : Takes .int (.int n)
  | float (x : Float) : Takes .float (.float x)
  | boolean (b : Bool) : Takes .boolean (.boolean b)

theorem takes_of_operand? {w : Value} (h : operand? kind w = some x) : Takes kind x := by
  rw [operand?.eq_def] at h
  split at h
  · exact Option.some.inj h ▸ .string _
  · exact Option.some.inj h ▸ .id _
  · exact Option.some.inj h ▸ .id _
  · obtain ⟨n, _, rfl⟩ := Option.map_eq_some_iff.mp h
    exact .int n
  · exact Option.some.inj h ▸ .float _
  · exact Option.some.inj h ▸ .boolean _
  · cases h

end Filter

namespace Rendering

variable {kind : ScalarKind} {v : AttributeValue} {j k : Json} {x y : Operand}

/-- Data is a filter's operand for what is shown: the same data, and for an id also the integer of
its digits. -/
inductive Denotes : ScalarKind → Json → Json → Prop
  | same (kind : ScalarKind) (j : Json) : Denotes kind j j
  | digits (n : Int) : Denotes .id (.int n) (.string (toString n))

/-- Stored data that no filter of a scalar type compares, although it is shown in the form of the
type: truth values as texts, and integers as truth values. -/
inductive Converted : ScalarKind → AttributeValue → Prop
  | text (b : Bool) : Converted .string (.boolean b)
  | truth (n : Int64) : Converted .boolean (.int n)

inductive Padded : ScalarKind → AttributeValue → Prop
  | text {s : String} : Text.trimText s ≠ s → Padded .int (.string s)

theorem operand?_int {n : Int} (h : Filter.operand? .int (.ofJson (.int n)) = some x) :
    x = .int n := by
  obtain ⟨m, hm, rfl⟩ := Option.map_eq_some_iff.mp h
  rw [Number.int64?] at hm
  split at hm
  · rw [Option.some.inj hm]
  · cases hm

/-- What is shown is an operand of a filter. -/
theorem exists_operand? (hj : IsScalar kind j) :
    ∃ x, Filter.operand? kind (.ofJson j) = some x := by
  cases hj with
  | @int n hfits =>
    refine ⟨.int n, ?_⟩
    simp [Json.int, Value.ofJson, Filter.operand?, Number.int64?, hfits]
  | _ => exact ⟨_, rfl⟩

theorem operand?_of_denotes (h : Denotes kind k j)
    (hx : Filter.operand? kind (.ofJson j) = some x) :
    Filter.operand? kind (.ofJson k) = some x := by
  cases h with
  | same => exact hx
  | digits n => exact hx

/-- An operand shows what it was read from, except for floats. -/
theorem denotes_data (hkind : kind ≠ .float) (h : Filter.operand? kind (.ofJson k) = some y) :
    Denotes kind k y.data := by
  cases k with
  | string s => cases kind with
    -- Integers are also ids, by their digits.
    | string | id =>
      obtain rfl := Option.some.inj h
      exact .same ..
    | _ => cases h
  | number n => cases n with
    | integer n => cases kind with
      | id =>
        obtain rfl := Option.some.inj h
        exact .digits n
      | int =>
        obtain rfl := operand?_int h
        exact .same ..
      | float => exact absurd rfl hkind
      | _ => cases h
    | float x => cases kind with
      | float => exact absurd rfl hkind
      | _ => cases h
  | bool b => cases kind with
    | boolean =>
      obtain rfl := Option.some.inj h
      exact .same ..
    | _ => cases h
  | _ => cases kind <;> cases h

/-- What is shown as a scalar is no list. -/
theorem ne_list_of_scalar? (h : scalar? kind v = some j) (items : List AttributeValue) :
    v ≠ .list items := by
  rintro rfl
  cases kind <;> cases h

/-- An operand that compares equal to stored data is what is shown of the data. The operands that
filters take follow the type, and so does what is shown: their pairs are gone through. -/
theorem data_of_compare? (hkind : kind ≠ .float) (hv : ∀ x, v ≠ .float x)
    (h : scalar? kind v = some j) (hy : Filter.Takes kind y)
    (heq : Filter.compare? v y = some .eq) : y.data = j := by
  cases v with
  | string s => cases hy with
    | string t | id t =>
      rw [Filter.compare?, Option.some.injEq, Std.compare_eq_iff_eq] at heq
      obtain rfl := Option.some.inj h
      rw [heq, Operand.data]
    | int m =>
      -- What a filter reads has no blanks, so that the response shows the same integer.
      obtain ⟨n, hn, heq⟩ := Option.map_eq_some_iff.mp heq
      rw [Std.compare_eq_iff_eq] at heq
      have hread := Outcome.toOption_eq_some.mp hn
      rw [scalar?, Text.trimText_of_readInt64 hread, hn] at h
      obtain rfl := Option.some.inj h
      rw [heq, Operand.data]
    | float x => exact absurd rfl hkind
    | boolean b => cases h
  | int n => cases hy with
    | string t | id t =>
      rw [Filter.compare?, Option.some.injEq, Std.compare_eq_iff_eq] at heq
      obtain rfl := Option.some.inj h
      rw [heq, Operand.data]
    | int m =>
      rw [Filter.compare?, Option.some.injEq, Std.compare_eq_iff_eq] at heq
      obtain rfl := Option.some.inj h
      rw [heq, Operand.data]
    | float x => exact absurd rfl hkind
    | boolean b => cases heq
  | boolean b => cases hy with
    | boolean b' =>
      rw [Filter.compare?, Option.some.injEq, Std.compare_eq_iff_eq] at heq
      obtain rfl := Option.some.inj h
      rw [heq, Operand.data]
    | _ => cases heq
  | float x => exact absurd rfl (hv x)
  | _ => cases kind <;> cases h

/-- What is shown of stored data compares equal to it, unless the data is converted or padded. -/
theorem compare?_shown (hkind : kind ≠ .float) (hv : ∀ x, v ≠ .float x)
    (h : scalar? kind v = some j) (hx : Filter.operand? kind (.ofJson j) = some x)
    (hconverted : ¬ Converted kind v) (hpadded : ¬ Padded kind v) :
    Filter.compare? v x = some .eq := by
  cases v with
  | string s => cases kind with
    | string | id =>
      obtain rfl := Option.some.inj h
      obtain rfl := Option.some.inj hx
      rw [Filter.compare?, Std.compare_self]
    | int =>
      -- The comparison reads the text as it is, the rendering trims it first.
      have htrim : Text.trimText s = s := not_not.mp fun hne => hpadded (.text hne)
      obtain ⟨n, hn, rfl⟩ := Option.map_eq_some_iff.mp h
      obtain rfl := operand?_int hx
      rw [htrim] at hn
      rw [Filter.compare?, hn, Option.map_some, Std.compare_self]
    | float => exact absurd rfl hkind
    | boolean => cases h
  | int n => cases kind with
    | string | id =>
      obtain rfl := Option.some.inj h
      obtain rfl := Option.some.inj hx
      rw [Filter.compare?, Std.compare_self]
    | int =>
      obtain rfl := Option.some.inj h
      obtain rfl := operand?_int hx
      rw [Filter.compare?, Std.compare_self]
    | float => exact absurd rfl hkind
    -- Other kinds show what they cannot be compared with.
    | boolean => exact absurd (.truth n) hconverted
  | boolean b => cases kind with
    | string => exact absurd (.text b) hconverted
    | boolean =>
      obtain rfl := Option.some.inj h
      obtain rfl := Option.some.inj hx
      rw [Filter.compare?, Std.compare_self]
    | _ => cases h
  | float x => exact absurd rfl (hv x)
  | _ => cases kind <;> cases h

/-- Nothing compares equal to stored data that is converted. -/
theorem compare?_converted (h : Converted kind v) (hy : Filter.Takes kind y) :
    Filter.compare? v y ≠ some .eq := by
  cases h <;> cases hy <;> simp [Filter.compare?]

/-- Stored data that is shown is found by a filter for what is shown, unless it is converted, when
no filter for one value finds it, or padded; and no filter for anything else finds it. -/
theorem admits_shown [RegexLibrary] (hkind : kind ≠ .float) (hv : ∀ x, v ≠ .float x)
    (h : scalar? kind v = some j) :
    ∃ groups, Filter.compileScalar kind (Filter.equals j) = .ok groups ∧
      (¬ Converted kind v → ¬ Padded kind v → Filter.admitsValue groups v = true) ∧
      (Converted kind v → Filter.admitsValue groups v = false) ∧
      ∀ k others, Filter.compileScalar kind (Filter.equals k) = .ok others →
        (Denotes kind k j → others = groups) ∧
        (¬ Denotes kind k j → Filter.admitsValue others v = false) := by
  have hlist := ne_list_of_scalar? h
  obtain ⟨x, hx⟩ := exists_operand? (isScalar_scalar? h)
  refine ⟨Filter.equalsGroups x, Filter.compileScalar_equals.mpr ⟨x, hx, rfl⟩, ?_, ?_, ?_⟩
  · intro hconverted hpadded
    rw [Filter.admitsValue_equalsGroups hlist]
    exact compare?_shown hkind hv h hx hconverted hpadded
  · intro hconverted
    rw [Bool.eq_false_iff, Ne, Filter.admitsValue_equalsGroups hlist]
    exact compare?_converted hconverted (Filter.takes_of_operand? hx)
  · intro k others hothers
    obtain ⟨y, hy, rfl⟩ := Filter.compileScalar_equals.mp hothers
    constructor
    · intro hdenotes
      have hsame := operand?_of_denotes hdenotes hx
      rw [Option.some.inj (hy.symm.trans hsame)]
    · intro hdenotes
      rw [Bool.eq_false_iff, Ne, Filter.admitsValue_equalsGroups hlist]
      intro heq
      -- Else the other value would be what is shown.
      have hdata := data_of_compare? hkind hv h (Filter.takes_of_operand? hy) heq
      exact hdenotes (hdata ▸ denotes_data hkind hy)

/-- A text with a zero in front is shown as an integer, and found by it. -/
theorem admits_shown_seven : scalar? .int (.string "07") = some (.int 7) ∧
    ∃ groups, Filter.compileScalar .int (Filter.equals (.int 7)) = .ok groups ∧
      Filter.admitsValue groups (.string "07") = true := by
  have h : scalar? .int (.string "07") = some (.int 7) := by rfl
  obtain ⟨groups, hgroups, hfound, _⟩ := admits_shown (by decide) (by simp) h
  refine ⟨h, groups, hgroups, hfound (fun hconverted => nomatch hconverted) ?_⟩
  rintro ⟨hne⟩
  exact hne rfl

/-- A truth value shown as a text is not found by the text, and an id is also found by the integer
of its digits. -/
theorem not_found_by_shown :
    (scalar? .string (.boolean true) = some (.string "true") ∧
      Filter.compileScalar .string (Filter.equals (.string "true")) =
        .ok (Filter.equalsGroups (.string "true")) ∧
      Filter.admitsValue (Filter.equalsGroups (.string "true")) (.boolean true) = false) ∧
    scalar? .id (.string "5") = some (.string "5") ∧ Json.int 5 ≠ .string "5" ∧
      Filter.compileScalar .id (Filter.equals (.int 5)) =
        .ok (Filter.equalsGroups (.string "5")) ∧
      Filter.admitsValue (Filter.equalsGroups (.string "5")) (.string "5") = true := by
  refine ⟨⟨rfl, rfl, rfl⟩, rfl, by simp [Json.int], ?_, ?_⟩
  · exact Filter.compileScalar_equals.mpr ⟨_, rfl, rfl⟩
  · rfl

end Rendering

end EntityGraph
