import EntityGraph.Proofs.Filter.EqualValues
import EntityGraph.Proofs.Request.Fits

namespace EntityGraph

namespace Arguments

/-- The value of an argument; one that is not given is null. -/
def value (xs : Arguments) (name : String) : Value := (xs.lookup name).getD .null

variable {ordered : Bool} {xs ys : Arguments}

theorem lookup_eq_some (h : (xs.map Prod.fst).Nodup) {name : String} {v : Value} :
    xs.lookup name = some v ↔ (name, v) ∈ xs := by
  refine ⟨Keyed.mem_of_lookup, fun hm => ?_⟩
  obtain ⟨before, after, rfl⟩ := List.append_of_mem hm
  rw [List.map_append, List.map_cons, List.nodup_append] at h
  refine List.lookup_eq_some_iff.mpr ⟨before, after, rfl, fun x hx => ?_⟩
  exact bne_iff_ne.mpr (h.2.2 x.1 (List.mem_map_of_mem hx) name (.head _)).symm

theorem nodup_of_paired (hx : (xs.map Prod.fst).Nodup)
    (h : Paired ordered (Matches ordered) xs ys) : (ys.map Prod.fst).Nodup := by
  obtain ⟨zs, hzs, hperm, _⟩ := h
  rw [← (hperm.map Prod.fst).nodup_iff, ← (Value.forall₂_matches.mp hzs).1]
  exact hx

/-- Arguments that are alike give alike values by name. -/
theorem value_alike (hx : (xs.map Prod.fst).Nodup) (h : Paired ordered (Matches ordered) xs ys)
    (name : String) : (xs.value name).Alike ordered (ys.value name) := by
  have hy := nodup_of_paired hx h
  rw [value, value]
  cases hlookup : xs.lookup name with
  | some v =>
    obtain ⟨⟨_, w⟩, hm, rfl, hvw⟩ := h.exists_right ((lookup_eq_some hx).mp hlookup)
    rw [(lookup_eq_some hy).mpr hm]
    exact hvw
  | none =>
    cases hlookup' : ys.lookup name with
    | some w =>
      obtain ⟨⟨_, v⟩, hm, rfl, _⟩ := h.exists_left ((lookup_eq_some hy).mp hlookup')
      cases hlookup.symm.trans ((lookup_eq_some hx).mpr hm)
    | none => exact .null

/-- Arguments that are the same have like values under every name. -/
theorem value_alike_of_same (hkeyed : Value.Keyed (.object xs)) (h : xs.same ys = true)
    (name : String) : (xs.value name).Alike false (ys.value name) := by
  cases hkeyed with
  | object hnames hvalues => exact value_alike hnames (paired_of_same hnames hvalues h) name

theorem keyed_value (h : Value.Keyed (.object xs)) (name : String) : (xs.value name).Keyed := by
  rw [value]
  cases hlookup : xs.lookup name with
  | none => exact .null
  | some v =>
    cases h with
    | object _ hvalues => exact hvalues _ (Keyed.mem_of_lookup hlookup)

theorem value_append {x : String × Value} (hx : x.1 ∉ xs.map Prod.fst) (name : String) :
    value (xs ++ [x]) name = if x.1 = name then x.2 else xs.value name := by
  rw [value, value, List.lookup_append]
  by_cases hname : x.1 = name
  · have hnone : xs.lookup name = none := by
      rw [Keyed.lookup_eq_find?, Keyed.find?_eq_none.mpr (hname ▸ hx)]
      rfl
    have hlast : [x].lookup name = some x.2 := by
      rw [List.lookup_cons, beq_iff_eq.mpr hname.symm]
    rw [hnone, Option.none_or, hlast, if_pos hname, Option.getD_some]
  · have hnone : [x].lookup name = none := by
      rw [List.lookup_cons, beq_false_of_ne (Ne.symm hname)]
      rfl
    rw [hnone, Option.or_none, if_neg hname]

end Arguments

namespace Planning

variable {c : Catalog} {ordered : Bool}

/-- An argument of the window; it is of no effect on an attribute that does not repeat. -/
def windowArgument (a : Attribute) (name : String) (v : Value) : Except Error (Option Int) :=
  if a.repeating then intArgument a.name name v else .ok none

structure Reads (a : Attribute) (xs : Arguments) (s : Scope) : Prop where
  start : windowArgument a "start" (xs.value "start") = .ok s.start
  limit : windowArgument a "limit" (xs.value "limit") = .ok s.limit
  filter : s.filter = xs.value "filter"

theorem reads_nil (a : Attribute) : Reads a [] ⟨none, none, .null⟩ := by
  have hnone : ∀ name, windowArgument a name .null = .ok none := by
    intro name
    rw [windowArgument]
    split <;> rfl
  exact ⟨hnone _, hnone _, rfl⟩

/-- One more argument, of a name of its own. -/
theorem reads_append {a : Attribute} {xs : Arguments} {x : String × Value} {s s' : Scope}
    (hs : Reads a xs s) (hx : x.1 ∉ xs.map Prod.fst) (h : readArgument a s x = .ok s') :
    Reads a (xs ++ [x]) s' := by
  obtain ⟨name, v⟩ := x
  -- The names that it does not have keep their values.
  have hother : ∀ other, name ≠ other → Arguments.value (xs ++ [(name, v)]) other =
      xs.value other := fun other hname => (Arguments.value_append hx other).trans (if_neg hname)
  have hown : Arguments.value (xs ++ [(name, v)]) name = v :=
    (Arguments.value_append hx name).trans (if_pos rfl)
  rw [readArgument] at h
  split at h
  · next hwindow =>
    have hfilter : name ≠ "filter" := by
      rcases hwindow with rfl | rfl <;> decide
    cases hrep : a.repeating with
    | false =>
      -- Such an argument is passed over.
      rw [hrep, Bool.not_false, if_pos rfl] at h
      obtain rfl := Except.ok.inj h
      have hnone : ∀ other w, windowArgument a other w = .ok none := by
        intro other w
        rw [windowArgument, hrep]
        rfl
      have hstart : s.start = none := Except.ok.inj (hs.start.symm.trans (hnone _ _))
      have hlimit : s.limit = none := Except.ok.inj (hs.limit.symm.trans (hnone _ _))
      exact ⟨hstart ▸ hnone _ _, hlimit ▸ hnone _ _, hs.filter.trans (hother _ hfilter).symm⟩
    | true =>
      rw [hrep, Bool.not_true, if_neg Bool.false_ne_true] at h
      obtain ⟨n, hn, rfl⟩ := Outcome.map_eq_ok.mp h
      have hread : windowArgument a name v = .ok n := by
        rw [windowArgument, hrep]
        exact hn
      rcases hwindow with rfl | rfl
      · refine ⟨?_, ?_, hs.filter.trans (hother _ hfilter).symm⟩
        · rw [hown]
          exact hread
        · rw [hother _ (by decide)]
          exact hs.limit
      · refine ⟨?_, ?_, hs.filter.trans (hother _ hfilter).symm⟩
        · rw [hother _ (by decide)]
          exact hs.start
        · rw [hown]
          exact hread
  · next hwindow =>
    rw [not_or] at hwindow
    split at h
    · next hfilter =>
      obtain rfl : name = "filter" := hfilter.1
      obtain rfl := Except.ok.inj h
      refine ⟨?_, ?_, hown.symm⟩
      · rw [hother _ hwindow.1]
        exact hs.start
      · rw [hother _ hwindow.2]
        exact hs.limit
    · cases h

/-- The loop over the arguments comes to three look-ups, since no name stands twice. -/
theorem reads_of_readArguments {a : Attribute} {xs : Arguments} {s : Scope}
    (hn : (xs.map Prod.fst).Nodup) (h : readArguments a xs = .ok s) : Reads a xs s := by
  refine Outcome.of_foldlM_along (I := Reads a) ?_ (reads_nil a) h
  intro done x after s₀ s₁ hxs hdone hs₁
  have hx : x.1 ∉ done.map Prod.fst := by
    rw [hxs, List.map_append, List.map_cons, List.nodup_append] at hn
    exact fun hm => hn.2.2 x.1 hm x.1 (.head _) rfl
  exact reads_append hdone hx hs₁

/-- Like values are read as one number. -/
theorem intArgument_alike {v w : Value} (h : v.Alike ordered w) {field name : String}
    {m n : Option Int} (hm : intArgument field name v = .ok m)
    (hn : intArgument field name w = .ok n) : m = n := by
  cases h with
  | null => exact Except.ok.inj (hm.symm.trans hn)
  | number hnumber =>
    rcases Number.beq_cases hnumber with ⟨i, rfl, rfl⟩ | ⟨x, y, rfl, rfl, _⟩
    · exact Except.ok.inj (hm.symm.trans hn)
    · cases hm
  | @text _ _ s hv hw =>
    cases v with
    | string _ | enum _ => cases hm
    | _ => cases hv
  | _ => cases hm

theorem windowArgument_alike {a : Attribute} {name : String} {v w : Value}
    (h : v.Alike ordered w) {m n : Option Int} (hm : windowArgument a name v = .ok m)
    (hn : windowArgument a name w = .ok n) : m = n := by
  rw [windowArgument] at hm hn
  split at hm
  · next hrep =>
    rw [if_pos hrep] at hn
    exact intArgument_alike h hm hn
  · next hrep =>
    rw [if_neg hrep] at hn
    exact Except.ok.inj (hm.symm.trans hn)

/-- Arguments that are the same are read as one window. -/
theorem readWindow_of_same {a : Attribute} {xs ys : Arguments} (hkeyed : Value.Keyed (.object xs))
    (h : xs.same ys = true) {s s' : Scope} (hs : readArguments a xs = .ok s)
    (hs' : readArguments a ys = .ok s') : readWindow a s = readWindow a s' := by
  cases hkeyed with
  | object hnames hvalues =>
    have hpaired := Arguments.paired_of_same hnames hvalues h
    have hreads := reads_of_readArguments hnames hs
    have hreads' := reads_of_readArguments (Arguments.nodup_of_paired hnames hpaired) hs'
    have hvalue := Arguments.value_alike_of_same (.object hnames hvalues) h
    have hstart : s.start = s'.start :=
      windowArgument_alike (hvalue "start") hreads.start hreads'.start
    have hlimit : s.limit = s'.limit :=
      windowArgument_alike (hvalue "limit") hreads.limit hreads'.limit
    rw [readWindow, readWindow, hstart, hlimit]

/-- Fields that name an attribute with the same arguments name it with the same window, and with
filters that are as alike as the values given for them. -/
theorem Names.of_same {e : Entity} {name : String} {xs ys : Arguments} {x y : AttributeRequest}
    {target target' : Option Entity} (hkeyed : Value.Keyed (.object xs)) (h : xs.same ys = true)
    (hfilter : (xs.value "filter").Alike ordered (ys.value "filter"))
    (hx : Names c e name xs x target) (hy : Names c e name ys y target') :
    x.window = y.window ∧ Filter.SameGroups ordered x.filter y.filter := by
  have hvalue : (xs.value "filter").Keyed := Arguments.keyed_value hkeyed _
  have hread : ∀ {a : Attribute} {s s' : Scope} {window window' : Option Window},
      readArguments a xs = .ok s → readArguments a ys = .ok s' →
      readWindow a s = .ok window → readWindow a s' = .ok window' →
      window = window' ∧ s.filter.Keyed ∧ s.filter.Alike ordered s'.filter := by
    intro a s s' window window' hs hs' hwindow hwindow'
    have hsame := readWindow_of_same hkeyed h hs hs'
    cases hkeyed with
    | object hnames hvalues =>
      have hys := Arguments.nodup_of_paired hnames (Arguments.paired_of_same hnames hvalues h)
      rw [(reads_of_readArguments hnames hs).filter, (reads_of_readArguments hys hs').filter]
      exact ⟨Except.ok.inj (hwindow.symm.trans (hsame.trans hwindow')), hvalue, hfilter⟩
  -- Both fields name one attribute, and its type says how the filters are compiled.
  cases hx with
  | scalar ha hs hwindow hk hgroups =>
    cases hy with
    | scalar ha' hs' hwindow' hk' hgroups' =>
      obtain rfl := Option.some.inj (ha.symm.trans ha')
      obtain rfl := Option.some.inj (hk.symm.trans hk')
      obtain ⟨rfl, _, halike⟩ := hread hs hs' hwindow hwindow'
      exact ⟨rfl, Filter.compileScalar_alike halike hgroups hgroups'⟩
    | entity ha' _ _ hk' =>
      obtain rfl := Option.some.inj (ha.symm.trans ha')
      cases hk.symm.trans hk'
  | entity ha hs hwindow hk htarget hgroups =>
    cases hy with
    | scalar ha' _ _ hk' =>
      obtain rfl := Option.some.inj (ha.symm.trans ha')
      cases hk.symm.trans hk'
    | entity ha' hs' hwindow' hk' htarget' hgroups' =>
      obtain rfl := Option.some.inj (ha.symm.trans ha')
      obtain rfl := Option.some.inj (htarget.symm.trans htarget')
      obtain ⟨rfl, hfilterKeyed, halike⟩ := hread hs hs' hwindow hwindow'
      exact ⟨rfl, Filter.compile_alike hfilterKeyed halike hgroups hgroups'⟩

end Planning

end EntityGraph
