import EntityGraph.Proofs.Execution.Repeated

namespace EntityGraph

namespace Keyed

variable {α κ : Type} [DecidableEq κ] {key : α → κ}

def firsts (key : α → κ) (xs : List α) : List α :=
  xs.foldl (fun done a => if key a ∈ done.map key then done else done ++ [a]) []

/-- A later occurrence of a key changes nothing, a new key comes last. -/
theorem firsts_concat (xs : List α) (a : α) : firsts key (xs ++ [a]) =
    if key a ∈ (firsts key xs).map key then firsts key xs else firsts key xs ++ [a] := by
  rw [firsts, List.foldl_append]
  rfl

theorem mem_of_mem_firsts {xs : List α} {a : α} (h : a ∈ firsts key xs) : a ∈ xs := by
  induction xs using List.reverseRecOn with
  | nil => exact h
  | append_singleton xs b ih =>
    rw [firsts_concat] at h
    split at h
    · exact List.mem_append_left _ (ih h)
    · exact (List.mem_append.mp h).elim (fun h => List.mem_append_left _ (ih h))
        (List.mem_append_right _)

/-- The keys of the first items are all the keys, each where it comes first. -/
theorem map_firsts (xs : List α) : (firsts key xs).map key = ofList id (xs.map key) := by
  induction xs using List.reverseRecOn with
  | nil => rfl
  | append_singleton xs a ih =>
    have hlast : ofList id ((xs ++ [a]).map key) =
        insert id (key a) ((firsts key xs).map key) := by
      rw [ih, List.map_append, ofList, List.foldl_append]
      rfl
    rw [hlast, insert_id, firsts_concat]
    split
    · rfl
    · rw [List.map_append]
      rfl

end Keyed

/-- A run with a step that always fails does fail. -/
theorem Outcome.foldlM_of_mem_error {ε α β : Type} {f : β → α → Except ε β} {xs : List α} {a : α}
    (ha : a ∈ xs) (hfail : ∀ b, ∃ err, f b a = .error err) (b : β) :
    ∃ err, xs.foldlM f b = .error err := by
  induction xs generalizing b with
  | nil => cases ha
  | cons x xs ih =>
    rw [List.foldlM_cons]
    cases hx : f b x with
    | error err => exact ⟨err, rfl⟩
    | ok b' =>
      rcases List.mem_cons.mp ha with rfl | ha
      · obtain ⟨err, herr⟩ := hfail b
        cases hx.symm.trans herr
      · exact ih ha b'

namespace PlannedItem

variable {c : Catalog} {roots : RootFields} {pages : PageDefaults} {kind : RootKind}

/-- What a planned item does, whatever it asks of the records; nothing where it asks for the type's
name only. -/
def effect : PlannedItem → Option (RootField × Arguments × RootStep)
  | .typename => none
  | .field plan => some (plan.field, plan.arguments, plan.step)

/-- Planned items that do the same have one name. -/
theorem name_of_effect {x y : PlannedItem} (h : x.effect = y.effect) : x.name = y.name := by
  cases x <;> cases y <;> simp_all [effect, name]

def PlansAs (c : Catalog) (roots : RootFields) (pages : PageDefaults) (kind : RootKind)
    (item : Item) (x : PlannedItem) : Prop :=
  ∃ own, (ofItem c roots pages kind item).outcome = .ok own ∧ own.effect = x.effect

theorem PlansAs.name {item : Item} {x : PlannedItem} (h : PlansAs c roots pages kind item x) :
    x.name = item.head.name := by
  obtain ⟨own, hown, heffect⟩ := h
  exact (name_of_effect heffect).symm.trans (name_ofItem hown)

/-- Merged fields have one effect. -/
theorem effect_combine {x y z : PlannedItem} (h : combine kind x y = .ok z) :
    x.effect = z.effect := by
  obtain ⟨rfl, _⟩ | ⟨_, _, _, rfl, _, _, _, rfl⟩ := combine_cases h <;> rfl

/-- A new name comes last, and what stands there already is done as before. -/
theorem addTo_cases {next : PlannedItem} {planned all : List PlannedItem}
    (h : next.addTo kind planned = .ok all) :
    next.name ∉ planned.map name ∧ all = planned ++ [next] ∨
      next.name ∈ planned.map name ∧ all.map effect = planned.map effect := by
  induction planned generalizing all with
  | nil => exact Or.inl ⟨List.not_mem_nil, (Except.ok.inj h).symm⟩
  | cons existing rest ih =>
    rw [addTo] at h
    by_cases hname : existing.name = next.name
    · rw [if_pos hname] at h
      obtain ⟨x, hx, rfl⟩ := Outcome.map_eq_ok.mp h
      refine Or.inr ⟨hname ▸ List.mem_cons_self, ?_⟩
      rw [List.map_cons, List.map_cons, effect_combine hx]
    · rw [if_neg hname] at h
      obtain ⟨more, hmore, rfl⟩ := Outcome.map_eq_ok.mp h
      rcases ih hmore with ⟨hnew, rfl⟩ | ⟨hold, hsame⟩
      · refine Or.inl ⟨?_, rfl⟩
        rw [List.map_cons, List.mem_cons, not_or]
        exact ⟨fun heq => hname heq.symm, hnew⟩
      · refine Or.inr ⟨List.mem_cons_of_mem _ hold, ?_⟩
        rw [List.map_cons, List.map_cons, hsame]

/-- Whether items are planned in a way depends only on what the planned items do. -/
theorem forall₂_plansAs_congr {items : List Item} {planned all : List PlannedItem}
    (hsame : all.map effect = planned.map effect)
    (h : List.Forall₂ (PlansAs c roots pages kind) items planned) :
    List.Forall₂ (PlansAs c roots pages kind) items all := by
  have hmap : ∀ xs : List PlannedItem, List.Forall₂ (PlansAs c roots pages kind) items xs ↔
      List.Forall₂ (fun item does => ∃ own, (ofItem c roots pages kind item).outcome = .ok own ∧
        own.effect = does) items (xs.map effect) := by
    intro xs
    rw [List.forall₂_map_right_iff]
    rfl
  rw [hmap, hsame, ← hmap]
  exact h

/-- What is planned is what the first items of their names do, in order. -/
theorem plansAs_firsts {items : List Item} {planned : List PlannedItem}
    (h : (planAll c roots pages kind items).outcome = .ok planned) :
    List.Forall₂ (PlansAs c roots pages kind) (Keyed.firsts (·.head.name) items) planned := by
  rw [outcome_planAll] at h
  refine Outcome.of_foldlM_along (I := fun done planned =>
    List.Forall₂ (PlansAs c roots pages kind) (Keyed.firsts (·.head.name) done) planned) ?_ .nil h
  intro done item after planned all _ hdone hitem
  obtain ⟨next, hnext, hadd⟩ := Outcome.bind_eq_ok.mp hitem
  have hnames : planned.map name = (Keyed.firsts (·.head.name) done).map (·.head.name) :=
    Outcome.map_eq_of_forall₂ hdone fun _ _ _ hx => hx.name
  rw [Keyed.firsts_concat, ← name_ofItem hnext, ← hnames]
  rcases addTo_cases hadd with ⟨hnew, rfl⟩ | ⟨hold, hsame⟩
  · rw [if_neg hnew]
    exact List.rel_append hdone (.cons ⟨next, hnext, rfl⟩ .nil)
  · rw [if_pos hold]
    exact forall₂_plansAs_congr hsame hdone

/-- Fields are planned in the order their names appear first. -/
theorem names_planAll {items : List Item} {planned : List PlannedItem}
    (h : (planAll c roots pages kind items).outcome = .ok planned) :
    planned.map name = Keyed.ofList id (items.map (·.head.name)) := by
  rw [← Keyed.map_firsts]
  exact Outcome.map_eq_of_forall₂ (plansAs_firsts h) fun _ _ _ hx => hx.name

/-- Where an item can not be planned, nothing is. -/
theorem planAll_of_error {items : List Item} {item : Item} (hitem : item ∈ items) {err : Error}
    (h : (ofItem c roots pages kind item).outcome = .error err) :
    ∃ err', (planAll c roots pages kind items).outcome = .error err' := by
  rw [outcome_planAll]
  exact Outcome.foldlM_of_mem_error hitem (fun _ => ⟨err, by rw [planMore, h]; rfl⟩) []

/-- Adding an item and leaving out other names goes together. -/
theorem addTo_filter {next : PlannedItem} {planned all : List PlannedItem}
    (h : next.addTo kind planned = .ok all) (key : String) :
    if next.name = key then
      next.addTo kind (planned.filter (·.name = key)) = .ok (all.filter (·.name = key))
    else all.filter (·.name = key) = planned.filter (·.name = key) := by
  induction planned generalizing all with
  | nil =>
    obtain rfl := Except.ok.inj h
    split
    · next hkey => simp [addTo, hkey]
    · next hkey => simp [hkey]
  | cons existing rest ih =>
    rw [addTo] at h
    -- Either the first planned field has the new name and takes it in, or it is passed by.
    by_cases hname : existing.name = next.name
    · rw [if_pos hname] at h
      obtain ⟨x, hx, rfl⟩ := Outcome.map_eq_ok.mp h
      have hxname : x.name = next.name := (name_combine hx).trans hname
      split
      · next hkey =>
        have hadd : next.addTo kind (existing :: rest.filter (·.name = key)) =
            .ok (x :: rest.filter (·.name = key)) := by
          rw [addTo, if_pos hname, hx]
          rfl
        simpa [hname, hxname, hkey] using hadd
      · next hkey => simp [hname, hxname, hkey]
    · rw [if_neg hname] at h
      obtain ⟨more, hmore, rfl⟩ := Outcome.map_eq_ok.mp h
      have hrest := ih hmore
      split
      · next hkey =>
        rw [if_pos hkey] at hrest
        have hother : existing.name ≠ key := fun heq => hname (heq.trans hkey.symm)
        simpa [hother] using hrest
      · next hkey =>
        rw [if_neg hkey] at hrest
        rw [List.filter_cons, List.filter_cons, hrest]

/-- The items of one name are planned as they are among others. -/
theorem planAll_filter {items : List Item} {planned : List PlannedItem}
    (h : (planAll c roots pages kind items).outcome = .ok planned) (key : String) :
    (planAll c roots pages kind (items.filter (·.head.name = key))).outcome =
      .ok (planned.filter (·.name = key)) := by
  rw [outcome_planAll] at h
  -- Along the loop, with the filter on what is done and on what is planned.
  refine Outcome.of_foldlM_along (I := fun done planned =>
    (planAll c roots pages kind (done.filter (·.head.name = key))).outcome =
      .ok (planned.filter (·.name = key))) ?_ rfl h
  intro done item after planned all _ hdone hitem
  obtain ⟨next, hnext, hadd⟩ := Outcome.bind_eq_ok.mp hitem
  have hfilter := addTo_filter hadd key
  rw [name_ofItem hnext] at hfilter
  rw [List.filter_append]
  by_cases hkey : item.head.name = key
  · rw [if_pos hkey] at hfilter
    have hone : [item].filter (·.head.name = key) = [item] := by simp [hkey]
    rw [outcome_planAll] at hdone ⊢
    rw [hone, List.foldlM_append, Outcome.bind_of_eq_ok hdone, List.foldlM_cons, planMore,
      Outcome.bind_of_eq_ok hnext, Outcome.bind_of_eq_ok hfilter]
    rfl
  · rw [if_neg hkey] at hfilter
    have hnone : [item].filter (·.head.name = key) = [] := by simp [hkey]
    rw [hnone, List.append_nil, hdone, hfilter]

end PlannedItem

def RootAction.creates : RootAction → Bool
  | .create _ => true
  | _ => false

def RootStep.created? : RootStep → Option Members
  | .create fields => some fields
  | _ => none

/-- Only a root field that makes records has a step that makes one. -/
theorem RootPlan.created?_of_stepOf {c : Catalog} {f : RootField} {arguments : Arguments}
    {pages : PageDefaults} {step : RootStep} (hf : f.action.creates = false)
    (h : (stepOf c f arguments pages).outcome = .ok step) : step.created? = none := by
  rw [stepOf] at h
  split at h
  · obtain ⟨id, _, h⟩ := Outcome.bind_eq_ok.mp h
    obtain ⟨byKey, _, h⟩ := Outcome.bind_eq_ok.mp h
    split at h <;> cases h <;> rfl
  · obtain ⟨e, _, h⟩ := Outcome.bind_eq_ok.mp h
    obtain ⟨filter, _, h⟩ := Outcome.bind_eq_ok.mp h
    obtain ⟨page, _, h⟩ := Outcome.bind_eq_ok.mp h
    cases h
    rfl
  · next hcreate =>
    rw [hcreate] at hf
    cases hf

end EntityGraph
