import EntityGraph.Proofs.Request.Planning
import EntityGraph.Storefront.Catalog

namespace EntityGraph

inductive Rewrites : List Selection → List Selection → Prop
  | permute {ss ts : List Selection} : ss.Perm ts → Rewrites ss ts
  | duplicate (s : Selection) (rest : List Selection) : Rewrites (s :: rest) (s :: s :: rest)
  | split (name : String) (label : Option String) (arguments : List (String × Literal))
      (directives : List Directive) (first second rest : List Selection) :
      Rewrites (.field name label arguments directives (first ++ second) :: rest)
        (.field name label arguments directives first ::
          .field name label arguments directives second :: rest)
  | field {name : String} {label : Option String} {arguments : List (String × Literal)}
      {directives : List Directive} {ss ts rest : List Selection} : Rewrites ss ts →
      Rewrites (.field name label arguments directives ss :: rest)
        (.field name label arguments directives ts :: rest)
  | inline {directives : List Directive} {ss ts rest : List Selection} : Rewrites ss ts →
      Rewrites (.inline directives ss :: rest) (.inline directives ts :: rest)
  | symm {ss ts : List Selection} : Rewrites ss ts → Rewrites ts ss
  | trans {ss ts us : List Selection} : Rewrites ss ts → Rewrites ts us → Rewrites ss us

namespace Rewrites

variable {ss ts : List Selection}

theorem refl (ss : List Selection) : Rewrites ss ss := .permute (List.Perm.refl ss)

theorem isEmpty_eq (h : Rewrites ss ts) : ss.isEmpty = ts.isEmpty := by
  induction h with
  | permute h => exact h.isEmpty_eq
  | symm _ ih => exact ih.symm
  | trans _ _ ih ih' => exact ih.trans ih'
  | _ => rfl

theorem nanFree_field {name : String} {label : Option String} {arguments : List (String × Literal)}
    {directives : List Directive} : (Selection.field name label arguments directives ss).NaNFree ↔
      (∀ argument ∈ arguments, argument.2.NaNFree) ∧ ∀ s ∈ ss, s.NaNFree := by
  constructor
  · intro h
    cases h with
    | field hargs hss => exact ⟨hargs, hss⟩
  · exact fun h => .field h.1 h.2

theorem nanFree_inline {directives : List Directive} :
    (Selection.inline directives ss).NaNFree ↔ ∀ s ∈ ss, s.NaNFree := by
  constructor
  · intro h
    cases h with
    | inline hss => exact hss
  · exact .inline

/-- A rewriting has the same literals. -/
theorem nanFree (h : Rewrites ss ts) : (∀ s ∈ ss, s.NaNFree) ↔ ∀ s ∈ ts, s.NaNFree := by
  induction h with
  | permute h => simp only [h.mem_iff]
  | duplicate s rest => simp
  | split => simp only [List.forall_mem_cons, nanFree_field, List.forall_mem_append]; tauto
  | field _ ih => simp only [List.forall_mem_cons, nanFree_field, ih]
  | inline _ ih => simp only [List.forall_mem_cons, nanFree_inline, ih]
  | symm _ ih => exact ih.symm
  | trans _ _ ih ih' => exact ih.trans ih'

end Rewrites

def Document.Rewrites (d d' : Document) : Prop :=
  List.Forall₂ (fun f g => f.name = g.name ∧ EntityGraph.Rewrites f.selections g.selections)
    d.fragments d'.fragments

namespace Planning

open Request

variable {c : Catalog} {e : Entity}

/-- Meeting under one attribute is meeting below it. -/
theorem meet_only {a : AttributeRequest} (ha : a.ask.Compatible a.ask) (x y : Option Request) :
    meet (some (only e (a.withNested x))) (some (only e (a.withNested y))) =
      (joinNested x y).toOption.map fun n => only e (a.withNested n) := by
  have hcompat : (a.withNested x).compatible (a.withNested y) = true :=
    AttributeRequest.compatible_iff.mpr ha
  show ((only e (a.withNested x)).merge (only e (a.withNested y))).toOption = _
  rw [only, only, merge_put, add_eq]
  simp only [attribute?_put, name_withNested, ↓reduceIte, joinAttribute, hcompat,
    nested_withNested, Outcome.toOption_map]
  cases (joinNested x y).toOption with
  | none => rfl
  | some n =>
    have hput : ((new e).put (a.withNested x)).put (a.withNested n) =
        (new e).put (a.withNested n) := by
      simp only [put, new, attributes, Keyed.insert, name_withNested, ↓reduceIte]
      rfl
    exact congrArg some hput

theorem meet_nested {a : AttributeRequest} (ha : a.ask.Compatible a.ask) (x y : Option Request) :
    meet (x.map fun n => only e (a.withNested (some n)))
      (y.map fun n => only e (a.withNested (some n))) =
        (meet x y).map fun n => only e (a.withNested (some n)) := by
  cases x with
  | none => rfl
  | some n =>
    cases y with
    | none => exact meet_none _
    | some k =>
      rw [Option.map_some, Option.map_some, meet_only ha]
      show ((n.merge k).map some).toOption.map _ = (n.merge k).toOption.map _
      rw [Outcome.toOption_map, Option.map_map]
      rfl

theorem meet_bare {a : AttributeRequest} (ha : a.ask.Compatible a.ask) (hn : a.nested = none)
    (x : Option Request) : meet (x.map fun n => only e (a.withNested (some n))) (some (only e a)) =
      x.map fun n => only e (a.withNested (some n)) := by
  rw [← withNested_nested hn]
  cases x with
  | none => rfl
  | some n => exact meet_only ha (some n) none

theorem bare_meet {a : AttributeRequest} (ha : a.ask.Compatible a.ask) (hn : a.nested = none)
    (x : Option Request) : meet (some (only e a)) (x.map fun n => only e (a.withNested (some n))) =
      x.map fun n => only e (a.withNested (some n)) := by
  rw [← withNested_nested hn]
  cases x with
  | none => exact meet_none _
  | some n => exact meet_only ha none (some n)

/-- Name and arguments decide what is asked. -/
theorem Names.unique {name : String} {arguments : Arguments} {a b : AttributeRequest}
    {s t : Option Entity} (ha : Names c e name arguments a s) (hb : Names c e name arguments b t) :
    a = b ∧ s = t := by
  cases ha with
  | scalar ha hscope hwindow hk hfilter =>
    -- Whether the attribute is a scalar decides between the rules.
    cases hb with
    | scalar hb hscope' hwindow' hk' hfilter' =>
      obtain rfl := Option.some.inj (ha.symm.trans hb)
      obtain rfl := Except.ok.inj (hscope.symm.trans hscope')
      obtain rfl := Except.ok.inj (hwindow.symm.trans hwindow')
      obtain rfl := Option.some.inj (hk.symm.trans hk')
      obtain rfl := Except.ok.inj (hfilter.symm.trans hfilter')
      exact ⟨rfl, rfl⟩
    | entity hb _ _ hk' =>
      obtain rfl := Option.some.inj (ha.symm.trans hb)
      cases hk.symm.trans hk'
  | entity ha hscope hwindow hk htarget hfilter =>
    cases hb with
    | scalar hb _ _ hk' =>
      obtain rfl := Option.some.inj (ha.symm.trans hb)
      cases hk.symm.trans hk'
    | entity hb hscope' hwindow' hk' htarget' hfilter' =>
      obtain rfl := Option.some.inj (ha.symm.trans hb)
      obtain rfl := Except.ok.inj (hscope.symm.trans hscope')
      obtain rfl := Except.ok.inj (hwindow.symm.trans hwindow')
      obtain rfl := Option.some.inj (htarget.symm.trans htarget')
      obtain rfl := Except.ok.inj (hfilter.symm.trans hfilter')
      exact ⟨rfl, rfl⟩

theorem field?_eq_some {f : AskedField} {planInner : Entity → Except Error Request} {s : Request} :
    field? c e f planInner = some s ↔ f.label = none ∧
      (f.name = typenameField ∧ (Request.new e).withTypename true = s ∨
        f.name ≠ typenameField ∧ ∃ a, Asks c e f planInner a ∧ only e a = s) :=
  Outcome.toOption_eq_some.trans planField_eq_ok

/-- What a field asks for that names an attribute. -/
theorem field?_of_names {f : AskedField} {planInner : Entity → Except Error Request}
    (hl : f.label = none) (hf : f.name ≠ typenameField) {a : AttributeRequest}
    {target : Option Entity} (h : Names c e f.name f.arguments a target) :
    field? c e f planInner = if f.selected then target.bind fun t =>
        (planInner t).toOption.map fun n => only e (a.withNested (some n))
      else some (only e a) := by
  refine Option.ext fun s => ?_
  rw [field?_eq_some]
  constructor
  · rintro ⟨_, ⟨h', _⟩ | ⟨_, b, hb, rfl⟩⟩
    · exact absurd h' hf
    · cases hb with
      | bare hb hs =>
        -- Whatever is asked is what the name and the arguments say.
        obtain ⟨rfl, rfl⟩ := hb.unique h
        simp [hs]
      | nested hb hs hn =>
        obtain ⟨rfl, rfl⟩ := hb.unique h
        simp [hs, hn, Except.toOption]
  · intro hs
    refine ⟨hl, Or.inr ⟨hf, ?_⟩⟩
    split at hs
    · next hselected =>
      obtain ⟨t, rfl, hs⟩ := Option.bind_eq_some_iff.mp hs
      obtain ⟨n, hn, rfl⟩ := Option.map_eq_some_iff.mp hs
      exact ⟨_, .nested h hselected (Outcome.toOption_eq_some.mp hn), rfl⟩
    · next hselected =>
      obtain rfl := Option.some.inj hs
      exact ⟨a, .bare h (by simpa using hselected), rfl⟩

/-- What a field asks for depends on what stands below it only where it names an attribute. -/
theorem field?_cases (c : Catalog) (e : Entity) (name : String) (label : Option String)
    (arguments : Arguments) :
    (∃ x, ∀ selected planInner, field? c e ⟨name, label, arguments, selected⟩ planInner = x) ∨
      ∃ a target, Names c e name arguments a target ∧ ∀ selected planInner,
        field? c e ⟨name, label, arguments, selected⟩ planInner =
          if selected then target.bind fun t =>
            (planInner t).toOption.map fun n => only e (a.withNested (some n))
          else some (only e a) := by
  -- Either the field names an attribute, or it does not depend on what is below it.
  by_cases hnames : label = none ∧ name ≠ typenameField ∧
    ∃ a target, Names c e name arguments a target
  · obtain ⟨hl, hf, a, target, hnames⟩ := hnames
    exact Or.inr ⟨a, target, hnames, fun selected planInner => field?_of_names hl hf hnames⟩
  · by_cases hf : label = none ∧ name = typenameField
    · refine Or.inl ⟨some ((new e).withTypename true), fun selected planInner => ?_⟩
      exact field?_eq_some.mpr ⟨hf.1, Or.inl ⟨hf.2, rfl⟩⟩
    · refine Or.inl ⟨none, fun selected planInner => ?_⟩
      refine Option.eq_none_iff_forall_ne_some.mpr fun s hs => ?_
      obtain ⟨hl, ⟨h, _⟩ | ⟨h, a, ha, _⟩⟩ := field?_eq_some.mp hs
      · exact hf ⟨hl, h⟩
      · cases ha with
        | bare ha _ => exact hnames ⟨hl, h, _, _, ha⟩
        | nested ha _ _ => exact hnames ⟨hl, h, _, _, ha⟩

theorem regularBelow_some {t : Entity} {n : Request} (h : Regular c t n) :
    RegularBelow c (some t) (some n) := by
  rintro _ ⟨⟩
  exact ⟨t, rfl, h⟩

/-- Alike requests below an attribute make alike requests. -/
theorem alike_only (he : e ∈ c.entities) {name : String} {arguments : Arguments}
    {a : AttributeRequest} {t : Entity} (h : Names c e name arguments a (some t))
    (hargs : ∀ argument ∈ arguments, argument.2.NaNFree) {x y : Option Request}
    (hxy : Alike c t x y) : Alike c e (x.map fun n => only e (a.withNested (some n)))
      (y.map fun n => only e (a.withNested (some n))) := by
  have hreg : ∀ {z : Option Request}, RegularIf c t z →
      RegularIf c e (z.map fun n => only e (a.withNested (some n))) := by
    intro z hz s hs
    obtain ⟨n, hn, rfl⟩ := Option.map_eq_some_iff.mp hs
    exact regular_only he h hargs (regularBelow_some (hz n hn))
  refine ⟨hreg hxy.left, hreg hxy.right, ?_⟩
  cases hxy.same with
  | none => exact .none
  | some hnm =>
    have hname : ∀ n k, (a.withNested n).name = (a.withNested k).name := fun _ _ => rfl
    refine .some ((only_beq_iff (hname _ _)).mpr ?_)
    exact beqAttribute_iff.mpr ⟨rfl, h.filter_beq_self hargs, .some hnm⟩

/-- A field asks for alike requests when alike ones stand below it. -/
theorem alike_field (he : e ∈ c.entities) {f : AskedField}
    (hargs : ∀ argument ∈ f.arguments, argument.2.NaNFree)
    {planInner planInner' : Entity → Except Error Request}
    (h : ∀ t ∈ c.entities, Alike c t (planInner t).toOption (planInner' t).toOption) :
    Alike c e (field? c e f planInner) (field? c e f planInner') := by
  have hreg : RegularIf c e (field? c e f planInner) :=
    regular_field he hargs fun t ht => (h t ht).left
  obtain ⟨name, label, arguments, selected⟩ := f
  obtain ⟨x, hx⟩ | ⟨a, target, hnames, hx⟩ := field?_cases c e name label arguments
  · rw [hx] at hreg ⊢
    rw [hx]
    exact hreg.refl
  · rw [hx] at hreg ⊢
    rw [hx]
    cases selected with
    | false => exact hreg.refl
    | true =>
      -- A field with something below it is a scalar's only by mistake, and then there is no plan.
      cases target with
      | none => exact regularIf_none.refl
      | some t =>
        have ht : t ∈ c.entities := (Catalog.entity?_eq_some.mp hnames.refers.2).1
        exact alike_only he hnames hargs (h t ht)

structure Split (c : Catalog) (first second : Bool)
    (planFirst planSecond planBoth : Entity → Except Error Request) : Prop where
  left : second = false → planBoth = planFirst
  right : first = false → planBoth = planSecond
  both : first = true → second = true → ∀ t ∈ c.entities,
    Alike c t (planBoth t).toOption (meet (planFirst t).toOption (planSecond t).toOption)

/-- Two occurrences of a field ask for what one of them does that has the selections of both. -/
theorem alike_split (he : e ∈ c.entities) {name : String} {label : Option String}
    {arguments : Arguments} (hargs : ∀ argument ∈ arguments, argument.2.NaNFree)
    {first second : Bool} {planFirst planSecond planBoth : Entity → Except Error Request}
    (hfirst : ∀ t ∈ c.entities, RegularIf c t (planFirst t).toOption)
    (hsecond : ∀ t ∈ c.entities, RegularIf c t (planSecond t).toOption)
    (h : Split c first second planFirst planSecond planBoth) :
    Alike c e (field? c e ⟨name, label, arguments, first || second⟩ planBoth)
      (meet (field? c e ⟨name, label, arguments, first⟩ planFirst)
        (field? c e ⟨name, label, arguments, second⟩ planSecond)) := by
  have hreg : ∀ selected planInner, (∀ t ∈ c.entities, RegularIf c t (planInner t).toOption) →
      RegularIf c e (field? c e ⟨name, label, arguments, selected⟩ planInner) :=
    fun selected planInner hinner => regular_field he hargs hinner
  have hreg₁ := hreg first planFirst hfirst
  have hreg₂ := hreg second planSecond hsecond
  obtain ⟨x, hx⟩ | ⟨a, target, hnames, hx⟩ := field?_cases c e name label arguments
  · rw [hx] at hreg₁ ⊢
    rw [hx, hx]
    exact hreg₁.meet_self.symm
  · have hcompat := hnames.filter_beq_self hargs
    rw [hx] at hreg₁ hreg₂ ⊢
    rw [hx, hx]
    cases target with
    | none =>
      -- A scalar has nothing below it, so that what is asked for twice is the same or refused.
      cases first with
      | false =>
        cases second with
        | false => exact hreg₁.meet_self.symm
        | true => exact (meet_none (some (only e a))).symm ▸ regularIf_none.refl
      | true => exact regularIf_none.refl
    | some t =>
      have ht : t ∈ c.entities := (Catalog.entity?_eq_some.mp hnames.refers.2).1
      cases first with
      | false =>
        cases second with
        | false => exact hreg₁.meet_self.symm
        | true =>
          rw [h.right rfl]
          simp only [Bool.false_or, ↓reduceIte, Option.bind_some, Bool.false_eq_true] at hreg₂ ⊢
          rw [bare_meet hcompat hnames.nested]
          exact hreg₂.refl
      | true =>
        cases second with
        | false =>
          rw [h.left rfl]
          simp only [Bool.or_false, ↓reduceIte, Option.bind_some, Bool.false_eq_true] at hreg₁ ⊢
          rw [meet_bare hcompat hnames.nested]
          exact hreg₁.refl
        | true =>
          simp only [Bool.or_true, ↓reduceIte, Option.bind_some]
          rw [meet_nested hcompat]
          exact alike_only he hnames hargs (h.both rfl rfl t ht)

structure Opens (r : Reading) (opening : Reading.Opening) : Prop where
  numbers : r.NaNFree
  continues : opening.Continues
  fragments : ∀ name, (opening name fun _ => .done).NaNFree

def asked? (c : Catalog) (r : Reading) (opening : Reading.Opening) (ss : List Selection)
    (e : Entity) : Option Request := below? c (r.expansion none opening ss) e

def SameAsked (c : Catalog) (x y : Entity → Option Request) : Prop :=
  ∀ e ∈ c.entities, Alike c e (x e) (y e)

variable {r : Reading} {opening : Reading.Opening} {ss ts us : List Selection}

theorem regular_asked (ho : Opens r opening) (he : e ∈ c.entities)
    (hss : ∀ s ∈ ss, s.NaNFree) : RegularIf c e (asked? c r opening ss e) :=
  regular_below (Reading.nanFree_expansion ho.numbers ho.continues ho.fragments hss) he

/-- Selections in a row ask for what each part of them asks for. -/
theorem alike_append (ho : Opens r opening) (he : e ∈ c.entities) (hss : ∀ s ∈ ss, s.NaNFree)
    (hts : ∀ s ∈ ts, s.NaNFree) : Alike c e (asked? c r opening (ss ++ ts) e)
      (meet (asked? c r opening ss e) (asked? c r opening ts e)) := by
  have hx := Reading.nanFree_expansion ho.numbers ho.continues ho.fragments hss
  have hy := Reading.nanFree_expansion ho.numbers ho.continues ho.fragments hts
  rw [asked?, Reading.expansion_append ho.continues]
  exact alike_andThen hx hy he

/-- What a directive keeps asks for what it does by itself. -/
theorem alike_unlessSkipped (he : e ∈ c.entities) (directives : List Directive)
    {kept kept' : Unit → Expansion}
    (h : Alike c e (below? c (kept ()) e) (below? c (kept' ()) e)) :
    Alike c e (below? c (r.unlessSkipped directives kept fun _ => .done) e)
      (below? c (r.unlessSkipped directives kept' fun _ => .done) e) := by
  rw [Reading.unlessSkipped, Reading.unlessSkipped]
  cases r.skips directives with
  | error err => exact regularIf_none.refl
  | ok skipped =>
    cases skipped with
    | true => exact (regularIf_some (regular_new he)).refl
    | false => exact h

/-- A field by itself asks for what is planned of it. -/
theorem alike_one_field (he : e ∈ c.entities) {f : AskedField} {inner : Unit → Expansion}
    (hargs : ∀ argument ∈ f.arguments, argument.2.NaNFree) (hinner : (inner ()).NaNFree) :
    Alike c e (below? c (.field f inner fun _ => .done) e)
      (field? c e f (planBelow c (inner ()))) := by
  have hnew := regularIf_some (regular_new he)
  have hfield := regular_field he hargs fun t ht => regular_below hinner ht
  have hdone : below? c (.field f inner fun _ => .done) e =
      meet (some (new e)) (field? c e f (planBelow c (inner ()))) := by
    show further c (.field f inner fun _ => .done) (some (new e)) = _
    rw [further_field hnew]
    cases meet (some (new e)) (field? c e f (planBelow c (inner ()))) <;> rfl
  rw [hdone]
  exact RegularIf.meet_new he hfield

section Opened

variable {opening' : Reading.Opening} (ho : Opens r opening) (ho' : Opens r opening')

include ho in
theorem nanFree_asked_selections (hss : ∀ s ∈ ss, s.NaNFree) :
    (r.expansion none opening ss).NaNFree :=
  Reading.nanFree_expansion ho.numbers ho.continues ho.fragments hss

include ho ho' in
/-- A field asks for the same when its selections do. -/
theorem alike_field_selection (he : e ∈ c.entities) {name : String} {label : Option String}
    {arguments : List (String × Literal)} {directives : List Directive}
    (hargs : ∀ argument ∈ arguments, argument.2.NaNFree) (hss : ∀ s ∈ ss, s.NaNFree)
    (hts : ∀ s ∈ ts, s.NaNFree) (hempty : ss.isEmpty = ts.isEmpty)
    (h : SameAsked c (asked? c r opening ss) (asked? c r opening' ts)) :
    Alike c e (asked? c r opening [.field name label arguments directives ss] e)
      (asked? c r opening' [.field name label arguments directives ts] e) := by
  have hasked : r.asked name label arguments ss = r.asked name label arguments ts := by
    rw [Reading.asked, Reading.asked, hempty]
  have hargs := Reading.nanFree_asked ho.numbers hargs name label ts
  rw [asked?, asked?, Reading.expansion_field, Reading.expansion_field, hasked]
  refine alike_unlessSkipped he directives ?_
  have hone : ∀ {x : Expansion}, x.NaNFree → Alike c e
      (below? c (.field (r.asked name label arguments ts) (fun _ => x) fun _ => .done) e)
      (field? c e (r.asked name label arguments ts) (planBelow c x)) :=
    fun hx => alike_one_field he hargs hx
  have hfield := alike_field he hargs h
  exact (hone (nanFree_asked_selections ho hss)).trans
    (hfield.trans (hone (nanFree_asked_selections ho' hts)).symm)

theorem alike_inline_selection (he : e ∈ c.entities) {directives : List Directive}
    (h : SameAsked c (asked? c r opening ss) (asked? c r opening' ts)) :
    Alike c e (asked? c r opening [.inline directives ss] e)
      (asked? c r opening' [.inline directives ts] e) := by
  rw [asked?, asked?, Reading.expansion_inline, Reading.expansion_inline]
  exact alike_unlessSkipped he directives (h e he)

include ho in
/-- A field asks for what its two parts ask for. -/
theorem alike_split_selection (he : e ∈ c.entities) {name : String} {label : Option String}
    {arguments : List (String × Literal)} {directives : List Directive}
    (hargs : ∀ argument ∈ arguments, argument.2.NaNFree) (hss : ∀ s ∈ ss, s.NaNFree)
    (hts : ∀ s ∈ ts, s.NaNFree) :
    Alike c e (asked? c r opening [.field name label arguments directives (ss ++ ts)] e)
      (meet (asked? c r opening [.field name label arguments directives ss] e)
        (asked? c r opening [.field name label arguments directives ts] e)) := by
  have hboth : ∀ s ∈ ss ++ ts, s.NaNFree := List.forall_mem_append.mpr ⟨hss, hts⟩
  simp only [asked?, Reading.expansion_field]
  rw [Reading.unlessSkipped, Reading.unlessSkipped, Reading.unlessSkipped]
  cases r.skips directives with
  | error err => exact regularIf_none.refl
  | ok skipped =>
    cases skipped with
    | true => exact (regularIf_some (regular_new he)).meet_self.symm
    | false =>
      have hargs := Reading.nanFree_asked ho.numbers hargs
      have hone : ∀ {us : List Selection}, (∀ s ∈ us, s.NaNFree) →
          Alike c e (below? c (.field (r.asked name label arguments us)
            (fun _ => r.expansion none opening us) fun _ => .done) e)
            (field? c e (r.asked name label arguments us)
              (planBelow c (r.expansion none opening us))) :=
        fun hus => alike_one_field he (hargs name label _) (nanFree_asked_selections ho hus)
      -- A part with nothing in it asks for nothing below.
      have hsplit : Split c (!ss.isEmpty) (!ts.isEmpty) (planBelow c (r.expansion none opening ss))
          (planBelow c (r.expansion none opening ts))
          (planBelow c (r.expansion none opening (ss ++ ts))) := by
        refine ⟨fun h => ?_, fun h => ?_, fun _ _ t ht => alike_append ho ht hss hts⟩
        · rw [Bool.not_eq_false', List.isEmpty_iff] at h
          rw [h, List.append_nil]
        · rw [Bool.not_eq_false', List.isEmpty_iff] at h
          rw [h, List.nil_append]
      -- Something is selected in the whole when it is in a part.
      have hselected : (!(ss ++ ts).isEmpty) = (!ss.isEmpty || !ts.isEmpty) := by
        cases ss <;> cases ts <;> rfl
      refine (hone hboth).trans (Alike.trans ?_ ((hone hss).congr (hone hts)).symm)
      rw [Reading.asked, hselected]
      exact alike_split he (hargs name label ss) (fun t ht => regular_asked ho ht hss)
        (fun t ht => regular_asked ho ht hts) hsplit

end Opened

/-- A row is its first selection met with the rest. -/
theorem alike_cons (ho : Opens r opening) (he : e ∈ c.entities) {s : Selection} (hs : s.NaNFree)
    (hss : ∀ s ∈ ss, s.NaNFree) : Alike c e (asked? c r opening (s :: ss) e)
      (meet (asked? c r opening [s] e) (asked? c r opening ss e)) :=
  alike_append ho he (List.forall_mem_singleton.mpr hs) hss

/-- Selections ask for the same in every order. -/
theorem alike_perm (ho : Opens r opening) (he : e ∈ c.entities) (h : ss.Perm ts)
    (hss : ∀ s ∈ ss, s.NaNFree) :
    Alike c e (asked? c r opening ss e) (asked? c r opening ts e) := by
  induction h with
  | nil => exact (regular_asked ho he hss).refl
  | @cons s ss ts hperm ih =>
    obtain ⟨hs, hss⟩ := List.forall_mem_cons.mp hss
    have hts : ∀ t ∈ ts, t.NaNFree := fun t ht => hss t (hperm.mem_iff.mpr ht)
    have hone := (regular_asked ho he (List.forall_mem_singleton.mpr hs)).refl
    exact (alike_cons ho he hs hss).trans
      ((hone.congr (ih hss)).trans (alike_cons ho he hs hts).symm)
  | swap s t ss =>
    obtain ⟨ht, hss⟩ := List.forall_mem_cons.mp hss
    obtain ⟨hs, hss⟩ := List.forall_mem_cons.mp hss
    have hpair := List.forall_mem_cons.mpr ⟨ht, List.forall_mem_singleton.mpr hs⟩
    have hpair' := List.forall_mem_cons.mpr ⟨hs, List.forall_mem_singleton.mpr ht⟩
    have hs' := regular_asked ho he (List.forall_mem_singleton.mpr hs)
    have ht' := regular_asked ho he (List.forall_mem_singleton.mpr ht)
    -- The two in front are put together first, where their order does not matter.
    have hswap : Alike c e (asked? c r opening [t, s] e) (asked? c r opening [s, t] e) :=
      (alike_cons ho he ht (List.forall_mem_singleton.mpr hs)).trans
        ((ht'.meet_comm hs').trans (alike_cons ho he hs (List.forall_mem_singleton.mpr ht)).symm)
    have hfront := alike_append ho he hpair hss
    have hfront' := alike_append ho he hpair' hss
    exact hfront.trans ((hswap.congr (regular_asked ho he hss).refl).trans hfront'.symm)
  | trans h₁ _ ih ih' =>
    exact (ih hss).trans (ih' fun s hs => hss s (h₁.mem_iff.mpr hs))

/-- Selections in front of others can be replaced by those that ask for the same. -/
theorem alike_in_front (ho : Opens r opening) (he : e ∈ c.entities) {rest : List Selection}
    (hss : ∀ s ∈ ss, s.NaNFree) (hts : ∀ s ∈ ts, s.NaNFree) (hrest : ∀ s ∈ rest, s.NaNFree)
    (h : Alike c e (asked? c r opening ss e) (asked? c r opening ts e)) :
    Alike c e (asked? c r opening (ss ++ rest) e) (asked? c r opening (ts ++ rest) e) :=
  (alike_append ho he hss hrest).trans
    ((h.congr (regular_asked ho he hrest).refl).trans (alike_append ho he hts hrest).symm)

/-- Rewriting keeps what is asked. One case for each rule, with its law of `meet`. -/
theorem sameAsked_of_rewrites (ho : Opens r opening) (h : Rewrites ss ts)
    (hss : ∀ s ∈ ss, s.NaNFree) : SameAsked c (asked? c r opening ss) (asked? c r opening ts) := by
  induction h with
  | permute h => exact fun e he => alike_perm ho he h hss
  | duplicate s rest =>
    intro e he
    obtain ⟨hs, hrest⟩ := List.forall_mem_cons.mp hss
    have hone := List.forall_mem_singleton.mpr hs
    have hself := (regular_asked (c := c) ho he hone).meet_self
    -- Twice the same is asked once.
    have htwo := List.forall_mem_cons.mpr ⟨hs, hone⟩
    exact alike_in_front ho he hone htwo hrest
      (hself.symm.trans (alike_cons ho he hs hone).symm)
  | split name label arguments directives first second rest =>
    intro e he
    obtain ⟨hs, hrest⟩ := List.forall_mem_cons.mp hss
    obtain ⟨hargs, hboth⟩ := Rewrites.nanFree_field.mp hs
    obtain ⟨hfirst, hsecond⟩ := List.forall_mem_append.mp hboth
    have hone := List.forall_mem_singleton.mpr hs
    have hs₁ : (Selection.field name label arguments directives first).NaNFree := .field hargs hfirst
    have hs₂ : (Selection.field name label arguments directives second).NaNFree :=
      .field hargs hsecond
    have htwo := List.forall_mem_singleton.mpr hs₂
    exact alike_in_front ho he hone (List.forall_mem_cons.mpr ⟨hs₁, htwo⟩) hrest
      ((alike_split_selection ho he hargs hfirst hsecond).trans (alike_cons ho he hs₁ htwo).symm)
  | @field name label arguments directives ss ts rest h ih =>
    intro e he
    obtain ⟨hs, hrest⟩ := List.forall_mem_cons.mp hss
    obtain ⟨hargs, hss⟩ := Rewrites.nanFree_field.mp hs
    have hts := h.nanFree.mp hss
    exact alike_in_front ho he (List.forall_mem_singleton.mpr hs)
      (List.forall_mem_singleton.mpr (.field hargs hts)) hrest
      (alike_field_selection ho ho he hargs hss hts h.isEmpty_eq (ih hss))
  | @inline directives ss ts rest h ih =>
    intro e he
    obtain ⟨hs, hrest⟩ := List.forall_mem_cons.mp hss
    have hss := Rewrites.nanFree_inline.mp hs
    have hts := h.nanFree.mp hss
    exact alike_in_front ho he (List.forall_mem_singleton.mpr hs)
      (List.forall_mem_singleton.mpr (.inline hts)) hrest (alike_inline_selection he (ih hss))
  | symm h ih => exact fun e he => (ih (h.nanFree.mpr hss) e he).symm
  | trans h _ ih ih' => exact fun e he => (ih hss e he).trans (ih' (h.nanFree.mp hss) e he)

/-- Selections ask for the same when the fragments that they spread do. -/
theorem sameAsked_of_openings {opening' : Reading.Opening} (ho : Opens r opening)
    (ho' : Opens r opening') (h : ∀ name, SameAsked c (below? c (opening name fun _ => .done))
      (below? c (opening' name fun _ => .done))) (hss : ∀ s ∈ ss, s.NaNFree) :
    SameAsked c (asked? c r opening ss) (asked? c r opening' ss) := by
  -- It is enough to look at one selection after another, each with those below it.
  have hlist : ∀ {ts : List Selection}, (∀ s ∈ ts, s.NaNFree) →
      (∀ s ∈ ts, SameAsked c (asked? c r opening [s]) (asked? c r opening' [s])) →
      SameAsked c (asked? c r opening ts) (asked? c r opening' ts) := by
    intro ts hts hone
    induction ts with
    | nil => exact fun e he => (regularIf_some (regular_new he)).refl
    | cons s ts ih =>
      intro e he
      obtain ⟨hs, hts⟩ := List.forall_mem_cons.mp hts
      obtain ⟨hone, hrest⟩ := List.forall_mem_cons.mp hone
      exact (alike_cons ho he hs hts).trans
        (((hone e he).congr (ih hts hrest e he)).trans (alike_cons ho' he hs hts).symm)
  refine hlist hss fun s hm => ?_
  have hs := hss s hm
  clear hm
  induction hs with
  | field hargs hinner ih =>
    exact fun e he =>
      alike_field_selection ho ho' he hargs hinner hinner rfl (hlist hinner ih)
  | spread name directives =>
    intro e he
    rw [asked?, asked?, Reading.expansion_spread, Reading.expansion_spread]
    exact alike_unlessSkipped he directives (h name e he)
  | inline hinner ih => exact fun e he => alike_inline_selection he (hlist hinner ih)

theorem opens_openings (hr : r.NaNFree) {d : Document} (hd : d.NaNFree) (more : Nat)
    (opened : List String) : Opens r (Reading.openings r d none more opened) :=
  ⟨hr, Reading.continues_openings more opened, Reading.nanFree_openings hr hd more opened⟩

variable {d d' : Document}

theorem nanFree_of_rewrites (hd : d.Rewrites d') (hn : d.NaNFree) : d'.NaNFree := by
  intro g hg
  obtain ⟨f, hf, _, hfg⟩ := Outcome.exists_mem_left hd hg
  exact hfg.nanFree.mp (hn f hf)

/-- Fragments stay under their names. -/
theorem fragment?_rewrites (hd : d.Rewrites d') (name : String) :
    Option.Rel (fun f g : Fragment => Rewrites f.selections g.selections) (d.fragment? name)
      (d'.fragment? name) := by
  obtain ⟨operations, fragments⟩ := d
  obtain ⟨operations', fragments'⟩ := d'
  replace hd : List.Forall₂ (fun f g => f.name = g.name ∧ Rewrites f.selections g.selections)
    fragments fragments' := hd
  simp only [Document.fragment?]
  induction hd with
  | nil => exact .none
  | cons h _ ih =>
    rw [List.find?_cons, List.find?_cons, ← h.1]
    split
    · exact .some h.2
    · exact ih

/-- Fragments that are written in another way ask for the same. -/
theorem sameAsked_openings (hr : r.NaNFree) (hd : d.Rewrites d') (hn : d.NaNFree) (more : Nat)
    (opened : List String) (name : String) :
    SameAsked c (below? c (Reading.openings r d none more opened name fun _ => .done))
      (below? c (Reading.openings r d' none more opened name fun _ => .done)) := by
  have hn' := nanFree_of_rewrites hd hn
  -- On the number of fragments that may still be opened: a fragment that is opened asks for what
  -- its selections do, first with the other fragments and then with itself written in another way.
  have hfault : ∀ err, SameAsked c (below? c (.fault err)) (below? c (.fault err)) :=
    fun err e he => regularIf_none.refl
  have hdone : SameAsked c (below? c .done) (below? c .done) :=
    fun e he => (regularIf_some (regular_new he)).refl
  induction more generalizing opened name with
  | zero =>
    rw [Reading.openings, Reading.openings, Document.enter, Document.enter]
    rcases rel_cases (fragment?_rewrites hd name) with ⟨hf, hg⟩ | ⟨f, g, hf, hg, _⟩
    · rw [hf, hg]
      exact hfault _
    · rw [hf, hg]
      by_cases hm : name ∈ opened
      · simp only [hm, ↓reduceIte]
        exact hfault _
      · simp only [hm, ↓reduceIte]
        exact hdone
  | succ more ih =>
    rcases rel_cases (fragment?_rewrites hd name) with ⟨hf, hg⟩ | ⟨f, g, hf, hg, hfg⟩
    · rw [Reading.openings, Reading.openings, Document.enter, Document.enter, hf, hg]
      exact hfault _
    · by_cases hm : name ∈ opened
      · rw [Reading.openings, Reading.openings, Document.enter, Document.enter, hf, hg]
        simp only [hm, ↓reduceIte]
        exact hfault _
      · have hf : d.enter opened name = .ok f := by simp [Document.enter, hf, hm]
        have hg : d'.enter opened name = .ok g := by simp [Document.enter, hg, hm]
        rw [Reading.openings_succ hf, Reading.openings_succ hg]
        have hselections := hn f (Reading.mem_of_enter hf)
        have ho := opens_openings hr hn more (name :: opened)
        have ho' := opens_openings hr hn' more (name :: opened)
        exact fun e he => (sameAsked_of_openings ho ho' (ih (name :: opened)) hselections e he).trans
          (sameAsked_of_rewrites ho' hfg hselections e he)

/-- Selections and fragments written in another way ask for the same. -/
theorem sameAsked_expand (hr : r.NaNFree) (hd : d.Rewrites d') (hn : d.NaNFree)
    (h : Rewrites ss ts) (hss : ∀ s ∈ ss, s.NaNFree) :
    SameAsked c (below? c (r.expand d ss)) (below? c (r.expand d' ts)) := by
  have ho := opens_openings hr hn d.fragments.length []
  have ho' := opens_openings hr (nanFree_of_rewrites hd hn) d.fragments.length []
  rw [Reading.expand_eq, Reading.expand_eq, ← hd.length_eq]
  exact fun e he => (sameAsked_of_openings ho ho' (sameAsked_openings hr hd hn _ _) hss e he).trans
    (sameAsked_of_rewrites ho' h hss e he)

/-- A plan, told without the steps. -/
theorem plan_eq_ok {type : String} {x : Expansion} {m : Request} : plan c type x = .ok m ↔
    ∃ t e, TypeString.parse type = .ok t ∧ c.entity? t.name = some e ∧ planBelow c x e = .ok m := by
  rw [plan, Outcome.bind_eq_ok]
  simp only [Outcome.bind_eq_ok, Outcome.mapError_eq_ok, Catalog.require_eq_ok]
  constructor
  · rintro ⟨t, ht, e, he, h⟩
    exact ⟨t, e, ht, he, h⟩
  · rintro ⟨t, e, ht, he, h⟩
    exact ⟨t, ht, e, he, h⟩

def Planned (c : Catalog) (e : Entity) (a : Request) : Prop :=
  a.entity = e ∧ ∃ type x, x.NaNFree ∧ plan c type x = .ok a

theorem Planned.regular {a : Request} (h : Planned c e a) : Regular c e a := by
  obtain ⟨rfl, type, x, hx, h⟩ := h
  obtain ⟨_, e, _, he, h⟩ := plan_eq_ok.mp h
  have hreg := regular_below hx (Catalog.entity?_eq_some.mp he).1 a (Outcome.toOption_eq_some.mpr h)
  exact hreg.entity ▸ hreg

/-- The outcome of a whole plan is kept. -/
theorem sameOutcome_plan (hr : r.NaNFree) (hd : d.Rewrites d') (hn : d.NaNFree)
    (h : Rewrites ss ts) (hss : ∀ s ∈ ss, s.NaNFree) (type : String) :
    SameOutcome (plan c type (r.expand d ss)) (plan c type (r.expand d' ts)) := by
  have hplan : ∀ x, plan c type x = ((TypeString.parse type).mapError Error.schema >>= fun t =>
      (c.require t.name).mapError Error.schema >>= planBelow c x) := fun _ => rfl
  rw [hplan, hplan]
  cases TypeString.parse type with
  | error err => exact .error _ _
  | ok t =>
    show SameOutcome ((c.require t.name).mapError Error.schema >>= planBelow c (r.expand d ss))
      ((c.require t.name).mapError Error.schema >>= planBelow c (r.expand d' ts))
    cases hrequire : c.require t.name with
    | error err => exact .error _ _
    | ok e =>
      have he := (Catalog.entity?_eq_some.mp (Catalog.require_eq_ok.mp hrequire)).1
      exact sameOutcome_iff.mpr (sameAsked_expand hr hd hn h hss e he).same

/-- What is planned does not depend on how selections are written: both ways fail, or both end well
with equal requests. Up to that equality, merging planned requests for an entity is idempotent,
commutative and associative, and it fails exactly where a path that both ask for is asked for with
different windows or filters. -/
theorem plan_rewriting (c : Catalog) :
    (∀ (r : Reading) (d d' : Document) (ss ts : List Selection) (type : String), r.NaNFree →
      d.NaNFree → (∀ s ∈ ss, s.NaNFree) → d.Rewrites d' → Rewrites ss ts →
      SameOutcome (plan c type (r.expand d ss)) (plan c type (r.expand d' ts))) ∧
    ∀ (e : Entity) (x y z : Request), Planned c e x → Planned c e y → Planned c e z →
      SameOutcome (x.merge x) (.ok x : Except SchemaError Request) ∧
      SameOutcome (x.merge y) (y.merge x) ∧
      SameOutcome (x.merge y >>= fun m => m.merge z) (y.merge z >>= fun m => x.merge m) ∧
      ((∃ err, x.merge y = .error err) ↔ ∃ path a b, x.at? path = some a ∧ y.at? path = some b ∧
        (a.window ≠ b.window ∨ (a.filter == b.filter) = false)) := by
  refine ⟨fun r d d' ss ts type hr hn hss hd h => sameOutcome_plan hr hd hn h hss type, ?_⟩
  intro e x y z hx hy hz
  have hx := hx.regular
  have hy := hy.regular
  have hz := hz.regular
  obtain ⟨m, hm, hmx⟩ := hx.merge_self
  refine ⟨hm ▸ .ok hmx, hx.merge_comm hy, hx.merge_assoc hy hz, ?_⟩
  -- What the merge needs at every path, turned round.
  have herror : (∃ err, x.merge y = .error err) ↔ ¬ ∃ m, x.merge y = .ok m := by
    cases x.merge y <;> simp
  rw [herror, merge_isOk x hy.fits.distinct]
  simp only [not_forall, AttributeRequest.compatible, Bool.and_eq_true, beq_iff_eq, not_and_or,
    Bool.not_eq_true, exists_prop]

def items : List Selection :=
  [.field "items" none [("limit", .number (.integer 5))] []
    [.field "id" none [] [] [], .field "qty" none [] [] []]]

/-- A field asked twice under equal arguments, merged or not. -/
theorem plan_items : SameOutcome
    (plan Storefront.catalog "Order" ((Reading.ofValues []).expand ⟨[], []⟩ items))
    (plan Storefront.catalog "Order" ((Reading.ofValues []).expand ⟨[], []⟩
      [.field "items" none [("limit", .number (.integer 5))] [] [.field "id" none [] [] []],
       .field "items" none [("limit", .number (.integer 5))] [] [.field "qty" none [] [] []]])) ∧
    ∃ x, Planned Storefront.catalog Storefront.order x ∧
      SameOutcome (x.merge x) (.ok x : Except SchemaError Request) := by
  have hr : (Reading.ofValues []).NaNFree := fun _ => .null
  have hd : Document.NaNFree ⟨[], []⟩ := by simp [Document.NaNFree]
  have hitems : ∀ s ∈ items, s.NaNFree := by
    refine List.forall_mem_singleton.mpr (.field (List.forall_mem_singleton.mpr (.number rfl)) ?_)
    exact List.forall_mem_cons.mpr ⟨.field nofun nofun,
      List.forall_mem_singleton.mpr (.field nofun nofun)⟩
  -- Planned by evaluation, so that there is a request to merge with itself.
  have hplan : ∃ x, plan Storefront.catalog "Order"
      ((Reading.ofValues []).expand ⟨[], []⟩ items) = .ok x ∧ x.entity = Storefront.order :=
    ⟨_, rfl, rfl⟩
  obtain ⟨x, hx, he⟩ := hplan
  have hplanned : Planned Storefront.catalog Storefront.order x :=
    ⟨he, "Order", _, Reading.nanFree_expand hr hd hitems, hx⟩
  refine ⟨(plan_rewriting Storefront.catalog).1 _ _ _ _ _ "Order" hr hd hitems .nil ?_, x, hplanned,
    ((plan_rewriting Storefront.catalog).2 _ x x x hplanned hplanned hplanned).1⟩
  exact .split "items" none _ [] [.field "id" none [] [] []] [.field "qty" none [] [] []] []

end Planning

end EntityGraph
