import EntityGraph.Proofs.Document.Expansion
import EntityGraph.Proofs.Outcome
import EntityGraph.Request.Planning
import EntityGraph.Storefront.Catalog
import Mathlib.Data.List.Perm.Subperm

namespace EntityGraph

def Selection.directives : Selection → List Directive
  | .field _ _ _ directives _ | .spread _ directives | .inline directives _ => directives

/-- Induction over selections: those below a field or in place are looked at before those after. -/
@[elab_as_elim]
theorem Selection.list_induction {P : List Selection → Prop} (nil : P [])
    (field : ∀ name label arguments directives inner rest, P inner → P rest →
      P (.field name label arguments directives inner :: rest))
    (spread : ∀ name directives rest, P rest → P (.spread name directives :: rest))
    (inline : ∀ directives inner rest, P inner → P rest → P (.inline directives inner :: rest)) :
    ∀ ss, P ss := by
  refine @Selection.rec_1 (fun s => ∀ rest, P rest → P (s :: rest)) P ?_ ?_ ?_ nil ?_
  · exact fun name label arguments directives inner h rest =>
      field name label arguments directives inner rest h
  · exact fun name directives rest => spread name directives rest
  · exact fun directives inner h rest => inline directives inner rest h
  · exact fun s rest hs hrest => hs rest hrest

namespace Reading

/-- A selection that is reached from selections: one of them, or one reached from what stands below
a field, in place, or in a fragment, where that is not skipped. -/
inductive Reaches (r : Reading) (d : Document) : List Selection → Selection → Prop
  | here {ss : List Selection} {s : Selection} : s ∈ ss → Reaches r d ss s
  | field {ss inner : List Selection} {s : Selection} {name : String} {label : Option String}
      {arguments : List (String × Literal)} {directives : List Directive} :
      .field name label arguments directives inner ∈ ss → r.skips directives = .ok false →
      Reaches r d inner s → Reaches r d ss s
  | spread {ss : List Selection} {s : Selection} {name : String} {directives : List Directive}
      {fragment : Fragment} : .spread name directives ∈ ss → r.skips directives = .ok false →
      d.fragment? name = some fragment → Reaches r d fragment.selections s → Reaches r d ss s
  | inline {ss inner : List Selection} {s : Selection} {directives : List Directive} :
      .inline directives inner ∈ ss → r.skips directives = .ok false → Reaches r d inner s →
      Reaches r d ss s

def Spreads (r : Reading) (d : Document) (ss : List Selection) (name : String) : Prop :=
  ∃ directives, Reaches r d ss (.spread name directives) ∧ r.skips directives = .ok false

/-- Selections with their fragments in place: each fragment and each selection in place is replaced
by its own selections, below a field too, and what is skipped is left out. -/
inductive Inlines (r : Reading) (d : Document) : List Selection → List Selection → Prop
  | nil : Inlines r d [] []
  | skipped {s : Selection} {rest rest' : List Selection} : r.skips s.directives = .ok true →
      Inlines r d rest rest' → Inlines r d (s :: rest) rest'
  | field {name : String} {label : Option String} {arguments : List (String × Literal)}
      {directives : List Directive} {inner inner' rest rest' : List Selection} :
      r.skips directives = .ok false → Inlines r d inner inner' → Inlines r d rest rest' →
      Inlines r d (.field name label arguments directives inner :: rest)
        (.field name label arguments directives inner' :: rest')
  | spread {name : String} {directives : List Directive} {fragment : Fragment}
      {inner' rest rest' : List Selection} : r.skips directives = .ok false →
      d.fragment? name = some fragment → Inlines r d fragment.selections inner' →
      Inlines r d rest rest' → Inlines r d (.spread name directives :: rest) (inner' ++ rest')
  | inline {directives : List Directive} {inner inner' rest rest' : List Selection} :
      r.skips directives = .ok false → Inlines r d inner inner' → Inlines r d rest rest' →
      Inlines r d (.inline directives inner :: rest) (inner' ++ rest')

variable {r : Reading} {d : Document} {ss ts us : List Selection}

/-- More selections reach more. -/
theorem Reaches.mono (h : ∀ s ∈ ss, s ∈ ts) {s : Selection} (hs : Reaches r d ss s) :
    Reaches r d ts s := by
  cases hs with
  | here hm => exact .here (h _ hm)
  | field hm hk hs => exact .field (h _ hm) hk hs
  | spread hm hk hf hs => exact .spread (h _ hm) hk hf hs
  | inline hm hk hs => exact .inline (h _ hm) hk hs

/-- There is only one way to put fragments in place. -/
theorem Inlines.unique (h : Inlines r d ss ts) (h' : Inlines r d ss us) : ts = us := by
  induction h generalizing us with
  | nil => cases h'; rfl
  -- Whether the first selection is skipped decides between the rules; its form decides the rest.
  | skipped hs _ ih =>
    cases h' with
    | skipped _ h' => exact ih h'
    | field hk => cases hs.symm.trans hk
    | spread hk => cases hs.symm.trans hk
    | inline hk => cases hs.symm.trans hk
  | field hk _ _ ihinner ihrest =>
    cases h' with
    | skipped hs => cases hs.symm.trans hk
    | field _ hinner hrest => rw [ihinner hinner, ihrest hrest]
  | spread hk hf _ _ ihinner ihrest =>
    cases h' with
    | skipped hs => cases hs.symm.trans hk
    | spread _ hf' hinner hrest =>
      obtain rfl := Option.some.inj (hf.symm.trans hf')
      rw [ihinner hinner, ihrest hrest]
  | inline hk _ _ ihinner ihrest =>
    cases h' with
    | skipped hs => cases hs.symm.trans hk
    | inline _ hinner hrest => rw [ihinner hinner, ihrest hrest]

/-- There are no more names of fragments than the document has fragments. -/
theorem length_le_of_isFragment {names : List String} (hnodup : names.Nodup)
    (hall : ∀ name ∈ names, ∃ fragment, d.fragment? name = some fragment) :
    names.length ≤ d.fragments.length := by
  have hsub : names ⊆ d.fragments.map Fragment.name := by
    intro name hname
    obtain ⟨fragment, hfragment⟩ := hall name hname
    have hfound : fragment.name = name := by simpa using List.find?_some hfragment
    exact hfound ▸ List.mem_map_of_mem (List.mem_of_find?_eq_some hfragment)
  simpa using (List.subperm_of_subset hnodup hsub).length_le

structure Inlinable (r : Reading) (d : Document) (opened : List String) (ss : List Selection) :
    Prop where
  decided : ∀ s, Reaches r d ss s → ∃ skipped, r.skips s.directives = .ok skipped
  known : ∀ name, Spreads r d ss name → ∃ fragment, d.fragment? name = some fragment
  acyclic : ∀ name fragment, Spreads r d ss name → d.fragment? name = some fragment →
    ¬ Spreads r d fragment.selections name
  kept : ∀ name label arguments directives inner,
    Reaches r d ss (.field name label arguments directives inner) →
    r.skips directives = .ok false → Inlines r d inner [] → inner = []
  fresh : ∀ name, Spreads r d ss name → name ∉ opened
  nodup : opened.Nodup
  isFragment : ∀ name ∈ opened, ∃ fragment, d.fragment? name = some fragment

namespace Inlinable

variable {opened : List String}

/-- A row that reaches less is inlinable where the longer one was. -/
theorem mono (h : Inlinable r d opened ss) (hts : ∀ s, Reaches r d ts s → Reaches r d ss s) :
    Inlinable r d opened ts := by
  have hspreads : ∀ name, Spreads r d ts name → Spreads r d ss name :=
    fun name ⟨directives, hs, hk⟩ => ⟨directives, hts _ hs, hk⟩
  exact ⟨fun s hs => h.decided s (hts s hs), fun name hs => h.known name (hspreads name hs),
    fun name fragment hs => h.acyclic name fragment (hspreads name hs),
    fun name label arguments directives inner hs =>
      h.kept name label arguments directives inner (hts _ hs),
    fun name hs => h.fresh name (hspreads name hs), h.nodup, h.isFragment⟩

theorem tail {s : Selection} {rest : List Selection} (h : Inlinable r d opened (s :: rest)) :
    Inlinable r d opened rest :=
  h.mono fun _ => Reaches.mono fun _ => List.mem_cons_of_mem s

/-- What is asked below a field that is kept is inlinable too. -/
theorem below {name : String} {label : Option String} {arguments : List (String × Literal)}
    {directives : List Directive} {inner rest : List Selection}
    (h : Inlinable r d opened (.field name label arguments directives inner :: rest))
    (hk : r.skips directives = .ok false) : Inlinable r d opened inner :=
  h.mono fun _ => .field (List.mem_cons_self ..) hk

theorem inPlace {directives : List Directive} {inner rest : List Selection}
    (h : Inlinable r d opened (.inline directives inner :: rest))
    (hk : r.skips directives = .ok false) : Inlinable r d opened inner :=
  h.mono fun _ => .inline (List.mem_cons_self ..) hk

theorem spreads {name : String} {directives : List Directive} {rest : List Selection}
    (hk : r.skips directives = .ok false) : Spreads r d (.spread name directives :: rest) name :=
  ⟨directives, .here (List.mem_cons_self ..), hk⟩

/-- Inside a fragment the fragment is open. -/
theorem opens {name : String} {directives : List Directive} {rest : List Selection}
    {fragment : Fragment} (h : Inlinable r d opened (.spread name directives :: rest))
    (hk : r.skips directives = .ok false) (hf : d.fragment? name = some fragment) :
    Inlinable r d (name :: opened) fragment.selections := by
  have hself : Spreads r d (.spread name directives :: rest) name := spreads hk
  have hinner : Inlinable r d opened fragment.selections :=
    h.mono fun _ => .spread (List.mem_cons_self ..) hk hf
  refine { hinner with
    fresh := fun other hs => ?_
    nodup := List.nodup_cons.mpr ⟨h.fresh name hself, h.nodup⟩
    isFragment := List.forall_mem_cons.mpr ⟨⟨fragment, hf⟩, h.isFragment⟩ }
  rw [List.mem_cons, not_or]
  refine ⟨?_, hinner.fresh other hs⟩
  rintro rfl
  exact h.acyclic other fragment hself hf hs

/-- Opened fragments have names of their own, so that there is always one more to open. -/
theorem length_lt {name : String} (h : Inlinable r d opened ss) (hs : Spreads r d ss name) :
    opened.length < d.fragments.length := by
  have hnodup : (name :: opened).Nodup := List.nodup_cons.mpr ⟨h.fresh name hs, h.nodup⟩
  have hlength := length_le_of_isFragment hnodup
    (List.forall_mem_cons.mpr ⟨h.known name hs, h.isFragment⟩)
  rwa [List.length_cons, Nat.succ_le_iff] at hlength

/-- A fragment that is spread can be entered: no cycle leads back to one that is open. -/
theorem enter {name : String} {fragment : Fragment} (h : Inlinable r d opened ss)
    (hs : Spreads r d ss name) (hf : d.fragment? name = some fragment) :
    d.enter opened name = .ok fragment := by
  simp [Document.enter, hf, h.fresh name hs]

/-- Fragments can be put in place. -/
theorem exists_inlines (more : Nat) (h : Inlinable r d opened ss)
    (hmore : more + opened.length = d.fragments.length) : ∃ ts, Inlines r d ss ts := by
  -- On the number of fragments that are not open yet, and for each number on the selections.
  induction more using Nat.strongRecOn generalizing opened ss with
  | ind more ihmore =>
    have hskip : ∀ {s rest}, Inlinable r d opened (s :: rest) → r.skips s.directives = .ok true →
        (Inlinable r d opened rest → ∃ ts, Inlines r d rest ts) →
        ∃ ts, Inlines r d (s :: rest) ts := by
      intro s rest h hs ih
      obtain ⟨ts, hts⟩ := ih h.tail
      exact ⟨ts, .skipped hs hts⟩
    induction ss using Selection.list_induction with
    | nil => exact ⟨[], .nil⟩
    | field name label arguments directives inner rest ihinner ihrest =>
      obtain ⟨skipped, hk⟩ := h.decided _ (.here (List.mem_cons_self ..))
      cases skipped with
      | true => exact hskip h hk ihrest
      | false =>
        obtain ⟨inner', hinner⟩ := ihinner (h.below hk)
        obtain ⟨rest', hrest⟩ := ihrest h.tail
        exact ⟨_, .field hk hinner hrest⟩
    | spread name directives rest ihrest =>
      obtain ⟨skipped, hk⟩ := h.decided _ (.here (List.mem_cons_self ..))
      cases skipped with
      | true => exact hskip h hk ihrest
      | false =>
        have hself : Spreads r d (.spread name directives :: rest) name := spreads hk
        obtain ⟨fragment, hf⟩ := h.known name hself
        have hlt := h.length_lt hself
        obtain ⟨inner', hinner⟩ := ihmore (more - 1) (by omega) (h.opens hk hf)
          (by rw [List.length_cons]; omega)
        obtain ⟨rest', hrest⟩ := ihrest h.tail
        exact ⟨_, .spread hk hf hinner hrest⟩
    | inline directives inner rest ihinner ihrest =>
      obtain ⟨skipped, hk⟩ := h.decided _ (.here (List.mem_cons_self ..))
      cases skipped with
      | true => exact hskip h hk ihrest
      | false =>
        obtain ⟨inner', hinner⟩ := ihinner (h.inPlace hk)
        obtain ⟨rest', hrest⟩ := ihrest h.tail
        exact ⟨_, .inline hk hinner hrest⟩

end Inlinable

/-- Selections that are skipped ask for nothing. -/
theorem expansion_skipped {below? : Option (List Selection → Expansion)} {opening : Opening}
    (ho : opening.Continues) {s : Selection} (hs : r.skips s.directives = .ok true)
    (rest : List Selection) :
    r.expansion below? opening (s :: rest) = r.expansion below? opening rest := by
  rw [expansion_cons ho]
  cases s <;> simp only [expansion, selections, selection, unlessSkipped] <;>
    simp only [Selection.directives] at hs <;> rw [hs] <;> rfl

def under (r : Reading) (below? : Option (List Selection → Expansion)) (opening : Opening)
    (inner : List Selection) : Expansion :=
  match below? with
  | some expand => expand inner
  | none => r.expansion none opening inner

/-- A field that is kept asks for itself, and then for what comes after. -/
theorem expansion_kept {below? : Option (List Selection → Expansion)} {opening : Opening}
    (ho : opening.Continues) {name : String} {label : Option String}
    {arguments : List (String × Literal)} {directives : List Directive}
    (hk : r.skips directives = .ok false) (inner rest : List Selection) :
    r.expansion below? opening (.field name label arguments directives inner :: rest) =
      .field (r.asked name label arguments inner) (fun _ => r.under below? opening inner)
        fun _ => r.expansion below? opening rest := by
  rw [expansion_cons ho]
  simp only [expansion, selections, selection, unlessSkipped, hk]
  cases below? <;> rfl

/-- Selections ask for what they do with their fragments in place, in whichever fragments they
stand. -/
theorem expansion_inlines {below? : Option (List Selection → Expansion)} (h : Inlines r d ss ts)
    (hbelow : ∀ expand, below? = some expand → ∀ {inner inner'}, Inlinable r d [] inner →
      Inlines r d inner inner' → expand inner = expand inner') {more more' : Nat}
    {opened opened' : List String} (hin : Inlinable r d opened ss)
    (hmore : more + opened.length = d.fragments.length) :
    r.expansion below? (openings r d below? more opened) ss =
      r.expansion below? (openings r d below? more' opened') ts := by
  have ho : ∀ more opened, (openings r d below? more opened).Continues := continues_openings
  -- On how the fragments are put in place. On the right nothing is opened, so that any number of
  -- fragments may be open there.
  induction h generalizing more more' opened opened' with
  | nil => rfl
  | skipped hs _ ih =>
    rw [expansion_skipped (ho _ _) hs]
    exact ih hin.tail hmore
  | @field name label arguments directives inner inner' rest rest' hk hinner _ ihinner ihrest =>
    -- A field that has selections of its own keeps some of them.
    have hempty : inner.isEmpty = inner'.isEmpty := by
      cases inner' with
      | nil =>
        rw [hin.kept name label arguments directives inner (.here (List.mem_cons_self ..)) hk hinner]
      | cons s inner' =>
        cases inner with
        | nil => cases hinner
        | cons => rfl
    have hasked : r.asked name label arguments inner = r.asked name label arguments inner' := by
      rw [asked, asked, hempty]
    have hunder : r.under below? (openings r d below? more opened) inner =
        r.under below? (openings r d below? more' opened') inner' := by
      cases below? with
      | none => exact ihinner (hin.below hk) hmore
      | some expand =>
        exact hbelow expand rfl { hin.below hk with
          fresh := fun _ _ => List.not_mem_nil, nodup := List.nodup_nil, isFragment := nofun } hinner
    rw [expansion_kept (ho _ _) hk, expansion_kept (ho _ _) hk, hasked, hunder,
      ihrest hin.tail hmore]
  | @spread name directives fragment inner' rest rest' hk hf _ _ ihinner ihrest =>
    -- One fragment more is open, and there was one more to open.
    have hself : Spreads r d (.spread name directives :: rest) name := Inlinable.spreads hk
    obtain ⟨more, rfl⟩ : ∃ n, more = n + 1 :=
      Nat.exists_eq_succ_of_ne_zero (by have := hin.length_lt hself; omega)
    rw [expansion_cons (ho _ _), expansion_append (ho _ _), expansion_spread, unlessSkipped, hk,
      openings_succ (hin.enter hself hf), ihrest hin.tail hmore]
    rw [ihinner (hin.opens hk hf) (by rw [List.length_cons]; omega)]
  | inline hk _ _ ihinner ihrest =>
    rw [expansion_cons (ho _ _), expansion_append (ho _ _), expansion_inline, unlessSkipped, hk,
      ihrest hin.tail hmore]
    exact congrArg (Expansion.andThen · _) (ihinner (hin.inPlace hk) hmore)

/-- An expansion and that of its inlining are equal. -/
theorem expand_inlines (h : Inlines r d ss ts) (hin : Inlinable r d [] ss) :
    r.expand d ss = r.expand d ts := by
  rw [expand_eq, expand_eq]
  exact expansion_inlines h (by rintro _ ⟨⟩) hin (Nat.add_zero _)

theorem expandRoot_eq (r : Reading) (d : Document) (ss : List Selection) :
    r.expandRoot d ss = r.expansion (some (r.expand d))
      (openings r d (some (r.expand d)) d.fragments.length []) ss := by
  rw [expandRoot, within_eq, expansion]

/-- The same at the root, where what is below is expanded apart. -/
theorem expandRoot_inlines (h : Inlines r d ss ts) (hin : Inlinable r d [] ss) :
    r.expandRoot d ss = r.expandRoot d ts := by
  rw [expandRoot_eq, expandRoot_eq]
  refine expansion_inlines h ?_ hin (Nat.add_zero _)
  rintro _ ⟨⟩ inner inner' hinner hinlines
  exact expand_inlines hinlines hinner

inductive RootItem (r : Reading) (d : Document) : Selection → Item → Prop
  | field {name : String} {label : Option String} {arguments : List (String × Literal)}
      {directives : List Directive} {inner : List Selection} : r.skips directives = .ok false →
      RootItem r d (.field name label arguments directives inner)
        ⟨r.asked name label arguments inner, fun _ => r.expand d inner⟩

/-- With fragments in place there are only fields that are kept. -/
theorem Inlines.rootItems (h : Inlines r d ss ts) :
    ∃ items, List.Forall₂ (RootItem r d) ts items := by
  induction h with
  | nil => exact ⟨[], .nil⟩
  | skipped _ _ ih => exact ih
  | field hk _ _ _ ihrest =>
    obtain ⟨items, hitems⟩ := ihrest
    exact ⟨_, .cons (.field hk) hitems⟩
  | spread _ _ _ _ ihinner ihrest | inline _ _ _ ihinner ihrest =>
    obtain ⟨inner, hinner⟩ := ihinner
    obtain ⟨items, hitems⟩ := ihrest
    exact ⟨inner ++ items, List.rel_append hinner hitems⟩

/-- Root items that are inlined come out one for one. -/
theorem items_of_rootItems {items : List Item} (h : List.Forall₂ (RootItem r d) ts items) :
    (r.expandRoot d ts).items = .ok items := by
  rw [expandRoot_eq]
  induction h with
  | nil => rfl
  | cons hone _ ih =>
    cases hone with
    | field hk =>
      rw [expansion_kept (continues_openings _ _) hk, Expansion.items, ih]
      rfl

def Decided (values : Arguments) (s : Selection) : Prop :=
  ∀ directive ∈ s.directives, ∀ skipWhen, skipsOn? directive.name = some skipWhen →
    ∃ b, (directive.arguments.lookup "if").map (Literal.resolve (assignment values)) =
      some (.boolean b)

/-- Directives whose variables are given are decided. -/
theorem skips_of_decided {values : Arguments} {s : Selection} (h : Decided values s) :
    ∃ skipped, (ofValues values).skips s.directives = .ok skipped := by
  show ∃ skipped, skipsBy (assignment values) s.directives = .ok skipped
  unfold Decided at h
  generalize s.directives = directives at h ⊢
  induction directives with
  | nil => exact ⟨false, rfl⟩
  | cons directive directives ih =>
    obtain ⟨hone, hrest⟩ := List.forall_mem_cons.mp h
    rw [skipsBy]
    cases hs : skipsOn? directive.name with
    | none => exact ih hrest
    | some skipWhen =>
      obtain ⟨b, hb⟩ := hone skipWhen hs
      simp only [hb]
      split
      · exact ⟨true, rfl⟩
      · exact ih hrest

/-- Fragments are transparent. Where no fragment that is reached is unknown or cyclic, every
condition is a truth value, and no field loses all its selections, there is one way to put the
fragments in place; the same is planned then, and the items at a root are the fields that are kept,
in order. -/
theorem fragments_transparent {values : Arguments} {d : Document} {ss : List Selection}
    (hdecided : ∀ s, Reaches (ofValues values) d ss s → Decided values s)
    (hknown : ∀ name, Spreads (ofValues values) d ss name →
      ∃ fragment, d.fragment? name = some fragment)
    (hacyclic : ∀ name fragment, Spreads (ofValues values) d ss name →
      d.fragment? name = some fragment → ¬ Spreads (ofValues values) d fragment.selections name)
    (hkept : ∀ name label arguments directives inner,
      Reaches (ofValues values) d ss (.field name label arguments directives inner) →
      (ofValues values).skips directives = .ok false → Inlines (ofValues values) d inner [] →
      inner = []) :
    (∃! ts, Inlines (ofValues values) d ss ts) ∧ ∀ ts, Inlines (ofValues values) d ss ts →
      (∀ c type, Planning.plan c type ((ofValues values).expand d ss) =
        Planning.plan c type ((ofValues values).expand d ts)) ∧
      ((ofValues values).expandRoot d ss).items = ((ofValues values).expandRoot d ts).items ∧
      ∃ items, ((ofValues values).expandRoot d ss).items = .ok items ∧
        List.Forall₂ (RootItem (ofValues values) d) ts items := by
  -- The premises, with no fragment open yet.
  have hin : Inlinable (ofValues values) d [] ss :=
    { decided := fun s hs => skips_of_decided (hdecided s hs), known := hknown
      acyclic := hacyclic, kept := hkept, fresh := fun _ _ => List.not_mem_nil
      nodup := List.nodup_nil, isFragment := nofun }
  -- No fragment opens below itself, so that an inlining is reached.
  obtain ⟨ts, hts⟩ := hin.exists_inlines d.fragments.length (Nat.add_zero _)
  refine ⟨⟨ts, hts, fun us hus => hus.unique hts⟩, fun us hus => ?_⟩
  obtain ⟨items, hitems⟩ := hus.rootItems
  have hroot := expandRoot_inlines hus hin
  refine ⟨fun c type => by rw [expand_inlines hus hin], by rw [hroot], items, ?_, hitems⟩
  rw [hroot, items_of_rootItems hitems]

/-- The selections that stand directly below a selection, in place of it, or in its fragment. -/
def children (d : Document) : Selection → List Selection
  | .field _ _ _ _ inner | .inline _ inner => inner
  | .spread name _ => (d.fragment? name).elim [] Fragment.selections

/-- What is reached from selections stands in every list of selections that holds them and those
below its own. -/
theorem Reaches.mem {s : Selection} (h : Reaches r d ss s) (all : List Selection)
    (hclosed : ∀ t ∈ all, ∀ u ∈ children d t, u ∈ all) (hss : ∀ t ∈ ss, t ∈ all) : s ∈ all := by
  induction h with
  | here hm => exact hss _ hm
  | field hm _ _ ih => exact ih (hclosed _ (hss _ hm))
  | spread hm _ hf _ ih =>
    have hsub := hclosed _ (hss _ hm)
    rw [children, hf] at hsub
    exact ih hsub
  | inline hm _ _ ih => exact ih (hclosed _ (hss _ hm))

def qty : Selection := .field "qty" none [] [] []

def lines : Selection := .field "items" none [] [] [qty]

def orderLines : Document := ⟨[], [⟨"Lines", [lines]⟩]⟩

def optionalId : Selection :=
  .field "id" none [] [⟨"skip", [("if", .reference "short")]⟩] []

def shortOrder : List Selection := [.inline [] [.spread "Lines" []], optionalId]

def short : Arguments := [("short", .boolean true)]

theorem reaches_shortOrder {s : Selection}
    (h : Reaches (ofValues short) orderLines shortOrder s) :
    s = .inline [] [.spread "Lines" []] ∨ s = optionalId ∨ s = .spread "Lines" [] ∨ s = lines ∨
      s = qty := by
  have hmem := h.mem (shortOrder ++ [.spread "Lines" [], lines, qty])
    (by simp [shortOrder, children, orderLines, Document.fragment?, optionalId, lines, qty])
    fun t ht => List.mem_append_left _ ht
  simpa [shortOrder] using hmem

theorem reaches_lines {s : Selection} (h : Reaches (ofValues short) orderLines [lines] s) :
    s = lines ∨ s = qty := by
  have hmem := h.mem [lines, qty] (by simp [children, lines, qty]) (by simp)
  simpa using hmem

theorem spreads_shortOrder {name : String}
    (h : Spreads (ofValues short) orderLines shortOrder name) : name = "Lines" := by
  obtain ⟨directives, hs, _⟩ := h
  have hmem := reaches_shortOrder hs
  simp only [optionalId, lines, qty, reduceCtorEq, Selection.spread.injEq, false_or, or_false] at hmem
  exact hmem.1

theorem inlines_lines : Inlines (ofValues short) orderLines [lines] [lines] :=
  .field rfl (.field rfl .nil .nil) .nil

theorem inlines_shortOrder : Inlines (ofValues short) orderLines shortOrder [lines] := by
  have hspread : Inlines (ofValues short) orderLines [.spread "Lines" []] ([lines] ++ []) :=
    .spread rfl rfl inlines_lines .nil
  exact .inline rfl hspread (.skipped rfl .nil)

/-- A fragment inside an inline one, with directives on variables, and the plain row it stands for.
-/
theorem transparent_shortOrder :
    Planning.plan Storefront.catalog "Order" ((ofValues short).expand orderLines shortOrder) =
      Planning.plan Storefront.catalog "Order" ((ofValues short).expand orderLines [lines]) ∧
    ∃ items, ((ofValues short).expandRoot orderLines shortOrder).items = .ok items ∧
      List.Forall₂ (RootItem (ofValues short) orderLines) [lines] items := by
  -- The five selections that are reached; only the optional id has a directive on a variable.
  have hdecided : ∀ s, Reaches (ofValues short) orderLines shortOrder s → Decided short s := by
    intro s hs
    rcases reaches_shortOrder hs with rfl | rfl | rfl | rfl | rfl
    · exact nofun
    · intro directive hd skipWhen _
      rw [List.mem_singleton.mp hd]
      exact ⟨true, rfl⟩
    · exact nofun
    · exact nofun
    · exact nofun
  have hknown : ∀ name, Spreads (ofValues short) orderLines shortOrder name →
      ∃ fragment, orderLines.fragment? name = some fragment := by
    intro name hs
    rw [spreads_shortOrder hs]
    exact ⟨_, rfl⟩
  have hacyclic : ∀ name fragment, Spreads (ofValues short) orderLines shortOrder name →
      orderLines.fragment? name = some fragment →
      ¬ Spreads (ofValues short) orderLines fragment.selections name := by
    intro name fragment hs hf hself
    rw [spreads_shortOrder hs] at hf
    obtain rfl := Option.some.inj hf
    -- The fragment holds lines, and lines spread nothing.
    obtain ⟨directives, hreach, _⟩ := hself
    rcases reaches_lines hreach with h | h <;> cases h
  have hkept : ∀ name label arguments directives inner,
      Reaches (ofValues short) orderLines shortOrder (.field name label arguments directives inner) →
      (ofValues short).skips directives = .ok false → Inlines (ofValues short) orderLines inner [] →
      inner = [] := by
    intro name label arguments directives inner hs _ hinner
    rcases reaches_shortOrder hs with h | h | h | h | h <;> cases h
    · rfl
    · cases hinner.unique (.field rfl .nil .nil)
    · rfl
  obtain ⟨hplan, _, hitems⟩ :=
    (fragments_transparent hdecided hknown hacyclic hkept).2 [lines] inlines_shortOrder
  exact ⟨hplan Storefront.catalog "Order", hitems⟩

end Reading

end EntityGraph
