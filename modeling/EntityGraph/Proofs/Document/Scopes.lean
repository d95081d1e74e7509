import EntityGraph.Proofs.Document.Keeping

namespace EntityGraph

/-- A fragment is entered when it is there and not open. -/
theorem Document.enter_eq_ok {d : Document} {opened : List String} {name : String}
    {fragment : Fragment} : d.enter opened name = .ok fragment ↔
      d.fragment? name = some fragment ∧ name ∉ opened := by
  rw [enter]
  cases d.fragment? name with
  | none => simp
  | some found =>
    by_cases hopen : name ∈ opened <;> simp [hopen]

namespace Reading

/-- A field with its own selections that is selected in the scope of selections: one of them, or
one of a fragment that they spread or of selections in place, nothing of it skipped. -/
inductive Selects (r : Reading) (d : Document) :
    List Selection → String → List Selection → Prop
  | field {ss inner : List Selection} {name : String} {label : Option String}
      {arguments : List (String × Literal)} {directives : List Directive} :
      .field name label arguments directives inner ∈ ss → r.skips directives = .ok false →
      Selects r d ss name inner
  | spread {ss inner : List Selection} {name fragment : String} {directives : List Directive}
      {found : Fragment} : .spread fragment directives ∈ ss → r.skips directives = .ok false →
      d.fragment? fragment = some found → Selects r d found.selections name inner →
      Selects r d ss name inner
  | inline {ss inPlace inner : List Selection} {name : String} {directives : List Directive} :
      .inline directives inPlace ∈ ss → r.skips directives = .ok false →
      Selects r d inPlace name inner → Selects r d ss name inner

variable {r : Reading} {d : Document} {below? : Option (List Selection → Expansion)}
  {more : Nat} {opened : List String}

/-- A directive that cannot be decided ends the expansion. -/
theorem expansion_undecided {opening : Opening} (ho : opening.Continues) {s : Selection} {e : Error}
    (hs : r.skips s.directives = .error e) (rest : List Selection) :
    r.expansion below? opening (s :: rest) = .fault e := by
  rw [expansion_cons ho]
  cases s <;> simp only [expansion, selections, selection, unlessSkipped] <;>
    simp only [Selection.directives] at hs <;> rw [hs] <;> rfl

/-- A fragment that cannot be entered ends the expansion. -/
theorem expansion_refused {name : String} {directives : List Directive} {e : Error}
    (hk : r.skips directives = .ok false) (he : d.enter opened name = .error e)
    (rest : List Selection) :
    r.expansion below? (openings r d below? more opened) (.spread name directives :: rest) =
      .fault e := by
  rw [expansion_cons (continues_openings more opened), expansion_spread, unlessSkipped, hk,
    openings, he]
  rfl

/-- A fragment that can be opened asks for what its selections do inside it. -/
theorem expansion_opened {name : String} {directives : List Directive} {fragment : Fragment}
    (hk : r.skips directives = .ok false) (he : d.enter opened name = .ok fragment)
    (rest : List Selection) :
    r.expansion below? (openings r d below? (more + 1) opened) (.spread name directives :: rest) =
      (r.expansion below? (openings r d below? more (name :: opened)) fragment.selections).andThen
        fun _ => r.expansion below? (openings r d below? (more + 1) opened) rest := by
  rw [expansion_cons (continues_openings _ opened), expansion_spread, unlessSkipped, hk,
    openings_succ he]

/-- An inline fragment expands in its place. -/
theorem expansion_inPlace {opening : Opening} (ho : opening.Continues)
    {directives : List Directive} (hk : r.skips directives = .ok false)
    (inner rest : List Selection) :
    r.expansion below? opening (.inline directives inner :: rest) =
      (r.expansion below? opening inner).andThen fun _ => r.expansion below? opening rest := by
  rw [expansion_cons ho, expansion_inline, unlessSkipped, hk]

structure Inside (d : Document) (more : Nat) (opened : List String) : Prop extends
    Open d opened where
  count : more + opened.length = d.fragments.length

theorem Inside.start (d : Document) : Inside d d.fragments.length [] := ⟨.nil, Nat.add_zero _⟩

/-- There is one more fragment to open where one can be opened. -/
theorem Inside.enter (h : Inside d more opened) {name : String} {fragment : Fragment}
    (he : d.enter opened name = .ok fragment) :
    ∃ fewer, more = fewer + 1 ∧ Inside d fewer (name :: opened) := by
  have hopen := (h.toOpen.enter he).2
  -- Open fragments have names of their own, so that the document holds them all.
  have hlength : opened.length + 1 ≤ d.fragments.length := hopen.length_le
  have hcount := h.count
  refine ⟨more - 1, by omega, hopen, ?_⟩
  rw [List.length_cons]
  omega

/-- Induction along the way that selections are expanded: what stands below a field, in a fragment
and in place comes before what stands after it. -/
@[elab_as_elim]
theorem Inside.induction (r : Reading) {P : Nat → List String → List Selection → Prop}
    (nil : ∀ more opened, P more opened [])
    (undecided : ∀ more opened s rest e, r.skips s.directives = .error e →
      P more opened (s :: rest))
    (skipped : ∀ more opened s rest, r.skips s.directives = .ok true → P more opened rest →
      P more opened (s :: rest))
    (field : ∀ more opened name label arguments directives inner rest, Inside d more opened →
      r.skips directives = .ok false → P more opened inner → P more opened rest →
      P more opened (.field name label arguments directives inner :: rest))
    (refused : ∀ more opened name directives rest e, r.skips directives = .ok false →
      d.enter opened name = .error e → P more opened (.spread name directives :: rest))
    (spread : ∀ more opened name directives fragment rest, r.skips directives = .ok false →
      d.enter opened name = .ok fragment → P more (name :: opened) fragment.selections →
      P (more + 1) opened rest → P (more + 1) opened (.spread name directives :: rest))
    (inline : ∀ more opened directives inner rest, r.skips directives = .ok false →
      P more opened inner → P more opened rest → P more opened (.inline directives inner :: rest))
    (h : Inside d more opened) (ss : List Selection) : P more opened ss := by
  -- On the number of fragments that may still be opened, and for each number on the selections.
  induction more using Nat.strongRecOn generalizing opened ss with
  | ind more ihmore =>
    induction ss using Selection.list_induction with
    | nil => exact nil more opened
    | field name label arguments directives inner rest ihinner ihrest =>
      cases hk : r.skips directives with
      | error e => exact undecided more opened _ rest e hk
      | ok skips =>
        cases skips with
        | true => exact skipped more opened _ rest hk ihrest
        | false =>
          exact field more opened name label arguments directives inner rest h hk ihinner ihrest
    | spread name directives rest ihrest =>
      cases hk : r.skips directives with
      | error e => exact undecided more opened _ rest e hk
      | ok skips =>
        cases skips with
        | true => exact skipped more opened _ rest hk ihrest
        | false =>
          cases he : d.enter opened name with
          | error e => exact refused more opened name directives rest e hk he
          | ok fragment =>
            obtain ⟨fewer, rfl, hinside⟩ := h.enter he
            have hinner := ihmore fewer (Nat.lt_succ_self fewer) hinside fragment.selections
            exact spread fewer opened name directives fragment rest hk he hinner ihrest
    | inline directives inner rest ihinner ihrest =>
      cases hk : r.skips directives with
      | error e => exact undecided more opened _ rest e hk
      | ok skips =>
        cases skips with
        | true => exact skipped more opened _ rest hk ihrest
        | false => exact inline more opened directives inner rest hk ihinner ihrest

/-- More selections select more. -/
theorem Selects.mono {ss ts inner : List Selection} {name : String} (h : ∀ s ∈ ss, s ∈ ts)
    (hs : Selects r d ss name inner) : Selects r d ts name inner := by
  cases hs with
  | field hm hk => exact .field (h _ hm) hk
  | spread hm hk hf hs => exact .spread (h _ hm) hk hf hs
  | inline hm hk hs => exact .inline (h _ hm) hk hs

theorem not_selects_nil {inner : List Selection} {name : String} :
    ¬ Selects r d [] name inner := by
  rintro (⟨hm, -⟩ | ⟨hm, -, -, -⟩ | ⟨hm, -, -⟩) <;> cases hm

theorem selects_cons {s : Selection} {rest inner : List Selection} {name : String} :
    Selects r d (s :: rest) name inner ↔
      Selects r d [s] name inner ∨ Selects r d rest name inner := by
  constructor
  · intro h
    cases h with
    | field hm hk =>
      exact (List.mem_cons.mp hm).imp (fun h => .field (List.mem_singleton.mpr h) hk)
        fun h => .field h hk
    | spread hm hk hf hs =>
      exact (List.mem_cons.mp hm).imp (fun h => .spread (List.mem_singleton.mpr h) hk hf hs)
        fun h => .spread h hk hf hs
    | inline hm hk hs =>
      exact (List.mem_cons.mp hm).imp (fun h => .inline (List.mem_singleton.mpr h) hk hs)
        fun h => .inline h hk hs
  · rintro (h | h)
    · exact h.mono (by simp)
    · exact h.mono fun _ => List.mem_cons_of_mem s

/-- What is skipped selects nothing. -/
theorem not_selects_skipped {s : Selection} (hs : r.skips s.directives = .ok true)
    {inner : List Selection} {name : String} : ¬ Selects r d [s] name inner := by
  intro h
  have hkept : r.skips s.directives = .ok false := by
    cases h with
    | field hm hk => exact List.mem_singleton.mp hm ▸ hk
    | spread hm hk _ _ => exact List.mem_singleton.mp hm ▸ hk
    | inline hm hk _ => exact List.mem_singleton.mp hm ▸ hk
  cases hs.symm.trans hkept

/-- A field selects itself. -/
theorem selects_field {name other : String} {label : Option String}
    {arguments : List (String × Literal)} {directives : List Directive}
    {inner selections : List Selection} (hk : r.skips directives = .ok false) :
    Selects r d [.field name label arguments directives selections] other inner ↔
      name = other ∧ selections = inner := by
  constructor
  · intro h
    cases h with
    | field hm =>
      cases List.mem_singleton.mp hm
      exact ⟨rfl, rfl⟩
    | spread hm => cases List.mem_singleton.mp hm
    | inline hm => cases List.mem_singleton.mp hm
  · rintro ⟨rfl, rfl⟩
    exact .field (List.mem_singleton_self _) hk

/-- A spread selects what its fragment does. -/
theorem selects_spread {name fragment : String} {directives : List Directive}
    {inner : List Selection} {found : Fragment} (hk : r.skips directives = .ok false)
    (hf : d.fragment? fragment = some found) :
    Selects r d [.spread fragment directives] name inner ↔
      Selects r d found.selections name inner := by
  constructor
  · intro h
    cases h with
    | field hm => cases List.mem_singleton.mp hm
    | spread hm _ hf' hs =>
      cases List.mem_singleton.mp hm
      exact Option.some.inj (hf'.symm.trans hf) ▸ hs
    | inline hm => cases List.mem_singleton.mp hm
  · exact fun h => .spread (List.mem_singleton_self _) hk hf h

theorem selects_inline {name : String} {directives : List Directive}
    {inPlace inner : List Selection} (hk : r.skips directives = .ok false) :
    Selects r d [.inline directives inPlace] name inner ↔ Selects r d inPlace name inner := by
  constructor
  · intro h
    cases h with
    | field hm => cases List.mem_singleton.mp hm
    | spread hm => cases List.mem_singleton.mp hm
    | inline hm _ hs =>
      cases List.mem_singleton.mp hm
      exact hs
  · exact fun h => .inline (List.mem_singleton_self _) hk h

def Unrolls (r : Reading) (d : Document) (x : Expansion) (ss : List Selection) : Prop :=
  ∃ more opened, Inside d more opened ∧ x = r.expansion none (openings r d none more opened) ss

/-- An expansion has the items of what it selects, at every depth. -/
theorem unrolls_expand (r : Reading) (d : Document) (ss : List Selection) :
    Unrolls r d (r.expand d ss) ss :=
  ⟨_, [], .start d, expand_eq r d ss⟩

structure Item.Shows (r : Reading) (d : Document) (item : Item) (name : String)
    (inner : List Selection) : Prop where
  name : item.head.name = name
  selected : item.head.selected = !inner.isEmpty
  unrolls : Unrolls r d (item.inner ()) inner

/-- Items are those of the fields that selections select, and of no others, where `S` tells which
items are those of a field with its own selections. -/
structure Covers (r : Reading) (d : Document) (S : Item → String → List Selection → Prop)
    (ss : List Selection) (items : List Item) : Prop where
  selects : ∀ item ∈ items, ∃ name inner, Selects r d ss name inner ∧ S item name inner
  shown : ∀ name inner, Selects r d ss name inner → ∃ item ∈ items, S item name inner

variable {S : Item → String → List Selection → Prop}

/-- Coverings of two rows are one of the row of both. -/
theorem Covers.append {ss ts us : List Selection} {xs ys : List Item} (hx : Covers r d S ss xs)
    (hy : Covers r d S ts ys) (h : ∀ name inner, Selects r d us name inner ↔
      Selects r d ss name inner ∨ Selects r d ts name inner) : Covers r d S us (xs ++ ys) := by
  constructor
  · intro item hitem
    rcases List.mem_append.mp hitem with hitem | hitem
    · obtain ⟨name, inner, hs, hshows⟩ := hx.selects item hitem
      exact ⟨name, inner, (h name inner).mpr (.inl hs), hshows⟩
    · obtain ⟨name, inner, hs, hshows⟩ := hy.selects item hitem
      exact ⟨name, inner, (h name inner).mpr (.inr hs), hshows⟩
  · intro name inner hs
    rcases (h name inner).mp hs with hs | hs
    · obtain ⟨item, hitem, hshows⟩ := hx.shown name inner hs
      exact ⟨item, List.mem_append_left ys hitem, hshows⟩
    · obtain ⟨item, hitem, hshows⟩ := hy.shown name inner hs
      exact ⟨item, List.mem_append_right xs hitem, hshows⟩

theorem Covers.congr {ss ts : List Selection} {items : List Item} (h : Covers r d S ss items)
    (hst : ∀ name inner, Selects r d ss name inner ↔ Selects r d ts name inner) :
    Covers r d S ts items := by
  refine ⟨fun item hitem => ?_, fun name inner hs => h.shown name inner ((hst name inner).mpr hs)⟩
  obtain ⟨name, inner, hs, hshows⟩ := h.selects item hitem
  exact ⟨name, inner, (hst name inner).mp hs, hshows⟩

/-- The items are exactly what the selections select. The induction is `Inside.induction`, with one
case for each kind of selection and one for each way to fail. -/
theorem covers_items_of (hS : ∀ more opened name label arguments inner, Inside d more opened →
      S ⟨r.asked name label arguments inner,
        fun _ => r.under below? (openings r d below? more opened) inner⟩ name inner)
    (h : Inside d more opened) (ss : List Selection) : ∀ items,
      (r.expansion below? (openings r d below? more opened) ss).items = .ok items →
        Covers r d S ss items := by
  refine Inside.induction r (P := fun more opened ss => ∀ items,
    (r.expansion below? (openings r d below? more opened) ss).items = .ok items →
      Covers r d S ss items) ?nil ?undecided ?skipped ?field ?refused ?spread ?inline h ss
  case nil =>
    intro more opened items hitems
    obtain rfl := Except.ok.inj hitems
    exact ⟨nofun, fun _ _ hs => absurd hs not_selects_nil⟩
  case undecided =>
    intro more opened s rest e hs items hitems
    rw [expansion_undecided (continues_openings more opened) hs] at hitems
    cases hitems
  case skipped =>
    intro more opened s rest hs ih items hitems
    rw [expansion_skipped (continues_openings more opened) hs] at hitems
    -- What is skipped selects nothing.
    refine (ih items hitems).congr fun name inner => ?_
    rw [selects_cons, or_iff_right (not_selects_skipped hs)]
  case field =>
    intro more opened name label arguments directives inner rest hin hk _ ih items hitems
    rw [expansion_kept (continues_openings more opened) hk, Expansion.items] at hitems
    obtain ⟨after, hafter, rfl⟩ := Outcome.map_eq_ok.mp hitems
    have hshows := hS more opened name label arguments inner hin
    have hsingle : Covers r d S [.field name label arguments directives inner]
        [⟨r.asked name label arguments inner,
          fun _ => r.under below? (openings r d below? more opened) inner⟩] := by
      constructor
      · rintro item hitem
        obtain rfl := List.mem_singleton.mp hitem
        exact ⟨name, inner, (selects_field hk).mpr ⟨rfl, rfl⟩, hshows⟩
      · intro other selections hs
        obtain ⟨rfl, rfl⟩ := (selects_field hk).mp hs
        exact ⟨_, List.mem_singleton_self _, hshows⟩
    exact hsingle.append (ih after hafter) fun _ _ => selects_cons
  case refused =>
    intro more opened name directives rest e hk he items hitems
    rw [expansion_refused hk he] at hitems
    cases hitems
  case spread =>
    intro more opened name directives fragment rest hk he ihinner ihrest items hitems
    rw [expansion_opened hk he, Expansion.items_andThen_eq_ok] at hitems
    -- The items of the fragment stand before those of what comes after it.
    obtain ⟨xs, ys, hxs, hys, rfl⟩ := hitems
    refine (ihinner xs hxs).append (ihrest ys hys) fun other selections => ?_
    rw [selects_cons, selects_spread hk (Document.enter_eq_ok.mp he).1]
  case inline =>
    intro more opened directives inner rest hk ihinner ihrest items hitems
    rw [expansion_inPlace (continues_openings more opened) hk,
      Expansion.items_andThen_eq_ok] at hitems
    obtain ⟨xs, ys, hxs, hys, rfl⟩ := hitems
    refine (ihinner xs hxs).append (ihrest ys hys) fun other selections => ?_
    rw [selects_cons, selects_inline hk]

/-- Where an expansion has no fault, its items are those of the selected fields. -/
theorem covers_items (h : Inside d more opened) (ss : List Selection) (items : List Item) :
    (r.expansion none (openings r d none more opened) ss).items = .ok items →
      Covers r d (Item.Shows r d) ss items :=
  covers_items_of (fun more opened _ _ _ _ hin => ⟨rfl, rfl, more, opened, hin, rfl⟩) h ss items

/-- The items at a root are those of the selected fields, the selections of each expanded with no
fragment open. -/
theorem covers_expandRoot (ss : List Selection) (items : List Item)
    (h : (r.expandRoot d ss).items = .ok items) :
    Covers r d (fun item name inner => item.head.name = name ∧ item.inner () = r.expand d inner)
      ss items := by
  rw [expandRoot_eq] at h
  exact covers_items_of (fun _ _ _ _ _ _ _ => ⟨rfl, rfl⟩) (.start d) ss items h

end Reading

end EntityGraph
