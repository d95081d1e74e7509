import EntityGraph.Proofs.Document.Inlining

namespace EntityGraph

mutual

/-- What is kept of a selection: a field of the name, and a fragment or selections in place with
what is kept of theirs. -/
def Selection.keep (name : String) (opened : String → List Selection) :
    Selection → List Selection
  | .field other label arguments directives inner =>
    if other = name then [.field other label arguments directives inner] else []
  | .spread fragment directives => [.inline directives (opened fragment)]
  | .inline directives inner => [.inline directives (keepAll name opened inner)]

def Selection.keepAll (name : String) (opened : String → List Selection) :
    List Selection → List Selection
  | [] => []
  | first :: rest => Selection.keep name opened first ++ keepAll name opened rest

end

namespace Document

def keepWithin (d : Document) (name : String) : Nat → List Selection → List Selection
  | 0 => Selection.keepAll name fun _ => []
  | more + 1 => Selection.keepAll name fun fragment =>
    match d.fragment? fragment with
    | some opened => d.keepWithin name more opened.selections
    | none => []

/-- Selections with the fields of one name only. Below these fields nothing is left out. -/
def keepField (d : Document) (name : String) (asked : List Selection) : List Selection :=
  d.keepWithin name d.fragments.length asked

end Document

def Operation.keepField (operation : Operation) (d : Document) (name : String) : Operation :=
  { operation with selections := d.keepField name operation.selections }

/-- The items of two expansions in turn. -/
theorem Expansion.items_andThen (x : Expansion) (y : Unit → Expansion) :
    (x.andThen y).items = x.items >>= fun xs => (y ()).items.map (xs ++ ·) := by
  induction x with
  | done =>
    rw [done_andThen]
    change _ = (y ()).items.map ([] ++ ·)
    cases (y ()).items <;> rfl
  | fault e => rfl
  | field head inner rest _ ih =>
    rw [andThen, items, ih, items]
    cases (rest ()).items with
    | error err => rfl
    | ok xs => cases (y ()).items <;> rfl

theorem Expansion.items_andThen_eq_ok {x : Expansion} {y : Unit → Expansion} {items : List Item} :
    (x.andThen y).items = .ok items ↔
      ∃ xs ys, x.items = .ok xs ∧ (y ()).items = .ok ys ∧ xs ++ ys = items := by
  rw [items_andThen, Outcome.bind_eq_ok]
  constructor
  · rintro ⟨xs, hxs, h⟩
    obtain ⟨ys, hys, rfl⟩ := Outcome.map_eq_ok.mp h
    exact ⟨xs, ys, hxs, hys, rfl⟩
  · rintro ⟨xs, ys, hxs, hys, rfl⟩
    exact ⟨xs, hxs, Outcome.map_eq_ok.mpr ⟨ys, hys, rfl⟩⟩

namespace Reading

variable {r : Reading} {d : Document} {below : List Selection → Expansion} {name : String}

/-- Selections of which some are kept ask, wherever fragments may be opened, for the items of a
name among those that they asked for. -/
def KeepsItems (r : Reading) (below : List Selection → Expansion) (name : String)
    (asked : Expansion) (kept : List Selection) : Prop :=
  ∀ items, asked.items = .ok items → ∀ opening : Opening, opening.Continues →
    (r.expansion (some below) opening kept).items = .ok (items.filter (·.head.name = name))

/-- Keeping goes through rows. -/
theorem KeepsItems.append {x y : Expansion} {ss ts : List Selection}
    (hx : KeepsItems r below name x ss) (hy : KeepsItems r below name y ts) :
    KeepsItems r below name (x.andThen fun _ => y) (ss ++ ts) := by
  intro items hitems opening ho
  obtain ⟨xs, ys, hxs, hys, rfl⟩ := Expansion.items_andThen_eq_ok.mp hitems
  rw [expansion_append ho, Expansion.items_andThen_eq_ok, List.filter_append]
  exact ⟨_, _, hx xs hxs opening ho, hy ys hys opening ho, rfl⟩

/-- Directives that are left as they are skip what is kept when they skip the whole. -/
theorem KeepsItems.inline {x : Expansion} {ss : List Selection} (directives : List Directive)
    (h : KeepsItems r below name x ss) :
    KeepsItems r below name (r.unlessSkipped directives (fun _ => x) fun _ => .done)
      [.inline directives ss] := by
  intro items hitems opening ho
  rw [unlessSkipped] at hitems
  rw [expansion_inline, unlessSkipped]
  split at hitems
  · cases hitems
  · obtain rfl := Except.ok.inj hitems
    rfl
  · exact h items hitems opening ho

/-- A field has no item but its own. -/
theorem head_of_unlessSkipped {directives : List Directive} {head : AskedField}
    {inner : Unit → Expansion} {items : List Item}
    (h : (r.unlessSkipped directives (fun _ => .field head inner fun _ => .done)
      fun _ => .done).items = .ok items) {item : Item} (hitem : item ∈ items) :
    item.head = head := by
  rw [unlessSkipped] at h
  split at h
  · cases h
  · obtain rfl := Except.ok.inj h
    cases hitem
  · obtain rfl := Except.ok.inj h
    rw [List.mem_singleton.mp hitem]

/-- A field stays with all its items or goes with all of them, by its name. -/
theorem keepsItems_field {opening : Opening} (other : String) (label : Option String)
    (arguments : List (String × Literal)) (directives : List Directive) (inner : List Selection)
    (opened : String → List Selection) :
    KeepsItems r below name
      (r.expansion (some below) opening [.field other label arguments directives inner])
      (Selection.keep name opened (.field other label arguments directives inner)) := by
  have hexpansion : ∀ opening : Opening,
      r.expansion (some below) opening [.field other label arguments directives inner] =
        r.unlessSkipped directives (fun _ => .field (r.asked other label arguments inner)
          (fun _ => below inner) fun _ => .done) fun _ => .done := by
    intro opening
    simp only [expansion, selections, selection]
  intro items hitems opening' _
  rw [hexpansion] at hitems
  -- Whatever the field gives has its name, so the filter keeps all of it or nothing.
  have hhead : ∀ item ∈ items, item.head.name = other := fun item hitem =>
    congrArg AskedField.name (head_of_unlessSkipped hitems hitem)
  rw [Selection.keep]
  by_cases hname : other = name
  · have hall : items.filter (·.head.name = name) = items :=
      List.filter_eq_self.mpr fun item hitem => decide_eq_true ((hhead item hitem).trans hname)
    rw [if_pos hname, hexpansion, hall]
    exact hitems
  · have hnone : items.filter (·.head.name = name) = [] :=
      List.filter_eq_nil_iff.mpr fun item hitem heq =>
        hname ((hhead item hitem).symm.trans (of_decide_eq_true heq))
    rw [if_neg hname, hnone]
    rfl

/-- What is kept of selections keeps the items of a name if what is kept of fragments does. -/
theorem keepsItems_keepAll {opening : Opening} (ho : opening.Continues)
    {opened : String → List Selection} (hopened : ∀ fragment,
      KeepsItems r below name (opening fragment fun _ => .done) (opened fragment))
    (ss : List Selection) :
    KeepsItems r below name (r.expansion (some below) opening ss)
      (Selection.keepAll name opened ss) := by
  induction ss using Selection.list_induction with
  | nil =>
    intro items hitems opening' _
    obtain rfl := Except.ok.inj hitems
    rfl
  | field field label arguments directives inner rest _ ihrest =>
    rw [expansion_cons ho, Selection.keepAll]
    exact (keepsItems_field field label arguments directives inner opened).append ihrest
  | spread fragment directives rest ihrest =>
    rw [expansion_cons ho, expansion_spread, Selection.keepAll, Selection.keep]
    exact ((hopened fragment).inline directives).append ihrest
  | inline directives inner rest ihinner ihrest =>
    rw [expansion_cons ho, expansion_inline, Selection.keepAll, Selection.keep]
    exact (ihinner.inline directives).append ihrest

/-- Fragments are open inside each other: each is one of the document, and none is open twice. -/
structure Open (d : Document) (opened : List String) : Prop where
  nodup : opened.Nodup
  isFragment : ∀ name ∈ opened, ∃ fragment, d.fragment? name = some fragment

namespace Open

variable {opened : List String}

theorem nil : Open d [] := ⟨List.nodup_nil, nofun⟩

/-- A fragment that is entered is a new one, so that names stay distinct. -/
theorem enter (h : Open d opened) {name : String} {fragment : Fragment}
    (henter : d.enter opened name = .ok fragment) :
    d.fragment? name = some fragment ∧ Open d (name :: opened) := by
  rw [Document.enter] at henter
  split at henter
  · cases henter
  · next found hfound =>
    split at henter
    · cases henter
    · next hfresh =>
      obtain rfl := Except.ok.inj henter
      exact ⟨hfound, List.nodup_cons.mpr ⟨hfresh, h.nodup⟩,
        List.forall_mem_cons.mpr ⟨⟨found, hfound⟩, h.isFragment⟩⟩

/-- There are no more open fragments than the document has. -/
theorem length_le (h : Open d opened) : opened.length ≤ d.fragments.length :=
  length_le_of_isFragment h.nodup h.isFragment

end Open

/-- What is kept of selections in open fragments keeps the items of a name. -/
theorem keepsItems_within (more : Nat) {opened : List String} (hopened : Open d opened)
    (hmore : more + opened.length = d.fragments.length) (ss : List Selection) :
    KeepsItems r below name (r.expansion (some below) (openings r d (some below) more opened) ss)
      (d.keepWithin name more ss) := by
  have ho : (openings r d (some below) more opened).Continues := continues_openings more opened
  -- On the number of fragments that are not open yet; a fragment that can be opened is one of them.
  induction more generalizing opened ss with
  | zero =>
    refine keepsItems_keepAll ho (fun fragment items hitems => ?_) ss
    rw [openings] at hitems
    split at hitems
    · cases hitems
    · next henter =>
      have hlength := (hopened.enter henter).2.length_le
      rw [List.length_cons] at hlength
      omega
  | succ more ih =>
    refine keepsItems_keepAll ho (fun fragment items hitems => ?_) ss
    cases henter : d.enter opened fragment with
    | error e =>
      rw [openings, henter] at hitems
      cases hitems
    | ok found =>
      obtain ⟨hfound, hopen⟩ := hopened.enter henter
      rw [openings_succ henter] at hitems
      simp only [hfound]
      refine ih hopen ?_ found.selections (continues_openings more _) items hitems
      rw [List.length_cons]
      omega

/-- The items of a name are those for which the selections ask of which only they are kept. -/
theorem items_keepField {ss : List Selection} {items : List Item}
    (h : (r.expandRoot d ss).items = .ok items) (name : String) :
    (r.expandRoot d (d.keepField name ss)).items = .ok (items.filter (·.head.name = name)) := by
  rw [expandRoot_eq] at h ⊢
  exact keepsItems_within d.fragments.length .nil (Nat.add_zero _) ss items h _
    (continues_openings _ _)

end Reading

end EntityGraph
