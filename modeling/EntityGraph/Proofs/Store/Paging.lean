import EntityGraph.Configuration
import EntityGraph.Execution.RootPlan
import EntityGraph.Proofs.Store.Calls
import EntityGraph.Regex.Engine
import EntityGraph.Storefront.Catalog

namespace EntityGraph

namespace Page

variable {α : Type} {xs ys : List α} {p : Page}

/-- A slice of a list that may grow is a part of the grown list, from the same start on. -/
theorem slice_eq_take_of_prefix (p : Page) (h : xs <+: ys) :
    p.slice xs = (ys.drop p.start).take (p.slice xs).length := by
  obtain ⟨rest, rfl⟩ := h
  have hlength : (p.slice xs).length = min p.limit (xs.length - p.start) := by
    rw [slice, List.length_take, List.length_drop]
  rcases Nat.le_total p.start xs.length with hstart | hstart
  · have hroom : (p.slice xs).length ≤ (xs.drop p.start).length := by
      rw [List.length_drop]
      omega
    rw [List.drop_append_of_le_length hstart, List.take_append_of_le_length hroom, slice,
      List.length_take, ← List.take_eq_take_min]
  · -- The slice starts behind the records that there were, so that it has none.
    have hzero : (p.slice xs).length = 0 := by omega
    rw [hzero, List.take_zero]
    exact List.eq_nil_of_length_eq_zero hzero

/-- A page has no more than its limit. -/
theorem length_slice_le (p : Page) (xs : List α) : (p.slice xs).length ≤ p.limit := by
  rw [slice, List.length_take]
  exact Nat.min_le_left ..

theorem ofArguments_of_nat (start n : Nat) (defaults : PageDefaults) :
    ofArguments (some start) (some n) defaults = .ok ⟨start, min n defaults.maxLimit⟩ :=
  rfl

/-- No page is larger than the largest size. -/
theorem limit_le_of_ofArguments {start limit : Option Int} {defaults : PageDefaults} {page : Page}
    (h : ofArguments start limit defaults = .ok page) : page.limit ≤ defaults.maxLimit := by
  obtain ⟨_, _, h⟩ := Outcome.bind_eq_ok.mp h
  obtain ⟨_, _, h⟩ := Outcome.bind_eq_ok.mp h
  rw [← Except.ok.inj h]
  exact Nat.min_le_right ..

/-- The default size does as a limit what no limit does. -/
theorem ofArguments_defaultLimit (start : Option Int) (defaults : PageDefaults) :
    ofArguments start (some defaults.defaultLimit) defaults = ofArguments start none defaults := by
  rw [ofArguments, ofArguments]
  rfl

end Page

namespace Store

variable {rules : StoreRules} {entity : String} {e : Entity} {filter : List FilterGroup}

def matching [RegexLibrary] (rules : StoreRules) (e : Entity) (filter : List FilterGroup)
    (entity : String) (s : Store) : List Members :=
  (s.collection entity).records.filter fun fields =>
    Filter.admits rules.catalog e filter (.document fields)

/-- A search is the page of what matches. -/
theorem search_eq [RegexLibrary] (he : rules.catalog.entity? entity = some e) (page : Page)
    (s : Store) :
    s.search rules entity filter page = .ok (page.slice (s.matching rules e filter entity)) := by
  rw [search, Catalog.require_eq_ok.mpr he]
  rfl

/-- What a filter admits grows with the store. -/
theorem Grows.matching [RegexLibrary] {s s' : Store} (h : Grows rules s s') :
    s.matching rules e filter entity <+: s'.matching rules e filter entity :=
  (h.records entity).filter _

/-- Fetch the pages of a search in turn, each from where the one before should end and each after
further calls; the pages, and the store at the last of them. -/
def turnPages [RegexLibrary] (rules : StoreRules) (defaults : PageDefaults) (entity : String)
    (filter : List FilterGroup) (n : Nat) :
    Nat → Store → List (List ((Nat → String) × StoreCall)) →
      Except Error (List (List Members) × Store)
  | _, s, [] => .ok ([], s)
  | start, s, calls :: rest => do
    let s := s.afterCalls rules calls
    let page ← (Page.ofArguments (some start) (some n) defaults).mapError fun fault =>
      Error.invalidArgument entity "start/limit" fault.message
    let found ← (s.search rules entity filter page).mapError Error.dataSource
    let (pages, last) ← turnPages rules defaults entity filter n (start + n) s rest
    return (found :: pages, last)

/-- Pages in turn, all but the last of them full, are together a part of what the filter admits at
the last of them, from the first start on. -/
theorem turnPages_eq_ok [RegexLibrary] (filter : List FilterGroup)
    (he : rules.catalog.entity? entity = some e) {defaults : PageDefaults}
    {n : Nat} (hn : n ≤ defaults.maxLimit) (turns : List (List ((Nat → String) × StoreCall)))
    (start : Nat) (s : Store) :
    ∃ pages last, turnPages rules defaults entity filter n start s turns = .ok (pages, last) ∧
      pages.length = turns.length ∧ Grows rules s last ∧ ((∀ page ∈ pages.dropLast, page.length = n) →
        pages.flatten = ((last.matching rules e filter entity).drop start).take
          pages.flatten.length) := by
  -- On the turns: the pages after a full one start where it ends, in a store that has only grown.
  induction turns generalizing start s with
  | nil => exact ⟨[], s, rfl, rfl, .refl s, fun _ => rfl⟩
  | cons calls rest ih =>
    let s₁ := s.afterCalls rules calls
    let page : Page := ⟨start, n⟩
    let found := page.slice (s₁.matching rules e filter entity)
    obtain ⟨pages, last, hrest, hlength, hgrows, hpages⟩ := ih (start + n) s₁
    have hpage : Page.ofArguments (some start) (some n) defaults = .ok page := by
      rw [Page.ofArguments_of_nat, Nat.min_eq_left hn]
    have hturn : turnPages rules defaults entity filter n start s (calls :: rest) =
        .ok (found :: pages, last) :=
      Outcome.bind_eq_ok.mpr ⟨page, Outcome.mapError_eq_ok.mpr hpage,
        Outcome.bind_eq_ok.mpr ⟨found, Outcome.mapError_eq_ok.mpr (search_eq he page s₁),
          Outcome.bind_eq_ok.mpr ⟨(pages, last), hrest, rfl⟩⟩⟩
    refine ⟨found :: pages, last, hturn, congrArg (· + 1) hlength,
      (grows_afterCalls calls s).trans hgrows, fun hfull => ?_⟩
    have hfound : found = ((last.matching rules e filter entity).drop start).take found.length :=
      page.slice_eq_take_of_prefix hgrows.matching
    cases pages with
    | nil => simpa using hfound
    | cons second more =>
      rw [List.dropLast_cons_cons, List.forall_mem_cons] at hfull
      have hn : found.length = n := hfull.1
      have hmore := hpages hfull.2
      rw [hn] at hfound
      rw [List.flatten_cons, List.length_append, hn, List.take_add, List.drop_drop, ← hfound,
        ← hmore]

/-- A search finds at most as many records as a page has room for. -/
theorem length_le_of_search [RegexLibrary] {page : Page} {s : Store} {found : List Members}
    (h : s.search rules entity filter page = .ok found) : found.length ≤ page.limit := by
  obtain ⟨e, _, h⟩ := Outcome.bind_eq_ok.mp h
  rw [← Except.ok.inj h]
  exact page.length_slice_le _

end Store

/-- The largest size is the one that is set, and the default is one of a page within it. -/
theorem Configuration.sizes_of_read {setting : String → Option String} {config : Configuration}
    (h : read setting = .ok config) :
    Text.readNat 0xffffffffffffffff ((setting "MAX_PAGE_SIZE").getD "100") =
      .ok config.maxPageSize ∧ 1 ≤ config.defaultPageSize ∧
        config.defaultPageSize ≤ config.maxPageSize := by
  obtain ⟨defaultPageSize, _, h⟩ := Outcome.bind_eq_ok.mp h
  obtain ⟨maxPageSize, hmax, h⟩ := Outcome.bind_eq_ok.mp h
  split at h
  · cases h
  · next hbounds =>
    obtain ⟨port, _, h⟩ := Outcome.bind_eq_ok.mp h
    obtain ⟨logFormat, _, h⟩ := Outcome.bind_eq_ok.mp h
    rw [not_or, Nat.not_lt] at hbounds
    cases h
    exact ⟨Outcome.mapError_eq_ok.mp hmax, Nat.one_le_iff_ne_zero.mpr hbounds.1, hbounds.2⟩

namespace RootPlan

/-- A search reads its arguments by their names. -/
theorem searchStep_congr {c : Catalog} {f : RootField} {arguments arguments' : Arguments}
    {pages : PageDefaults} (hfilter : arguments.lookup "filter" = arguments'.lookup "filter")
    (hpage : readPage f.name arguments pages = readPage f.name arguments' pages) :
    searchStep c f arguments pages = searchStep c f arguments' pages := by
  rw [searchStep, searchStep, hfilter, hpage]

theorem intArgument_integer (field argument : String) {n : Int} (hfits : Decimal.fitsInt64 n) :
    Planning.intArgument field argument (.number (.integer n)) = .ok (some n) := by
  simp only [Planning.intArgument, Number.int64?, if_pos hfits]

/-- Asking for the default size does what leaving the limit out does. -/
theorem readPage_defaultLimit {arguments : Arguments} (field : String) {pages : PageDefaults}
    (hlimit : arguments.lookup "limit" = none) (hfits : Decimal.fitsInt64 pages.defaultLimit) :
    readPage field (("limit", .number (.integer pages.defaultLimit)) :: arguments) pages =
      readPage field arguments pages := by
  have hstart : (("limit", Value.number (.integer pages.defaultLimit)) :: arguments).lookup "start" =
      arguments.lookup "start" := rfl
  have hgiven := intArgument_integer field "limit" hfits
  have hnone : Planning.intArgument field "limit" ((arguments.lookup "limit").getD .null) =
      .ok none := by
    rw [hlimit]
    rfl
  rw [readPage, readPage, hstart, List.lookup_cons_self, Option.getD_some]
  refine bind_congr fun start => ?_
  rw [Outcome.bind_of_eq_ok hgiven, Outcome.bind_of_eq_ok hnone, Page.ofArguments_defaultLimit]

end RootPlan

namespace Store

/-- Pages of `n` records that are fetched in turn, with any calls in between, are together the
first of the matching records, each once, when all but the last of them are full. Under settings
that can be used, no search finds more than the largest size, and leaving out the limit of a search
is asking for the default that its field is written down with. -/
theorem search_pages [RegexLibrary] (rules : StoreRules) :
    (∀ entity e filter defaults n turns, rules.catalog.entity? entity = some e → 1 ≤ n →
      n ≤ PageDefaults.maxLimit defaults → ∃ pages last,
        turnPages rules defaults entity filter n 0 .empty turns = .ok (pages, last) ∧
        pages.length = turns.length ∧ ((∀ page ∈ pages.dropLast, page.length = n) →
          pages.flatten = (last.matching rules e filter entity).take pages.flatten.length ∧
          (pages.flatten.map idOf?).Nodup)) ∧
    (∀ setting config, Configuration.read setting = .ok config →
      Text.readNat 0xffffffffffffffff ((setting "MAX_PAGE_SIZE").getD "100") =
        .ok config.maxPageSize ∧
      (∀ start limit page s entity filter found,
        Page.ofArguments start limit config.pages = .ok page →
        search rules s entity filter page = .ok found → found.length ≤ config.maxPageSize) ∧
      (∀ f : RootField, f.action = .search →
        (f.parameters config.pages).find? (fun p => p.name = "limit") =
          some ⟨"limit", .named "Int", some (toString config.defaultPageSize)⟩ ∧
        (Decimal.fitsInt64 config.defaultPageSize → ∀ arguments : Arguments,
          arguments.lookup "limit" = none →
          RootPlan.searchStep rules.catalog f
              (("limit", .number (.integer config.defaultPageSize)) :: arguments) config.pages =
            RootPlan.searchStep rules.catalog f arguments config.pages))) := by
  refine ⟨?_, ?_⟩
  · intro entity e filter defaults n turns he _ hn
    obtain ⟨pages, last, hturns, hlength, hgrows, hpages⟩ :=
      turnPages_eq_ok filter he hn turns 0 .empty
    refine ⟨pages, last, hturns, hlength, fun hfull => ?_⟩
    have hflatten := hpages hfull
    rw [List.drop_zero] at hflatten
    refine ⟨hflatten, ?_⟩
    -- What the pages have together is a sublist of the records, whose ids are distinct.
    have hsublist : pages.flatten.Sublist (last.collection entity).records := by
      rw [hflatten]
      exact (List.take_sublist ..).trans (List.filter_sublist ..)
    exact (hgrows.indexed indexed_empty entity).nodup_ids.sublist (hsublist.map idOf?)
  · intro setting config hconfig
    refine ⟨(Configuration.sizes_of_read hconfig).1, ?_, ?_⟩
    · intro start limit page s entity filter found hpage hfound
      have hroom : page.limit ≤ config.maxPageSize := Page.limit_le_of_ofArguments hpage
      exact Nat.le_trans (length_le_of_search hfound) hroom
    · rintro ⟨name, description, entity, action⟩ ⟨⟩
      refine ⟨rfl, fun hfits arguments hlimit => ?_⟩
      have hfits : Decimal.fitsInt64 config.pages.defaultLimit = true := hfits
      have hpage := RootPlan.readPage_defaultLimit name hlimit hfits
      have hfilter : (("limit", Value.number (.integer config.pages.defaultLimit)) ::
          arguments).lookup "filter" = arguments.lookup "filter" := rfl
      exact RootPlan.searchStep_congr hfilter hpage

def customerTurns : List (List ((Nat → String) × StoreCall)) :=
  [[(fun _ => "1", .insert "Customer" []), (fun _ => "2", .create "Customer" [])],
    [(fun _ => "3", .load (.object [("Customer", .array [.object []])]))]]

/-- Two pages among three customers, of whom the last is loaded in between. -/
theorem search_pages_customers : ∃ pages last,
    turnPages ⟨Storefront.catalog, [], toString⟩ .standard "Customer" [] 2 0 .empty customerTurns =
      .ok (pages, last) ∧ pages.map List.length = [2, 1] ∧
    pages.flatten = (last.matching ⟨Storefront.catalog, [], toString⟩ Storefront.customer []
      "Customer").take 3 ∧ (pages.flatten.map idOf?).Nodup := by
  obtain ⟨pages, last, hturns, _, hpages⟩ :=
    (search_pages ⟨Storefront.catalog, [], toString⟩).1 "Customer" Storefront.customer []
      .standard 2 customerTurns rfl (by decide) (by decide)
  -- Evaluated: the lengths, from which it follows that only the last page is short.
  have hlengths : (turnPages ⟨Storefront.catalog, [], toString⟩ .standard "Customer" [] 2 0 .empty
      customerTurns).toOption.map (fun found => found.1.map List.length) = some [2, 1] := by
    decide +kernel
  rw [hturns] at hlengths
  have hlength : pages.map List.length = [2, 1] := Option.some.inj hlengths
  have hfull : ∀ page ∈ pages.dropLast, page.length = 2 := by
    have hfirst : pages.dropLast.map List.length = [2] := by
      rw [List.map_dropLast, hlength]
      rfl
    intro page hpage
    simpa [hfirst] using List.mem_map_of_mem (f := List.length) hpage
  have hsize : pages.flatten.length = 3 := by
    rw [List.length_flatten, hlength]
    rfl
  obtain ⟨hflatten, hnodup⟩ := hpages hfull
  rw [hsize] at hflatten
  exact ⟨pages, last, hturns, hlength, hflatten, hnodup⟩

end Store

end EntityGraph
