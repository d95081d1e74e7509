import EntityGraph.Proofs.Document.Scopes

/-!
Walks over selections that keep the open fragments on a stack: a fragment is put on it where it is
opened and taken off where its selections end. Main statements: a walk ends, and as what the
selections ask for says (`walks_iff_run`); it leaves the stack as it was (`Walks.left_eq`), on which
no fragment stands twice (`Walks.nodup`); and it comes to no good end where a fragment spreads
itself, and to no such fault anywhere else (`guarded_run`).
-/

namespace EntityGraph

/-- What to do after a field: go on from another state, or walk the field's own selections from a
state of theirs and make of the end the state to go on from. -/
inductive Visit (σ : Type) where
  | stay (s : σ)
  | below (s : σ) (back : σ → Except Error σ)

/-- What walks do with a field in a state. The field comes with what its own selections ask for. -/
structure Visitor (σ : Type) where
  visit : σ → AskedField → Expansion → Except Error (Visit σ)

namespace Visit

variable {σ : Type}

def resume (walk : σ → Except Error σ) : Visit σ → Except Error σ
  | .stay s => .ok s
  | .below t back => walk t >>= back

end Visit

namespace Visitor

variable {σ : Type}

def run (V : Visitor σ) : σ → Expansion → Except Error σ
  | s, .done => .ok s
  | _, .fault e => .error e
  | s, .field head inner rest => do
    let visit ← V.visit s head (inner ())
    let s ← visit.resume fun t => run V t (inner ())
    run V s (rest ())

/-- A run through two expansions is one run after the other. -/
theorem run_andThen (V : Visitor σ) (s : σ) (x : Expansion) (y : Unit → Expansion) :
    V.run s (x.andThen y) = V.run s x >>= fun s => V.run s (y ()) := by
  induction x generalizing s with
  | done => rfl
  | fault e => rfl
  | field head inner rest _ ihrest => simp only [Expansion.andThen, run, bind_assoc, ihrest]

end Visitor

namespace Reading

variable {σ : Type}

/-- A walk over selections from a state, with the stack of open fragments before it: the stacks that
it holds after each fragment that it opens or closes, the stack that it leaves, and its end. -/
inductive Walks (r : Reading) (d : Document) (V : Visitor σ) : List String → List Selection → σ →
    List (List String) → List String → Except Error σ → Prop
  | nil (v : List String) (s : σ) : Walks r d V v [] s [] v (.ok s)
  | undecided {v : List String} {first : Selection} {rest : List Selection} {s : σ} {e : Error} :
      r.skips first.directives = .error e → Walks r d V v (first :: rest) s [] v (.error e)
  | skipped {v left : List String} {first : Selection} {rest : List Selection} {s : σ}
      {held : List (List String)} {o : Except Error σ} :
      r.skips first.directives = .ok true → Walks r d V v rest s held left o →
      Walks r d V v (first :: rest) s held left o
  -- A field is refused, passed by, or descended to; from there the walk comes back or it fails.
  | refused {v : List String} {name : String} {label : Option String}
      {arguments : List (String × Literal)} {directives : List Directive}
      {inner rest : List Selection} {s : σ} {e : Error} : r.skips directives = .ok false →
      V.visit s (r.asked name label arguments inner) (r.expand d inner) = .error e →
      Walks r d V v (.field name label arguments directives inner :: rest) s [] v (.error e)
  | stay {v left : List String} {name : String} {label : Option String}
      {arguments : List (String × Literal)} {directives : List Directive}
      {inner rest : List Selection} {s s' : σ} {held : List (List String)} {o : Except Error σ} :
      r.skips directives = .ok false →
      V.visit s (r.asked name label arguments inner) (r.expand d inner) = .ok (.stay s') →
      Walks r d V v rest s' held left o →
      Walks r d V v (.field name label arguments directives inner :: rest) s held left o
  | failsBelow {v left : List String} {name : String} {label : Option String}
      {arguments : List (String × Literal)} {directives : List Directive}
      {inner rest : List Selection} {s t : σ} {back : σ → Except Error σ}
      {held : List (List String)} {e : Error} : r.skips directives = .ok false →
      V.visit s (r.asked name label arguments inner) (r.expand d inner) = .ok (.below t back) →
      Walks r d V v inner t held left (.error e) →
      Walks r d V v (.field name label arguments directives inner :: rest) s held left (.error e)
  | failsBack {v left : List String} {name : String} {label : Option String}
      {arguments : List (String × Literal)} {directives : List Directive}
      {inner rest : List Selection} {s t n : σ} {back : σ → Except Error σ}
      {held : List (List String)} {e : Error} : r.skips directives = .ok false →
      V.visit s (r.asked name label arguments inner) (r.expand d inner) = .ok (.below t back) →
      Walks r d V v inner t held left (.ok n) → back n = .error e →
      Walks r d V v (.field name label arguments directives inner :: rest) s held left (.error e)
  | descend {v left left' : List String} {name : String} {label : Option String}
      {arguments : List (String × Literal)} {directives : List Directive}
      {inner rest : List Selection} {s t n s' : σ} {back : σ → Except Error σ}
      {held held' : List (List String)} {o : Except Error σ} : r.skips directives = .ok false →
      V.visit s (r.asked name label arguments inner) (r.expand d inner) = .ok (.below t back) →
      Walks r d V v inner t held left (.ok n) → back n = .ok s' →
      Walks r d V left rest s' held' left' o →
      Walks r d V v (.field name label arguments directives inner :: rest) s (held ++ held') left' o
  -- A fragment is put on the stack where it is opened, and what is left on top is taken off.
  | closed {v : List String} {name : String} {directives : List Directive}
      {rest : List Selection} {s : σ} {e : Error} : r.skips directives = .ok false →
      d.enter v name = .error e → Walks r d V v (.spread name directives :: rest) s [] v (.error e)
  | failsInside {v left : List String} {name : String} {directives : List Directive}
      {fragment : Fragment} {rest : List Selection} {s : σ} {held : List (List String)}
      {e : Error} : r.skips directives = .ok false → d.enter v name = .ok fragment →
      Walks r d V (name :: v) fragment.selections s held left (.error e) →
      Walks r d V v (.spread name directives :: rest) s ((name :: v) :: held) left (.error e)
  | spread {v left left' : List String} {name : String} {directives : List Directive}
      {fragment : Fragment} {rest : List Selection} {s s' : σ} {held held' : List (List String)}
      {o : Except Error σ} : r.skips directives = .ok false → d.enter v name = .ok fragment →
      Walks r d V (name :: v) fragment.selections s held left (.ok s') →
      Walks r d V left.tail rest s' held' left' o →
      Walks r d V v (.spread name directives :: rest) s
        ((name :: v) :: (held ++ left.tail :: held')) left' o
  -- Selections in place leave the stack alone.
  | failsInPlace {v left : List String} {directives : List Directive}
      {inner rest : List Selection} {s : σ} {held : List (List String)} {e : Error} :
      r.skips directives = .ok false → Walks r d V v inner s held left (.error e) →
      Walks r d V v (.inline directives inner :: rest) s held left (.error e)
  | inline {v left left' : List String} {directives : List Directive}
      {inner rest : List Selection} {s s' : σ} {held held' : List (List String)}
      {o : Except Error σ} : r.skips directives = .ok false →
      Walks r d V v inner s held left (.ok s') → Walks r d V left rest s' held' left' o →
      Walks r d V v (.inline directives inner :: rest) s (held ++ held') left' o

variable {r : Reading} {d : Document} {V : Visitor σ} {v left : List String}
  {ss : List Selection} {s s' : σ} {held : List (List String)} {o : Except Error σ}

/-- A walk that ends well leaves the stack as it was. -/
theorem Walks.left_eq (h : Walks r d V v ss s held left (.ok s')) : left = v := by
  -- On the walk: what is inside leaves the stack as it was, and so does what comes after it.
  generalize ho : Except.ok s' = o at h
  induction h generalizing s' with
  | nil v s => rfl
  | undecided | refused | failsBelow | failsBack | closed | failsInside | failsInPlace => cases ho
  | skipped _ _ ih => exact ih ho
  | stay _ _ _ ih => exact ih ho
  | descend _ _ _ _ _ ihinner ihrest => rw [ihrest ho, ihinner rfl]
  | spread _ _ _ _ ihinner ihrest => rw [ihrest ho, ihinner rfl, List.tail_cons]
  | inline _ _ _ ihinner ihrest => rw [ihrest ho, ihinner rfl]

/-- No fragment stands twice on the stack. -/
theorem Walks.nodup (h : Walks r d V v ss s held left o) (hv : v.Nodup) :
    ∀ w ∈ held, w.Nodup := by
  have hopens : ∀ {v : List String} {name : String} {fragment : Fragment}, v.Nodup →
      d.enter v name = .ok fragment → (name :: v).Nodup :=
    fun hv he => List.nodup_cons.mpr ⟨(Document.enter_eq_ok.mp he).2, hv⟩
  -- On the walk; what comes after a part of it starts from the stack that the part found.
  induction h with
  | nil | undecided | refused | closed => exact nofun
  | skipped _ _ ih => exact ih hv
  | stay _ _ _ ih => exact ih hv
  | failsBelow _ _ _ ih => exact ih hv
  | failsBack _ _ _ _ ih => exact ih hv
  | failsInPlace _ _ ih => exact ih hv
  | failsInside _ he _ ih =>
    exact List.forall_mem_cons.mpr ⟨hopens hv he, ih (hopens hv he)⟩
  | descend _ _ hinner _ _ ihinner ihrest =>
    obtain rfl := hinner.left_eq
    exact List.forall_mem_append.mpr ⟨ihinner hv, ihrest hv⟩
  | inline _ hinner _ ihinner ihrest =>
    obtain rfl := hinner.left_eq
    exact List.forall_mem_append.mpr ⟨ihinner hv, ihrest hv⟩
  | spread _ he hinner _ ihinner ihrest =>
    obtain rfl := hinner.left_eq
    refine List.forall_mem_cons.mpr ⟨hopens hv he, ?_⟩
    refine List.forall_mem_append.mpr ⟨ihinner (hopens hv he), ?_⟩
    exact List.forall_mem_cons.mpr ⟨hv, ihrest hv⟩

variable {below? : Option (List Selection → Expansion)} {more : Nat}

/-- A visitor takes what stands below fields as the expansion gives it: it reads it apart, or it
walks it, where the fragments that are open stay open. -/
structure Suits (r : Reading) (d : Document) (below? : Option (List Selection → Expansion))
    (V : Visitor σ) : Prop where
  apart : ∀ s f opening inner,
    V.visit s f (r.under below? opening inner) = V.visit s f (r.expand d inner)
  below : below? = none ∨ ∀ s f x t back, V.visit s f x ≠ .ok (.below t back)

/-- A kept field is visited, then its selections, then the rest of the row. -/
theorem run_kept (hV : Suits r d below? V) {opening : Opening} (ho : opening.Continues)
    {name : String} {label : Option String} {arguments : List (String × Literal)}
    {directives : List Directive} (hk : r.skips directives = .ok false)
    (inner rest : List Selection) (s : σ) :
    V.run s (r.expansion below? opening (.field name label arguments directives inner :: rest)) =
      V.visit s (r.asked name label arguments inner) (r.expand d inner) >>= fun visit =>
        visit.resume (fun t => V.run t (r.expansion below? opening inner)) >>= fun s =>
          V.run s (r.expansion below? opening rest) := by
  rw [expansion_kept ho hk, Visitor.run, hV.apart]
  cases hvisit : V.visit s (r.asked name label arguments inner) (r.expand d inner) with
  | error e => rfl
  | ok visit =>
    cases visit with
    | stay s' => rfl
    | below t back =>
      -- Only where nothing else is said of them, fields are expanded as the walk takes them.
      obtain rfl := hV.below.resolve_right fun hstays => hstays _ _ _ _ _ hvisit
      rfl

/-- A walk ends, and as what the selections ask for says. -/
theorem exists_walks (hV : Suits r d below? V) (h : Inside d more v) (ss : List Selection) :
    ∀ s, ∃ held left, Walks r d V v ss s held left
      (V.run s (r.expansion below? (openings r d below? more v) ss)) := by
  -- One rule of the relation for each case of the expansion, with the outcome of the visitor
  -- inside.
  refine Inside.induction r (P := fun more v ss => ∀ s, ∃ held left, Walks r d V v ss s held left
    (V.run s (r.expansion below? (openings r d below? more v) ss)))
    ?nil ?undecided ?skipped ?field ?refused ?spread ?inline h ss
  case nil => exact fun more v s => ⟨[], v, .nil v s⟩
  case undecided =>
    intro more v first rest e hs s
    rw [expansion_undecided (continues_openings more v) hs]
    exact ⟨[], v, .undecided hs⟩
  case skipped =>
    intro more v first rest hs ih s
    rw [expansion_skipped (continues_openings more v) hs]
    obtain ⟨held, left, hrest⟩ := ih s
    exact ⟨held, left, .skipped hs hrest⟩
  case field =>
    intro more v name label arguments directives inner rest _ hk ihinner ihrest s
    rw [run_kept hV (continues_openings more v) hk]
    cases hvisit : V.visit s (r.asked name label arguments inner) (r.expand d inner) with
    | error e => exact ⟨[], v, .refused hk hvisit⟩
    | ok visit =>
      cases visit with
      | stay s' =>
        obtain ⟨held, left, hrest⟩ := ihrest s'
        exact ⟨held, left, .stay hk hvisit hrest⟩
      | below t back =>
        obtain ⟨held, left, hinner⟩ := ihinner t
        dsimp only [bind, Except.bind, Visit.resume]
        cases hn : V.run t (r.expansion below? (openings r d below? more v) inner) with
        | error e => exact ⟨held, left, .failsBelow hk hvisit (hn ▸ hinner)⟩
        | ok n =>
          rw [hn] at hinner
          dsimp only
          cases hback : back n with
          | error e => exact ⟨held, left, .failsBack hk hvisit hinner hback⟩
          | ok s' =>
            -- What was opened below is closed again, so the rest starts from the same stack.
            obtain rfl := hinner.left_eq
            obtain ⟨held', left', hrest⟩ := ihrest s'
            exact ⟨_, left', .descend hk hvisit hinner hback hrest⟩
  case refused =>
    intro more v name directives rest e hk he s
    rw [expansion_refused hk he]
    exact ⟨[], v, .closed hk he⟩
  case spread =>
    intro more v name directives fragment rest hk he ihinner ihrest s
    rw [expansion_opened hk he, Visitor.run_andThen]
    obtain ⟨held, left, hinner⟩ := ihinner s
    cases hs : V.run s (r.expansion below? (openings r d below? more (name :: v))
        fragment.selections) with
    | error e => exact ⟨_, left, .failsInside hk he (hs ▸ hinner)⟩
    | ok s' =>
      rw [hs] at hinner
      obtain rfl := hinner.left_eq
      obtain ⟨held', left', hrest⟩ := ihrest s'
      exact ⟨_, left', .spread hk he hinner hrest⟩
  case inline =>
    intro more v directives inner rest hk ihinner ihrest s
    rw [expansion_inPlace (continues_openings more v) hk, Visitor.run_andThen]
    obtain ⟨held, left, hinner⟩ := ihinner s
    cases hs : V.run s (r.expansion below? (openings r d below? more v) inner) with
    | error e => exact ⟨held, left, .failsInPlace hk (hs ▸ hinner)⟩
    | ok s' =>
      rw [hs] at hinner
      obtain rfl := hinner.left_eq
      obtain ⟨held', left', hrest⟩ := ihrest s'
      exact ⟨_, left', .inline hk hinner hrest⟩

/-- A walk has no other end than what the selections ask for says. -/
theorem Walks.eq_run (hV : Suits r d below? V) (h : Walks r d V v ss s held left o)
    (hin : Inside d more v) :
    o = V.run s (r.expansion below? (openings r d below? more v) ss) := by
  have hkept : ∀ more v, (openings r d below? more v).Continues := continues_openings
  -- On the walk; each of its rules is one equation of the expansion.
  induction h generalizing more with
  | nil => rfl
  | undecided hs => rw [expansion_undecided (hkept _ _) hs]; rfl
  | skipped hs _ ih => rw [expansion_skipped (hkept _ _) hs, ← ih hin]
  | refused hk hvisit => rw [run_kept hV (hkept _ _) hk, hvisit]; rfl
  | stay hk hvisit _ ih =>
    rw [run_kept hV (hkept _ _) hk, hvisit, ih hin]
    rfl
  | failsBelow hk hvisit _ ih =>
    rw [run_kept hV (hkept _ _) hk, hvisit]
    dsimp only [bind, Except.bind, Visit.resume]
    rw [← ih hin]
  | failsBack hk hvisit _ hback ih =>
    rw [run_kept hV (hkept _ _) hk, hvisit]
    dsimp only [bind, Except.bind, Visit.resume]
    rw [← ih hin]
    dsimp only
    rw [hback]
  | descend hk hvisit hinner hback _ ihinner ihrest =>
    obtain rfl := hinner.left_eq
    rw [run_kept hV (hkept _ _) hk, hvisit]
    dsimp only [bind, Except.bind, Visit.resume]
    rw [← ihinner hin]
    dsimp only
    rw [hback, ihrest hin]
  | closed hk he => rw [expansion_refused hk he]; rfl
  | failsInside hk he _ ih =>
    obtain ⟨fewer, rfl, hinside⟩ := hin.enter he
    rw [expansion_opened hk he, Visitor.run_andThen, ← ih hinside]
    rfl
  | spread hk he hinner _ ihinner ihrest =>
    obtain rfl := hinner.left_eq
    obtain ⟨fewer, rfl, hinside⟩ := hin.enter he
    rw [expansion_opened hk he, Visitor.run_andThen, ← ihinner hinside]
    exact ihrest hin
  | failsInPlace hk _ ih =>
    rw [expansion_inPlace (hkept _ _) hk, Visitor.run_andThen, ← ih hin]
    rfl
  | inline hk hinner _ ihinner ihrest =>
    obtain rfl := hinner.left_eq
    rw [expansion_inPlace (hkept _ _) hk, Visitor.run_andThen, ← ihinner hin]
    exact ihrest hin

/-- The relation and the function agree on every outcome. -/
theorem walks_iff_run (hV : Suits r d below? V) (hin : Inside d more v) :
    (∃ held left, Walks r d V v ss s held left o) ↔
      o = V.run s (r.expansion below? (openings r d below? more v) ss) := by
  constructor
  · rintro ⟨held, left, h⟩
    exact h.eq_run hV hin
  · rintro rfl
    exact exists_walks hV hin ss s

/-- A fragment is spread in what a walk can come to, nothing of it skipped: through fragments, in
place, and below the fields of the names that the walk descends to. -/
inductive Meets (r : Reading) (d : Document) (descends : String → Prop) :
    List Selection → String → Prop
  | here {ss : List Selection} {name : String} {directives : List Directive} :
      .spread name directives ∈ ss → r.skips directives = .ok false → Meets r d descends ss name
  | field {ss inner : List Selection} {field name : String} {label : Option String}
      {arguments : List (String × Literal)} {directives : List Directive} :
      .field field label arguments directives inner ∈ ss → r.skips directives = .ok false →
      descends field → Meets r d descends inner name → Meets r d descends ss name
  | spread {ss : List Selection} {outer name : String} {directives : List Directive}
      {fragment : Fragment} : .spread outer directives ∈ ss → r.skips directives = .ok false →
      d.fragment? outer = some fragment → Meets r d descends fragment.selections name →
      Meets r d descends ss name
  | inline {ss inner : List Selection} {name : String} {directives : List Directive} :
      .inline directives inner ∈ ss → r.skips directives = .ok false →
      Meets r d descends inner name → Meets r d descends ss name

/-- A fragment that is spread in what a walk can come to spreads itself, directly or through
others. -/
def Cyclic (r : Reading) (d : Document) (descends : String → Prop) (ss : List Selection) : Prop :=
  ∃ name fragment, Meets r d descends ss name ∧ d.fragment? name = some fragment ∧
    Meets r d descends fragment.selections name

variable {descends : String → Prop}

theorem Meets.mono {ss ts : List Selection} {name : String} (h : ∀ s ∈ ss, s ∈ ts)
    (hm : Meets r d descends ss name) : Meets r d descends ts name := by
  cases hm with
  | here hs hk => exact .here (h _ hs) hk
  | field hs hk hd hm => exact .field (h _ hs) hk hd hm
  | spread hs hk hf hm => exact .spread (h _ hs) hk hf hm
  | inline hs hk hm => exact .inline (h _ hs) hk hm

/-- A cycle in a part of selections is one in the whole. -/
theorem Cyclic.imp {ss ts : List Selection}
    (h : ∀ name, Meets r d descends ts name → Meets r d descends ss name)
    (hc : Cyclic r d descends ts) : Cyclic r d descends ss := by
  obtain ⟨name, fragment, hm, hf⟩ := hc
  exact ⟨name, fragment, h name hm, hf⟩

/-- A visitor descends to the fields of some names, to those at least that select something where
it does not fail, and reports no cycles by itself. -/
structure Descends (descends : String → Prop) (V : Visitor σ) : Prop where
  stay : ∀ {s f x s'}, V.visit s f x = .ok (.stay s') → f.selected = true → ¬ descends f.name
  below : ∀ {s f x t back}, V.visit s f x = .ok (.below t back) → descends f.name
  visit : ∀ s f x name, V.visit s f x ≠ .error (.cyclicFragment name)
  back : ∀ {s f x t back}, V.visit s f x = .ok (.below t back) →
    ∀ n name, back n ≠ .error (.cyclicFragment name)

def Passes (r : Reading) (d : Document) (V : Visitor σ) (v : List String)
    (ss : List Selection) : Prop :=
  ∃ s held left s', Walks r d V v ss s held left (.ok s')

/-- A walk that ends well does so over each of the selections. -/
theorem Passes.of_mem (h : Passes r d V v ss) {sel : Selection} (hsel : sel ∈ ss) :
    Passes r d V v [sel] := by
  -- On the walk up to the selection; from the state that it has reached there it is walked alone.
  obtain ⟨s, held, left, s', h⟩ := h
  generalize ho : Except.ok s' = o at h
  induction h generalizing s' with
  | nil => cases hsel
  | undecided | refused | failsBelow | failsBack | closed | failsInside | failsInPlace => cases ho
  | skipped hs _ ih =>
    rcases List.mem_cons.mp hsel with rfl | hsel
    · exact ⟨_, _, _, _, .skipped hs (.nil _ s')⟩
    · exact ih hsel s' ho
  | stay hk hvisit _ ih =>
    rcases List.mem_cons.mp hsel with rfl | hsel
    · exact ⟨_, _, _, _, .stay hk hvisit (.nil _ _)⟩
    · exact ih hsel s' ho
  | descend hk hvisit hinner hback _ _ ih =>
    obtain rfl := hinner.left_eq
    rcases List.mem_cons.mp hsel with rfl | hsel
    · exact ⟨_, _, _, _, .descend hk hvisit hinner hback (.nil _ _)⟩
    · exact ih hsel s' ho
  | spread hk he hinner _ _ ih =>
    obtain rfl := hinner.left_eq
    rcases List.mem_cons.mp hsel with rfl | hsel
    · exact ⟨_, _, _, _, .spread hk he hinner (.nil _ _)⟩
    · exact ih hsel s' ho
  | inline hk hinner _ _ ih =>
    obtain rfl := hinner.left_eq
    rcases List.mem_cons.mp hsel with rfl | hsel
    · exact ⟨_, _, _, _, .inline hk hinner (.nil _ _)⟩
    · exact ih hsel s' ho

/-- A walk that passes a spread passes the fragment behind it. -/
theorem Passes.spread {name : String} {directives : List Directive} (h : Passes r d V v ss)
    (hm : .spread name directives ∈ ss) (hk : r.skips directives = .ok false) :
    ∃ fragment, d.enter v name = .ok fragment ∧ Passes r d V (name :: v) fragment.selections := by
  obtain ⟨s, held, left, s', h⟩ := h.of_mem hm
  cases h with
  | skipped hs => cases hk.symm.trans hs
  | spread _ he hinner _ => exact ⟨_, he, _, _, _, _, hinner⟩

theorem Passes.inline {directives : List Directive} {inner : List Selection}
    (h : Passes r d V v ss) (hm : .inline directives inner ∈ ss)
    (hk : r.skips directives = .ok false) : Passes r d V v inner := by
  obtain ⟨s, held, left, s', h⟩ := h.of_mem hm
  cases h with
  | skipped hs => cases hk.symm.trans hs
  | inline _ hinner _ => exact ⟨_, _, _, _, hinner⟩

/-- A walk passes below a field when it descends there. -/
theorem Passes.field (hV : Descends descends V) {name : String} {label : Option String}
    {arguments : List (String × Literal)} {directives : List Directive} {inner : List Selection}
    (h : Passes r d V v ss) (hm : .field name label arguments directives inner ∈ ss)
    (hk : r.skips directives = .ok false) (hd : descends name) (hne : inner ≠ []) :
    Passes r d V v inner := by
  obtain ⟨s, held, left, s', h⟩ := h.of_mem hm
  cases h with
  | skipped hs => cases hk.symm.trans hs
  | stay _ hvisit _ => exact absurd hd (hV.stay hvisit (by simpa [asked] using hne))
  | descend _ _ hinner _ _ => exact ⟨_, _, _, _, hinner⟩

/-- Where a walk ends well, it ended well inside each fragment that it met, and this was not open
before. -/
theorem Passes.of_meets (hV : Descends descends V) {name : String}
    (hm : Meets r d descends ss name) {v : List String} (h : Passes r d V v ss) :
    ∃ w fragment, v ⊆ w ∧ name ∉ w ∧ d.fragment? name = some fragment ∧
      Passes r d V (name :: w) fragment.selections := by
  -- On the way to the fragment: the ones that lead to it are opened before it and stay open.
  induction hm generalizing v with
  | here hs hk =>
    obtain ⟨fragment, he, hpasses⟩ := h.spread hs hk
    obtain ⟨hf, hfresh⟩ := Document.enter_eq_ok.mp he
    exact ⟨v, fragment, List.Subset.refl v, hfresh, hf, hpasses⟩
  | field hs hk hd hm ih =>
    -- A field with a spread below it selects something, so that the walk has descended to it.
    apply ih
    refine h.field hV hs hk hd ?_
    rintro rfl
    cases hm with
    | here hs | field hs | spread hs | inline hs => cases hs
  | spread hs hk hf _ ih =>
    obtain ⟨fragment, he, hpasses⟩ := h.spread hs hk
    obtain rfl := Option.some.inj ((Document.enter_eq_ok.mp he).1.symm.trans hf)
    obtain ⟨w, inner, hsub, hrest⟩ := ih hpasses
    exact ⟨w, inner, List.Subset.trans (List.subset_cons_self _ _) hsub, hrest⟩
  | inline hs hk _ ih => exact ih (h.inline hs hk)

/-- No walk ends well over selections with a fragment that spreads itself. -/
theorem not_passes_of_cyclic (hV : Descends descends V) (hc : Cyclic r d descends ss) :
    ¬ Passes r d V v ss := by
  intro h
  obtain ⟨name, fragment, hm, hf, hself⟩ := hc
  obtain ⟨w, found, _, _, hfound, hpasses⟩ := Passes.of_meets hV hm h
  obtain rfl := Option.some.inj (hfound.symm.trans hf)
  -- Inside the fragment it is open, and it would have to be opened once more.
  obtain ⟨w', _, hsub, hfresh, _⟩ := Passes.of_meets hV hself hpasses
  exact hfresh (hsub (List.mem_cons_self ..))

/-- A walk that comes upon an open fragment has met it, and the fragment was open at the start or
one that spreads itself has been met. -/
theorem Walks.of_cyclicFragment (hV : Descends descends V)
    (hskips : ∀ directives name, r.skips directives ≠ .error (.cyclicFragment name))
    {name : String} (h : Walks r d V v ss s held left (.error (.cyclicFragment name))) :
    Meets r d descends ss name ∧ (name ∈ v ∨ Cyclic r d descends ss) := by
  generalize ho : (Except.error (Error.cyclicFragment name) : Except Error σ) = o at h
  -- What holds of a part of the selections holds of the whole.
  have hpart : ∀ {v : List String} {ss ts : List Selection},
      (∀ name, Meets r d descends ts name → Meets r d descends ss name) →
      Meets r d descends ts name ∧ (name ∈ v ∨ Cyclic r d descends ts) →
      Meets r d descends ss name ∧ (name ∈ v ∨ Cyclic r d descends ss) :=
    fun hts h => ⟨hts name h.1, h.2.imp_right (Cyclic.imp hts)⟩
  have hrest : ∀ {first : Selection} {rest : List Selection} (name : String),
      Meets r d descends rest name → Meets r d descends (first :: rest) name :=
    fun _ => Meets.mono fun _ => List.mem_cons_of_mem _
  induction h with
  | nil => cases ho
  | undecided hs => exact absurd hs (by cases ho; exact hskips _ name)
  | skipped _ _ ih => exact hpart hrest (ih ho)
  | refused _ hvisit => exact absurd hvisit (by cases ho; exact hV.visit _ _ _ name)
  | stay _ _ _ ih => exact hpart hrest (ih ho)
  | failsBelow hk hvisit _ ih =>
    have hdescends := hV.below hvisit
    exact hpart (fun _ => .field (List.mem_cons_self ..) hk hdescends) (ih ho)
  | failsBack _ hvisit _ hback => exact absurd hback (by cases ho; exact hV.back hvisit _ name)
  | descend _ _ hinner _ _ _ ih =>
    obtain rfl := hinner.left_eq
    exact hpart hrest (ih ho)
  | @closed v other directives rest s e hk he =>
    cases ho
    rw [Document.enter] at he
    split at he
    · cases he
    · split at he
      · next hopen =>
        cases he
        exact ⟨.here (List.mem_cons_self ..) hk, .inl hopen⟩
      · cases he
  | @failsInside v left other directives fragment rest s held e hk he _ ih =>
    obtain ⟨hm, hcycle⟩ := ih ho
    have hf := (Document.enter_eq_ok.mp he).1
    have hinside : ∀ name, Meets r d descends fragment.selections name →
        Meets r d descends (.spread other directives :: rest) name :=
      fun _ => .spread (List.mem_cons_self ..) hk hf
    refine ⟨hinside name hm, ?_⟩
    rcases hcycle with hopen | hcycle
    · -- The fragment itself, when it is the one that has just been opened, spreads itself.
      rcases List.mem_cons.mp hopen with rfl | hopen
      · exact .inr ⟨name, fragment, .here (List.mem_cons_self ..) hk, hf, hm⟩
      · exact .inl hopen
    · exact .inr (hcycle.imp hinside)
  | spread _ _ hinner _ _ ih =>
    obtain rfl := hinner.left_eq
    exact hpart hrest (ih ho)
  | failsInPlace hk _ ih => exact hpart (fun _ => .inline (List.mem_cons_self ..) hk) (ih ho)
  | inline _ hinner _ _ ih =>
    obtain rfl := hinner.left_eq
    exact hpart hrest (ih ho)

/-- A walk from an empty stack comes upon an open fragment only where one spreads itself. -/
theorem cyclic_of_fault (hV : Descends descends V)
    (hskips : ∀ directives name, r.skips directives ≠ .error (.cyclicFragment name))
    {name : String} (h : Walks r d V [] ss s held left (.error (.cyclicFragment name))) :
    Cyclic r d descends ss :=
  (h.of_cyclicFragment hV hskips).2.resolve_left List.not_mem_nil

/-- Selections are walked to an end as given, from a state and an empty stack, and to no other end.
The stack never holds a fragment twice, and every walk that ends well, also one inside, leaves it as
it was. There is no good end where a fragment spreads itself, and no complaint that one does where
none does. -/
structure Guarded (r : Reading) (d : Document) (V : Visitor σ) (descends : String → Prop)
    (ss : List Selection) (s : σ) (o : Except Error σ) : Prop where
  walks : ∃ held left, Walks r d V [] ss s held left o
  unique : ∀ held left o', Walks r d V [] ss s held left o' → o' = o
  nodup : ∀ held left o', Walks r d V [] ss s held left o' → ∀ w ∈ held, w.Nodup
  restored : ∀ v ts t held left t', Walks r d V v ts t held left (.ok t') → left = v
  caught : Cyclic r d descends ss → ∀ s', o ≠ .ok s'
  spared : ¬ Cyclic r d descends ss → ∀ name, o ≠ .error (.cyclicFragment name)

/-- Every run of a visitor is guarded, whatever it does at the fields. -/
theorem guarded_run (hV : Suits r d below? V) (hdescends : Descends descends V)
    (hskips : ∀ directives name, r.skips directives ≠ .error (.cyclicFragment name))
    (ss : List Selection) (s : σ) : Guarded r d V descends ss s
      (V.run s (r.expansion below? (openings r d below? d.fragments.length []) ss)) := by
  obtain ⟨held, left, hwalks⟩ := exists_walks hV (.start d) ss s
  refine ⟨⟨held, left, hwalks⟩, fun _ _ _ h => h.eq_run hV (.start d),
    fun _ _ _ h => h.nodup List.nodup_nil, fun _ _ _ _ _ _ h => h.left_eq, ?_, ?_⟩
  · intro hcyclic s' hs
    exact not_passes_of_cyclic hdescends hcyclic ⟨s, held, left, s', hs ▸ hwalks⟩
  · intro hacyclic name hs
    exact hacyclic (cyclic_of_fault hdescends hskips (hs ▸ hwalks))

end Reading

end EntityGraph
