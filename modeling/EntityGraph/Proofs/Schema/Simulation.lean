import EntityGraph.Proofs.Schema.Caches
import EntityGraph.Proofs.Schema.Reachable

/-!
Computations with cached types do what the computations that only note their uses do: from sound
caches they end alike, and the caches go on as the notes tell.
-/

namespace EntityGraph

variable {c : Catalog} {s : Caches c} {k : TypeKind} {α α' β β' : Type}

namespace Caches

structure Lists (s : Caches c) (k : TypeKind) (p : Handle c → β) (handles : List (Handle c))
    (xs : List β) : Prop where
  map_eq : handles.map p = xs
  holds : ∀ h ∈ handles, s.Holds k h

namespace Lists

variable {p : Handle c → β} {handles more : List (Handle c)} {xs ys : List β}

theorem mono (hl : s.Lists k p handles xs) {s' : Caches c} (hs : s.Grows s') :
    s'.Lists k p handles xs :=
  ⟨hl.map_eq, fun h hh => hs.holds (hl.holds h hh)⟩

theorem append (hl : s.Lists k p handles xs) (hm : s.Lists k p more ys) :
    s.Lists k p (handles ++ more) (xs ++ ys) :=
  ⟨by rw [List.map_append, hl.map_eq, hm.map_eq],
    List.forall_mem_append.mpr ⟨hl.holds, hm.holds⟩⟩

theorem reverse (hl : s.Lists k p handles xs) : s.Lists k p handles.reverse xs.reverse :=
  ⟨by rw [List.map_reverse, hl.map_eq], fun h hh => hl.holds h (List.mem_reverse.mp hh)⟩

theorem flatMap {R : α → α' → Prop} {as : List α} {as' : List α'} {f : α → List (Handle c)}
    {g : α' → List β} (h : List.Forall₂ R as as') (hR : ∀ a a', R a a' → s.Lists k p (f a) (g a')) :
    s.Lists k p (as.flatMap f) (as'.flatMap g) := by
  induction h with
  | nil => exact ⟨rfl, List.forall_mem_nil _⟩
  | cons ha _ ih =>
    rw [List.flatMap_cons, List.flatMap_cons]
    exact (hR _ _ ha).append ih

theorem sortByName {name : Entity → String} {entities : List Entity}
    (hl : s.Lists k Handle.entity handles entities) :
    s.Lists k Handle.entity (Cached.sortByName name handles)
      (Schema.sortByName name entities) := by
  refine ⟨?_, fun h hh => hl.holds h (List.mem_mergeSort.mp hh)⟩
  rw [Cached.sortByName, Schema.sortByName, ← hl.map_eq]
  exact List.map_mergeSort fun _ _ _ _ => rfl

end Lists

structure Ready (s : Caches c) (k : TypeKind) (h : Handle c) : Prop where
  holds : s.Holds k h
  compiled : ∃ fields, s.fields? k h = some fields

theorem Ready.mono {h : Handle c} (hh : s.Ready k h) {s' : Caches c} (hs : s.Grows s') :
    s'.Ready k h :=
  ⟨hs.holds hh.holds, hh.compiled.imp fun _ hfields => hs.fields? hfields⟩

theorem fields?_store {h : Handle c} (hh : s.Holds k h) (fields : List (Linked c k.Field)) :
    (s.store k h fields).fields? k h = some fields := by
  obtain ⟨cell, hcell, _⟩ := hh
  rw [fields?, store_getElem?, if_pos rfl, hcell]
  rfl

end Caches

namespace Cached

theorem bind_of_ok {m : Cached c α} {a : α} {s' : Caches c} (h : m s = .ok a s')
    (f : α → Cached c β) : (m >>= f) s = f a s' := by
  rw [show (m >>= f) s = EStateM.bind m f s from rfl, EStateM.bind, h]

theorem bind_of_error {m : Cached c α} {err : SchemaError} {s' : Caches c}
    (h : m s = .error err s') (f : α → Cached c β) : (m >>= f) s = .error err s' := by
  rw [show (m >>= f) s = EStateM.bind m f s from rfl, EStateM.bind, h]

/-- From some caches, one computation takes a step that the uses of the other tell. It fails as the
other fails, and else their results are related. -/
def FollowsFrom (s : Caches c) (m : Cached c α) (t : Tracked SchemaError β)
    (R : Caches c → α → β → Prop) : Prop :=
  ∃ s', s.Leads s' t.uses ∧
    ((∃ a b, m s = .ok a s' ∧ t.outcome = .ok b ∧ R s' a b) ∨
      ∃ err, m s = .error err s' ∧ t.outcome = .error err)

namespace FollowsFrom

variable {m : Cached c α} {t : Tracked SchemaError β} {R : Caches c → α → β → Prop}

theorem ret (hs : s.Sound) {a : α} {b : β} (h : R s a b) :
    FollowsFrom s (pure a) (pure b) R :=
  ⟨s, .refl hs, .inl ⟨a, b, rfl, rfl, h⟩⟩

theorem lift (hs : s.Sound) (x : Except SchemaError α) :
    FollowsFrom s (lift x) (Tracked.lift x) fun _ a b => a = b := by
  refine ⟨s, .refl hs, ?_⟩
  cases x with
  | ok a => exact .inl ⟨a, a, rfl, rfl, rfl⟩
  | error err => exact .inr ⟨err, rfl, rfl⟩

/-- Steps that follow one another do so from the state the first one leaves. -/
theorem bind {f : α → Cached c α'} {g : β → Tracked SchemaError β'}
    {Q : Caches c → α' → β' → Prop} (hm : FollowsFrom s m t R)
    (hf : ∀ {s' a b}, s.Leads s' t.uses → t.outcome = .ok b → R s' a b →
      FollowsFrom s' (f a) (g b) Q) : FollowsFrom s (m >>= f) (t >>= g) Q := by
  obtain ⟨s', hs, h | h⟩ := hm
  · obtain ⟨a, b, ha, hb, hR⟩ := h
    obtain ⟨s'', hs', h⟩ := hf hs hb hR
    refine ⟨s'', Tracked.uses_bind_of_ok hb g ▸ hs.trans hs', ?_⟩
    rw [bind_of_ok ha, Tracked.outcome_bind, Outcome.bind_of_eq_ok hb]
    exact h
  · obtain ⟨err, herr, ht⟩ := h
    refine ⟨s', Tracked.uses_bind_of_error ht g ▸ hs, .inr ⟨err, bind_of_error herr f, ?_⟩⟩
    rw [Tracked.outcome_bind, ht]
    rfl

/-- A computation that changes nothing comes first. -/
theorem bind_pure {b : β} {f : α → Cached c α'} {t : Tracked SchemaError β'}
    {Q : Caches c → α' → β' → Prop} (hm : FollowsFrom s m (pure b) R)
    (hf : ∀ {s' a}, s.Leads s' [] → R s' a b → FollowsFrom s' (f a) t Q) :
    FollowsFrom s (m >>= f) t Q := by
  have hbind := hm.bind (g := fun _ => t) (Q := Q) fun hs hb hR => by
    obtain rfl := Except.ok.inj hb
    exact hf hs hR
  rwa [pure_bind] at hbind

theorem imp {Q : Caches c → α → β → Prop} (hm : FollowsFrom s m t R)
    (hR : ∀ {s' a b}, R s' a b → Q s' a b) : FollowsFrom s m t Q := by
  obtain ⟨s', hs, h⟩ := hm
  refine ⟨s', hs, h.imp_left ?_⟩
  rintro ⟨a, b, ha, hb, h⟩
  exact ⟨a, b, ha, hb, hR h⟩

/-- Computations in a row follow others in a row when each of them does. -/
theorem mapM_map {p : α → α'} {f : α → Cached c β} {g : α' → Tracked SchemaError β'}
    {R : Caches c → β → β' → Prop}
    (hR : ∀ {s s' : Caches c} {b b'}, s.Grows s' → R s b b' → R s' b b') (hs : s.Sound)
    {xs : List α} (h : ∀ {s' : Caches c}, s.Grows s' → s'.Sound → ∀ x ∈ xs,
      FollowsFrom s' (f x) (g (p x)) R) :
    FollowsFrom s (xs.mapM f) ((xs.map p).mapM g) fun s' => List.Forall₂ (R s') := by
  induction xs generalizing s with
  | nil => exact .ret hs .nil
  | cons x xs ih =>
    rw [List.map_cons, List.mapM_cons, List.mapM_cons]
    refine (h (.refl s) hs x List.mem_cons_self).bind fun {s₁ b b'} h₁ _ hb => ?_
    refine (ih h₁.sound fun {s'} hg hs' y hy =>
      h (h₁.grows.trans hg) hs' y (List.mem_cons_of_mem x hy)).bind fun {s₂ bs bs'} h₂ _ hbs => ?_
    exact .ret h₂.sound (.cons (hR h₂.grows hb) hbs)

/-- A row of steps follows a row of steps, when growth keeps what relates their results. -/
theorem mapM {f : α → Cached c β} {g : α → Tracked SchemaError β'}
    {R : Caches c → β → β' → Prop}
    (hR : ∀ {s s' : Caches c} {b b'}, s.Grows s' → R s b b' → R s' b b') (hs : s.Sound)
    {xs : List α} (h : ∀ {s' : Caches c}, s.Grows s' → s'.Sound → ∀ x ∈ xs,
      FollowsFrom s' (f x) (g x) R) :
    FollowsFrom s (xs.mapM f) (xs.mapM g) fun s' => List.Forall₂ (R s') := by
  have hrow := mapM_map (p := id) (R := R) hR hs h
  rwa [List.map_id] at hrow

theorem forM {f : α → Cached c Unit} {g : α → Tracked SchemaError Unit} (hs : s.Sound)
    {xs : List α} (h : ∀ {s' : Caches c}, s'.Sound → ∀ x ∈ xs,
      FollowsFrom s' (f x) (g x) fun _ _ _ => True) :
    FollowsFrom s (xs.forM f) (xs.forM g) fun _ _ _ => True := by
  induction xs generalizing s with
  | nil => exact .ret hs trivial
  | cons x xs ih =>
    exact (h hs x List.mem_cons_self).bind fun h₁ _ _ =>
      ih h₁.sound fun hs' y hy => h hs' y (List.mem_cons_of_mem x hy)

end FollowsFrom

theorem lookup_of_handle? {name : String} {h : Handle c} (hh : s.handle? k name = some h) :
    lookup k name s = .ok h s := by
  unfold lookup
  rw [hh]

theorem lookup_of_entity? {name : String} {e : Entity} (hnone : s.handle? k name = none)
    (found : c.entity? name = some e) :
    lookup k name s = .ok (s.nextHandle k found) (s.register k found) := by
  unfold lookup
  split
  · next hh => cases hnone.symm.trans hh
  · split
    · next found' =>
      obtain rfl := Option.some.inj (found.symm.trans found')
      rfl
    · next hunknown => cases hunknown.symm.trans found

theorem lookup_of_unknown {name : String} (hnone : s.handle? k name = none)
    (hunknown : c.entity? name = none) : lookup k name s = .error (.unknownEntity name) s := by
  unfold lookup
  split
  · next hh => cases hnone.symm.trans hh
  · split
    · next found => cases hunknown.symm.trans found
    · rfl

/-- A look-up follows the one that only notes its use. -/
theorem lookup_follows (hs : s.Sound) (k : TypeKind) (name : String) :
    FollowsFrom s (lookup k name) (Schema.typeOf c k name)
      fun s' h e => h.entity = e ∧ s'.Holds k h := by
  rw [Schema.typeOf_eq]
  cases hh : s.handle? k name with
  | some h =>
    obtain ⟨hholds, hname⟩ := (Caches.handle?_eq_some (hs.nodup k)).mp hh
    have hrequire : c.require name = .ok h.entity := Catalog.require_eq_ok.mpr (hname ▸ h.known)
    -- A name with a handle is in the registry, so that its use changes nothing there.
    have hhas : s.registry.Has (k.use name) := Caches.has_registry.mpr <| by
      obtain ⟨cell, hcell, hentity⟩ := hholds
      have hcellName : cell.name = name := (congrArg Entity.name hentity).trans hname
      exact hcellName ▸ List.mem_map_of_mem (List.mem_of_getElem? hcell)
    rw [hrequire]
    exact ⟨s, .of_has hs (List.forall_mem_singleton.mpr hhas),
      .inl ⟨h, h.entity, lookup_of_handle? hh, rfl, rfl, hholds⟩⟩
  | none => cases hentity : c.entity? name with
    | some e =>
      rw [Catalog.require_eq_ok.mpr hentity]
      exact ⟨_, Caches.leads_register hentity hs hh, .inl ⟨_, e, lookup_of_entity? hh hentity, rfl,
        rfl, Caches.holds_nextHandle hentity s k⟩⟩
    | none =>
      rw [Catalog.require_eq_error.mpr ⟨hentity, rfl⟩]
      exact ⟨s, .refl hs, .inr ⟨_, lookup_of_unknown hh hentity, rfl⟩⟩

/-- A type that is in use is looked up without any change. -/
theorem lookup_follows_pure (hs : s.Sound) {name : String} (hhas : s.registry.Has (k.use name)) :
    FollowsFrom s (lookup k name) (pure name) fun s' h n => h.name = n ∧ s'.Holds k h := by
  cases hh : s.handle? k name with
  | some h =>
    obtain ⟨hholds, hname⟩ := (Caches.handle?_eq_some (hs.nodup k)).mp hh
    exact ⟨s, .refl hs, .inl ⟨h, name, lookup_of_handle? hh, rfl, hname, hholds⟩⟩
  | none => exact absurd (Caches.has_registry.mp hhas) (Caches.handle?_eq_none.mp hh)

/-- A field is compiled with the handle of its target, if it has one. -/
theorem compileField_follows (hs : s.Sound) (k : TypeKind) (a : Attribute) :
    FollowsFrom s (compileField k a) (Schema.fieldOf c k a)
      fun s' f f' => f.field = f' ∧ s'.Links k f := by
  cases k with
  | object =>
    simp only [compileField, Schema.fieldOf, Schema.outputField, Schema.outputTarget]
    cases a.scalarKind? with
    | some kind => exact .ret hs ⟨rfl, .of_none rfl rfl⟩
    | none =>
      simp only [bind_assoc, pure_bind]
      -- The handle that is kept is the object's; the filter's is looked up after it and stays in
      -- the caches.
      refine (lookup_follows hs .object a.typeName).bind fun h₁ _ hobject => ?_
      refine (lookup_follows h₁.sound .filter a.typeName).bind fun h₂ _ hfilter => ?_
      obtain ⟨rfl, hh⟩ := hobject
      obtain ⟨rfl, _⟩ := hfilter
      exact .ret h₂.sound ⟨rfl, .of_some rfl rfl (h₂.grows.holds hh)⟩
  | input =>
    simp only [compileField, Schema.fieldOf, Schema.inputField, Schema.inputTarget]
    cases a.scalarKind? with
    | some kind => exact .ret hs ⟨rfl, .of_none rfl rfl⟩
    | none =>
      simp only [bind_assoc, pure_bind]
      refine (lookup_follows hs .input a.typeName).bind fun h₁ _ hinput => ?_
      obtain ⟨rfl, hh⟩ := hinput
      exact .ret h₁.sound ⟨rfl, .of_some rfl rfl hh⟩
  | filter =>
    simp only [compileField, Schema.fieldOf, Schema.filterField, Schema.filterTarget]
    cases a.scalarKind? with
    | some kind => exact .ret hs ⟨rfl, .of_none rfl rfl⟩
    | none =>
      simp only [bind_assoc, pure_bind]
      refine (lookup_follows hs .filter a.typeName).bind fun h₁ _ hfilter => ?_
      obtain ⟨rfl, hh⟩ := hfilter
      exact .ret h₁.sound ⟨rfl, .of_some rfl rfl hh⟩

/-- All fields of an entity, each linked to its target. -/
theorem compile_follows (hs : s.Sound) (k : TypeKind) (e : Entity) :
    FollowsFrom s (compile k e) (Schema.checkedFields c k e)
      fun s' fields fields' => fields.map Linked.field = fields' ∧
        ∀ f ∈ fields, s'.Links k f := by
  have hrow : FollowsFrom s ((k.attributes e).mapM (compileField k))
      ((k.attributes e).mapM (Schema.fieldOf c k))
      fun s' => List.Forall₂ fun f f' => f.field = f' ∧ s'.Links k f :=
    .mapM (fun hg h => ⟨h.1, h.2.mono hg⟩) hs fun _ hs' a _ => compileField_follows hs' k a
  refine hrow.bind fun {s₁ fields fields'} h₁ _ hfields => ?_
  have hmap : fields'.map id = fields.map Linked.field :=
    Outcome.map_eq_of_forall₂ hfields fun _ _ _ h => h.1.symm
  rw [List.map_id] at hmap
  subst hmap
  rw [List.isEmpty_map]
  refine (FollowsFrom.lift h₁.sound (k.check e fields.isEmpty)).bind fun {s₂ _ _} h₂ _ _ => ?_
  refine .ret h₂.sound ⟨rfl, fun f hf => ?_⟩
  obtain ⟨_, _, hlinks⟩ := Outcome.exists_mem_right hfields hf
  exact hlinks.2.mono h₂.grows

theorem fields_of_compiled {h : Handle c} {found : List (Linked c k.Field)}
    (hf : s.fields? k h = some found) : fields k h s = .ok found s := by
  have hget : (get : Cached c (Caches c)) s = .ok s s := rfl
  rw [fields, bind_of_ok hget, hf]
  rfl

theorem fields_of_not_compiled {h : Handle c} (hf : s.fields? k h = none) : fields k h s =
    (do
      let fields ← compile k h.entity
      modify fun s => s.store k h fields
      return fields : Cached c (List (Linked c k.Field))) s := by
  have hget : (get : Cached c (Caches c)) s = .ok s s := rfl
  rw [fields, bind_of_ok hget, hf]

/-- Compiled fields are stored with all that they need. -/
theorem leads_store_of_compile {s s₁ : Caches c} {h : Handle c}
    {fields : List (Linked c k.Field)} (hh : s.Holds k h) (hnone : s.fields? k h = none)
    (h₁ : s.Leads s₁ (Schema.checkedFields c k h.entity).uses)
    (hok : (Schema.checkedFields c k h.entity).outcome = .ok (fields.map Linked.field))
    (hlinks : ∀ f ∈ fields, s₁.Links k f) :
    s.Leads (s₁.store k h fields) (Schema.fieldsOf c k h.entity).uses := by
  have hnone₁ : s₁.fields? k h = none :=
    (h₁.fields?_of_lookups (Schema.looksUp_checkedFields c k h.entity) k h).trans hnone
  have hh₁ : s₁.Holds k h := h₁.grows.holds hh
  rw [Schema.uses_fieldsOf hok]
  refine h₁.trans (Caches.leads_store h₁.sound hh₁ hnone₁ ⟨?_, fun f hf => ?_, fun use huse => ?_⟩)
  · rw [Schema.outcome_fieldsOf, hok]
  · exact (hlinks f hf).mono (Caches.grows_store hnone₁)
  · rw [Caches.registry_store h₁.sound hh₁ hnone₁, h₁.registry]
    rw [Schema.uses_fieldsOf hok] at huse
    have hhas := Registry.has_applyAll (r := s.registry) huse
    rwa [Registry.applyAll_append] at hhas

/-- A request for fields follows the computation of them, also when they are compiled already. -/
theorem fields_follows (hs : s.Sound) {h : Handle c} (hh : s.Holds k h) :
    FollowsFrom s (fields k h) (Schema.fieldsOf c k h.entity)
      fun s' fields fields' => fields.map Linked.field = fields' ∧
        s'.fields? k h = some fields := by
  cases hf : s.fields? k h with
  | some fields =>
    -- All that compiling would use was taken into account when it was done first.
    have hc := hs.compiles hh hf
    exact ⟨s, .of_has hs hc.used, .inl ⟨fields, _, fields_of_compiled hf, hc.outcome, rfl, hf⟩⟩
  | none =>
    obtain ⟨s₁, h₁, h | h⟩ := compile_follows hs k h.entity
    · obtain ⟨fields, _, hm, hok, rfl, hlinks⟩ := h
      refine ⟨s₁.store k h fields, leads_store_of_compile hh hf h₁ hok hlinks, .inl ?_⟩
      refine ⟨fields, _, ?_, (Schema.outcome_fieldsOf c k h.entity).trans hok, rfl,
        Caches.fields?_store (h₁.grows.holds hh) fields⟩
      rw [fields_of_not_compiled hf, bind_of_ok hm]
      rfl
    · -- The types that were looked up before the failure stay, and no fields are stored.
      obtain ⟨err, hm, herr⟩ := h
      refine ⟨s₁, Schema.uses_fieldsOf_of_error herr ▸ h₁, .inr ⟨err, ?_, ?_⟩⟩
      · rw [fields_of_not_compiled hf, bind_of_error hm]
      · rw [Schema.outcome_fieldsOf, herr]

/-- The handles in compiled fields are those of the entities that the type refers to. -/
theorem lists_targets (hs : s.Sound) {h : Handle c} (hh : s.Holds k h)
    {fields : List (Linked c k.Field)} (hf : s.fields? k h = some fields) :
    s.Lists k Handle.name (fields.filterMap Linked.target)
      (Schema.targets (k.attributes h.entity)) := by
  have hc := hs.compiles hh hf
  constructor
  · rw [← Schema.names_of_fieldsOf hc.outcome, List.filterMap_map, List.map_filterMap]
    apply List.filterMap_congr
    intro f hmem
    rw [Function.comp_apply, ← (hc.links f hmem).entity, Option.map_map]
    rfl
  · intro t ht
    obtain ⟨f, hmem, htarget⟩ := List.mem_filterMap.mp ht
    exact (hc.links f hmem).holds t htarget

/-- The walk over handles follows the walk over names. By the recursion of the first. -/
theorem walk_follows (hs : s.Sound) {stack visited : List (Handle c)}
    (hstack : ∀ h ∈ stack, s.Holds k h) (hvisited : ∀ h ∈ visited, s.Ready k h) :
    FollowsFrom s (walk k stack visited)
      (Schema.walk c (Schema.targetsOf c k) (stack.map Handle.name)
        (visited.map Handle.entity))
      fun s' handles entities => handles.map Handle.entity = entities ∧
        ∀ h ∈ handles, s'.Ready k h := by
  have hnames : ∀ visited : List (Handle c),
      (visited.map Handle.entity).map Entity.name = visited.map Handle.name := by
    intro visited
    rw [List.map_map]
    rfl
  -- As the walk goes: the stack holds handles of the cache, and what was visited is compiled.
  induction stack, visited using walk.induct k generalizing s with
  | case1 visited =>
    rw [walk, List.map_nil, Schema.walk]
    exact .ret hs ⟨rfl, hvisited⟩
  | case2 h stack visited hseen ih =>
    rw [List.forall_mem_cons] at hstack
    rw [walk, dif_pos hseen, List.map_cons, Schema.walk]
    split
    · next hnone => cases hnone.symm.trans h.known
    · next e found =>
      rw [dif_pos (by
        rw [← Option.some.inj (h.known.symm.trans found), hnames]
        exact hseen)]
      exact ih hs hstack.2 hvisited
  | case3 h stack visited hseen ih =>
    rw [List.forall_mem_cons] at hstack
    rw [walk, dif_neg hseen, List.map_cons, Schema.walk]
    split
    · next hnone => cases hnone.symm.trans h.known
    · next e found =>
      obtain rfl := Option.some.inj (h.known.symm.trans found)
      rw [dif_neg (by rw [hnames]; exact hseen), Schema.targetsOf_eq, bind_assoc]
      refine (fields_follows hs hstack.1).bind fun {s₁ fields _} h₁ _ hfields => ?_
      obtain ⟨_, hf⟩ := hfields
      have hh₁ : s₁.Holds k h := h₁.grows.holds hstack.1
      have htargets := lists_targets h₁.sound hh₁ hf
      have hrest := ih fields h₁.sound
        (List.forall_mem_append.mpr ⟨fun t ht => htargets.reverse.holds t ht,
          fun t ht => h₁.grows.holds (hstack.2 t ht)⟩)
        (List.forall_mem_append.mpr ⟨fun t ht => (hvisited t ht).mono h₁.grows,
          List.forall_mem_singleton.mpr ⟨hh₁, fields, hf⟩⟩)
      rw [List.map_append, htargets.reverse.map_eq, List.map_append, List.map_singleton] at hrest
      rw [pure_bind]
      exact hrest

structure RootsMatch (s : Caches c) (handles : RootHandles c) (types : Schema.RootTypes) :
    Prop where
  objects : s.Lists .object Handle.name handles.objects types.objects
  inputs : s.Lists .input Handle.name handles.inputs types.inputs
  filters : s.Lists .filter Handle.name handles.filters types.filters

theorem RootsMatch.mono {handles : RootHandles c} {types : Schema.RootTypes}
    (h : RootsMatch s handles types) {s' : Caches c} (hs : s.Grows s') :
    RootsMatch s' handles types :=
  ⟨h.objects.mono hs, h.inputs.mono hs, h.filters.mono hs⟩

theorem lookup_follows_name (hs : s.Sound) (k : TypeKind) (name : String) :
    FollowsFrom s (lookup k name) (Schema.typeOf c k name)
      fun s' h _ => s'.Lists k Handle.name [h] [name] := by
  obtain ⟨s', hleads, h | h⟩ := lookup_follows hs k name
  · obtain ⟨h, e, hm, hok, rfl, hh⟩ := h
    have hname : h.name = name := by
      rw [Schema.outcome_typeOf] at hok
      exact (Catalog.entity?_eq_some.mp (Catalog.require_eq_ok.mp hok)).2
    exact ⟨s', hleads, .inl ⟨h, _, hm, hok, congrArg (fun n => [n]) hname,
      List.forall_mem_singleton.mpr hh⟩⟩
  · exact ⟨s', hleads, .inr h⟩

theorem rootHandles_follows (hs : s.Sound) (f : RootField) :
    FollowsFrom s (rootHandles f) (Schema.rootTypes c f) RootsMatch := by
  have hnil : ∀ {s : Caches c} {k : TypeKind}, s.Lists k Handle.name [] [] := ⟨rfl, List.forall_mem_nil _⟩
  rw [rootHandles, Schema.rootTypes]
  refine (lookup_follows_name hs .object f.entity).bind fun {s₁ _ _} h₁ _ hobject => ?_
  cases f.action with
  | lookup key => exact .ret h₁.sound ⟨hobject, hnil, hnil⟩
  | search =>
    refine (lookup_follows_name h₁.sound .filter f.entity).bind fun {s₂ _ _} h₂ _ hfilter => ?_
    exact .ret h₂.sound ⟨hobject.mono h₂.grows, hnil, hfilter⟩
  | create argument =>
    refine (lookup_follows_name h₁.sound .input f.entity).bind fun {s₂ _ _} h₂ _ hinput => ?_
    exact .ret h₂.sound ⟨hobject.mono h₂.grows, hinput, hnil⟩

/-- The handles of the types that a schema needs are those of the entities that it needs. -/
structure ReachableMatch (s : Caches c) (handles : RootHandles c) (types : Schema.Reachable) :
    Prop where
  objects : s.Lists .object Handle.entity handles.objects types.objects
  inputs : s.Lists .input Handle.entity handles.inputs types.inputs
  filters : s.Lists .filter Handle.entity handles.filters types.filters

/-- The filter types that compiled output types name are in use. -/
theorem has_nested (hs : s.Sound) {handles : List (Handle c)}
    (hr : ∀ h ∈ handles, s.Ready .object h) {name : String}
    (hname : name ∈ handles.flatMap fun h => Schema.targets h.entity.attributes) :
    s.registry.Has (TypeKind.filter.use name) := by
  obtain ⟨h, hh, hname⟩ := List.mem_flatMap.mp hname
  obtain ⟨a, ha, hk, rfl⟩ := Schema.of_mem_targets hname
  obtain ⟨fields, hfields⟩ := (hr h hh).compiled
  have hc := hs.compiles (hr h hh).holds hfields
  exact hc.used _ (Schema.filter_mem_uses hc.outcome ha hk)

theorem nested_follows (hs : s.Sound) {handles : List (Handle c)}
    (hr : ∀ h ∈ handles, s.Ready .object h) :
    FollowsFrom s
      ((handles.flatMap fun h => Schema.targets h.entity.attributes).mapM (lookup .filter))
      (pure (handles.flatMap fun h => Schema.targets h.entity.attributes))
      fun s' => s'.Lists .filter Handle.name := by
  have hrow := FollowsFrom.mapM (f := lookup TypeKind.filter)
    (g := fun name => (pure name : Tracked SchemaError String))
    (R := fun s' h n => h.name = n ∧ s'.Holds .filter h)
    (fun hg h => ⟨h.1, hg.holds h.2⟩) hs
    (fun hg hs' name hname => lookup_follows_pure hs'
      (has_nested hs' (fun h hh => (hr h hh).mono hg) hname))
  rw [List.mapM_pure, List.map_id'] at hrow
  refine hrow.imp fun {s' hs' names} h => ⟨?_, fun t ht => ?_⟩
  · have := Outcome.map_eq_of_forall₂ (g := id) (f := Handle.name) h fun _ _ _ h => h.1.symm
    rw [← this, List.map_id]
  · obtain ⟨_, _, hh⟩ := Outcome.exists_mem_right h ht
    exact hh.2

/-- The four walks in turn, each from the caches the one before it leaves. -/
theorem reachable_follows (hs : s.Sound) (roots : RootFields) :
    FollowsFrom s (reachable roots) (Schema.reachable c roots) ReachableMatch := by
  have hrow : FollowsFrom s ((roots.query ++ roots.mutation).mapM rootHandles)
      ((roots.query ++ roots.mutation).mapM (Schema.rootTypes c))
      fun s' => List.Forall₂ (RootsMatch s') :=
    .mapM (fun hg h => h.mono hg) hs fun _ hs' f _ => rootHandles_follows hs' f
  rw [reachable, Schema.reachable]
  refine hrow.bind fun {s₁ rows types} h₁ _ hrows => ?_
  have hobjects : s₁.Lists .object Handle.name (rows.flatMap RootHandles.objects)
      (types.flatMap Schema.RootTypes.objects) := .flatMap hrows fun _ _ h => h.objects
  have hinputs : s₁.Lists .input Handle.name (rows.flatMap RootHandles.inputs)
      (types.flatMap Schema.RootTypes.inputs) := .flatMap hrows fun _ _ h => h.inputs
  have hfilters : s₁.Lists .filter Handle.name (rows.flatMap RootHandles.filters)
      (types.flatMap Schema.RootTypes.filters) := .flatMap hrows fun _ _ h => h.filters
  -- Three walks one after another. The filter types that output types name are there already.
  have hwalk := walk_follows h₁.sound hobjects.reverse.holds (List.forall_mem_nil _)
  rw [hobjects.reverse.map_eq] at hwalk
  refine hwalk.bind fun {s₂ objects _} h₂ _ hvisited => ?_
  obtain ⟨rfl, hready⟩ := hvisited
  refine (nested_follows h₂.sound hready).bind_pure fun {s₃ nested} h₃ hnested => ?_
  have hg₃ : s₁.Grows s₃ := h₂.grows.trans h₃.grows
  have hwalk := walk_follows h₃.sound (hinputs.mono hg₃).reverse.holds (List.forall_mem_nil _)
  rw [hinputs.reverse.map_eq] at hwalk
  refine hwalk.bind fun {s₄ inputs _} h₄ _ hvisited => ?_
  obtain ⟨rfl, hreadyInputs⟩ := hvisited
  have hstack := ((hfilters.mono hg₃).append hnested).mono h₄.grows
  have hwalk := walk_follows h₄.sound hstack.reverse.holds (List.forall_mem_nil _)
  rw [hstack.reverse.map_eq] at hwalk
  rw [List.flatMap_map]
  refine hwalk.bind fun {s₅ filters _} h₅ _ hvisited => ?_
  obtain ⟨rfl, hreadyFilters⟩ := hvisited
  have hg₅ : s₂.Grows s₅ := h₃.grows.trans (h₄.grows.trans h₅.grows)
  refine .ret h₅.sound ⟨?_, ?_, ?_⟩
  · exact Caches.Lists.sortByName ⟨rfl, fun h hh => hg₅.holds (hready h hh).holds⟩
  · exact Caches.Lists.sortByName ⟨rfl, fun h hh => h₅.grows.holds (hreadyInputs h hh).holds⟩
  · exact Caches.Lists.sortByName ⟨rfl, fun h hh => (hreadyFilters h hh).holds⟩

/-- A block is printed from the compiled fields, whichever call compiled them. -/
theorem block_follows (hs : s.Sound) {h : Handle c} (hh : s.Holds k h) :
    FollowsFrom s (block k h) (Schema.blockOf c k h.entity) fun _ b b' => b = b' := by
  rw [block, Schema.blockOf_eq]
  refine (fields_follows hs hh).bind fun h₁ _ hfields => ?_
  exact .ret h₁.sound (congrArg (k.block h.entity) hfields.1)

theorem blocks_follow (hs : s.Sound) {handles : List (Handle c)} {entities : List Entity}
    (hl : s.Lists k Handle.entity handles entities) :
    FollowsFrom s (handles.mapM (block k)) (entities.mapM (Schema.blockOf c k))
      fun _ bs bs' => bs = bs' := by
  have hrow := FollowsFrom.mapM_map (p := Handle.entity) (f := block k) (g := Schema.blockOf c k)
    (R := fun _ b b' => b = b') (fun _ h => h) hs
    (fun hg hs' h hh => block_follows hs' (hg.holds (hl.holds h hh)))
  rw [hl.map_eq] at hrow
  exact hrow.imp fun h => List.forall₂_eq_eq_eq ▸ h

/-- Printing a schema follows the computation of its text. -/
theorem print_follows (hs : s.Sound) (roots : RootFields) (pages : PageDefaults) :
    FollowsFrom s (print roots pages) (Schema.print c roots pages)
      fun _ text text' => text = text' := by
  rw [print, Schema.print, Schema.blocks]
  simp only [bind_assoc, pure_bind]
  refine (reachable_follows hs roots).bind fun {s₁ handles types} h₁ _ hr => ?_
  refine (blocks_follow h₁.sound hr.objects).bind fun {s₂ _ _} h₂ _ hobjects => ?_
  refine (blocks_follow h₂.sound (hr.inputs.mono h₂.grows)).bind fun {s₃ _ _} h₃ _ hinputs => ?_
  refine (blocks_follow h₃.sound (hr.filters.mono (h₂.grows.trans h₃.grows))).bind
    fun {s₄ _ _} h₄ _ hfilters => ?_
  subst hobjects hinputs hfilters
  exact .ret h₄.sound rfl

/-- Compiling all types follows the computation that only notes it. -/
theorem compileAll_follows (hs : s.Sound) :
    FollowsFrom s (compileAll c) (Schema.compileAll c) fun _ _ _ => True := by
  refine .forM hs fun hs' name _ => ?_
  refine (lookup_follows hs' .object name).bind fun h₁ _ hobject => ?_
  obtain ⟨rfl, hh⟩ := hobject
  refine (fields_follows h₁.sound hh).bind fun h₂ _ _ => ?_
  refine (lookup_follows h₂.sound .filter name).bind fun h₃ _ hfilter => ?_
  obtain ⟨rfl, hh⟩ := hfilter
  exact (fields_follows h₃.sound hh).bind fun h₄ _ _ => .ret h₄.sound trivial

end Cached

end EntityGraph
