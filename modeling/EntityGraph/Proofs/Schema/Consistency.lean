import EntityGraph.Proofs.Schema.Simulation

namespace EntityGraph

variable {c : Catalog} {s s' s'' : Caches c} {α β : Type}

namespace Cached

def outcome (m : Cached c α) (s : Caches c) : Except SchemaError α :=
  match m s with
  | .ok a _ => .ok a
  | .error err _ => .error err

def after (m : Cached c α) (s : Caches c) : Caches c :=
  match m s with
  | .ok _ s' => s'
  | .error _ s' => s'

theorem outcome_of_ok {m : Cached c α} {a : α} (h : m s = .ok a s') : m.outcome s = .ok a := by
  rw [outcome, h]

theorem after_of_ok {m : Cached c α} {a : α} (h : m s = .ok a s') : m.after s = s' := by
  rw [after, h]

namespace FollowsFrom

variable {m : Cached c α} {t : Tracked SchemaError β} {R : Caches c → α → β → Prop}

theorem leads (h : FollowsFrom s m t R) : s.Leads (m.after s) t.uses := by
  obtain ⟨s', hs, h | h⟩ := h
  · obtain ⟨a, b, hm, _⟩ := h
    rw [after, hm]
    exact hs
  · obtain ⟨err, hm, _⟩ := h
    rw [after, hm]
    exact hs

theorem of_ok (h : FollowsFrom s m t R) {a : α} (hm : m.outcome s = .ok a) :
    ∃ b, t.outcome = .ok b ∧ R (m.after s) a b := by
  obtain ⟨s', _, h | h⟩ := h
  · obtain ⟨a', b, hm', hb, hR⟩ := h
    rw [outcome, hm'] at hm
    rw [after, hm']
    exact ⟨b, hb, Except.ok.inj hm ▸ hR⟩
  · obtain ⟨err, hm', _⟩ := h
    rw [outcome, hm'] at hm
    cases hm

theorem of_outcome_ok (h : FollowsFrom s m t R) {b : β} (ht : t.outcome = .ok b) :
    ∃ a, m.outcome s = .ok a ∧ R (m.after s) a b := by
  obtain ⟨s', _, h | h⟩ := h
  · obtain ⟨a, b', hm, hb, hR⟩ := h
    rw [outcome, after, hm]
    exact ⟨a, rfl, Except.ok.inj (hb.symm.trans ht) ▸ hR⟩
  · obtain ⟨err, _, herr⟩ := h
    cases herr.symm.trans ht

theorem error_iff (h : FollowsFrom s m t R) {err : SchemaError} :
    m.outcome s = .error err ↔ t.outcome = .error err := by
  obtain ⟨s', _, h | h⟩ := h
  · obtain ⟨a, b, hm, hb, _⟩ := h
    simp [outcome, hm, hb]
  · obtain ⟨err', hm, herr⟩ := h
    simp [outcome, hm, herr]

/-- With results that are equal, both end alike. -/
theorem outcome_eq {t : Tracked SchemaError α}
    (h : FollowsFrom s m t fun _ a b => a = b) : m.outcome s = t.outcome := by
  obtain ⟨s', _, h | h⟩ := h
  · obtain ⟨a, b, hm, hb, rfl⟩ := h
    rw [outcome, hm, hb]
  · obtain ⟨err, hm, herr⟩ := h
    rw [outcome, hm, herr]

end FollowsFrom

end Cached

/-- A call of the registry. A request for fields is made with a handle. -/
inductive Call (c : Catalog) where
  | lookup (k : TypeKind) (name : String)
  | fields (k : TypeKind) (h : Handle c)
  | compileAll
  | print (roots : RootFields) (pages : PageDefaults)

namespace Call

def perform : Call c → Cached c Unit
  | .lookup k name => do let _ ← Cached.lookup k name
  | .fields k h => do let _ ← Cached.fields k h
  | .compileAll => Cached.compileAll c
  | .print roots pages => do let _ ← Cached.print roots pages

def tracked : Call c → Tracked SchemaError Unit
  | .lookup k name => do let _ ← Schema.typeOf c k name
  | .fields k h => do let _ ← Schema.fieldsOf c k h.entity
  | .compileAll => Schema.compileAll c
  | .print roots pages => do let _ ← Schema.print c roots pages

def Held (s : Caches c) : Call c → Prop
  | .fields k h => s.Holds k h
  | _ => True

/-- Each call of the interface follows the pure schema, retry or not. -/
theorem perform_follows (hs : s.Sound) {call : Call c} (hh : call.Held s) :
    Cached.FollowsFrom s call.perform call.tracked fun _ _ _ => True := by
  cases call with
  | lookup k name =>
    exact (Cached.lookup_follows hs k name).bind fun h₁ _ _ => .ret h₁.sound trivial
  | fields k h => exact (Cached.fields_follows hs hh).bind fun h₁ _ _ => .ret h₁.sound trivial
  | compileAll => exact Cached.compileAll_follows hs
  | print roots pages =>
    exact (Cached.print_follows hs roots pages).bind fun h₁ _ _ => .ret h₁.sound trivial

end Call

namespace Caches

inductive Run : Caches c → List (Call c) → Caches c → Prop
  | nil (s : Caches c) : Run s [] s
  | cons {s s' : Caches c} {call : Call c} {calls : List (Call c)} (held : call.Held s)
      (rest : Run (call.perform.after s) calls s') : Run s (call :: calls) s'

/-- A run goes on as the notes of its calls tell. -/
theorem Run.leads {calls : List (Call c)} (hr : Run s calls s') (hs : s.Sound) :
    s.Leads s' (calls.flatMap fun call => call.tracked.uses) := by
  induction hr with
  | nil s => exact .refl hs
  | cons held _ ih =>
    have hstep := (Call.perform_follows hs held).leads
    exact hstep.trans (ih hstep.sound)

theorem applyAll_flatMap (r : Registry) (calls : List (Call c)) :
    r.applyAll (calls.flatMap fun call => call.tracked.uses) =
      calls.foldl (fun r call => (r.run call.tracked).2) r := by
  induction calls generalizing r with
  | nil => rfl
  | cons call calls ih =>
    rw [List.flatMap_cons, Registry.applyAll_append, ih]
    rfl

/-- What holds of caches and of what becomes of them: names stay where they were put first, look-ups
find the handles that were registered, compiled fields are those of the catalog and stay, and what
fails changes no fields and fails again. -/
structure Consistent (s s' : Caches c) : Prop where
  names_grow : ∀ k, List.IsPrefix ((s k).map Cell.name) ((s' k).map Cell.name)
  names_nodup : ∀ k, ((s k).map Cell.name).Nodup
  names_known : ∀ k, ∀ name ∈ (s k).map Cell.name, name ∈ c.names
  lookup_registered : ∀ k name h, s.handle? k name = some h →
    (Cached.lookup k name).outcome s = .ok h ∧ (Cached.lookup k name).after s = s ∧
      s'.handle? k name = some h
  lookup_new : ∀ k name e, c.entity? name = some e →
    ∃ h, (Cached.lookup k name).outcome s = .ok h ∧
      ((Cached.lookup k name).after s).handle? k name = some h
  lookup_unknown : ∀ k name, c.entity? name = none →
    (Cached.lookup k name).outcome s = .error (.unknownEntity name) ∧
      (Cached.lookup k name).after s = s
  fields_stay : ∀ k h fields, s.Holds k h → s.fields? k h = some fields →
    (Cached.fields k h).outcome s = .ok fields ∧ s'.fields? k h = some fields
  fields_right : ∀ k h fields, s.Holds k h → s.fields? k h = some fields →
    (Schema.fieldsOf c k h.entity).outcome = .ok (fields.map Linked.field) ∧
      ∀ f ∈ fields, f.target.map Handle.entity = k.target? f.field ∧
        ∀ t, f.target = some t → s.handle? k t.name = some t
  fields_ok : ∀ k h fields, s.Holds k h → (Cached.fields k h).outcome s = .ok fields →
    ((Cached.fields k h).after s).fields? k h = some fields
  fields_failed : ∀ k h err, s.Holds k h → (Cached.fields k h).outcome s = .error err →
    (Schema.fieldsOf c k h.entity).outcome = .error err ∧ s.fields? k h = none ∧
      (∀ k' h', ((Cached.fields k h).after s).fields? k' h' = s.fields? k' h') ∧
      (Cached.fields k h).outcome s' = .error err ∧ s'.fields? k h = none
  compileAll_eq : (Cached.compileAll c).outcome s = (Schema.compileAll c).outcome
  print_eq : ∀ roots pages, (Cached.print roots pages).outcome s =
    (Cached.print roots pages).outcome (empty c)
  print_text : ∀ roots pages,
    (Cached.print roots pages).outcome s = (Schema.print c roots pages).outcome

theorem Holds.not_compiled (hs : s.Sound) {k : TypeKind} {h : Handle c} (hh : s.Holds k h)
    {err : SchemaError} (herr : (Schema.fieldsOf c k h.entity).outcome = .error err) :
    s.fields? k h = none := by
  cases hf : s.fields? k h with
  | none => rfl
  | some fields => cases herr.symm.trans (hs.compiles hh hf).outcome

/-- What a later state says agrees with the earlier one, name by name, handle by handle. -/
theorem consistent_of_grows (hs : s.Sound) (hs' : s'.Sound) (hg : s.Grows s') :
    s.Consistent s' where
  names_grow := hg.names
  names_nodup := hs.nodup
  names_known := by
    intro k name hname
    obtain ⟨cell, _, rfl⟩ := List.mem_map.mp hname
    exact List.mem_map_of_mem (Catalog.entity?_eq_some.mp cell.known).1
  lookup_registered := by
    intro k name h hh
    have hlookup := Cached.lookup_of_handle? hh
    refine ⟨Cached.outcome_of_ok hlookup, Cached.after_of_ok hlookup, ?_⟩
    rw [handle?_eq_some (hs'.nodup k)]
    exact ((handle?_eq_some (hs.nodup k)).mp hh).imp_left hg.holds
  lookup_new := by
    intro k name e he
    have hfollows := Cached.lookup_follows_name hs k name
    -- A new name gets a handle, and the handle is found under it afterwards.
    obtain ⟨h, hok, hlists⟩ := hfollows.of_outcome_ok (b := e) <| by
      rw [Schema.outcome_typeOf, Catalog.require_eq_ok.mpr he]
    refine ⟨h, hok, (handle?_eq_some (hfollows.leads.sound.nodup k)).mpr ⟨?_, ?_⟩⟩
    · exact hlists.holds h (List.mem_singleton_self h)
    · exact List.head_eq_of_cons_eq hlists.map_eq
  lookup_unknown := by
    intro k name hnone
    have hnot : s.handle? k name = none := by
      rw [handle?_eq_none]
      intro hname
      obtain ⟨cell, _, rfl⟩ := List.mem_map.mp hname
      cases hnone.symm.trans cell.known
    rw [Cached.outcome, Cached.after, Cached.lookup_of_unknown hnot hnone]
    exact ⟨rfl, rfl⟩
  fields_stay := by
    intro k h fields _ hf
    exact ⟨Cached.outcome_of_ok (Cached.fields_of_compiled hf), hg.fields? hf⟩
  fields_right := by
    intro k h fields hh hf
    have hc := hs.compiles hh hf
    refine ⟨hc.outcome, fun f hmem => ⟨(hc.links f hmem).entity, fun t ht => ?_⟩⟩
    exact (handle?_eq_some (hs.nodup k)).mpr ⟨(hc.links f hmem).holds t ht, rfl⟩
  fields_ok := by
    intro k h fields hh hok
    obtain ⟨_, _, _, hf⟩ := (Cached.fields_follows hs hh).of_ok hok
    exact hf
  fields_failed := by
    intro k h err hh herr
    have hfollows := Cached.fields_follows hs hh
    have hfails := hfollows.error_iff.mp herr
    have huses := Schema.uses_fieldsOf_of_error ((Schema.outcome_fieldsOf ..).symm.trans hfails)
    -- A compilation that fails has only looked types up, which stores no fields.
    have hlookups : ∀ use ∈ (Schema.fieldsOf c k h.entity).uses, use.isLookup = true :=
      fun use huse => Schema.looksUp_checkedFields c k h.entity use (huses ▸ huse)
    exact ⟨hfails, hh.not_compiled hs hfails, hfollows.leads.fields?_of_lookups hlookups,
      (Cached.fields_follows hs' (hg.holds hh)).error_iff.mpr hfails,
      (hg.holds hh).not_compiled hs' hfails⟩
  compileAll_eq :=
    ((Cached.compileAll_follows hs).imp fun _ => Subsingleton.elim _ _).outcome_eq
  print_eq := by
    intro roots pages
    rw [(Cached.print_follows hs roots pages).outcome_eq,
      (Cached.print_follows (sound_empty c) roots pages).outcome_eq]
  print_text := fun roots pages => (Cached.print_follows hs roots pages).outcome_eq

/-- Whatever calls are made, failing ones included, the caches stay consistent, and the registry
shows what is cached. A call is a function of the caches, so each one ends, also where entities
refer to each other in a cycle. -/
theorem consistent_of_run {calls later : List (Call c)} (hs : Run (empty c) calls s)
    (hs' : Run s later s') :
    s.Consistent s' ∧
      s.registry = calls.foldl (fun r call => (r.run call.tracked).2) Registry.empty := by
  have hleads := hs.leads (sound_empty c)
  have hlater := hs'.leads hleads.sound
  refine ⟨consistent_of_grows hleads.sound hlater.sound hlater.grows, ?_⟩
  rw [hleads.registry, applyAll_flatMap]
  rfl

def author : Entity where
  name := "Author"
  description := ""
  attributes := [.scalar "id" "" .id false, .entity "books" "" "Book" true false]
  names_nodup := by decide

def book : Entity where
  name := "Book"
  description := ""
  attributes := [.scalar "title" "" .string false, .entity "author" "" "Author" false true]
  names_nodup := by decide

def draft : Entity where
  name := "Draft"
  description := ""
  attributes := [.scalar "title" "" .string false, .entity "of" "" "Essay" false true]
  names_nodup := by decide

def library : Catalog := ⟨[author, book, draft], by decide⟩

/-- Look up authors, ask for their fields, fail to compile all types, and fail to look one up. -/
def firstCalls : List (Call library) :=
  [.lookup .object "Author", .fields .object ⟨0, author, rfl⟩, .compileAll, .lookup .input "Essay"]

def laterCalls : List (Call library) :=
  [.fields .object ⟨2, draft, rfl⟩, .fields .object ⟨2, draft, rfl⟩, .fields .object ⟨1, book, rfl⟩]

/-- Calls that fail, calls after them, and the names and handles that stay. -/
theorem consistent_of_run_library : ∃ s s' : Caches library, Run (empty library) firstCalls s ∧
    Run s laterCalls s' ∧ s.Consistent s' ∧
      s.registry = firstCalls.foldl (fun r call => (r.run call.tracked).2) Registry.empty := by
  let next (s : Caches library) (call : Call library) := call.perform.after s
  have hfirst : Run (empty library) firstCalls (firstCalls.foldl next (empty library)) :=
    .cons trivial (.cons (by decide +kernel : Holds _ _ _)
      (.cons trivial (.cons trivial (.nil _))))
  have hlater : Run (firstCalls.foldl next (empty library)) laterCalls _ :=
    .cons (by decide +kernel : Holds _ _ _) (.cons (by decide +kernel : Holds _ _ _)
      (.cons (by decide +kernel : Holds _ _ _) (.nil _)))
  exact ⟨_, _, hfirst, hlater, consistent_of_run hfirst hlater⟩

end Caches

end EntityGraph
