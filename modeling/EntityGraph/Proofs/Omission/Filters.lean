import EntityGraph.Proofs.Filter.Parts
import EntityGraph.Proofs.Omission.Values

namespace EntityGraph.Filter

variable {service : Service} {e : Entity} {a : Attribute} {v v' : Value}

/-- The operators that are given stay. -/
theorem given_omits {kind : ScalarKind} {fields fields' : Arguments}
    (h : OmitsFields service (.constraint kind) fields fields') :
    (fields'.filter fun entry => !entry.2.isNull) = fields.filter fun entry => !entry.2.isNull := by
  induction fields generalizing fields' with
  | nil => cases h; rfl
  | cons field fields ih =>
    cases h with
    | omitted _ h =>
      rw [ih h]
      rfl
    | kept hv h =>
      obtain rfl := hv.eq_of_elsewhere
      rw [List.filter_cons, List.filter_cons, ih h]

/-- An operator on null is no operator. -/
theorem readConstraint_omits {kind : ScalarKind} (h : Omits service (.constraint kind) v v')
    (field : String) : readConstraint kind field v' = readConstraint kind field v := by
  cases h with
  | same => rfl
  | list => rfl
  | object _ hfields =>
    rw [readConstraint, readConstraint, readOperators, readOperators, given_omits hfields]

theorem compileScalar_omits {kind : ScalarKind} (h : Omits service (.constraint kind) v v') :
    compileScalar kind v' = compileScalar kind v := by
  rw [compileScalar, compileScalar, h.isNull_eq, readConstraint_omits h]

/-- The join stays, as a null leaves it as it is without. -/
theorem joinFrom_omits {fields fields' : Arguments}
    (h : OmitsFields service (.filter e) fields fields') (hkeys : (fields.map Prod.fst).Nodup)
    {join : Join} (hjoin : joinKey ∈ fields.map Prod.fst → join = .all) :
    joinFrom join fields' = joinFrom join fields := by
  induction fields generalizing fields' join with
  | nil => cases h; rfl
  | cons field fields ih =>
    rw [List.map_cons, List.nodup_cons] at hkeys
    cases h with
    | @omitted _ key _ _ _ h =>
      -- A join that is null is the default, and no other has been named before.
      have hstay : joinFrom join ((key, .null) :: fields) = joinFrom join fields := by
        rw [joinFrom, List.foldl_cons, joinFrom]
        split
        · next hkey => rw [hjoin (hkey ▸ List.mem_cons_self)]; rfl
        · rfl
      rw [hstay]
      exact ih h hkeys.2 fun hmem => hjoin (List.mem_cons_of_mem _ hmem)
    | @kept _ key v v' _ fields' hv h =>
      have hnext : ∀ join' : Join, (joinKey ∈ fields.map Prod.fst → join' = .all) →
          joinFrom join' fields' = joinFrom join' fields := fun _ hjoin' => ih h hkeys.2 hjoin'
      rw [joinFrom, joinFrom, List.foldl_cons, List.foldl_cons]
      by_cases hkey : key = joinKey
      · have hsame : v' = v := by
          rw [Place.inside, if_pos hkey] at hv
          exact hv.eq_of_elsewhere
        rw [if_pos hkey, if_pos hkey, hsame]
        exact hnext _ fun hmem => absurd (hkey ▸ hmem) hkeys.1
      · rw [if_neg hkey, if_neg hkey]
        exact hnext join fun hmem => hjoin (List.mem_cons_of_mem _ hmem)

/-- A null under a known key gives nothing. -/
theorem readField_null_of_knows (c : Catalog) (path : String) {key : String}
    (hkey : (Place.filter e).knows service key = true) :
    readField c e path (key, .null) = .ok [] := by
  by_cases hj : key = joinKey
  · rw [readField, if_pos hj]
    rfl
  · by_cases hc : key = childrenKey
    · rw [readField, if_neg hj, if_pos hc]
      rfl
    · have hfound : (e.attribute? key).isSome = true := by
        simpa [Place.knows, hj, hc] using hkey
      obtain ⟨a, ha⟩ := Option.isSome_iff_exists.mp hfound
      exact readField_null c path hj hc ha

/-- A filter on an attribute gives the same, if filters on the entity that it refers to do. -/
theorem readAttribute_omits (h : Omits service (Place.ofFiltered service a) v v')
    (hobject : ∀ t path, Omits service (.filter t) v v' →
      readObject service.catalog t path v' = readObject service.catalog t path v) (path : String) :
    readAttribute service.catalog a path v' = readAttribute service.catalog a path v := by
  rw [readAttribute, readAttribute]
  rw [Place.ofFiltered] at h
  cases hk : a.scalarKind? with
  | some kind =>
    rw [hk] at h
    dsimp only
    rw [readLeaf, readLeaf, readConstraint_omits h]
  | none =>
    rw [hk] at h
    dsimp only
    refine Outcome.bind_congr fun t ht => ?_
    have hfound : service.catalog.entity? a.typeName = some t :=
      Catalog.require_eq_ok.mp (Outcome.mapError_eq_ok.mp ht)
    rw [Place.ofEntity, hfound] at h
    rw [hobject t _ h]

def readTrees (c : Catalog) (e : Entity) (path : String) (fields : Arguments) :
    Except Error (List (FilterTree Constraint)) :=
  (fields.mapM (readField c e path)).map List.flatten

theorem readTrees_cons (c : Catalog) (path : String) (field : String × Value)
    (fields : Arguments) : readTrees c e path (field :: fields) =
      readField c e path field >>= fun trees =>
        readTrees c e path fields >>= fun more => .ok (trees ++ more) := by
  rw [readTrees, readTrees, List.mapM_cons]
  cases readField c e path field with
  | error err => rfl
  | ok trees => cases fields.mapM (readField c e path) <;> rfl

/-- The trees of an object, with the join apart. -/
theorem readObject_eq_readTrees (c : Catalog) (path : String) (fields : Arguments) :
    readObject c e path (.object fields) =
      (readTrees c e path fields).map (FilterTree.node (joinOf fields)) := by
  rw [readObject_object, readTrees]
  cases fields.mapM (readField c e path) <;> rfl

/-- An object gives the same if its fields do. -/
theorem readObject_of_readTrees {fields fields' : Arguments} (hkeys : (fields.map Prod.fst).Nodup)
    (h : OmitsFields service (.filter e) fields fields') (path : String)
    (htrees : readTrees service.catalog e path fields' = readTrees service.catalog e path fields) :
    readObject service.catalog e path (.object fields') =
      readObject service.catalog e path (.object fields) := by
  have hjoin : joinOf fields' = joinOf fields := joinFrom_omits h hkeys fun _ => rfl
  rw [readObject_eq_readTrees, readObject_eq_readTrees, hjoin, htrees]

/-- A field gives the same, if the child filters and the filters on entities do that it may hold. -/
theorem readField_omits {key : String}
    (h : Omits service ((Place.filter e).inside service key) v v') (path : String)
    (hbranches : Omits service (.filter e) v v' →
      readBranches service.catalog e path v' = readBranches service.catalog e path v)
    (hobject : ∀ t path, Omits service (.filter t) v v' →
      readObject service.catalog t path v' = readObject service.catalog t path v) :
    readField service.catalog e path (key, v') = readField service.catalog e path (key, v) := by
  rw [readField, readField]
  rw [Place.inside] at h
  -- Nothing is left out below a join, all may be below the other keys.
  by_cases hj : key = joinKey
  · rw [if_pos hj] at h ⊢
    rw [if_pos hj, h.eq_of_elsewhere]
  · rw [if_neg hj] at h ⊢
    rw [if_neg hj]
    by_cases hc : key = childrenKey
    · rw [if_pos hc] at h ⊢
      rw [if_pos hc]
      exact hbranches h
    · rw [if_neg hc] at h ⊢
      rw [if_neg hc]
      cases ha : e.attribute? key with
      | none =>
        rw [filterable, ha]
        rfl
      | some a =>
        rw [ha] at h
        rw [filterable, ha, h.isNull_eq]
        refine Outcome.bind_congr fun found hfound => ?_
        cases hfound
        rw [readAttribute_omits h hobject]

-- By the constructors of the data: filters on entities and child filters stand inside each other.
mutual

/-- A filter object gives the same without some of its nulls. -/
theorem readObject_omits {e : Entity} (path : String) : ∀ {v v' : Value},
    Omits service (.filter e) v v' →
    readObject service.catalog e path v' = readObject service.catalog e path v
  | _, _, .same _ _ => rfl
  | .list _, .list _, .list _ => by rw [readObject, readObject] <;> rintro _ ⟨⟩
  | .object _, .object _, .object hkeys h =>
    readObject_of_readTrees hkeys h path (readTrees_omits path h)

/-- Child filters give the same without some of their nulls. -/
theorem readBranches_omits {e : Entity} (path : String) : ∀ {v v' : Value},
    Omits service (.filter e) v v' →
    readBranches service.catalog e path v' = readBranches service.catalog e path v
  | _, _, .same _ _ => rfl
  | .list _, .list _, .list h => by rw [readBranches, readBranches, readChildren_omits path h]
  | .object _, .object _, .object hkeys h => by
    rw [readBranches, readBranches,
      readObject_of_readTrees hkeys h path (readTrees_omits path h)]

theorem readChildren_omits {e : Entity} (path : String) : ∀ {items items' : List Value},
    OmitsItems service (.filter e) items items' →
    items'.mapM (readChild service.catalog e path) = items.mapM (readChild service.catalog e path)
  | [], [], .nil _ => rfl
  | v :: items, v' :: items', .cons hv h => by
    rw [List.mapM_cons, List.mapM_cons, readChild, readChild, hv.isObject_eq,
      readObject_omits path hv, readChildren_omits path h]

/-- What is left out reads as no tree. -/
theorem readTrees_omits {e : Entity} (path : String) : ∀ {fields fields' : Arguments},
    OmitsFields service (.filter e) fields fields' →
    readTrees service.catalog e path fields' = readTrees service.catalog e path fields
  | [], [], .nil _ => rfl
  | (key, .null) :: fields, fields', .omitted hkey h => by
    rw [readTrees_cons, readField_null_of_knows service.catalog path hkey, readTrees_omits path h]
    cases readTrees service.catalog e path fields <;> rfl
  | (key, v) :: fields, (_, v') :: fields', .kept hv h => by
    have hbranches : Omits service (.filter e) v v' →
        readBranches service.catalog e path v' = readBranches service.catalog e path v :=
      fun hv => readBranches_omits path hv
    have hobject : ∀ t path, Omits service (.filter t) v v' →
        readObject service.catalog t path v' = readObject service.catalog t path v :=
      fun t path hv => readObject_omits path hv
    rw [readTrees_cons, readTrees_cons, readField_omits hv path hbranches hobject,
      readTrees_omits path h]

end

/-- A filter compiles to the same without some of its nulls. -/
theorem compile_omits (h : Omits service (.filter e) v v') :
    compile service.catalog e v' = compile service.catalog e v := by
  rw [compile, compile, h.isNull_eq, readObject_omits "" h]

end EntityGraph.Filter
