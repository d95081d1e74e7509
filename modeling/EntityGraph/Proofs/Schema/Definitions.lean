import EntityGraph.Proofs.Json
import EntityGraph.Proofs.Schema.Document
import EntityGraph.Schema.Directory
import EntityGraph.Storefront.Roots

namespace EntityGraph

/-- An argument in a text and the same one as data. A default stands in the text as its value's
text. -/
structure Parameter.Shows (p : Parameter) (i : InputDefinition) : Prop where
  name : p.name = i.name
  type : p.type.text = i.type.text
  default : p.default = i.default.map Value.text

namespace Schema

structure Line.ShowsField (l : Line) (f : FieldDefinition) : Prop where
  name : l.name = f.name
  description : l.description = f.description
  type : l.type = some f.type.text
  parameters : ∃ ps, parametersText ps = l.parameters ∧ List.Forall₂ Parameter.Shows ps f.parameters

/-- A line of an input or filter type and the same field as data, without arguments and
default. -/
structure Line.ShowsInput (l : Line) (i : InputDefinition) : Prop where
  name : l.name = i.name
  description : l.description = i.description
  type : l.type = some i.type.text
  parameters : l.parameters = ""
  default : i.default = none

structure Line.ShowsMember (l : Line) (m : MemberDefinition) : Prop where
  name : l.name = m.name
  description : l.description = m.description
  type : l.type = none
  parameters : l.parameters = ""

/-- The lines under a keyword and what the same type consists of as data, in the same order. -/
inductive ShowsShape : String → List Line → Shape → Prop
  | object {lines : List Line} {fields : List FieldDefinition} :
      List.Forall₂ Line.ShowsField lines fields → ShowsShape "type" lines (.object fields)
  | input {lines : List Line} {fields : List InputDefinition} :
      List.Forall₂ Line.ShowsInput lines fields → ShowsShape "input" lines (.input fields)
  | enumeration {lines : List Line} {members : List MemberDefinition} :
      List.Forall₂ Line.ShowsMember lines members →
      ShowsShape "enum" lines (.enumeration members)

structure Block.Shows (b : Block) (d : Definition) : Prop where
  name : b.name = d.name
  description : b.description = d.description
  shape : ShowsShape b.keyword b.lines d.shape

variable {c : Catalog} {roots : RootFields} {pages : PageDefaults}

def HasNumberDefault (p : Parameter) : Prop :=
  ∀ text, p.default = some text → ∃ n : Nat, n < 0x10000000000000000 ∧ toString n = text

/-- A number in decimal is read back as a default, up to the size of a literal. -/
theorem defaultValue?_toString {n : Nat} (h : n < 0x10000000000000000) :
    defaultValue? (toString n) = some (.number (.integer n)) := by
  rw [defaultValue?, Json.read_toString h]
  rfl

/-- The printed parameter is the one introspection tells. -/
theorem shows_parameter {p : Parameter} (hp : HasNumberDefault p) :
    p.Shows (Parameter.definition p) := by
  refine ⟨rfl, (TypeString.text_toRef p.type).symm, ?_⟩
  cases hd : p.default with
  | none => simp [Parameter.definition, hd]
  | some text =>
    obtain ⟨n, hn, rfl⟩ := hp text hd
    simp only [Parameter.definition, hd, Option.bind_some, defaultValue?_toString hn,
      Option.map_some]
    rfl

theorem shows_parameters {ps : List Parameter} (hps : ∀ p ∈ ps, HasNumberDefault p) :
    List.Forall₂ Parameter.Shows ps (ps.map Parameter.definition) :=
  List.forall₂_map_right_iff.mpr (List.forall₂_same.mpr fun p hp => shows_parameter (hps p hp))

theorem hasNumberDefault_parameter (name : String) (type : TypeString) :
    HasNumberDefault (parameter name type) := nofun

theorem hasNumberDefault_intParameter {default : Option Nat} (name : String)
    (h : ∀ n, default = some n → n < 0x10000000000000000) :
    HasNumberDefault (intParameter name default) := by
  intro text htext
  obtain ⟨n, hn, rfl⟩ := Option.map_eq_some_iff.mp htext
  exact ⟨n, h n hn, rfl⟩

theorem hasNumberDefault_outputParameters (a : Attribute) (filterName : String) :
    ∀ p ∈ outputParameters a filterName, HasNumberDefault p := by
  have hstart : HasNumberDefault (intParameter "start" (some 0)) :=
    hasNumberDefault_intParameter _ fun n hn => by obtain rfl := Option.some.inj hn; decide
  have hlimit : HasNumberDefault (intParameter "limit" none) :=
    hasNumberDefault_intParameter _ nofun
  rw [outputParameters, List.forall_mem_append]
  constructor
  · split
    · exact List.forall_mem_cons.mpr ⟨hstart, List.forall_mem_singleton.mpr hlimit⟩
    · exact List.forall_mem_nil _
  · split
    · exact List.forall_mem_singleton.mpr (hasNumberDefault_parameter _ _)
    · exact List.forall_mem_nil _

theorem hasNumberDefault_rootParameters (hpages : pages.defaultLimit < 0x10000000000000000)
    (f : RootField) : ∀ p ∈ f.parameters pages, HasNumberDefault p := by
  have hplain := hasNumberDefault_parameter
  rw [RootField.parameters]
  split
  · exact List.forall_mem_cons.mpr ⟨hplain _ _, List.forall_mem_singleton.mpr (hplain _ _)⟩
  · exact List.forall_mem_singleton.mpr (hplain _ _)
  · refine List.forall_mem_cons.mpr ⟨hplain _ _, List.forall_mem_cons.mpr ⟨?_, ?_⟩⟩
    · exact hasNumberDefault_intParameter _ fun n hn => by obtain rfl := Option.some.inj hn; decide
    · refine List.forall_mem_singleton.mpr (hasNumberDefault_intParameter _ fun n hn => ?_)
      exact Option.some.inj hn ▸ hpages
  · exact List.forall_mem_singleton.mpr (hplain _ _)

def definitionOf (c : Catalog) : TypeKind → Entity → Tracked SchemaError Definition
  | .object => objectDefinition c
  | .input => inputTypeDefinition c
  | .filter => filterDefinition c

/-- A line and an input field that have a name and the text of a type in common. -/
theorem shows_plainLine (name : String) (t : TypeString) :
    (plainLine name t.text).ShowsInput (inputDefinition name t) :=
  ⟨rfl, rfl, congrArg some (TypeString.text_toRef t).symm, rfl, rfl⟩

def definitionFrom : (k : TypeKind) → Entity → List k.Field → Definition
  | .object, e, fields =>
    { name := e.name, description := e.description
      shape := .object <| fields.map fun f =>
        ⟨f.name, f.definition.description, f.type.toRef,
          f.parameters.map Parameter.definition⟩ }
  | .input, e, fields =>
    { name := e.inputName, description := ""
      shape := .input <| fields.map fun f => inputDefinition f.name f.type }
  | .filter, e, fields =>
    { name := e.filterName, description := ""
      shape := .input <| inputDefinition joinKey (.named Join.typeName) ::
        inputDefinition childrenKey (.listOf e.filterName) ::
        fields.map fun f => inputDefinition f.name (.named f.target.typeName) }

/-- The definition is made from the same fields as the block. -/
theorem definitionOf_eq_ok {k : TypeKind} {e : Entity} {fields : List k.Field}
    (h : (fieldsOf c k e).outcome = .ok fields) :
    (definitionOf c k e).outcome = .ok (definitionFrom k e fields) := by
  have heq : definitionOf c k e = do
      let fields ← fieldsOf c k e
      return definitionFrom k e fields := by
    cases k <;> rfl
  rw [heq, Tracked.outcome_bind, Outcome.bind_of_eq_ok h]
  rfl

theorem hasNumberDefault_fields {e : Entity} {fields : List OutputField}
    (h : (objectFields c e).outcome = .ok fields) :
    ∀ f ∈ fields, ∀ p ∈ f.parameters, HasNumberDefault p := by
  intro f hf
  obtain ⟨a, _, hfield⟩ := Outcome.exists_mem_left (objectFields_eq_ok.mp h) hf
  cases hk : a.scalarKind? with
  | some kind =>
    obtain rfl := Except.ok.inj ((outputField_scalar hk).symm.trans hfield)
    exact hasNumberDefault_outputParameters a _
  | none =>
    obtain ⟨t, _, rfl⟩ := Outcome.map_eq_ok.mp ((outputField_entity hk).symm.trans hfield)
    exact hasNumberDefault_outputParameters a _

/-- The definition of a type of an entity is the same in the text and as data. -/
theorem shows_definitionFrom {k : TypeKind} {e : Entity} {fields : List k.Field}
    (h : (fieldsOf c k e).outcome = .ok fields) :
    (k.block e fields).Shows (definitionFrom k e fields) := by
  cases k with
  | object =>
    refine ⟨rfl, rfl, .object (Outcome.forall₂_map_map fun f hf => ?_)⟩
    exact ⟨rfl, rfl, congrArg some (TypeString.text_toRef f.type).symm, f.parameters, rfl,
      shows_parameters (hasNumberDefault_fields h f hf)⟩
  | input =>
    exact ⟨rfl, rfl, .input (Outcome.forall₂_map_map fun f _ => shows_plainLine f.name f.type)⟩
  | filter =>
    have hjoin := shows_plainLine joinKey (.named Join.typeName)
    have hchildren := shows_plainLine childrenKey (.listOf e.filterName)
    rw [TypeString.text_named] at hjoin
    rw [TypeString.text_listOf] at hchildren
    refine ⟨rfl, rfl, .input (.cons hjoin (.cons hchildren
      (Outcome.forall₂_map_map fun f _ => ?_)))⟩
    have hfield := shows_plainLine f.name (.named f.target.typeName)
    rw [TypeString.text_named] at hfield
    exact hfield

theorem isName_operand (op : Operator) (kind : ScalarKind) :
    TypeString.IsName (op.operand kind).name := by
  have hname : ∀ kind : ScalarKind, TypeString.IsName kind.name := by
    intro kind
    cases kind <;> decide
  cases op with
  | null | notNull => exact hname .boolean
  | like | findInSet => exact hname .string
  | _ => exact hname kind

/-- The operand of an operator has in both schemas the type that the text of the type is read
as. -/
theorem operatorDefinition_eq (kind : ScalarKind) (op : Operator) :
    operatorDefinition kind op = .ok (inputDefinition op.key (op.operand kind)) := by
  have hplain : (op.operand kind).IsPlain := by
    cases op <;> simp [TypeString.IsPlain, Operator.operand, TypeString.named, TypeString.listOf]
  rw [operatorDefinition, ← Operator.text_operand,
    TypeString.parse_text (isName_operand op kind) hplain]
  rfl

def scalarDefinitionFrom (kind : ScalarKind) : Definition :=
  { name := kind.filterName, description := ""
    shape := .input <| (Operator.vocabulary kind).map fun op =>
      inputDefinition op.key (op.operand kind) }

theorem scalarFilterDefinition_eq (kind : ScalarKind) :
    scalarFilterDefinition kind = .ok (scalarDefinitionFrom kind) := by
  have hfields : (Operator.vocabulary kind).mapM (operatorDefinition kind) =
      .ok ((Operator.vocabulary kind).map fun op => inputDefinition op.key (op.operand kind)) :=
    Outcome.mapM_eq_ok.mpr (List.forall₂_map_right_iff.mpr
      (List.forall₂_same.mpr fun op _ => operatorDefinition_eq kind op))
  rw [scalarFilterDefinition, Outcome.bind_of_eq_ok hfields]
  rfl

theorem shows_scalarDefinitionFrom (kind : ScalarKind) :
    (scalarBlock kind).Shows (scalarDefinitionFrom kind) := by
  refine ⟨rfl, rfl, .input (Outcome.forall₂_map_map fun op _ => ?_)⟩
  rw [← Operator.text_operand]
  exact shows_plainLine op.key (op.operand kind)

theorem shows_join : joinBlock.Shows joinDefinition :=
  ⟨rfl, rfl, .enumeration (.cons ⟨rfl, rfl, rfl, rfl⟩ (.cons ⟨rfl, rfl, rfl, rfl⟩ .nil))⟩

/-- The blocks of the roots and their definitions. -/
theorem shows_roots (roots : RootFields) (hpages : pages.defaultLimit < 0x10000000000000000) :
    List.Forall₂ Block.Shows (rootBlocks roots pages)
      ([RootKind.query, RootKind.mutation].filterMap (rootDefinition? roots pages)) := by
  have hroot : ∀ {kind kind' : RootKind}, kind = kind' →
      Option.Rel Block.Shows (rootBlock? roots pages kind)
        (rootDefinition? roots pages kind') := by
    rintro kind _ rfl
    rw [rootBlock?, rootDefinition?]
    cases roots.fields kind with
    | nil => exact .none
    | cons first fields =>
      refine .some ⟨rfl, rfl, .object (Outcome.forall₂_map_map fun f _ => ?_)⟩
      exact ⟨rfl, rfl, congrArg some (TypeString.text_toRef f.returnType).symm,
        f.parameters pages, rfl, shows_parameters (hasNumberDefault_rootParameters hpages f)⟩
  exact List.rel_filterMap (R := Eq) (fun _ _ hkind => hroot hkind)
    (List.forall₂_same.mpr fun _ _ => rfl)

/-- Where the types that a schema reaches can be written down, so they can be given as data. -/
theorem definitions_of_sections {types : Reachable} {sections : TypeKind → List Block}
    (hpages : pages.defaultLimit < 0x10000000000000000)
    (h : (reachable c roots).outcome = .ok types) (hs : Sections c types sections) :
    ∃ ds, (definitions c roots pages).outcome = .ok ds ∧
      List.Forall₂ Block.Shows (document roots pages sections) ds := by
  -- Both sides go through the same entities of a kind, in the same order.
  have hkind : ∀ k, ∃ ds,
      (types.of k).mapM (fun e => (definitionOf c k e).outcome) = .ok ds ∧
        List.Forall₂ Block.Shows (sections k) ds := by
    intro k
    obtain ⟨ds, hds, hshows⟩ := Outcome.exists_forall₂ (hs k) (T := Block.Shows)
      (S := fun e d => (definitionOf c k e).outcome = .ok d) fun e b hb => by
        obtain ⟨fields, hfields, rfl⟩ := blockOf_eq_ok.mp hb
        exact ⟨_, definitionOf_eq_ok hfields, shows_definitionFrom hfields⟩
    exact ⟨ds, Outcome.mapM_eq_ok.mpr hds, hshows⟩
  obtain ⟨objects, hobjects, hshowsObjects⟩ :
    ∃ ds, types.objects.mapM (fun e => (objectDefinition c e).outcome) = .ok ds ∧
      List.Forall₂ Block.Shows (sections .object) ds := hkind .object
  obtain ⟨inputs, hinputs, hshowsInputs⟩ :
    ∃ ds, types.inputs.mapM (fun e => (inputTypeDefinition c e).outcome) = .ok ds ∧
      List.Forall₂ Block.Shows (sections .input) ds := hkind .input
  obtain ⟨filters, hfilters, hshowsFilters⟩ :
    ∃ ds, types.filters.mapM (fun e => (filterDefinition c e).outcome) = .ok ds ∧
      List.Forall₂ Block.Shows (sections .filter) ds := hkind .filter
  have hscalars : ScalarKind.all.mapM scalarFilterDefinition =
      .ok (ScalarKind.all.map scalarDefinitionFrom) :=
    Outcome.mapM_eq_ok.mpr (List.forall₂_map_right_iff.mpr
      (List.forall₂_same.mpr fun kind _ => scalarFilterDefinition_eq kind))
  refine ⟨[RootKind.query, RootKind.mutation].filterMap (rootDefinition? roots pages) ++ objects ++
    inputs ++ filters ++ ScalarKind.all.map scalarDefinitionFrom ++ [joinDefinition], ?_, ?_⟩
  · simp only [definitions, Tracked.outcome_bind, Tracked.outcome_mapM, Tracked.outcome_lift]
    rw [Outcome.bind_of_eq_ok h, Outcome.bind_of_eq_ok hobjects, Outcome.bind_of_eq_ok hinputs,
      Outcome.bind_of_eq_ok hfilters, Outcome.bind_of_eq_ok hscalars]
    rfl
  · exact List.rel_append (List.rel_append (List.rel_append (List.rel_append (List.rel_append
      (shows_roots roots hpages) hshowsObjects) hshowsInputs) hshowsFilters)
      (Outcome.forall₂_map_map fun kind _ => shows_scalarDefinitionFrom kind))
      (.cons shows_join .nil)

/-- A schema that can be written down has the same definitions as data, and one that can not fails
as data too, with the same error. -/
theorem definitions_of_print (c : Catalog) (roots : RootFields) (pages : PageDefaults)
    (hpages : pages.defaultLimit < 0x10000000000000000) :
    (∀ text, (print c roots pages).outcome = .ok text →
      ∃ bs ds, (blocks c roots pages).outcome = .ok bs ∧
        text = "\n".intercalate (bs.map Block.text) ∧
        (definitions c roots pages).outcome = .ok ds ∧ List.Forall₂ Block.Shows bs ds) ∧
    ∀ err, (print c roots pages).outcome = .error err →
      (definitions c roots pages).outcome = .error err ∧
        (directory c roots pages).outcome = .error err := by
  cases h : (reachable c roots).outcome with
  | ok types =>
    obtain ⟨sections, hs⟩ := sections_isOk h
    have hblocks : (blocks c roots pages).outcome = .ok (document roots pages sections) :=
      blocks_of_sections h hs
    have hprint : (print c roots pages).outcome =
        .ok ("\n".intercalate ((document roots pages sections).map Block.text)) := by
      rw [print, Tracked.outcome_bind, Outcome.bind_of_eq_ok hblocks]
      rfl
    obtain ⟨ds, hds, hshows⟩ := definitions_of_sections hpages h hs
    refine ⟨fun text htext => ?_, fun err herr => ?_⟩
    · exact ⟨_, ds, hblocks, Except.ok.inj (htext.symm.trans hprint), hds, hshows⟩
    · cases herr.symm.trans hprint
  | error err =>
    -- Both begin with the types that the schema reaches.
    have hprint : (print c roots pages).outcome = .error err := by
      simp only [print, blocks, Tracked.outcome_bind, h]
      rfl
    have hdefinitions : (definitions c roots pages).outcome = .error err := by
      simp only [definitions, Tracked.outcome_bind, h]
      rfl
    refine ⟨fun text htext => ?_, fun err' herr => ?_⟩
    · cases htext.symm.trans hprint
    · obtain rfl := Except.error.inj (hprint.symm.trans herr)
      refine ⟨hdefinitions, ?_⟩
      rw [directory, Tracked.outcome_bind, hdefinitions]
      rfl

/-- The schema of a storefront can be written down, and its definitions are the same as data. -/
theorem definitions_of_print_storefront : PageDefaults.standard.defaultLimit < 0x10000000000000000 ∧
    ∃ bs ds, (blocks Storefront.catalog Storefront.roots .standard).outcome = .ok bs ∧
      (definitions Storefront.catalog Storefront.roots .standard).outcome = .ok ds ∧
      List.Forall₂ Block.Shows bs ds := by
  have hpages : PageDefaults.standard.defaultLimit < 0x10000000000000000 := by decide
  have hset : ∀ e ∈ Storefront.catalog.entities, ∃ a ∈ e.attributes, isSettable a = true := by
    decide
  obtain ⟨coverage⟩ : Nonempty (Coverage Storefront.catalog Storefront.roots) :=
    coverage_of_closed Catalog.closed_storefront hset (by decide)
  obtain ⟨text, htext⟩ := print_isOk coverage .standard
  obtain ⟨bs, ds, hbs, _, hds, hshows⟩ :=
    (definitions_of_print Storefront.catalog Storefront.roots .standard hpages).1 text htext
  exact ⟨hpages, bs, ds, hbs, hds, hshows⟩

end Schema

end EntityGraph
