import EntityGraph.Schema.Directory

namespace EntityGraph

structure DirectiveDefinition where
  name : String
  description : String
  locations : List String
  parameters : List InputDefinition

namespace Schema.Meta

def one (name : String) : TypeRef := .nonNull (.named name)

def many (name : String) : TypeRef := .list (one name)

def argument (name description typeName : String) : InputDefinition :=
  ⟨name, description, one typeName, none⟩

def includeDeprecated : InputDefinition :=
  ⟨"includeDeprecated", "", one "Boolean", some (.boolean false)⟩

def field (name : String) (type : TypeRef) : FieldDefinition := ⟨name, "", type, []⟩

def switched (name : String) (type : TypeRef) : FieldDefinition :=
  ⟨name, "", type, [includeDeprecated]⟩

def object (name description : String) (fields : List FieldDefinition) : Definition :=
  ⟨name, description, .object fields⟩

def naming : List FieldDefinition :=
  [field "name" (one "String"), field "description" (.named "String")]

def deprecation : List FieldDefinition :=
  [field "isDeprecated" (one "Boolean"), field "deprecationReason" (.named "String")]

def kinds : List MemberDefinition :=
  [⟨"SCALAR", "Indicates this type is a scalar."⟩,
   ⟨"OBJECT", "Indicates this type is an object. `fields` and `interfaces` are valid\nfields."⟩,
   ⟨"INTERFACE",
     "Indicates this type is an interface. `fields` and `possibleTypes` are\nvalid fields."⟩,
   ⟨"UNION", "Indicates this type is a union. `possibleTypes` is a valid field."⟩,
   ⟨"ENUM", "Indicates this type is an enum. `enumValues` is a valid field."⟩,
   ⟨"INPUT_OBJECT", "Indicates this type is an input object. `inputFields` is a valid field."⟩,
   ⟨"LIST", "Indicates this type is a list. `ofType` is a valid field."⟩,
   ⟨"NON_NULL", "Indicates this type is a non-null. `ofType` is a valid field."⟩]

def location (name place : String) : MemberDefinition :=
  ⟨name, s!"Location adjacent to {place}."⟩

def locations : List MemberDefinition :=
  [location "QUERY" "a query operation", location "MUTATION" "a mutation operation",
   location "SUBSCRIPTION" "a subscription operation", location "FIELD" "a field",
   location "FRAGMENT_DEFINITION" "a fragment definition",
   location "FRAGMENT_SPREAD" "a fragment spread",
   location "INLINE_FRAGMENT" "an inline fragment",
   location "VARIABLE_DEFINITION" "a variable definition",
   location "SCHEMA" "a schema definition", location "SCALAR" "a scalar definition",
   location "OBJECT" "an object type definition",
   location "FIELD_DEFINITION" "a field definition",
   location "ARGUMENT_DEFINITION" "an argument definition",
   location "INTERFACE" "an interface definition", location "UNION" "a union definition",
   location "ENUM" "an enum definition", location "ENUM_VALUE" "an enum value definition",
   location "INPUT_OBJECT" "an input object type definition",
   location "INPUT_FIELD_DEFINITION" "an input object field definition"]

def schemaDescription : String :=
  "A GraphQL Schema defines the capabilities of a GraphQL server. It exposes all available " ++
    "types and directives on the server, as well as the entry points for query, mutation, and " ++
    "subscription operations."

def directiveType : Definition :=
  object "__Directive"
    ("A Directive provides a way to describe alternate runtime execution and type\n" ++
      "validation behavior in a GraphQL document.\n\n" ++
      "In some cases, you need to provide options to alter GraphQL's execution\n" ++
      "behavior in ways field arguments will not suffice, such as conditionally\n" ++
      "including or skipping a field. Directives provide this by describing\n" ++
      "additional information to the executor.")
    (naming ++
      [field "locations" (.nonNull (many "__DirectiveLocation")),
       switched "args" (.nonNull (many "__InputValue")), field "isRepeatable" (one "Boolean")])

def locationType : Definition :=
  ⟨"__DirectiveLocation",
    "A Directive can be adjacent to many parts of the GraphQL language, a\n" ++
      "__DirectiveLocation describes one such possible adjacencies.",
    .enumeration locations⟩

def memberType : Definition :=
  object "__EnumValue"
    ("One possible value for a given Enum. Enum values are unique values, not a\n" ++
      "placeholder for a string or numeric value. However an Enum value is returned\n" ++
      "in a JSON response as a string.")
    (naming ++ deprecation)

def fieldType : Definition :=
  object "__Field"
    ("Object and Interface types are described by a list of Fields, each of which\n" ++
      "has a name, potentially a list of arguments, and a return type.")
    (naming ++ [switched "args" (.nonNull (many "__InputValue")), field "type" (one "__Type")] ++
      deprecation)

def inputType : Definition :=
  object "__InputValue"
    ("Arguments provided to Fields or Directives and the input fields of an\n" ++
      "InputObject are represented as Input Values which describe their type and\n" ++
      "optionally a default value.")
    (naming ++ [field "type" (one "__Type"), field "defaultValue" (.named "String")] ++
      deprecation)

def schemaType : Definition :=
  object "__Schema"
    ("A GraphQL Schema defines the capabilities of a GraphQL server. It exposes\n" ++
      "all available types and directives on the server, as well as the entry\n" ++
      "points for query, mutation, and subscription operations.")
    [⟨"description",
       "description of __Schema for newer graphiql introspection query\nrequirements",
       one "String", []⟩,
     ⟨"types", "A list of all types supported by this server.", .nonNull (many "__Type"), []⟩,
     ⟨"queryType", "The type that query operations will be rooted at.", one "__Type", []⟩,
     ⟨"mutationType",
       "If this server supports mutation, the type that mutation operations will\nbe rooted at.",
       .named "__Type", []⟩,
     ⟨"subscriptionType",
       "If this server support subscription, the type that subscription\n" ++
         "operations will be rooted at.",
       .named "__Type", []⟩,
     ⟨"directives", "A list of all directives supported by this server.",
       .nonNull (many "__Directive"), []⟩]

def typeType : Definition :=
  object "__Type"
    ("The fundamental unit of any GraphQL Schema is the type. There are many kinds\n" ++
      "of types in GraphQL as represented by the `__TypeKind` enum.\n\n" ++
      "Depending on the kind of a type, certain fields describe information about\n" ++
      "that type. Scalar types provide no information beyond a name and\n" ++
      "description, while Enum types provide their values. Object and Interface\n" ++
      "types provide the fields they describe. Abstract types, Union and Interface,\n" ++
      "provide the Object types possible at runtime. List and NonNull types compose\n" ++
      "other types.")
    [field "kind" (one "__TypeKind"), field "name" (.named "String"),
     field "description" (.named "String"), switched "fields" (many "__Field"),
     field "interfaces" (many "__Type"), field "possibleTypes" (many "__Type"),
     switched "enumValues" (many "__EnumValue"), switched "inputFields" (many "__InputValue"),
     field "ofType" (.named "__Type"), field "specifiedByURL" (.named "String"),
     field "isOneOf" (.named "Boolean")]

def kindType : Definition :=
  ⟨"__TypeKind", "An enum describing what kind of type a given `__Type` is.",
    .enumeration kinds⟩

def definitions : List Definition :=
  [directiveType, locationType, memberType, fieldType, inputType, schemaType, typeType, kindType]

def selectionLocations : List String := ["FIELD", "FRAGMENT_SPREAD", "INLINE_FRAGMENT"]

def directives : List DirectiveDefinition :=
  [⟨"deprecated", "Marks an element of a GraphQL schema as no longer supported.",
     ["FIELD_DEFINITION", "ARGUMENT_DEFINITION", "INPUT_FIELD_DEFINITION", "ENUM_VALUE"],
     [⟨"reason", "A reason for why it is deprecated, formatted using Markdown syntax",
       .named "String", some (.string "No longer supported")⟩]⟩,
   ⟨"include",
     "Directs the executor to include this field or fragment only when the `if` argument is true.",
     selectionLocations, [argument "if" "Included when true." "Boolean"]⟩,
   ⟨"oneOf",
     "Indicates that an Input Object is a OneOf Input Object (and thus requires exactly one of " ++
       "its field be provided)",
     ["INPUT_OBJECT"], []⟩,
   ⟨"skip",
     "Directs the executor to skip this field or fragment when the `if` argument is true.",
     selectionLocations, [argument "if" "Skipped when true." "Boolean"]⟩,
   ⟨"specifiedBy",
     "Provides a scalar specification URL for specifying the behavior of custom scalar types.",
     ["SCALAR"], [argument "url" "URL that specifies the behavior of this scalar." "String"]⟩]

end Schema.Meta

end EntityGraph
