import EntityGraph.Catalog.ScalarKind
import EntityGraph.Text.Quoted

namespace EntityGraph

inductive SchemaError where
  | unknownEntity (entity : String)
  | unknownAttribute (entity field : String)
  | unknownRootField (root field : String)
  | duplicateEntity (entity : String)
  | noInputFields (entity : String)
  | invalidTypeString (text : String)
  | conflictingArguments (entity field : String)
  | scalarSelection (entity field : String)
  | introspection (reason : String)
  deriving DecidableEq, Repr

def SchemaError.message : SchemaError → String
  | .unknownEntity entity => s!"unknown entity type '{entity}'"
  | .unknownAttribute entity field => s!"unknown field '{field}' on type '{entity}'"
  | .unknownRootField root field => s!"unknown root field '{field}' on type '{root}'"
  | .duplicateEntity entity => s!"entity '{entity}' is defined more than once"
  | .noInputFields entity => s!"type '{entity}' has no input fields"
  | .invalidTypeString text => s!"invalid type string '{text}'"
  | .conflictingArguments entity field =>
    s!"field '{field}' on type '{entity}' is requested with conflicting arguments"
  | .scalarSelection entity field =>
    s!"field '{field}' on type '{entity}' is a scalar and has no sub-fields"
  | .introspection reason => s!"introspection schema could not be built: {reason}"

/-- Faults in a filter. A filter that is well formed but too complex is kept apart from one that
is malformed. -/
inductive FilterError where
  | notAnObject (entity : String)
  | operatorCount (field : String) (count : Nat)
  | unknownOperator (field operator : String)
  | unknownAttribute (entity field : String)
  | invalidJoin (found : String)
  | invalidChildren
  | incompleteRange (field : String)
  | invalidOperand (field operator : String) (expected : ScalarKind)
  | unsupportedShape
  deriving DecidableEq, Repr

def FilterError.message : FilterError → String
  | .notAnObject entity => s!"filter for '{entity}' must be an object"
  | .operatorCount field count =>
    s!"constraint on '{field}' must name exactly one operator, found {count}"
  | .unknownOperator field operator => s!"unsupported operator '{operator}' on '{field}'"
  | .unknownAttribute entity field => s!"'{field}' is not a filterable attribute of '{entity}'"
  | .invalidJoin found => s!"'_join' must be ANY or ALL, found {found}"
  | .invalidChildren => "'_children' must be a list of filter objects"
  | .incompleteRange field => s!"range on '{field}' needs both 'from' and 'to'"
  | .invalidOperand field operator expected =>
    s!"operator '{operator}' on '{field}' expects {expected.described}"
  | .unsupportedShape => "filter too complex, only AND-of-OR supported"

inductive SourceError where
  | schema (error : SchemaError)
  | fixtureNotObject
  | fixtureNotList (entity : String)
  | fixtureNotRecord (entity : String)
  | unreadableFile (path : String)
  | invalidFile (path : String)
  | unusableId (entity : String)
  | duplicateId (entity id : String)
  | duplicateKey (entity key : String)
  | notIndexed (entity field : String)
  | invalidScalar (entity field found : String) (kind : ScalarKind)
  | recordExpected (entity field found : String)
  | other (message : String)
  deriving DecidableEq, Repr

def SourceError.message : SourceError → String
  | .schema error => error.message
  | .fixtureNotObject => "fixture must be an object keyed by entity name"
  | .fixtureNotList entity => s!"fixture entry for {entity} must be a list of records"
  | .fixtureNotRecord entity => s!"fixture records for {entity} must be objects"
  | .unreadableFile path => s!"Failed to read data file {path}"
  | .invalidFile path => s!"Invalid JSON in data file {path}"
  | .unusableId entity => s!"{entity} record has no usable id"
  | .duplicateId entity id => s!"duplicate id '{id}' for {entity}"
  | .duplicateKey entity key => s!"duplicate key '{key}' for {entity}"
  | .notIndexed entity field => s!"{entity} is not indexed by {field}"
  | .invalidScalar entity field found kind =>
    s!"{entity}.{field} holds {found}, which is not a valid {kind.name}"
  | .recordExpected entity field found =>
    s!"{entity}.{field} holds {found} where a record was expected"
  | .other message => message

inductive Error where
  | schema (error : SchemaError)
  | filter (error : FilterError)
  | resolutionAmbiguity (field first second : String)
  | missingArgument (field expected : String)
  | invalidArgument (field argument reason : String)
  | nullViolation (entity field : String)
  | malformedDocument
  | unknownFragment (name : String)
  | cyclicFragment (name : String)
  | unsupportedOperation (reason : String)
  | unnamedOperation (name : String)
  | dataSource (error : SourceError)
  deriving DecidableEq, Repr

namespace Error

def message : Error → String
  | .schema error => error.message
  | .filter error => error.message
  | .resolutionAmbiguity field first second =>
    s!"specify either '{first}' or '{second}' on '{field}', not both"
  | .missingArgument field expected => s!"you must specify {expected} on '{field}'"
  | .invalidArgument field argument reason =>
    s!"invalid value for argument '{argument}' on '{field}': {reason}"
  | .nullViolation entity field =>
    s!"non-nullable field '{field}' on '{entity}' resolved to null"
  | .malformedDocument => "query syntax error: <parser>"
  | .unknownFragment name => s!"query syntax error: unknown fragment '{name}'"
  | .cyclicFragment name => s!"query syntax error: fragment '{name}' spreads itself"
  | .unsupportedOperation reason => s!"unsupported operation: {reason}"
  | .unnamedOperation name => s!"Unknown operation named \"{name}\""
  | .dataSource error => s!"data source failure: {error.message}"

def code : Error → String
  | .schema _ => "SCHEMA_ERROR"
  | .filter .unsupportedShape => "UNSUPPORTED_FILTER_SHAPE"
  | .filter _ => "FILTER_FORMAT_ERROR"
  | .resolutionAmbiguity _ _ _ => "RESOLUTION_AMBIGUITY"
  | .missingArgument _ _ | .invalidArgument _ _ _ => "BAD_USER_INPUT"
  | .nullViolation _ _ => "NULL_VIOLATION"
  | .malformedDocument | .unknownFragment _ | .cyclicFragment _ => "GRAPHQL_PARSE_FAILED"
  | .unsupportedOperation _ | .unnamedOperation _ => "UNSUPPORTED_OPERATION"
  | .dataSource _ => "INTERNAL_SERVER_ERROR"

end Error

end EntityGraph
