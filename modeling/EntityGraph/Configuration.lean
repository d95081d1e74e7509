import EntityGraph.Paging
import EntityGraph.Text.Integer
import EntityGraph.Text.LowerCase

namespace EntityGraph

inductive LogFormat where
  | json
  | pretty
  deriving DecidableEq, Repr

structure UnknownLogFormat where
  name : String
  deriving DecidableEq, Repr

def UnknownLogFormat.message (e : UnknownLogFormat) : String :=
  s!"unknown log format '{e.name}' (expected json or pretty)"

namespace LogFormat

def name : LogFormat → String
  | .json => "Json"
  | .pretty => "Pretty"

def parse (text : String) : Except UnknownLogFormat LogFormat :=
  let lower := Text.lowerCase text
  if lower = "json" then .ok .json
  else if lower = "pretty" ∨ lower = "text" then .ok .pretty
  else .error ⟨lower⟩

end LogFormat

inductive ConfigurationError where
  | invalidNumber (setting : String) (fault : Text.IntegerFault)
  | invalidLogFormat (fault : UnknownLogFormat)
  | pageSizeOutOfBounds (maxPageSize : Nat)
  deriving DecidableEq, Repr

def ConfigurationError.message : ConfigurationError → String
  | .invalidNumber setting fault => s!"Invalid {setting}: {fault.message}"
  | .invalidLogFormat fault => s!"Invalid LOG_FORMAT: {fault.message}"
  | .pageSizeOutOfBounds maxPageSize =>
    s!"DEFAULT_PAGE_SIZE must be between 1 and MAX_PAGE_SIZE ({maxPageSize})"

structure Configuration where
  host : Option String
  port : Nat
  dataPath : String
  defaultPageSize : Nat
  maxPageSize : Nat
  logFormat : LogFormat
  deriving DecidableEq, Repr

namespace Configuration

def readNumber (setting text : String) (limit : Nat) : Except ConfigurationError Nat :=
  (Text.readNat limit text).mapError (.invalidNumber setting)

def readLogFormat : Option String → Except ConfigurationError LogFormat
  | some text => (LogFormat.parse text).mapError .invalidLogFormat
  | none => .ok .json

/-- The settings from named texts. Sizes fit 64 bits and the port 16; the default size of a page
is at least one and at most the largest size. -/
def read (setting : String → Option String) : Except ConfigurationError Configuration := do
  let number := fun name default limit => readNumber name ((setting name).getD default) limit
  let defaultPageSize ← number "DEFAULT_PAGE_SIZE" "25" 0xffffffffffffffff
  let maxPageSize ← number "MAX_PAGE_SIZE" "100" 0xffffffffffffffff
  if defaultPageSize = 0 ∨ maxPageSize < defaultPageSize then
    throw (.pageSizeOutOfBounds maxPageSize)
  let port ← number "PORT" "3001" 0xffff
  let logFormat ← readLogFormat (setting "LOG_FORMAT")
  return { host := setting "HOST", port
           dataPath := (setting "DATA_PATH").getD "./data/storefront.json"
           defaultPageSize, maxPageSize, logFormat }

def pages (c : Configuration) : PageDefaults := ⟨c.defaultPageSize, c.maxPageSize⟩

def publicUrl (c : Configuration) : String :=
  "http://" ++ c.host.getD "localhost" ++ ":" ++ toString c.port

end Configuration

end EntityGraph
