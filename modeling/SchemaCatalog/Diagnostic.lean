import SchemaCatalog.Json.Basic

namespace SchemaCatalog

/-- How serious a diagnostic is. -/
inductive Severity where
  | warning
  | info
deriving DecidableEq, Repr, Inhabited

def Severity.name : Severity → String
  | .warning => "warning"
  | .info => "info"

/-- A remark about the schema at a path. -/
structure Diagnostic where
  severity : Severity
  code : String
  path : String
  message : String
deriving DecidableEq, Repr, Inhabited

namespace Diagnostic

def render (d : Diagnostic) : String := s!"{d.severity.name}[{d.code}]: {d.path} - {d.message}"

def encode (d : Diagnostic) : Json :=
  .object [("severity", .string d.severity.name), ("code", .string d.code),
    ("path", .string d.path), ("message", .string d.message)]

end Diagnostic

end SchemaCatalog
