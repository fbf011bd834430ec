/-! Findings and where they are kept. A rule fixes the severity of its findings, and a finding goes
to the end of the list of its severity. -/

namespace ApiLint

inductive Severity where
  | error
  | warning
deriving DecidableEq, Repr

def Severity.name : Severity → String
  | error => "error"
  | warning => "warning"

inductive Rule where
  | missingOpenapi
  | invalidOpenapiVersion
  | missingInfo
  | infoNotObject
  | missingInfoTitle
  | missingInfoVersion
  | missingPaths
  | pathsNotObject
  | emptyPaths
  | pathMissingSlash
  | missingResponses
  | noSuccessResponse
  | missingDocumentation
  | missingOperationTags
  | nullType
  | invalidType
  | schemaTooDeep
  | unusedTag
  | undeclaredTag
deriving DecidableEq, Repr

namespace Rule

def all : List Rule :=
  [missingOpenapi, invalidOpenapiVersion, missingInfo, infoNotObject, missingInfoTitle,
    missingInfoVersion, missingPaths, pathsNotObject, emptyPaths, pathMissingSlash,
    missingResponses, noSuccessResponse, missingDocumentation, missingOperationTags, nullType,
    invalidType, schemaTooDeep, unusedTag, undeclaredTag]

def name : Rule → String
  | missingOpenapi => "missing-openapi"
  | invalidOpenapiVersion => "invalid-openapi-version"
  | missingInfo => "missing-info"
  | infoNotObject => "info-not-object"
  | missingInfoTitle => "missing-info-title"
  | missingInfoVersion => "missing-info-version"
  | missingPaths => "missing-paths"
  | pathsNotObject => "paths-not-object"
  | emptyPaths => "empty-paths"
  | pathMissingSlash => "path-missing-slash"
  | missingResponses => "missing-responses"
  | noSuccessResponse => "no-success-response"
  | missingDocumentation => "missing-documentation"
  | missingOperationTags => "missing-operation-tags"
  | nullType => "null-type"
  | invalidType => "invalid-type"
  | schemaTooDeep => "schema-too-deep"
  | unusedTag => "unused-tag"
  | undeclaredTag => "undeclared-tag"

def ofName? (text : String) : Option Rule := all.find? fun rule => rule.name == text

def severity : Rule → Severity
  | emptyPaths | noSuccessResponse | missingDocumentation | missingOperationTags | schemaTooDeep
  | unusedTag | undeclaredTag => .warning
  | _ => .error

end Rule

structure Diagnostic where
  rule : Rule
  message : String
  path : String
deriving DecidableEq, Repr

def Diagnostic.severity (finding : Diagnostic) : Severity := finding.rule.severity

/-- The findings so far, in the order in which they were made. -/
structure Diagnostics where
  errors : Array Diagnostic := #[]
  warnings : Array Diagnostic := #[]
deriving DecidableEq, Repr, Inhabited

namespace Diagnostics

def push (found : Diagnostics) (rule : Rule) (path message : String) : Diagnostics :=
  let finding : Diagnostic := ⟨rule, message, path⟩
  match rule.severity with
  | .error => { found with errors := found.errors.push finding }
  | .warning => { found with warnings := found.warnings.push finding }

end Diagnostics

end ApiLint
