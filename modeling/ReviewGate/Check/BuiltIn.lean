import ReviewGate.Check.Basic
import ReviewGate.Text.Case
import ReviewGate.Text.Search

/-!
# `ReviewGate.Check.BuiltIn` — the checks of each specialist

## Contents
- guards: files of certain kinds, files that are no tests, files on the path of a request.
- `securityChecks` … `reliabilityChecks`: the checks of one specialist.
- `Specialist.checks`: all of them by specialist.
-/

namespace ReviewGate

/-! ## Guards -/

/-- Every file. -/
def anyFile (_ : Routed) : Bool := true

/-- Files of the given kinds. -/
def ofKinds (kinds : List FileKind) (r : Routed) : Bool := kinds.contains r.kind

/-- Files of other kinds. -/
def notOfKinds (kinds : List FileKind) (r : Routed) : Bool := !kinds.contains r.kind

/-- Files that are no tests. -/
def notTest (r : Routed) : Bool := !isTestPath r.file.path

/-- Files, other than tests, that handle requests. -/
def onRequestPath (r : Routed) : Bool :=
  let low := Text.toLower r.file.path
  notTest r && ["/biz/", "/handler/", "/service/"].any (Text.contains low)

/-! ## Checks -/

/-- The texts in which a regular expression occurs. -/
def matching (pattern : String) : Pattern := .ofRegex pattern false

/-- No text. -/
def never : Pattern := fun _ => false

/-- Why secrets do not belong into source text. -/
def secretExplanation : String :=
  "Credentials belong in runtime configuration or a secret manager, never in committed source."

/-- Where secrets belong. -/
def secretSuggestion : String :=
  "Load the value from configuration or a secret manager at runtime."

/-- The shape of an assignment of a secret, in either case. -/
def secretAssignment : Pattern :=
  .ofRegex
    "(?:api[_-]?key|secret|token|password)\\s*[:=]\\s*[\"'][^\"']\x7b8,\x7d[\"']" true

/-- A check for secrets in added lines. -/
def secretCheck (ruleId title : String) (pattern : Pattern) : Check where
  ruleId
  severity := .critical
  title
  explanation := secretExplanation
  suggestion := some secretSuggestion
  trigger := .addedLine pattern
  guard := anyFile

/-- Secrets, keys and edits of generated files. -/
def securityChecks : List Check :=
  [{ ruleId := "security-generated-file-edit"
     severity := .critical
     title := "Generated file modified"
     explanation := "This file looks generated. Change its source definition and regenerate it " ++
       "instead of editing by hand."
     suggestion := none
     trigger := .file
     guard := ofKinds [.generated] },
   secretCheck "security-hardcoded-secret-assignment" "Possible hardcoded secret in code"
     secretAssignment,
   secretCheck "security-long-hex-literal" "Long hex literal detected"
     (matching "\\b[a-fA-F0-9]\x7b32,\x7d\\b"),
   secretCheck "security-aws-access-key" "AWS-style access key detected"
     (matching "\\bAKIA[0-9A-Z]\x7b16\x7d\\b"),
   secretCheck "security-private-key-material" "Private key material detected"
     (matching "-----BEGIN\\s+(?:RSA|EC|OPENSSH|PRIVATE)\\s+KEY-----")]

/-- Old or missing logging. -/
def loggingChecks : List Check :=
  [{ ruleId := "logging-legacy-v1"
     severity := .warning
     title := "Legacy logging API used in new code"
     explanation := "New code should use the repository's structured logging API, not the legacy " ++
       "one."
     suggestion := some "Switch this call to the structured logger."
     trigger := .addedLine (matching "\\blog\\.V1\\.")
     guard := notTest },
   { ruleId := "logging-console-usage"
     severity := .warning
     title := "Console logging in application code"
     explanation := "Application code should log through the project logger so output carries " ++
       "consistent context."
     suggestion := some "Replace the console call with the project logging abstraction."
     trigger := .addedLine (matching "\\bconsole\\.(log|error|warn)\\(")
     guard := notTest },
   { ruleId := "logging-catch-no-log"
     severity := .warning
     title := "Catch block appears to miss error logging/propagation"
     explanation := "A new catch block neither logs nor rethrows, so failures in it go unnoticed."
     suggestion := some "Log the error with context, rethrow it, or both."
     trigger := .addedText (matching "\\bcatch\\s*\\(")
       (matching "\\blog(?:ger)?\\.|\\bthrow\\b|\\.Error\\(|\\.error\\(")
     guard := notTest }]

/-- Layers that import what they must not know. -/
def architectureChecks : List Check :=
  [{ ruleId := "arch-handler-direct-data-access"
     severity := .warning
     title := "Handler appears to depend directly on DAL/DB concerns"
     explanation := "Handlers stay thin: data access goes through the service layer."
     suggestion := some ("Move the DAL/DB work into a service and call the service from the " ++
       "handler.")
     trigger := .importLine (matching "/dal\\b|/repository\\b|config\\.MysqlCli|gorm\\.")
     guard := ofKinds [.handler] },
   { ruleId := "arch-model-upward-dependency"
     severity := .warning
     title := "Model layer imports service/handler layer"
     explanation := "Models must not depend on the application layers built on top of them."
     suggestion := none
     trigger := .importLine (matching "/service\\b|/handler\\b")
     guard := ofKinds [.model] }]

/-- Endpoints that do not validate their requests. -/
def contractChecks : List Check :=
  [{ ruleId := "api-missing-request-validation"
     severity := .warning
     title := "Request validation pattern not detected"
     explanation := "Endpoint handlers should validate incoming payloads with the project's " ++
       "standard validation flow."
     suggestion := some "Bind and validate the request before running business logic."
     trigger := .content
       (matching ("@router\\s+|\\.GET\\(|\\.POST\\(|\\.PUT\\(|\\.DELETE\\(|" ++
         "func\\s+[A-Z][A-Za-z0-9_]*\\s*\\(.*RequestContext"))
       (matching ("BindAndValidate\\(|schema\\.parse\\(|z\\.object\\(|Joi\\.|validator\\.|" ++
         "pydantic|validate\\("))
     guard := ofKinds [.handler] }]

/-- Clients of databases and caches outside their layer. -/
def dataAccessChecks : List Check :=
  [{ ruleId := "data-access-outside-dal"
     severity := .warning
     title := "Direct data-access usage outside DAL/config layer"
     explanation := "Database and cache clients belong behind the DAL/repository boundary."
     suggestion := some "Move this access into the DAL and call it from the service or handler."
     trigger := .addedLine (matching ("config\\.MysqlCli|gorm\\.|sql\\.Open\\(|db\\.Query\\(|" ++
       "db\\.Exec\\(|RedisCli|redis\\.NewClient"))
     guard := notOfKinds [.dal, .config] }]

/-- Panics, lost contexts and placeholders. -/
def reliabilityChecks : List Check :=
  [{ ruleId := "reliability-panic-in-runtime"
     severity := .warning
     title := "panic introduced in runtime path"
     explanation := "Runtime paths should return errors instead of panicking."
     suggestion := some "Return an error and let the caller handle it."
     trigger := .addedLine (matching "\\bpanic\\(")
     guard := notTest },
   { ruleId := "reliability-background-context"
     severity := .info
     title := "Background/TODO context used in request/business path"
     explanation := "Request and business paths should pass the caller's context along for " ++
       "cancellation and deadlines."
     suggestion := some "Accept the caller's context instead of creating a new one."
     trigger := .addedLine (matching "context\\.Background\\(|context\\.TODO\\(")
     guard := onRequestPath },
   { ruleId := "reliability-todo-runtime"
     severity := .info
     title := "Runtime code contains TODO/FIXME placeholder"
     explanation := "Placeholders left in production paths ship incomplete behaviour."
     suggestion := none
     trigger := .addedLine (matching "panic\\(\"implement me\"\\)|TODO|FIXME")
     guard := notTest }]

/-- The checks of a specialist. -/
def Specialist.checks : Specialist → List Check
  | .security => securityChecks
  | .loggingError => loggingChecks
  | .architectureBoundary => architectureChecks
  | .apiContract => contractChecks
  | .dataAccess => dataAccessChecks
  | .reliability => reliabilityChecks

end ReviewGate
