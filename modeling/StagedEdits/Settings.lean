import StagedEdits.Number.Reading
import StagedEdits.Path.FilePath

set_option autoImplicit false

/-! # Settings

The settings of the service and how the environment changes them. A variable that is not set leaves
its setting at the default; the first variable that cannot be read is the fault that is reported.

Main definitions: `Settings`, `Settings.ofEnvironment`. -/

namespace StagedEdits

/-- The settings of the service. -/
structure Settings where
  /-- How often a turn may be repaired. -/
  maxAttempts : Int
  /-- The time limit of one type check, in seconds. -/
  checkTimeout : Binary64
  /-- How often a failed type check is tried again. -/
  checkRetries : Int
  /-- The most problems that a digest shows; all if not positive. -/
  digestLimit : Int
  mark : String
  /-- The command of the type checker. -/
  command : List String
  /-- The directories that are never looked at. -/
  ignoredDirs : List String
  workspaces : FilePath
  port : Int
  /-- Whether the service runs for debugging. -/
  debug : Bool
  deriving Inhabited

namespace Settings

/-- The directories that are not looked at unless others are named. -/
def defaultIgnored : List String := ["node_modules", ".git", "dist", ".next"]

/-- The words of a setting. -/
def wordsOf (s : String) : List String := (words s.toList).map String.ofList

/-- The type checker's command unless another is set. -/
def defaultCommand : List String := wordsOf "npx tsc --noEmit --pretty false"

/-- The whole number that `env` has under `name`, or `default`. -/
def wholeFrom (env : String → Option String) (name : String) (default : Int) :
    Except NumberFault Int :=
  match env name with
  | none => .ok default
  | some s => readWhole s

/-- The binary number that `env` has under `name`, or that of `default`. -/
def realFrom (env : String → Option String) (name default : String) :
    Except NumberFault Binary64 :=
  readReal ((env name).getD default)

/-- Whether a text is the word `true` in any case. -/
def isTrue (s : String) : Bool := String.ofList (s.toList.map Char.toLower) == "true"

/-- The settings in `env`. Where the directories of the sessions are is seen from `workingDir`
    unless it is set, and an empty text does not set it. -/
def ofEnvironment (env : String → Option String) (workingDir : FilePath) :
    Except NumberFault Settings := do
  let maxAttempts ← wholeFrom env "REPAIR_MAX_ATTEMPTS" 2
  let checkTimeout ← realFrom env "TYPECHECK_TIMEOUT" "120"
  let checkRetries ← wholeFrom env "TYPECHECK_RETRIES" 1
  let digestLimit ← wholeFrom env "DIGEST_MAX_PROBLEMS" 50
  let mark := (env "DIRECTIVE_TAG_PREFIX").getD "pl"
  let command :=
    match env "TSC_COMMAND" with
    | none => defaultCommand
    | some s => wordsOf s
  let workspaces :=
    match env "WORKSPACES_DIR" with
    | none => workingDir.joinText "workspaces"
    | some "" => workingDir.joinText "workspaces"
    | some s => FilePath.ofText s
  let port ← wholeFrom env "PORT" 8000
  let debug := isTrue ((env "DEBUG").getD "false")
  return { maxAttempts, checkTimeout, checkRetries, digestLimit, mark, command,
           ignoredDirs := defaultIgnored, workspaces, port, debug }

/-- The time limit of one type check unless it is set: 120 seconds. -/
def defaultTimeout : Seconds := .real (Binary64.ofDecimal false 120 0)

end Settings

end StagedEdits
