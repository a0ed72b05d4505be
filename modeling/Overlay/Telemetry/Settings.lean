/-!
How a node logs, taken from named variables.
-/

set_option autoImplicit false

namespace Overlay.Telemetry

/-- How a node logs. -/
structure Settings where
  service : String
  /-- Filter directives, often a single level. -/
  filter : String
  console : Bool
  /-- Lines of structured data rather than of text. -/
  structured : Bool
deriving DecidableEq, Inhabited, Repr

/-- Why logging or metrics could not be set up. -/
inductive Fault
  | subscriber (reason : String)
  | metrics (reason : String)
  | filter (reason : String)
deriving DecidableEq, Inhabited, Repr

def Fault.message : Fault → String
  | .subscriber reason => "Failed to initialize tracing subscriber: " ++ reason
  | .metrics reason => "Failed to initialize Prometheus metrics: " ++ reason
  | .filter reason => "Invalid configuration: " ++ reason

/-- Variables by name. -/
abbrev Variables := List (String × String)

def Variables.get? (environment : Variables) (name : String) : Option String :=
  (environment.find? (·.1 == name)).map Prod.snd

/-- The variable that holds filter directives for any program. -/
def commonFilter : String := "RUST_LOG"

/-- Anything but a spelling of false. -/
def isNotFalse (text : String) : Bool := text.toLower != "false" && text != "0"

/-- A spelling of true. -/
def isTrue (text : String) : Bool := text.toLower == "true" || text == "1"

/-- The settings that variables give. The node's own variables win over common ones, and in a
container lines are structured unless a variable says otherwise. -/
def Settings.ofVariables (environment : Variables) : Settings :=
  let contained := (environment.get? "KUBERNETES_SERVICE_HOST").isSome
    || (environment.get? "DOCKER_CONTAINER").isSome
  { service := (environment.get? "GRID_SERVICE_NAME").getD "grid-node"
    filter := ((environment.get? "GRID_LOG_LEVEL").orElse fun _ =>
      environment.get? commonFilter).getD "info"
    console := ((environment.get? "GRID_CONSOLE_OUTPUT").map isNotFalse).getD true
    structured := ((environment.get? "GRID_JSON_LOGS").map isTrue).getD contained }

end Overlay.Telemetry
