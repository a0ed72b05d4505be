import Overlay.Network.Schedule
import Overlay.Node.Runtime
import Overlay.Telemetry.Filter
import Overlay.Telemetry.Line

/-!
The command that runs one node: it sets up logging, reads the settings, starts the node, tells its
name, and runs it until it is interrupted.
-/

set_option autoImplicit false

namespace Overlay.Command

/-- What one run of the command leaves behind. -/
structure Outcome where
  exitCode : UInt8
  /-- The name of the node, if it was started. -/
  name : Option String
  /-- What is said about a failure. -/
  complaint : String
  /-- The events that are shown. -/
  log : List Event

/-- What is known when the command is run. -/
structure Setting where
  host : Host
  environment : Telemetry.Variables
  /-- The name of the settings file, if there is one, with its text. -/
  file : Option (String × Except SettingsFault String)
  id : PeerId
  clock : Timestamp
  dice : Dice

/-- A text with every line after the first one moved in. -/
def moveIn (margin text : String) : String := ("\n" ++ margin).intercalate (text.splitOn "\n")

/-- What is said about a failure: what was tried, and the causes, the nearest one first. Several
causes are numbered, and the lines of each cause stand below each other. -/
def complaint (tried : String) (causes : List String) : String :=
  let lines := match causes with
    | [cause] => ["    " ++ moveIn "    " cause]
    | several => several.zipIdx.map fun item =>
      "    " ++ toString item.2 ++ ": " ++ moveIn "       " item.1
  "Error: " ++ tried ++ "\n\nCaused by:\n" ++ "\n".intercalate lines ++ "\n"

/-- The causes of a fault in the settings. -/
def causes (fault : SettingsFault) : List String :=
  match fault with
  | .unreadable reason => [fault.message, reason]
  | _ => [fault.message]

/-- The plan of the node, or what is wrong with the settings file. -/
def plan (setting : Setting) : Except String NodePlan :=
  match setting.file with
  | none => .ok .standard
  | some (name, text) =>
    match text.bind NodePlan.parse with
    | .ok plan => .ok plan
    | .error fault => .error (complaint ("Failed to load config from " ++ name) (causes fault))

/-- The events of a node that is interrupted as soon as it runs. -/
def events (setting : Setting) (plan : NodePlan) (bound : SocketAddress) : List Event :=
  let address := plan.advertised.getD bound
  let node := plan.node setting.id address setting.clock setting.dice
  let life : Program Node Unit := do
    let workers ← Node.begin_ plan bound 0
    Program.report (.nodeRunning setting.id address)
    Node.finish 0 workers
  ((Network.empty.shelter node).visit 0 life).2.events.reverse

/-- Runs the node: its events, or why it could not be started. -/
def launch (setting : Setting) : Except String (List Event) := do
  let plan ← plan setting
  match setting.host.listen plan.listen with
  | some bound => pure (events setting plan bound)
  | none => throw (complaint ("Failed to bind " ++ plan.listen.text) [Host.refusal])

/-- Runs the command. -/
def run (setting : Setting) : Outcome :=
  let telemetry := Telemetry.Settings.ofVariables setting.environment
  match Telemetry.Filter.ofVariables setting.environment telemetry with
  | .error fault =>
    ⟨1, none, complaint "Failed to initialize telemetry" [fault.message], []⟩
  | .ok filter =>
    let log := fun (events : List Event) =>
      let first := Event.loggingStarted telemetry.service telemetry.filter telemetry.structured
      let last := Event.loggingStopped telemetry.service
      (first :: events ++ [last]).filter fun event =>
        telemetry.console
          && filter.shows event.level.verbosity event.target (event.fields.map (·.1))
    match launch setting with
    | .ok events => ⟨0, some setting.id.text, "", log events⟩
    | .error complaint => ⟨1, none, complaint, log []⟩

end Overlay.Command
