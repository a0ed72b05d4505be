import Overlay.Command

/-!
The command line: the settings file is the only argument, and logging is set up from variables of
the environment. The node runs on a host that lets nobody in or out, so it is stopped once it has
started.
-/

set_option autoImplicit false

namespace Overlay.Command

/-- The variables that the command looks at. -/
def variableNames : List String :=
  ["GRID_SERVICE_NAME", "GRID_LOG_LEVEL", "GRID_CONSOLE_OUTPUT", "GRID_JSON_LOGS",
    Telemetry.commonFilter, "KUBERNETES_SERVICE_HOST", "DOCKER_CONTAINER"]

/-- The text of the settings file, or what is wrong with it. -/
def readSettings (name : String) : IO (Except SettingsFault String) := do
  try
    let bytes ← IO.FS.readBinFile name
    pure (Settings.fileText bytes.toList)
  catch
    | .noFileOrDirectory .. => pure (.error Settings.missingFile)
    | other => pure (.error (.unreadable (toString other)))

/-- The number that bytes make, the first one highest. -/
def ofBytes (bytes : ByteArray) : Nat := Wire.ofHighestFirst bytes.toList

/-- Gathers what is known when the command is run. -/
def gather (arguments : List String) : IO Setting := do
  let file ← arguments.head?.mapM fun name => do pure (name, ← readSettings name)
  let environment ← variableNames.filterMapM fun name => do
    pure ((← IO.getEnv name).map fun value => (name, value))
  let name ← IO.getRandomBytes 16
  let seed ← IO.getRandomBytes 8
  pure {
    host := ⟨.ofNat (49152 + ofBytes seed % 16384)⟩
    environment
    file
    id := .ofNat (ofBytes name)
    clock := ⟨.ofNat (← IO.monoMsNow)⟩
    dice := .congruential (.ofNat (ofBytes seed)) }

/-- Shows what a run leaves behind. -/
def showOutcome (isStructured : Bool) (outcome : Outcome) : IO UInt32 := do
  let line := if isStructured then Telemetry.dataLine else Telemetry.textLine
  outcome.name.forM IO.println
  outcome.log.forM fun event => IO.println (line event)
  IO.eprint outcome.complaint
  pure outcome.exitCode.toUInt32

end Overlay.Command

def main (arguments : List String) : IO UInt32 := do
  let setting ← Overlay.Command.gather arguments
  let telemetry := Overlay.Telemetry.Settings.ofVariables setting.environment
  Overlay.Command.showOutcome telemetry.structured (Overlay.Command.run setting)
