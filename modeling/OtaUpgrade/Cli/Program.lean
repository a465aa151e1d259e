import OtaUpgrade.Cli.Inspection
import OtaUpgrade.Cli.Simulation
import OtaUpgrade.Config.File
import OtaUpgrade.Observer

/-!
The program, from its arguments and the files it finds to what it prints, logs and leaves behind.
-/
namespace OtaUpgrade.Cli

/-! ## Failures -/

/-- Why a job could not be done: what went wrong, and what that goes back to. -/
structure Failure where
  message : String
  causes : List String := []
  deriving DecidableEq, Repr

namespace Failure

/-- The failure with a chain of wordings, outermost first. -/
def ofCauses : List String → Failure
  | [] => ⟨"", []⟩
  | message :: causes => ⟨message, causes⟩

/-- Causes with their places in the chain. -/
def numbered (index : Nat) : List String → String
  | [] => ""
  | cause :: causes => s!"\n    {index}: {cause}" ++ numbered (index + 1) causes

/-- The failure as it is printed. -/
def text (f : Failure) : String :=
  "Error: " ++ f.message ++
    match f.causes with
    | [] => ""
    | [cause] => s!"\n\nCaused by:\n    {cause}"
    | causes => "\n\nCaused by:" ++ numbered 0 causes

/-- Settings could not be loaded. -/
def ofLoad : Config.LoadError → Failure
  | .file cause => ⟨cause.message, []⟩
  | .format => ⟨"TOML parse error", []⟩
  | .unusable cause => ofCauses cause.causes

/-- Settings could not be saved. -/
def ofSave : Config.SaveError → Failure
  | .format cause => ⟨cause.message, []⟩
  | .file cause => ⟨cause.message, []⟩

/-- An image could not be loaded. -/
def ofImage (path : String) (e : ImageError) : Failure :=
  ⟨s!"failed to load {path}", e.causes⟩

/-- Nothing can be told of a transfer. -/
def ofInspection : InspectionError → Failure
  | .noRoom mtu => ⟨s!"MTU {mtu} leaves no room for data", []⟩
  | .overflow => ⟨"the size of a chunk does not fit", []⟩

end Failure

/-! ## Jobs -/

/-- What the program leaves behind. -/
structure Outcome where
  exit : Nat := 0
  /-- What it printed. -/
  output : String := ""
  /-- Its own entries in the log. -/
  log : List Record := []
  failure : Option Failure := none
  /-- The files afterwards. -/
  files : Files

/-- The image in a file. -/
def loadImage (files : Files) (path : String) : Except Failure Image :=
  (Image.load files path).mapError (Failure.ofImage path)

/-- The settings in a file, or the usual ones without a file. -/
def loadConfig (files : Files) : Option String → Except Failure Config
  | some path => (Config.load files path).mapError Failure.ofLoad
  | none => .ok {}

/-- The record of a signal to the orchestrator. -/
def signalRecord (s : DfuSignal) : Record :=
  let text :=
    match s with
    | .uploadFinished metadata error =>
      let code := (error.map fun e => s!"Some({e.code})").getD "None"
      s!"UploadFinished \x7b company_id: {metadata.companyId.toNat}, error_code: {code} \x7d"
    | .stopDistribution => "StopDistribution"
  { level := .info, message := "DFU orchestrator", fields := [("signal", text)] }

/-- The record that sums up what a peripheral saw. -/
def summaryRecord (log : PeripheralLog) : Record :=
  let opcodes := log.commands.toList.map fun c => c.opcode.label
  { level := .info
    message := "Peripheral summary"
    fields :=
      [("commands", "[" ++ String.intercalate ", " opcodes ++ "]"),
        ("chunks", toString log.dataWrites.size), ("bytes", toString log.received.size)] }

/-- The record of an upgrade's error. -/
def errorRecord (e : UpgradeError) : Record :=
  { level := .error, message := "Error: " ++ e.text, fields := [("code", Hex.literal 4 e.code)] }

/-- The records of a simulation: its progress, the signals, the summary, and its error if it has
one. -/
def Simulation.records (s : Simulation) : List Record :=
  (Trace.progress s.history).filterMap Progress.shown?
    ++ (Trace.signals s.history).map signalRecord
    ++ [summaryRecord s.log]
    ++
      match s.outcome with
      | .ok () => []
      | .error e => [errorRecord e]

/-- The mode of an upgrade. -/
def mode (c : Config) (dfu : Bool) : Except Failure Mode :=
  if dfu then
    match c.dfu with
    | none => .ok (.dfu {})
    | some d =>
      match d.toMetadata with
      | .ok metadata => .ok (.dfu metadata)
      | .error e => .error (Failure.ofCauses e.causes)
  else
    .ok .direct

/-- Simulates an upgrade. The key counts only if there is a tunnel, and is read before the mode. -/
def simulate (c : Config) (image : Image) (o : SimulateOptions) : Except Failure Simulation := do
  let key ←
    match o.mesh with
    | none => pure none
    | some address =>
      match readKey o.tunnelKey with
      | .ok key => pure (some (address, key))
      | .error e => throw (Failure.ofCauses e.causes)
  let mode ← mode c o.dfu
  let simulation :=
    match key with
    | none => Simulation.direct c image mode o.peripheral
    | some (address, key) => Simulation.tunnelled c image mode o.peripheral address key
  simulation.mapError fun e => ⟨e.text, []⟩

/-- Does what is asked for under settings. -/
def perform (c : Config) (files : Files) : Action → Except Failure Outcome
  | .simulate path options => do
    let image ← loadImage files path
    let simulation ← simulate c image options
    let exit := if simulation.outcome.isOk then 0 else 1
    return { exit, log := simulation.records, files }
  | .crc path => do
    let image ← loadImage files path
    return { output := Hex.literal 8 image.crc.toNat ++ "\n", files }
  | .inspect path mtu => do
    let image ← loadImage files path
    let inspection ← (Inspection.of c image mtu).mapError Failure.ofInspection
    return { output := inspection.text, files }
  | .initConfig path => do
    let files ← (({} : Config).save files path).mapError Failure.ofSave
    let record : Record :=
      { level := .info, message := "Wrote default configuration", fields := [("path", path)] }
    return { log := [record], files }

/-- Does what is asked for. -/
def Invocation.run (i : Invocation) (files : Files) : Outcome :=
  let outcome := do
    let c ← loadConfig files i.config
    perform c files i.action
  match outcome with
  | .ok outcome => outcome
  | .error failure => { exit := 1, failure := some failure, files }

/-- The help text. -/
def usage : String :=
  String.intercalate "\n"
    [ "Mesh OTA firmware upgrade tool",
      "",
      "Usage: meshota [OPTIONS] <COMMAND>",
      "",
      "Commands:",
      "  simulate     Upgrade a simulated peripheral",
      "  crc          Print the image checksum",
      "  inspect      Show how an image would be transferred",
      "  init-config  Write the default configuration",
      "  help         Print this message or the help of the given subcommand(s)",
      "",
      "Options:",
      "  -c, --config <CONFIG>  Session configuration (TOML)",
      "  -v, --verbose          Enable verbose logging",
      "  -h, --help             Print help",
      "  -V, --version          Print version",
      "" ]

/-- The whole program. -/
def program (args : List String) (files : Files) : Outcome :=
  match CommandLine.read args with
  | .run i => i.run files
  | .help => { output := usage, files }
  | .version => { output := "meshota-cli 0.1.0\n", files }
  | .refused => { exit := 2, files }

end OtaUpgrade.Cli
