import OtaUpgrade.Cli.Value

/-!
The command line. Options stand before or after the name of a job; those of every job may stand on
either side of it, and then the one behind counts. No option is given twice on one side. A value
follows its option as the next argument, or at once; only in the second way may it start with a
hyphen. Behind `--` there are no options.
-/
namespace OtaUpgrade.Cli

/-- What the program can do. -/
inductive Job where
  | simulate
  | crc
  | inspect
  | initConfig
  deriving DecidableEq, Repr

namespace Job

/-- Every job. -/
def all : List Job := [simulate, crc, inspect, initConfig]

/-- The job's name. -/
def name : Job → String
  | simulate => "simulate"
  | crc => "crc"
  | inspect => "inspect"
  | initConfig => "init-config"

/-- The job with a name. -/
def ofName? (name : String) : Option Job :=
  all.find? fun job => job.name == name

end Job

/-! ## Options -/

/-- Options that are there or not. -/
inductive Flag where
  | verbose
  | legacy
  | rebootOnVerify
  | indicate
  | dfu
  deriving DecidableEq, Repr

/-- Options with a value. -/
inductive Setting where
  | config
  | mesh
  | tunnelKey
  | mtu
  deriving DecidableEq, Repr

/-- What the name of an option stands for. -/
inductive Item where
  | flag (f : Flag)
  | setting (s : Setting)
  | help
  | version
  deriving DecidableEq, Repr

/-- The long names that have a meaning on either side of a job's name. -/
def commonLongNames : List (String × Item) :=
  [("config", .setting .config), ("verbose", .flag .verbose), ("help", .help)]

/-- The long names that have a meaning before a job's name, or behind it. -/
def longNames : Option Job → List (String × Item)
  | none => commonLongNames ++ [("version", .version)]
  | some .simulate =>
    commonLongNames ++
      [("mesh", .setting .mesh), ("tunnel-key", .setting .tunnelKey), ("legacy", .flag .legacy),
        ("reboot-on-verify", .flag .rebootOnVerify), ("indicate", .flag .indicate),
        ("mtu", .setting .mtu), ("dfu", .flag .dfu)]
  | some .inspect => commonLongNames ++ [("mtu", .setting .mtu)]
  | some _ => commonLongNames

/-- The short names that have a meaning on either side of a job's name. -/
def commonShortNames : List (Char × Item) :=
  [('c', .setting .config), ('v', .flag .verbose), ('h', .help)]

/-- The short names that have a meaning before a job's name, or behind it. -/
def shortNames : Option Job → List (Char × Item)
  | none => commonShortNames ++ [('V', .version)]
  | some _ => commonShortNames

/-- What was given on one side of a job's name. -/
structure Given where
  verbose : Bool := false
  legacy : Bool := false
  rebootOnVerify : Bool := false
  indicate : Bool := false
  dfu : Bool := false
  config : Option String := none
  mesh : Option UInt16 := none
  tunnelKey : Option String := none
  mtu : Option Nat := none
  /-- The argument that is no option. -/
  operand : Option String := none
  deriving DecidableEq, Repr

namespace Given

/-- Gives a flag that was not given yet. -/
def raise? (g : Given) : Flag → Option Given
  | .verbose => if g.verbose then none else some { g with verbose := true }
  | .legacy => if g.legacy then none else some { g with legacy := true }
  | .rebootOnVerify => if g.rebootOnVerify then none else some { g with rebootOnVerify := true }
  | .indicate => if g.indicate then none else some { g with indicate := true }
  | .dfu => if g.dfu then none else some { g with dfu := true }

/-- Gives the value of an option that was not given yet. -/
def set? (g : Given) (s : Setting) (text : String) : Option Given :=
  match s with
  | .config =>
    if g.config.isSome || text.isEmpty then none else some { g with config := some text }
  | .mesh =>
    match g.mesh, readAddress text with
    | none, .ok address => some { g with mesh := some address }
    | _, _ => none
  | .tunnelKey => if g.tunnelKey.isSome then none else some { g with tunnelKey := some text }
  | .mtu =>
    match g.mtu, readSize text with
    | none, .ok size => some { g with mtu := some size }
    | _, _ => none

/-- Gives the argument that is no option. It is a path, and not empty. -/
def operate? (g : Given) (text : String) : Option Given :=
  if g.operand.isSome || text.isEmpty then none else some { g with operand := some text }

end Given

/-! ## Arguments -/

/-- How the reading of arguments goes on behind an option. -/
inductive Step where
  | taken (g : Given)
  /-- The next argument is the option's value. -/
  | wants (s : Setting) (g : Given)
  | help
  | version
  | refused
  deriving DecidableEq, Repr

/-- Goes on if there was nothing wrong. -/
def Step.ofOption : Option Given → Step
  | some g => .taken g
  | none => .refused

/-- Reads an option with a long name; after an equals sign comes its value. -/
def readLong (job : Option Job) (g : Given) (cs : List Char) : Step :=
  let name := cs.takeWhile (· != '=')
  let value : Option String :=
    match cs.drop name.length with
    | [] => none
    | _ :: value => some (String.ofList value)
  match (longNames job).lookup (String.ofList name), value with
  | some (.flag f), none => .ofOption (g.raise? f)
  | some (.setting s), none => .wants s g
  | some (.setting s), some value => .ofOption (g.set? s value)
  | some .help, none => .help
  | some .version, none => .version
  | _, _ => .refused

/-- Reads options with short names, one character each. The rest behind one that has a value is that
value. -/
def readShort (job : Option Job) (g : Given) : List Char → Step
  | [] => .taken g
  | c :: cs =>
    match (shortNames job).lookup c with
    | some (.flag f) =>
      match g.raise? f with
      | some g => readShort job g cs
      | none => .refused
    | some (.setting s) =>
      match cs with
      | [] => .wants s g
      | '=' :: value => .ofOption (g.set? s (String.ofList value))
      | value => .ofOption (g.set? s (String.ofList value))
    | some .help => .help
    | some .version => .version
    | none => .refused

/-- Where the reading of one side of the command line ends. -/
inductive Side where
  /-- At the end of the arguments. -/
  | ended (g : Given)
  /-- At the name of a job. -/
  | reached (job : Job) (g : Given) (rest : List String)
  | help
  | version
  | refused
  deriving DecidableEq, Repr

/-- Reads arguments behind `--`. -/
def readOperands (g : Given) : List String → Side
  | [] => .ended g
  | arg :: rest =>
    match g.operate? arg with
    | some g => readOperands g rest
    | none => .refused

/-- Reads which job's help is wanted. -/
def readHelp : List String → Side
  | [] => .help
  | [name] => if name == "help" || (Job.ofName? name).isSome then .help else .refused
  | _ => .refused

/-- An argument that starts with a hyphen is an option, unless there is nothing more to it. -/
def isOption (arg : String) : Bool :=
  match arg.toList with
  | '-' :: _ :: _ => true
  | _ => false

/-- Reads the arguments on one side of the job's name; `wanted` is the option whose value comes
next. -/
def readSide (job : Option Job) (g : Given) (wanted : Option Setting) : List String → Side
  | [] => if wanted.isSome then .refused else .ended g
  | arg :: rest =>
    let goOn (step : Step) : Side :=
      match step with
      | .taken g => readSide job g none rest
      | .wants s g => readSide job g (some s) rest
      | .help => .help
      | .version => .version
      | .refused => .refused
    match wanted, isOption arg with
    | some _, true => .refused
    | some s, false => goOn (.ofOption (g.set? s arg))
    | none, true =>
      match arg.toList with
      | ['-', '-'] => if job.isSome then readOperands g rest else .refused
      | '-' :: '-' :: cs => goOn (readLong job g cs)
      | cs => goOn (readShort job g (cs.drop 1))
    | none, false =>
      match job, Job.ofName? arg with
      | some _, _ => goOn (.ofOption (g.operate? arg))
      | none, some job => .reached job g rest
      | none, none => if arg == "help" then readHelp rest else .refused

/-! ## Actions -/

/-- How to simulate an upgrade. -/
structure SimulateOptions where
  /-- Reaches the peripheral through the mesh node with this address. -/
  mesh : Option UInt16 := none
  /-- The key of the tunnel to the node, in hexadecimal digits. -/
  tunnelKey : String := "000102030405060708090a0b0c0d0e0f101112131415161718191a1b1c1d1e1f"
  legacy : Bool := false
  rebootOnVerify : Bool := false
  indicate : Bool := false
  mtu : Nat := 247
  dfu : Bool := false
  deriving DecidableEq, Repr

/-- What to do. -/
inductive Action where
  | simulate (image : String) (options : SimulateOptions)
  | crc (image : String)
  | inspect (image : String) (mtu : Nat)
  | initConfig (path : String)
  deriving DecidableEq, Repr

/-- What to do under which settings. -/
structure Invocation where
  /-- The file with the settings. -/
  config : Option String := none
  verbose : Bool := false
  action : Action
  deriving DecidableEq, Repr

/-- The action of a job, if its path was given. -/
def Given.action? (g : Given) (job : Job) : Option Action :=
  g.operand.map fun path =>
    match job with
    | .crc => .crc path
    | .inspect => .inspect path (g.mtu.getD 247)
    | .initConfig => .initConfig path
    | .simulate =>
      let defaults : SimulateOptions := {}
      .simulate path
        { mesh := g.mesh
          tunnelKey := g.tunnelKey.getD defaults.tunnelKey
          legacy := g.legacy
          rebootOnVerify := g.rebootOnVerify
          indicate := g.indicate
          mtu := g.mtu.getD defaults.mtu
          dfu := g.dfu }

/-- What a command line asks for. -/
inductive CommandLine where
  | run (i : Invocation)
  | help
  | version
  | refused
  deriving DecidableEq, Repr

/-- Reads a command line. -/
def CommandLine.read (args : List String) : CommandLine :=
  match readSide none {} none args with
  | .help => .help
  | .version => .version
  | .refused | .ended _ => .refused
  | .reached job before rest =>
    match readSide (some job) {} none rest with
    | .help => .help
    | .version => .version
    | .refused | .reached .. => .refused
    | .ended g =>
      match g.action? job with
      | none => .refused
      | some action =>
        .run
          { config := g.config.or before.config
            verbose := g.verbose || before.verbose
            action }

end OtaUpgrade.Cli
