import OtaUpgrade.Config.Basic
import OtaUpgrade.Files
import OtaUpgrade.Toml.Reader
import OtaUpgrade.Toml.Writer

/-!
Settings as TOML. Keys that are missing keep their defaults and keys that mean nothing are passed
over. A record is a table of its fields, or an array of them in their order, which may break off
early. What a file holds counts only if it can be used.
-/
namespace OtaUpgrade

/-! ## Fields -/

namespace Toml

/-- A natural number below `limit`. -/
def Node.natural? (limit : Nat) : Node → Option Nat
  | .integer (.ofNat n) => if n < limit then some n else none
  | _ => none

/-- A text. -/
def Node.text? : Node → Option String
  | .text s => some s
  | _ => none

/-- The fields of a record with these names. A date or a time is a record that has none of them. -/
def Node.fields? (names : List String) : Node → Option Entries
  | .table _ es => some es
  | .array items => some (names.zip items)
  | .moment => some []
  | _ => none

/-- Reads the value of a key, if it is there. -/
def Entries.readD {α : Type} (es : Entries) (key : String) (read? : Node → Option α) (default : α) :
    Option α :=
  match es.find? key with
  | some node => read? node
  | none => some default

@[simp] theorem Entries.readD_nil {α : Type} (key : String) (read? : Node → Option α) (default : α) :
    Entries.readD [] key read? default = some default := rfl

theorem Entries.readD_cons {α : Type} (es : Entries) (key k : String) (node : Node)
    (read? : Node → Option α) (default : α) :
    Entries.readD ((k, node) :: es) key read? default =
      if key == k then read? node else es.readD key read? default := by
  cases h : key == k <;> simp [readD, find?, List.lookup_cons, h]

end Toml

/-! ## Records -/

open Toml (Node Entries)

/-- The fields of the timeouts, in their order. -/
def Timeouts.fieldNames : List String :=
  ["base_ms", "extended_ms", "connect_ms"]

/-- Reads timeouts. -/
def Timeouts.ofNode? (node : Node) : Option Timeouts := do
  let es ← node.fields? fieldNames
  let ms := Node.natural? wordLimit
  let defaults : Timeouts := {}
  return {
    baseMs := ← es.readD "base_ms" ms defaults.baseMs
    extendedMs := ← es.readD "extended_ms" ms defaults.extendedMs
    connectMs := ← es.readD "connect_ms" ms defaults.connectMs }

/-- The timeouts as a table. -/
def Timeouts.toNode (t : Timeouts) : Node :=
  .table .header
    [("base_ms", .integer t.baseMs), ("extended_ms", .integer t.extendedMs),
      ("connect_ms", .integer t.connectMs)]

/-- Every timeout fits a word. -/
def Timeouts.fitsWords (t : Timeouts) : Prop :=
  t.baseMs < wordLimit ∧ t.extendedMs < wordLimit ∧ t.connectMs < wordLimit

theorem Timeouts.ofNode?_toNode {t : Timeouts} (h : t.fitsWords) : ofNode? t.toNode = some t := by
  obtain ⟨hb, he, hc⟩ := h
  simp [ofNode?, toNode, Node.fields?, Entries.readD_cons, Node.natural?, hb, he, hc]

/-- The fields of the DFU section, in their order. -/
def DfuSection.fieldNames : List String :=
  ["company_id", "firmware_id", "product_id", "hardware_id", "version_major", "version_minor",
    "version_patch", "metadata"]

/-- Reads a DFU section. -/
def DfuSection.ofNode? (node : Node) : Option DfuSection := do
  let es ← node.fields? fieldNames
  let byte (n : Node) : Option UInt8 := (n.natural? 0x100).map UInt8.ofNat
  let short (n : Node) : Option UInt16 := (n.natural? 0x10000).map UInt16.ofNat
  return {
    companyId := ← es.readD "company_id" short 0
    firmwareId := ← es.readD "firmware_id" Node.text? ""
    productId := ← es.readD "product_id" short 0
    hardwareId := ← es.readD "hardware_id" short 0
    versionMajor := ← es.readD "version_major" byte 0
    versionMinor := ← es.readD "version_minor" byte 0
    versionPatch := ← es.readD "version_patch" short 0
    metadata := ← es.readD "metadata" Node.text? "" }

/-- The DFU section as a table. -/
def DfuSection.toNode (d : DfuSection) : Node :=
  .table .header
    [("company_id", .integer d.companyId.toNat), ("firmware_id", .text d.firmwareId),
      ("product_id", .integer d.productId.toNat), ("hardware_id", .integer d.hardwareId.toNat),
      ("version_major", .integer d.versionMajor.toNat),
      ("version_minor", .integer d.versionMinor.toNat),
      ("version_patch", .integer d.versionPatch.toNat), ("metadata", .text d.metadata)]

theorem DfuSection.ofNode?_toNode (d : DfuSection) : ofNode? d.toNode = some d := by
  have h1 := d.companyId.toNat_lt
  have h2 := d.productId.toNat_lt
  have h3 := d.hardwareId.toNat_lt
  have h4 := d.versionMajor.toNat_lt
  have h5 := d.versionMinor.toNat_lt
  have h6 := d.versionPatch.toNat_lt
  simp [ofNode?, toNode, Node.fields?, Entries.readD_cons, Node.natural?, Node.text?, h1, h2, h3, h4,
    h5, h6]

namespace Config

/-- Reads settings. -/
def ofEntries? (es : Entries) : Option Config := do
  let size := Node.natural? wordLimit
  let defaults : Config := {}
  return {
    chunkSize := ← es.readD "chunk_size" (fun node => (size node).map some) none
    attOverhead := ← es.readD "att_overhead" size defaults.attOverhead
    timeouts := ← es.readD "timeouts" Timeouts.ofNode? {}
    dfu := ← es.readD "dfu" (fun node => (DfuSection.ofNode? node).map some) none }

/-- The settings as entries. Nothing is said of a chunk size that is unset, or of a DFU section that
there is none of. -/
def toEntries (c : Config) : Entries :=
  (c.chunkSize.map fun size => ("chunk_size", Node.integer size)).toList
    ++ [("att_overhead", .integer c.attOverhead), ("timeouts", c.timeouts.toNode)]
    ++ (c.dfu.map fun d => ("dfu", d.toNode)).toList

theorem ofEntries?_toEntries {c : Config} (hs : c.chunkSize.getD 0 < wordLimit)
    (ha : c.attOverhead < wordLimit) (ht : c.timeouts.fitsWords) :
    ofEntries? c.toEntries = some c := by
  have ht := Timeouts.ofNode?_toNode ht
  obtain ⟨chunkSize, attOverhead, timeouts, dfu⟩ := c
  cases chunkSize <;> cases dfu <;> simp only [Option.getD_some, Option.getD_none] at hs <;>
    simp [ofEntries?, toEntries, Entries.readD_cons, Node.natural?, DfuSection.ofNode?_toNode, hs, ha, ht]

/-! ## Files -/

/-- The settings that a TOML text describes, usable or not. -/
def ofToml? (text : String) : Option Config :=
  match Toml.read? text with
  | some es => ofEntries? es
  | none => none

/-- The settings as TOML text. -/
def toToml (c : Config) : Except Toml.WriteError String :=
  Toml.writeDocument c.toEntries

/-- Why a file gives no settings. -/
inductive LoadError where
  | file (cause : FileError)
  /-- The text does not describe settings. -/
  | format
  | unusable (cause : ConfigError)
  deriving DecidableEq, Repr

/-- The usable settings that a TOML text describes. -/
def parse (text : String) : Except LoadError Config :=
  match ofToml? text with
  | none => .error .format
  | some c =>
    match c.check with
    | .ok () => .ok c
    | .error cause => .error (.unusable cause)

/-- The usable settings in a file. -/
def load (files : Files) (path : String) : Except LoadError Config :=
  match files.readText path with
  | .ok text => parse text
  | .error cause => .error (.file cause)

/-- Why settings could not be put into a file. -/
inductive SaveError where
  | format (cause : Toml.WriteError)
  | file (cause : FileError)
  deriving DecidableEq, Repr

/-- The files once one of them holds the settings, usable or not. -/
def save (c : Config) (files : Files) (path : String) : Except SaveError Files :=
  match c.toToml with
  | .error cause => .error (.format cause)
  | .ok text =>
    match files.write path text.toUTF8.data.toList with
    | .ok files => .ok files
    | .error cause => .error (.file cause)

end Config
end OtaUpgrade
