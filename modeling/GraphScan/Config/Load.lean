import GraphScan.Config.Basic
import GraphScan.Toml.Document

/-!
# Loading settings

Settings are written in TOML: one table for each group, one key for each setting.  What is left out
keeps its default; a key that is not a setting, and an item of the wrong type or range, are refused.
A group may also be written as an array of its settings in order, which may stop early and whose
surplus items are ignored.

`Config.load` reads the settings from a text and checks them.
-/

namespace GraphScan

/-- **Why settings cannot be loaded.** -/
inductive ConfigError where
  /-- The text is not TOML, or not settings. -/
  | unreadable
  /-- A setting is out of the range that makes sense. -/
  | invalid (reason : String)
deriving DecidableEq, Repr

def ConfigError.message : ConfigError → String
  | .unreadable => "executor config unreadable"
  | .invalid reason => "executor config invalid: " ++ reason

namespace Config

open Toml (Item Entries)

/-! ## Settings by type -/

/-- A count up to a greatest value. -/
def count? (greatest : Nat) : Item → Option Nat
  | .integer (some n) => if 0 ≤ n ∧ n ≤ greatest then some n.toNat else none
  | _ => none

def count64? : Item → Option Nat := count? (UInt64.size - 1)

def count32? : Item → Option Nat := count? (UInt32.size - 1)

def flag? : Item → Option Bool
  | .boolean b => some b
  | _ => none

def text? : Item → Option String
  | .string s => some s
  | _ => none

def texts? : Item → Option (List String)
  | .array items => items.mapM text?
  | _ => none

/-! ## Groups -/

/-- A group of settings: how the item under a key changes it. -/
abbrev Setter (α : Type) := Item → α → Option α

/-- Applies the entries of a table, each by the setter of its key. -/
def applyEntries {α : Type} (setters : List (String × Setter α)) (defaults : α)
    (entries : Entries) : Option α :=
  entries.foldlM (fun group (key, item) => do (← setters.lookup key) item group) defaults

/-- Applies the items of an array, each by the next setter. -/
def applyItems {α : Type} : List (Setter α) → List Item → α → Option α
  | set :: setters, item :: items, group => do applyItems setters items (← set item group)
  | _, _, group => some group

/-- **A group of settings**, from a table or an array. -/
def group? {α : Type} (setters : List (String × Setter α)) (defaults : α) : Item → Option α
  | .table _ entries => applyEntries setters defaults entries
  | .array items => applyItems (setters.map Prod.snd) items defaults
  | .tables elements =>
    applyItems (setters.map Prod.snd) (elements.map (Item.table .header)) defaults
  | _ => none

def progressSetters : List (String × Setter ProgressConfig) :=
  [("report_interval", fun item group => do
    some { group with reportInterval := ← count64? item })]

def probeSetters : List (String × Setter ProbeConfig) :=
  [("enabled", fun item group => do some { group with enabled := ← flag? item }),
    ("coordinator_site", fun item group => do
      some { group with coordinatorSite := ← count64? item }),
    ("destination_host", fun item group => do
      some { group with destinationHost := ← count32? item }),
    ("probe_count", fun item group => do some { group with probeCount := ← count64? item }),
    ("vertex_attributes", fun item group => do
      some { group with vertexAttributes := ← texts? item }),
    ("edge_attributes", fun item group => do
      some { group with edgeAttributes := ← texts? item })]

def setters : List (String × Setter Config) :=
  [("progress", fun item config => do
    some { config with progress := ← group? progressSetters {} item }),
    ("remote_probe", fun item config => do
      some { config with remoteProbe := ← group? probeSetters {} item })]

/-! ## Loading -/

/-- A scan has to report at some interval. -/
def validate (config : Config) : Except ConfigError Config :=
  if config.progress.reportInterval = 0 then
    .error (.invalid "progress.report_interval must be greater than zero")
  else .ok config

/-- **The settings that a text states.** -/
def load (text : String) : Except ConfigError Config :=
  match Toml.parse text with
  | none => .error .unreadable
  | some entries =>
    match applyEntries setters {} entries with
    | none => .error .unreadable
    | some config => validate config

end Config

end GraphScan
