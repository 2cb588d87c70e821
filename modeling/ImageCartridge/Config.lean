import ImageCartridge.Cartridge.File
import ImageCartridge.Machine.Basic
import ImageCartridge.Toml.Document

/-! The configuration: limits for loading and running, and the choice of a
display. Every entry may be left out, and entries without a meaning are passed
over. -/
namespace ImageCartridge

/-- Where frames are shown. The automatic choice takes a terminal if there is
one. -/
inductive DisplayMode where
  | auto
  | terminal
  | headless
  deriving DecidableEq, Repr

namespace DisplayMode

/-- The modes by the names a configuration uses. -/
def options : List (String × DisplayMode) :=
  [("auto", auto), ("ratatui", terminal), ("headless", headless)]

def name : DisplayMode → String
  | auto => "Auto"
  | terminal => "Ratatui"
  | headless => "Headless"

end DisplayMode

structure Limits where
  maxCartridgeBytes : Nat := Cartridge.defaultCeiling
  maxCycleBudget : Nat := Machine.defaultMaxBudget
  cyclesPerFrame : Nat := 256
  deriving DecidableEq, Repr

/-- How frames are shown, and how long each of them lasts. -/
structure Display where
  mode : DisplayMode := .auto
  frameMs : Nat := 120
  deriving DecidableEq, Repr

structure Config where
  limits : Limits := {}
  display : Display := {}
  deriving DecidableEq, Repr

/-- Why there is no configuration: the file cannot be read, its text is not a
configuration, or a frame is given no cycles or more than a run may use. -/
inductive ConfigError where
  | unreadable
  | unparsable
  | badBudget (maxCycleBudget : Nat)
  deriving DecidableEq, Repr

def ConfigError.message : ConfigError → String
  | unreadable => "cannot read config"
  | unparsable => "invalid config"
  | badBudget maxCycleBudget =>
      s!"cycles_per_frame must be between 1 and max_cycle_budget ({maxCycleBudget})"

open Toml

def Limits.ofValue? (v : Value) : Option Limits := do
  match ← v.record? ["max_cartridge_bytes", "max_cycle_budget", "cycles_per_frame"] with
  | [bytes, budget, cycles] =>
      let standard : Limits := {}
      return {
        maxCartridgeBytes :=
          ← optionalField (Value.natural? (UInt64.size - 1)) standard.maxCartridgeBytes bytes
        maxCycleBudget :=
          ← optionalField (Value.natural? (UInt32.size - 1)) standard.maxCycleBudget budget
        cyclesPerFrame :=
          ← optionalField (Value.natural? (UInt32.size - 1)) standard.cyclesPerFrame cycles }
  | _ => none

def Display.ofValue? (v : Value) : Option Display := do
  match ← v.record? ["mode", "frame_ms"] with
  | [mode, frameMs] =>
      let standard : Display := {}
      return {
        mode := ← optionalField (Value.option? DisplayMode.options) standard.mode mode
        frameMs := ← optionalField (Value.natural? (UInt64.size - 1)) standard.frameMs frameMs }
  | _ => none

namespace Config

def ofValue? (v : Value) : Option Config := do
  match ← v.record? ["limits", "display"] with
  | [limits, display] =>
      return {
        limits := ← optionalField Limits.ofValue? {} limits
        display := ← optionalField Display.ofValue? {} display }
  | _ => none

/-- A frame needs at least one cycle, and no more than a run may use. -/
def validate (c : Config) : Except ConfigError Config :=
  if 0 < c.limits.cyclesPerFrame ∧ c.limits.cyclesPerFrame ≤ c.limits.maxCycleBudget then .ok c
  else .error (.badBudget c.limits.maxCycleBudget)

/-- Read a configuration. The budgets are checked once all types are right. -/
def ofText (text : String) : Except ConfigError Config :=
  match (Toml.parse? text).bind ofValue? with
  | some c => c.validate
  | none => .error .unparsable

/-- Choose the configuration: the file asked for, else the file the environment
names, else the defaults. A file that was named must be there, so each is given
as the text it holds, if any. -/
def load (explicit environment : Option (Option String)) : Except ConfigError Config :=
  match explicit <|> environment with
  | some (some text) => ofText text
  | some none => .error .unreadable
  | none => .ok {}

end Config

end ImageCartridge
