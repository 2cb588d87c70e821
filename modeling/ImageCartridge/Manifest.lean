import ImageCartridge.Cartridge.Assembly
import ImageCartridge.Input.Button
import ImageCartridge.Machine.Basic
import ImageCartridge.Text.Quoted
import ImageCartridge.Toml.Document

/-! The manifest a cartridge is built from. All of it may be left out; what
remains is the game with the standard header. -/
namespace ImageCartridge

open Toml

/-- The header of a manifest. Its tag is text, and so may be of any length. -/
structure HeaderSpec where
  entryPoint : UInt32 := Machine.snakeEntry
  framebufferWidth : UInt16 := 512
  framebufferHeight : UInt16 := 512
  frameRate : UInt16 := 8
  gridColumns : UInt16 := 64
  gridRows : UInt16 := 64
  features : UInt32 := 0
  osTag : String := "SNAK"

structure Manifest where
  header : HeaderSpec := {}
  bytecode : Bytes := Machine.snakeProgram
  buttons : List Button := []
  strings : List (String × String) := []

inductive ManifestError where
  | unparsable
  | badOsTag (tag : String)
  | cartridge (cause : CartridgeError)

def ManifestError.message : ManifestError → String
  | unparsable => "invalid manifest"
  | badOsTag tag => "os_tag must be exactly 4 bytes, got " ++ Text.Quoted.encode tag
  | cartridge cause => cause.message

def word16? (v : Value) : Option UInt16 :=
  (v.natural? 65535).map UInt16.ofNat

def word32? (v : Value) : Option UInt32 :=
  (v.natural? 4294967295).map UInt32.ofNat

namespace HeaderSpec

def ofValue? (v : Value) : Option HeaderSpec := do
  match ← v.record? ["entry_point", "framebuffer_width", "framebuffer_height", "frame_rate",
      "grid_columns", "grid_rows", "features", "os_tag"] with
  | [entryPoint, width, height, frameRate, columns, rows, features, osTag] =>
      let standard : HeaderSpec := {}
      return {
        entryPoint := ← optionalField word32? standard.entryPoint entryPoint
        framebufferWidth := ← optionalField word16? standard.framebufferWidth width
        framebufferHeight := ← optionalField word16? standard.framebufferHeight height
        frameRate := ← optionalField word16? standard.frameRate frameRate
        gridColumns := ← optionalField word16? standard.gridColumns columns
        gridRows := ← optionalField word16? standard.gridRows rows
        features := ← optionalField word32? standard.features features
        osTag := ← optionalField Value.string? standard.osTag osTag }
  | _ => none

/-- The header of the cartridge. The tag must have four bytes. -/
def toHeader (spec : HeaderSpec) : Except ManifestError Header :=
  let tag := Text.Utf8.encode spec.osTag
  if tag.length = 4 then
    .ok {
      entryPoint := spec.entryPoint
      framebufferWidth := spec.framebufferWidth
      framebufferHeight := spec.framebufferHeight
      frameRate := spec.frameRate
      gridColumns := spec.gridColumns
      gridRows := spec.gridRows
      features := spec.features
      osTag := UInt32.ofNat (BigEndian.value tag) }
  else .error (.badOsTag spec.osTag)

end HeaderSpec

/-- A button section. Nothing in it may be left out. -/
def Button.ofValue? (v : Value) : Option Button := do
  match ← v.record? ["name", "x", "y", "w", "h", "command"] with
  | [name, x, y, width, height, command] =>
      return {
        name := ← requiredField Value.string? name
        x := ← requiredField Value.scalar? x
        y := ← requiredField Value.scalar? y
        width := ← requiredField Value.scalar? width
        height := ← requiredField Value.scalar? height
        command := ← requiredField word16? command }
  | _ => none

namespace Manifest

/-- Bytecode is an array of numbers up to 255. -/
def code? (v : Value) : Option Bytes := do
  (← v.array?).mapM fun element => (element.natural? 255).map UInt8.ofNat

/-- Strings are a table of texts, kept in the order of the document. -/
def strings? (v : Value) : Option (List (String × String)) := do
  (← v.table?).mapM fun entry => entry.2.string?.map (entry.1, ·)

def ofValue? (v : Value) : Option Manifest := do
  match ← v.record? ["header", "bytecode", "button", "strings"] with
  | [header, bytecode, buttons, strings] =>
      return {
        header := ← optionalField HeaderSpec.ofValue? {} header
        bytecode := ← optionalField code? Machine.snakeProgram bytecode
        buttons := ←
          optionalField (fun v => do (← v.array?).mapM Button.ofValue?) [] buttons
        strings := ← optionalField strings? [] strings }
  | _ => none

def ofText (text : String) : Except ManifestError Manifest :=
  match (Toml.parse? text).bind ofValue? with
  | some m => .ok m
  | none => .error .unparsable

/-- Build the cartridge. The grid matters only if there are buttons; without
buttons or strings the cartridge has no table for them. -/
def toCartridge (m : Manifest) : Except ManifestError Cartridge := do
  let header ← m.header.toHeader
  let truthTable ←
    if m.buttons.isEmpty then pure none
    else do
      let grid ← (InputGrid.ofSize header.gridColumns header.gridRows).mapError
        fun cause => .cartridge (.schema cause)
      pure (some (TruthTable.ofButtons grid m.buttons))
  let stringTable :=
    if m.strings.isEmpty then none else some (StringTable.ofList m.strings)
  return { header, bytecode := m.bytecode, truthTable, stringTable }

end Manifest

end ImageCartridge
