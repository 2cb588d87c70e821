import ImageCartridge.Block.Codec
import ImageCartridge.Block.Flags
import ImageCartridge.Block.Kind
import ImageCartridge.Bytes
import ImageCartridge.Cartridge.Assembly
import ImageCartridge.Cartridge.File
import ImageCartridge.Command
import ImageCartridge.CommandLine.Action
import ImageCartridge.CommandLine.Commands
import ImageCartridge.CommandLine.Directory
import ImageCartridge.Config
import ImageCartridge.Crc32
import ImageCartridge.Error
import ImageCartridge.Header
import ImageCartridge.Input.Button
import ImageCartridge.Input.Grid
import ImageCartridge.Input.TouchKey
import ImageCartridge.Input.TruthTable
import ImageCartridge.Machine.Basic
import ImageCartridge.Machine.Run
import ImageCartridge.Main
import ImageCartridge.Manifest
import ImageCartridge.Marker.Splice
import ImageCartridge.Marker.Walk
import ImageCartridge.OrderedMap
import ImageCartridge.Payload.Reader
import ImageCartridge.Player.Basic
import ImageCartridge.Player.Frontend
import ImageCartridge.Proofs.Block.Codec
import ImageCartridge.Proofs.Block.Damage
import ImageCartridge.Proofs.Cartridge.Assembly
import ImageCartridge.Proofs.Cartridge.Complete
import ImageCartridge.Proofs.Cartridge.Damage
import ImageCartridge.Proofs.Cartridge.File
import ImageCartridge.Proofs.Cartridge.Loaded
import ImageCartridge.Proofs.Cartridge.Parts
import ImageCartridge.Proofs.Cartridge.Resave
import ImageCartridge.Proofs.Crc32
import ImageCartridge.Proofs.Fallible
import ImageCartridge.Proofs.Input.Coverage
import ImageCartridge.Proofs.Machine.Calls
import ImageCartridge.Proofs.Machine.Frames
import ImageCartridge.Proofs.Machine.Prologue
import ImageCartridge.Proofs.Machine.Reachable
import ImageCartridge.Proofs.Machine.Ticks
import ImageCartridge.Proofs.Manifest
import ImageCartridge.Proofs.Marker.Ceiling
import ImageCartridge.Proofs.Marker.Extract
import ImageCartridge.Proofs.Marker.Grammar
import ImageCartridge.Proofs.Marker.Layout
import ImageCartridge.Proofs.Marker.Overwrite
import ImageCartridge.Proofs.Marker.Splice
import ImageCartridge.Proofs.Marker.Stream
import ImageCartridge.Proofs.Marker.Truncation
import ImageCartridge.Proofs.OrderedMap
import ImageCartridge.Proofs.Payload.Codec
import ImageCartridge.Proofs.Payload.Decoded
import ImageCartridge.Proofs.Payload.Position
import ImageCartridge.Proofs.Payload.Reader
import ImageCartridge.Proofs.Payload.StringTable
import ImageCartridge.Proofs.Payload.TruthTable
import ImageCartridge.Proofs.Player.Calls
import ImageCartridge.Proofs.Player.FailClosed
import ImageCartridge.Proofs.Player.Input
import ImageCartridge.Proofs.Player.Script
import ImageCartridge.Proofs.Player.Simulation
import ImageCartridge.Proofs.Snake.Body
import ImageCartridge.Proofs.Snake.Course
import ImageCartridge.Proofs.Snake.Drawing
import ImageCartridge.Proofs.Snake.Geometry
import ImageCartridge.Proofs.Snake.Invariant
import ImageCartridge.Proofs.Snake.Relabel
import ImageCartridge.Proofs.Snake.Replay
import ImageCartridge.Proofs.Snake.Respawn
import ImageCartridge.Proofs.Snake.Restart
import ImageCartridge.Proofs.Snake.Step
import ImageCartridge.Proofs.XorShift
import ImageCartridge.Proofs.XorShift.Stream
import ImageCartridge.Scalar
import ImageCartridge.Snake.Board
import ImageCartridge.Snake.Direction
import ImageCartridge.Snake.Frame
import ImageCartridge.Snake.Game
import ImageCartridge.StringTable
import ImageCartridge.Terminal
import ImageCartridge.Text.Hex
import ImageCartridge.Text.Quoted
import ImageCartridge.Text.Unprintable
import ImageCartridge.Text.Utf8
import ImageCartridge.Toml.Datetime
import ImageCartridge.Toml.Document
import ImageCartridge.Toml.Lexical
import ImageCartridge.Toml.Number
import ImageCartridge.Toml.Tree
import ImageCartridge.Toml.Value
import ImageCartridge.View
import ImageCartridge.XorShift
