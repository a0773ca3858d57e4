import EnvInventory.CommandLine.Arguments
import EnvInventory.CommandLine.Option
import EnvInventory.Config.Basic
import EnvInventory.Config.Decode
import EnvInventory.Config.Loader
import EnvInventory.Config.Validate
import EnvInventory.Date.Calendar
import EnvInventory.Date.Format
import EnvInventory.Override.Index
import EnvInventory.Encoding.Detect
import EnvInventory.Encoding.Utf16
import EnvInventory.Encoding.Utf8
import EnvInventory.Failure
import EnvInventory.FileTree
import EnvInventory.Glob.Basic
import EnvInventory.Glob.Match
import EnvInventory.Glob.Read
import EnvInventory.Glob.Rules
import EnvInventory.Ignore.Pattern
import EnvInventory.Ignore.Rule
import EnvInventory.Ignore.Scope
import EnvInventory.Inventory
import EnvInventory.Json.Read
import EnvInventory.Json.Render
import EnvInventory.Json.Value
import EnvInventory.Log.Event
import EnvInventory.Log.Line
import EnvInventory.Log.Traced
import EnvInventory.Log.Verbosity
import EnvInventory.Main
import EnvInventory.Naming
import EnvInventory.Number
import EnvInventory.Override.Ini
import EnvInventory.Override.Report
import EnvInventory.Override.Sandbox
import EnvInventory.Path
import EnvInventory.Program
import EnvInventory.Proofs.Naming.SandboxPath
import EnvInventory.Proofs.Override.Identity
import EnvInventory.Proofs.Override.IniLayout
import EnvInventory.Proofs.Override.Merge
import EnvInventory.Proofs.Override.SandboxScan
import EnvInventory.Script.Shell
import EnvInventory.Script.Template
import EnvInventory.Search
import EnvInventory.Settings.Key
import EnvInventory.Settings.Value
import EnvInventory.Snapshot
import EnvInventory.Sources
import EnvInventory.Text.Blank
import EnvInventory.Text.CaseFold
import EnvInventory.Text.Parts
import EnvInventory.Text.Quoted
import EnvInventory.Text.Word
import EnvInventory.Toml.Document
import EnvInventory.Toml.Scalar
import EnvInventory.Toml.Table
import EnvInventory.Toml.Text
import EnvInventory.Proofs.Override.Collisions
import EnvInventory.Proofs.Text.Lines
import EnvInventory.Proofs.Override.SandboxForms
import EnvInventory.Proofs.Override.SandboxLayout
import EnvInventory.Proofs.Encoding.Utf8
import EnvInventory.Proofs.Encoding.Utf16
import EnvInventory.Proofs.Naming.IniKey
import EnvInventory.Proofs.Json.Text
import EnvInventory.Proofs.Number.Digits
import EnvInventory.Proofs.Json.Number
import EnvInventory.Proofs.Json.Order
import EnvInventory.Proofs.Json.RoundTrip
import EnvInventory.Proofs.Json.Document
import EnvInventory.Proofs.Inventory.Comparison
import EnvInventory.Proofs.FileTree.Walk
import EnvInventory.Proofs.FileTree.Replace
import EnvInventory.Proofs.Search.Order
import EnvInventory.Proofs.Sources.Inputs
import EnvInventory.Proofs.Inventory.Regenerate
import EnvInventory.Proofs.FileTree.Directories
import EnvInventory.Proofs.Inventory.Write
import EnvInventory.Proofs.Program.Frame
import EnvInventory.Proofs.Sources.Encodings
import EnvInventory.Proofs.Settings.Fields
import EnvInventory.Proofs.Settings.Key
import EnvInventory.Proofs.Config.Setting
import EnvInventory.Proofs.Config.Layers
import EnvInventory.Proofs.Config.Steps
import EnvInventory.Proofs.Config.Precedence
import EnvInventory.Proofs.Program.Precedence
import EnvInventory.Proofs.Path.Join
import EnvInventory.Proofs.FileTree.Spelling
import EnvInventory.Proofs.Log.Matches
import EnvInventory.Proofs.Sources.Spelling
import EnvInventory.Proofs.Inventory.Spelling
import EnvInventory.Proofs.Override.Batches
import EnvInventory.Proofs.Snapshot.Rows
import EnvInventory.Proofs.Inventory.LineEnds
import EnvInventory.Proofs.Search.Found
import EnvInventory.Proofs.Script.Forms
import EnvInventory.Proofs.Text.Search
import EnvInventory.Proofs.Script.Names
import EnvInventory.Proofs.Inventory.Dependence
import EnvInventory.Proofs.Sources.Loading
import EnvInventory.Proofs.Inventory.Provenance
import EnvInventory.Proofs.Naming.SharedNames
import EnvInventory.Proofs.Text.Parts
import EnvInventory.Proofs.Script.AssignedLines
import EnvInventory.Proofs.Override.Layout
import EnvInventory.Proofs.Snapshot.Order
import EnvInventory.Proofs.Path.Identifier
import EnvInventory.Proofs.CommandLine.Grammar
import EnvInventory.Proofs.CommandLine.Reading
import EnvInventory.Proofs.Program.Repeated
import EnvInventory.Proofs.Config.Undeclared
import EnvInventory.Proofs.Encoding.WellFormed
import EnvInventory.Proofs.Sources.Unmarked
import EnvInventory.Proofs.Override.SandboxRecords
import EnvInventory.Proofs.Settings.Alike
import EnvInventory.Proofs.Config.Decoded
import EnvInventory.Proofs.Config.Legacy
import EnvInventory.Proofs.Config.Applied
import EnvInventory.Proofs.Override.IniRecords
import EnvInventory.Proofs.Override.SandboxNesting
