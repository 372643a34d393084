import NoteAccess.CommandLine.Arguments
import NoteAccess.CommandLine.Check
import NoteAccess.CommandLine.Grammar
import NoteAccess.CommandLine.Reading
import NoteAccess.CommandLine.Token
import NoteAccess.Config
import NoteAccess.Config.Environment
import NoteAccess.Config.File
import NoteAccess.Decimal.Floating
import NoteAccess.Decimal.Numeral
import NoteAccess.Decimal.Shortest
import NoteAccess.Decision
import NoteAccess.Decision.Matching
import NoteAccess.Fault
import NoteAccess.FilePath
import NoteAccess.FileTree
import NoteAccess.Glob
import NoteAccess.Glob.Braces
import NoteAccess.Glob.Fragment
import NoteAccess.Journal
import NoteAccess.Log.Layout
import NoteAccess.Log.Level
import NoteAccess.Log.Line
import NoteAccess.Log.Logger
import NoteAccess.Lookup
import NoteAccess.Main
import NoteAccess.Method
import NoteAccess.Note
import NoteAccess.Note.FrontMatter
import NoteAccess.Note.InlineTags
import NoteAccess.Pattern
import NoteAccess.Policy.Engine
import NoteAccess.Policy.Evaluation
import NoteAccess.Policy.Snapshot
import NoteAccess.Regex.Charset
import NoteAccess.Regex.Flaw
import NoteAccess.Regex.Program
import NoteAccess.Regex.Reader
import NoteAccess.Regex.Search
import NoteAccess.Regex.Syntax
import NoteAccess.Rule
import NoteAccess.Rule.File
import NoteAccess.Rule.Line
import NoteAccess.Rule.Listing
import NoteAccess.Run
import NoteAccess.Session
import NoteAccess.Session.Command
import NoteAccess.Session.Opening
import NoteAccess.Session.Places
import NoteAccess.Session.Running
import NoteAccess.Session.Startup
import NoteAccess.Session.Watch
import NoteAccess.Setting
import NoteAccess.Stack
import NoteAccess.Surroundings
import NoteAccess.Tag
import NoteAccess.Text
import NoteAccess.Text.Blank
import NoteAccess.Text.CharacterName
import NoteAccess.Text.Encoding
import NoteAccess.Text.Identifier
import NoteAccess.Text.Letters
import NoteAccess.Text.Lines
import NoteAccess.Text.Printable
import NoteAccess.Text.Quoted
import NoteAccess.Text.Ranges
import NoteAccess.Text.SharedCapital
import NoteAccess.Text.Utf8
import NoteAccess.Text.Word
import NoteAccess.Value
import NoteAccess.Value.Merging
import NoteAccess.Value.Trail
import NoteAccess.Value.Writing
import NoteAccess.Vault
import NoteAccess.VaultPath
import NoteAccess.Yaml.Document
import NoteAccess.Yaml.Loader
import NoteAccess.Yaml.Node
import NoteAccess.Yaml.Scalar
import NoteAccess.Yaml.Token
import NoteAccess.Proofs.Run
import NoteAccess.Proofs.Decision.FirstMatch
import NoteAccess.Proofs.Policy.Justification
import NoteAccess.Proofs.Text
import NoteAccess.Proofs.Rule.RoundTrip
import NoteAccess.Proofs.Rule.Line
import NoteAccess.Proofs.Glob.Fragment
import NoteAccess.Proofs.Glob.Segments
import NoteAccess.Proofs.VaultPath
import NoteAccess.Proofs.Policy.Stages
import NoteAccess.Proofs.FileTree.Meaning
import NoteAccess.Proofs.Vault.Spelling
import NoteAccess.Proofs.Policy.Lookups
import NoteAccess.Proofs.Policy.Calls
import NoteAccess.Proofs.Rule.Listing
import NoteAccess.Proofs.Glob.Source
import NoteAccess.Proofs.Policy.Totality
import NoteAccess.Proofs.Policy.Pruning
import NoteAccess.Proofs.Policy.Filters
import NoteAccess.Proofs.FileTree
import NoteAccess.Proofs.Rule.Concatenation
import NoteAccess.Proofs.Rule.LineEdit
import NoteAccess.Proofs.Text.Encoding
import NoteAccess.Proofs.Rule.Editing
import NoteAccess.Proofs.Rule.Recovery
import NoteAccess.Proofs.Rule.Addition
import NoteAccess.Proofs.Session
import NoteAccess.Proofs.Session.Addition
import NoteAccess.Proofs.Note.FrontMatter
import NoteAccess.Proofs.Outcome
import NoteAccess.Proofs.Value
import NoteAccess.Proofs.Value.Writing
import NoteAccess.Proofs.Yaml.Document
import NoteAccess.Proofs.Config.Merging
import NoteAccess.Proofs.Config.Depth
import NoteAccess.Proofs.Config.Levels
import NoteAccess.Proofs.Config.Reading
import NoteAccess.Proofs.Config.Reload
import NoteAccess.Proofs.Setting
import NoteAccess.Proofs.Session.Settings
import NoteAccess.Proofs.Session.Watching
import NoteAccess.Proofs.FileTree.Shape
import NoteAccess.Proofs.FileTree.Walk
import NoteAccess.Proofs.Vault.Isolation
import NoteAccess.Proofs.Vault.Listing
import NoteAccess.Proofs.Glob.Spread
import NoteAccess.Proofs.Glob.Class
import NoteAccess.Proofs.Glob.Runs
import NoteAccess.Proofs.VaultPath.Normal
import NoteAccess.Proofs.Glob.Backslash
import NoteAccess.Proofs.Glob.Expansion
import NoteAccess.Proofs.Glob.Choices
import NoteAccess.Proofs.Regex.Steps
import NoteAccess.Proofs.Regex.Search
import NoteAccess.Proofs.Glob.Expression
import NoteAccess.Proofs.Regex.Language
import NoteAccess.Proofs.Glob.Language
import NoteAccess.Proofs.Glob.Union
import NoteAccess.Proofs.Rule.Complaint
import NoteAccess.Proofs.Rule.Failure
import NoteAccess.Proofs.Config.Writing
import NoteAccess.Proofs.Config.Assignment
import NoteAccess.Proofs.Config.Environment
import NoteAccess.Proofs.Config.Rereading
import NoteAccess.Proofs.Config.Pass
import NoteAccess.Proofs.Text.Letters
import NoteAccess.Proofs.Setting.Policy
import NoteAccess.Proofs.Regex.Finding
import NoteAccess.Proofs.Note.InlineTags
import NoteAccess.Proofs.Decision.TagRules
import NoteAccess.Proofs.Note.Code
import NoteAccess.Proofs.Vault.Reading
import NoteAccess.Proofs.Session.Exit
