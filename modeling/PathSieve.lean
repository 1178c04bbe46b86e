import PathSieve.Arguments
import PathSieve.Arguments.Fault
import PathSieve.Arguments.Help
import PathSieve.Arguments.Number
import PathSieve.Arguments.Parse
import PathSieve.Binary64
import PathSieve.Binary64.Shortest
import PathSieve.Buffer
import PathSieve.Command.Arithmetic
import PathSieve.Command.Builtin
import PathSieve.Command.Condition
import PathSieve.Command.Expand
import PathSieve.Command.Find
import PathSieve.Command.Machine
import PathSieve.Command.Options
import PathSieve.Command.Outcome
import PathSieve.Command.Pattern
import PathSieve.Command.Print
import PathSieve.Command.Print.Format
import PathSieve.Command.Program
import PathSieve.Command.Script
import PathSieve.Command.Script.Lex
import PathSieve.Command.Script.Parse
import PathSieve.Command.Search
import PathSieve.Command.Shell
import PathSieve.Command.Substitute
import PathSieve.Command.Tool
import PathSieve.Command.Tool.Call
import PathSieve.Command.Tool.Filter
import PathSieve.Command.Tool.Names
import PathSieve.Environment
import PathSieve.Failure
import PathSieve.Glob.Expression
import PathSieve.Glob.Method
import PathSieve.Glob.Piece
import PathSieve.Glob.Reach
import PathSieve.Glob.Survey
import PathSieve.Glob.Token
import PathSieve.Glob.Weight
import PathSieve.Listing.Find
import PathSieve.Listing.Input
import PathSieve.Listing.Root
import PathSieve.Listing.Walk
import PathSieve.Log
import PathSieve.Log.Filter
import PathSieve.Main
import PathSieve.Path
import PathSieve.Path.Listed
import PathSieve.Path.Relative
import PathSieve.Policy
import PathSieve.Policy.Allowlist
import PathSieve.Policy.Denylist
import PathSieve.Policy.Kind
import PathSieve.Positions
import PathSieve.Proofs.Arguments.Assignment
import PathSieve.Proofs.Arguments.Choice
import PathSieve.Proofs.Arguments.Number
import PathSieve.Proofs.Arguments.Reading
import PathSieve.Proofs.Arguments.Spelled
import PathSieve.Proofs.Buffer
import PathSieve.Proofs.Command.Find
import PathSieve.Proofs.Except
import PathSieve.Proofs.Glob.Braces
import PathSieve.Proofs.Glob.Build
import PathSieve.Proofs.Glob.Coverage
import PathSieve.Proofs.Glob.Depth
import PathSieve.Proofs.Glob.Language
import PathSieve.Proofs.Glob.Literal
import PathSieve.Proofs.Glob.Meaning
import PathSieve.Proofs.Glob.Method
import PathSieve.Proofs.Glob.Move
import PathSieve.Proofs.Glob.Nodes
import PathSieve.Proofs.Glob.Parse
import PathSieve.Proofs.Glob.Reading
import PathSieve.Proofs.Glob.Scan
import PathSieve.Proofs.Glob.Star
import PathSieve.Proofs.Glob.Steps
import PathSieve.Proofs.Glob.Syntax
import PathSieve.Proofs.Glob.Weight
import PathSieve.Proofs.Listing.Directory
import PathSieve.Proofs.Listing.Entries
import PathSieve.Proofs.Listing.Find
import PathSieve.Proofs.Listing.Input
import PathSieve.Proofs.Listing.Input.Calls
import PathSieve.Proofs.Listing.Input.Edits
import PathSieve.Proofs.Listing.Input.Lines
import PathSieve.Proofs.Listing.Lines
import PathSieve.Proofs.Listing.Names
import PathSieve.Proofs.Listing.Sorted
import PathSieve.Proofs.Listing.Walk
import PathSieve.Proofs.Path
import PathSieve.Proofs.Path.Denotation
import PathSieve.Proofs.Path.Listed
import PathSieve.Proofs.Path.Relative
import PathSieve.Proofs.Policy.Allowlist
import PathSieve.Proofs.Policy.Braces
import PathSieve.Proofs.Policy.Compile
import PathSieve.Proofs.Policy.Denylist
import PathSieve.Proofs.Policy.Prefixes
import PathSieve.Proofs.Policy.Rules
import PathSieve.Proofs.Policy.Star
import PathSieve.Proofs.Positions
import PathSieve.Proofs.Record
import PathSieve.Proofs.Record.Spelled
import PathSieve.Proofs.Run
import PathSieve.Proofs.Run.Append
import PathSieve.Proofs.Run.Below
import PathSieve.Proofs.Run.Capacity
import PathSieve.Proofs.Run.Denylist
import PathSieve.Proofs.Run.Input
import PathSieve.Proofs.Run.Legible
import PathSieve.Proofs.Run.Replay
import PathSieve.Proofs.Run.Walk
import PathSieve.Proofs.Session
import PathSieve.Proofs.Session.Sources
import PathSieve.Proofs.Settings.Account
import PathSieve.Proofs.Settings.Decode
import PathSieve.Proofs.Settings.Draft
import PathSieve.Proofs.Settings.Load
import PathSieve.Proofs.Settings.Outline
import PathSieve.Proofs.Settings.Strict
import PathSieve.Proofs.Settings.Write
import PathSieve.Proofs.Text.Line
import PathSieve.Proofs.Text.Quoted
import PathSieve.Proofs.Text.Quoted.Read
import PathSieve.Proofs.Text.Split
import PathSieve.Proofs.Text.Utf8
import PathSieve.Proofs.Text.Utf8.Decode
import PathSieve.Proofs.Text.Utf8.Lines
import PathSieve.Proofs.Toml.Layout
import PathSieve.Proofs.Toml.Length
import PathSieve.Proofs.Toml.Line
import PathSieve.Proofs.Toml.Sound
import PathSieve.Proofs.Toml.Statement
import PathSieve.Proofs.Toml.Table
import PathSieve.Proofs.Toml.Value
import PathSieve.Proofs.Tree
import PathSieve.Proofs.Tree.Inside
import PathSieve.Proofs.Tree.Lookup
import PathSieve.Proofs.Tree.Order
import PathSieve.Proofs.Tree.Place
import PathSieve.Proofs.Tree.Sorted
import PathSieve.Proofs.Tree.Visit
import PathSieve.Proofs.Tree.World
import PathSieve.Record
import PathSieve.Refusal
import PathSieve.Regex
import PathSieve.Regex.Bracket
import PathSieve.Regex.Classes
import PathSieve.Regex.Escape
import PathSieve.Regex.Expression
import PathSieve.Regex.Parse
import PathSieve.Regex.Reach
import PathSieve.Regex.Term
import PathSieve.Regex.Weight
import PathSieve.Run
import PathSieve.Session
import PathSieve.Settings
import PathSieve.Settings.Decode
import PathSieve.Settings.Discover
import PathSieve.Settings.File
import PathSieve.Settings.Mismatch
import PathSieve.Terminal.Strip
import PathSieve.Terminal.Styled
import PathSieve.Text
import PathSieve.Text.Alphabetic
import PathSieve.Text.Blank
import PathSieve.Text.CharSet
import PathSieve.Text.Digits
import PathSieve.Text.Extending
import PathSieve.Text.Line
import PathSieve.Text.Numeric
import PathSieve.Text.Quoted
import PathSieve.Text.Unprintable
import PathSieve.Text.Utf8
import PathSieve.Text.Utf8.Sequences
import PathSieve.Toml.Document
import PathSieve.Toml.Excerpt
import PathSieve.Toml.Moment
import PathSieve.Toml.Node
import PathSieve.Toml.Number
import PathSieve.Toml.Quoted
import PathSieve.Toml.Statement
import PathSieve.Toml.Table
import PathSieve.Toml.Value
import PathSieve.Tree
import PathSieve.Tree.Visit
import PathSieve.Tree.World
