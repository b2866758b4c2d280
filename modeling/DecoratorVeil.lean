import DecoratorVeil.CommandLine.Console
import DecoratorVeil.CommandLine.Options
import DecoratorVeil.CommandLine.Run
import DecoratorVeil.Declaration.Basic
import DecoratorVeil.Declaration.Decorators
import DecoratorVeil.Declaration.OfSyntax
import DecoratorVeil.Failure
import DecoratorVeil.FileSystem.Basic
import DecoratorVeil.FileSystem.Path
import DecoratorVeil.FileSystem.Resolve
import DecoratorVeil.FileSystem.Walk
import DecoratorVeil.Formatter.Basic
import DecoratorVeil.Formatter.External
import DecoratorVeil.Grammar.Automaton
import DecoratorVeil.Grammar.Definition
import DecoratorVeil.Grammar.Expressions
import DecoratorVeil.Grammar.Functions
import DecoratorVeil.Grammar.Input
import DecoratorVeil.Grammar.Part
import DecoratorVeil.Grammar.Pattern
import DecoratorVeil.Grammar.Precedence
import DecoratorVeil.Grammar.Production
import DecoratorVeil.Grammar.Race
import DecoratorVeil.Grammar.Reading
import DecoratorVeil.Grammar.Repair
import DecoratorVeil.Grammar.Rule
import DecoratorVeil.Grammar.Scanner
import DecoratorVeil.Grammar.Source
import DecoratorVeil.Grammar.Statements
import DecoratorVeil.Grammar.Token
import DecoratorVeil.Grammar.TokenSet
import DecoratorVeil.Grammar.Types
import DecoratorVeil.Host
import DecoratorVeil.Locate
import DecoratorVeil.Main
import DecoratorVeil.Pipeline
import DecoratorVeil.Record.Data
import DecoratorVeil.Record.Issue
import DecoratorVeil.Record.Read
import DecoratorVeil.Sentinel
import DecoratorVeil.SourceReader
import DecoratorVeil.Syntax.Node
import DecoratorVeil.Syntax.Recovery
import DecoratorVeil.Text.Blank
import DecoratorVeil.Text.Integer
import DecoratorVeil.Text.Markup
import DecoratorVeil.Text.Newline
import DecoratorVeil.Text.Printable
import DecoratorVeil.Text.Quoted
import DecoratorVeil.Text.Replace
import DecoratorVeil.Text.ShellWords
import DecoratorVeil.Text.Styles
import DecoratorVeil.Text.Tabs
import DecoratorVeil.Text.Utf8
import DecoratorVeil.Traced
import DecoratorVeil.Proofs.CommandLine.CheckAndWrite
import DecoratorVeil.Proofs.CommandLine.Checking
import DecoratorVeil.Proofs.CommandLine.Console
import DecoratorVeil.Proofs.CommandLine.Failures
import DecoratorVeil.Proofs.CommandLine.InTurn
import DecoratorVeil.Proofs.CommandLine.InputAsFile
import DecoratorVeil.Proofs.CommandLine.Printing
import DecoratorVeil.Proofs.CommandLine.Reports
import DecoratorVeil.Proofs.CommandLine.ResolvedFiles
import DecoratorVeil.Proofs.CommandLine.Undisturbed
import DecoratorVeil.Proofs.CommandLine.Workers
import DecoratorVeil.Proofs.CommandLine.WriteInvariant
import DecoratorVeil.Proofs.CommandLine.WriteSteps
import DecoratorVeil.Proofs.CommandLine.Writing
import DecoratorVeil.Proofs.Declaration.Attachment
import DecoratorVeil.Proofs.Declaration.Collected
import DecoratorVeil.Proofs.Declaration.Comments
import DecoratorVeil.Proofs.Declaration.Conversion
import DecoratorVeil.Proofs.Declaration.Inspected
import DecoratorVeil.Proofs.Declaration.Offsets
import DecoratorVeil.Proofs.Declaration.Reached
import DecoratorVeil.Proofs.Declaration.Recovered
import DecoratorVeil.Proofs.Declaration.Shape
import DecoratorVeil.Proofs.Declaration.Spans
import DecoratorVeil.Proofs.Declaration.Unsupported
import DecoratorVeil.Proofs.FileSystem.Contents
import DecoratorVeil.Proofs.FileSystem.Following
import DecoratorVeil.Proofs.FileSystem.Resolved
import DecoratorVeil.Proofs.Formatter.Command
import DecoratorVeil.Proofs.Formatter.External
import DecoratorVeil.Proofs.Locate
import DecoratorVeil.Proofs.Pipeline
import DecoratorVeil.Proofs.Sentinel.Acceptance
import DecoratorVeil.Proofs.Sentinel.Count
import DecoratorVeil.Proofs.Sentinel.Layout
import DecoratorVeil.Proofs.Sentinel.Letters
import DecoratorVeil.Proofs.Sentinel.RangeSet
import DecoratorVeil.Proofs.Sentinel.Reflow
import DecoratorVeil.Proofs.Sentinel.RoundTrip
import DecoratorVeil.Proofs.Sentinel.Unique
import DecoratorVeil.Proofs.Syntax.Comments
import DecoratorVeil.Proofs.Syntax.Containment
import DecoratorVeil.Proofs.Syntax.Forgiven
import DecoratorVeil.Proofs.Syntax.Recovery
import DecoratorVeil.Proofs.Text.Decoding
import DecoratorVeil.Proofs.Text.Markup
import DecoratorVeil.Proofs.Text.Newline
import DecoratorVeil.Proofs.Text.ShellWords
import DecoratorVeil.Proofs.Text.Utf8
import DecoratorVeil.Proofs.Traced
