import ThreadRegions.Check.Outcome
import ThreadRegions.Check.Rules
import ThreadRegions.Check.State
import ThreadRegions.Check.Thread
import ThreadRegions.Check.Walk
import ThreadRegions.CommandLine.FileTree
import ThreadRegions.CommandLine.Run
import ThreadRegions.Decimal.Binary64
import ThreadRegions.Decimal.Signed64
import ThreadRegions.Diagnostic
import ThreadRegions.Diagnostic.Render
import ThreadRegions.Grammar.Cursor
import ThreadRegions.Grammar.Forms
import ThreadRegions.Grammar.Phrase
import ThreadRegions.Grammar.Primary
import ThreadRegions.Grammar.Types
import ThreadRegions.Import
import ThreadRegions.Journal
import ThreadRegions.Main
import ThreadRegions.Proofs.Accept
import ThreadRegions.Proofs.AcceptExpr
import ThreadRegions.Proofs.Action
import ThreadRegions.Proofs.Annotation
import ThreadRegions.Proofs.Capture
import ThreadRegions.Proofs.Compose
import ThreadRegions.Proofs.Describe
import ThreadRegions.Proofs.Freeze
import ThreadRegions.Proofs.Fresh
import ThreadRegions.Proofs.FrozenWrite
import ThreadRegions.Proofs.Isolation
import ThreadRegions.Proofs.Lasting
import ThreadRegions.Proofs.Layout
import ThreadRegions.Proofs.Lexical
import ThreadRegions.Proofs.Names
import ThreadRegions.Proofs.Paths
import ThreadRegions.Proofs.Places
import ThreadRegions.Proofs.Reach
import ThreadRegions.Proofs.Report
import ThreadRegions.Proofs.Rule
import ThreadRegions.Proofs.Shape
import ThreadRegions.Proofs.Spawn
import ThreadRegions.Proofs.Steps
import ThreadRegions.Proofs.Surroundings
import ThreadRegions.Proofs.Tiling
import ThreadRegions.Proofs.Visit
import ThreadRegions.Proofs.Waiting
import ThreadRegions.Proofs.WellFormed
import ThreadRegions.Scope.Ledger
import ThreadRegions.Scope.Listing
import ThreadRegions.Scope.Symbol
import ThreadRegions.Scope.Table
import ThreadRegions.Text.Blank
import ThreadRegions.Text.EditDistance
import ThreadRegions.Text.Line
import ThreadRegions.Text.Position
import ThreadRegions.Text.Quoted
import ThreadRegions.Text.Unshowable
import ThreadRegions.Token
import ThreadRegions.Token.Escape
import ThreadRegions.Token.Lexer
import ThreadRegions.Tree
import ThreadRegions.Ty
import ThreadRegions.Proofs.ScopeStack
import ThreadRegions.Proofs.Restoration
import ThreadRegions.Proofs.ReadBack
import ThreadRegions.Proofs.Slots
import ThreadRegions.Proofs.Closures
import ThreadRegions.Proofs.Bindings
import ThreadRegions.Proofs.FreeNames
import ThreadRegions.Proofs.Respacing
import ThreadRegions.Proofs.Nesting
import ThreadRegions.Proofs.Tape
import ThreadRegions.Proofs.Progress
import ThreadRegions.Proofs.Resolution
import ThreadRegions.Proofs.Expansion
import ThreadRegions.Proofs.Spellings
import ThreadRegions.Proofs.Unmerged
import ThreadRegions.Proofs.GlobalScope
import ThreadRegions.Proofs.WaitAll
import ThreadRegions.Proofs.WrittenType
import ThreadRegions.Proofs.ReadableType
import ThreadRegions.Proofs.MovedReaders
import ThreadRegions.Proofs.View
import ThreadRegions.Proofs.SameTokens
import ThreadRegions.Proofs.Settings
import ThreadRegions.Proofs.Redeclare
import ThreadRegions.Proofs.FrameStart
import ThreadRegions.Proofs.Stored
import ThreadRegions.Proofs.Likeness
import ThreadRegions.Proofs.Alike
import ThreadRegions.Proofs.Padding
import ThreadRegions.Proofs.Sparing
import ThreadRegions.Proofs.Branches
import ThreadRegions.Proofs.Quoting
import ThreadRegions.Proofs.Compatible
import ThreadRegions.Proofs.Elements
import ThreadRegions.Proofs.Nearest
import ThreadRegions.Proofs.LineAt
import ThreadRegions.Proofs.Caret
import ThreadRegions.Proofs.Spans
import ThreadRegions.Proofs.Persistence
import ThreadRegions.Proofs.Arena
