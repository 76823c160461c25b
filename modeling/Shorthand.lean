import Shorthand.Diagnostic
import Shorthand.Span
import Shorthand.Text.Blank
import Shorthand.Text.Bytes
import Shorthand.Text.Lines
import Shorthand.Token.Basic
import Shorthand.Token.Keyword
import Shorthand.Token.Lexer
import Shorthand.Token.Query
import Shorthand.Tree.Kind
import Shorthand.Tree.Node
import Shorthand.Tree.Render
import Shorthand.Tree.TreePath
import Shorthand.Grammar.Cursor
import Shorthand.Grammar.Types
import Shorthand.Grammar.Declarations
import Shorthand.Grammar.Expressions
import Shorthand.Grammar.Parse
import Shorthand.Model.Ty
import Shorthand.Model.TypeInfo
import Shorthand.Library.Builtin
import Shorthand.Model.Assignable
import Shorthand.Model.Members
import Shorthand.Model.Resolve
import Shorthand.Model.Scope
import Shorthand.Abbreviation
import Shorthand.Text.Distance
import Shorthand.Text.Letters
import Shorthand.Edit.Basic
import Shorthand.Edit.Transaction
import Shorthand.Settings
import Shorthand.Fragment.Basic
import Shorthand.Fragment.Code
import Shorthand.Caret.Construct
import Shorthand.Caret.Slot
import Shorthand.Caret.Expected
import Shorthand.Candidate.Collector
import Shorthand.Candidate.Overload
import Shorthand.Candidate.Rank
import Shorthand.Insertion.Basic
import Shorthand.Request
import Shorthand.Session
import Shorthand.Proofs.Cut
import Shorthand.Proofs.Greatest
import Shorthand.Proofs.Text.Lines
import Shorthand.Proofs.Text.Distance
import Shorthand.Proofs.Reading.After
import Shorthand.Proofs.Reading.Progress
import Shorthand.Proofs.Reading.Layout
import Shorthand.Proofs.Reading.Types
import Shorthand.Proofs.Reading.Rules
import Shorthand.Proofs.Reading.Declarations
import Shorthand.Proofs.Reading.Expressions
import Shorthand.Proofs.Reading.Statements
import Shorthand.Proofs.Reading.Parse
import Shorthand.Proofs.Reading.Spans
import Shorthand.Proofs.Reading.Modifiers
import Shorthand.Proofs.Reading.Nesting
import Shorthand.Proofs.Reading.Owner
import Shorthand.Proofs.Building.Basic
import Shorthand.Proofs.Building.Types
import Shorthand.Proofs.Building.Rules
import Shorthand.Proofs.Building.Declarations
import Shorthand.Proofs.Building.Expressions
import Shorthand.Proofs.Building.Statements
import Shorthand.Proofs.Building.Parse
import Shorthand.Proofs.Building.Gaps
import Shorthand.Proofs.Building.Speculation
import Shorthand.Proofs.Building.Words
import Shorthand.Proofs.Building.Shapes
import Shorthand.Proofs.Model.Names
import Shorthand.Proofs.Model.Declared
import Shorthand.Proofs.Model.Recorded
import Shorthand.Proofs.Model.Subtype
import Shorthand.Proofs.Model.Lineage
import Shorthand.Proofs.Model.Reported
import Shorthand.Proofs.Model.Overridden
import Shorthand.Proofs.Model.Listed
import Shorthand.Proofs.Token.Tiling
import Shorthand.Proofs.Token.Lookahead
import Shorthand.Proofs.Token.Written
import Shorthand.Proofs.Token.ImportLine
import Shorthand.Proofs.Token.Splice
import Shorthand.Proofs.Token.Query
import Shorthand.Proofs.Token.Number
import Shorthand.Proofs.Tree.Paths
import Shorthand.Proofs.Tree.Nearest
import Shorthand.Proofs.Tree.Replaced
import Shorthand.Proofs.Tree.Same
import Shorthand.Proofs.Moved.Steps
import Shorthand.Proofs.Moved.Types
import Shorthand.Proofs.Moved.Rules
import Shorthand.Proofs.Moved.Declarations
import Shorthand.Proofs.Moved.Expressions
import Shorthand.Proofs.Moved.Statements
import Shorthand.Proofs.Moved.Parse
import Shorthand.Proofs.Moved.Texts
import Shorthand.Proofs.Header.Fork
import Shorthand.Proofs.Header.Unit
import Shorthand.Proofs.Header.Written
import Shorthand.Proofs.Edit.Apply
import Shorthand.Proofs.Edit.Transaction
import Shorthand.Proofs.Edit.Cursor
import Shorthand.Proofs.Insertion.Import
import Shorthand.Proofs.Insertion.Filled
import Shorthand.Proofs.Insertion.Splice
import Shorthand.Proofs.Insertion.Imported
import Shorthand.Proofs.Candidate.Offered
import Shorthand.Proofs.Candidate.Outside
import Shorthand.Proofs.Candidate.Named
import Shorthand.Proofs.Candidate.Resolution
import Shorthand.Proofs.Candidate.Static
import Shorthand.Proofs.Expand
import Shorthand.Proofs.Candidate.Overload
import Shorthand.Proofs.Candidate.Places
import Shorthand.Proofs.Candidate.Supplied
import Shorthand.Proofs.Insertion.Adjacent
import Shorthand.Proofs.Insertion.Arguments
import Shorthand.Proofs.Insertion.Resolved
import Shorthand.Proofs.Candidate.Owned
import Shorthand.Proofs.Code.Text
import Shorthand.Proofs.Code.Reading
import Shorthand.Proofs.Code.Tokens
import Shorthand.Proofs.Code.ReadBack
import Shorthand.Proofs.Operator.Tree
import Shorthand.Proofs.Operator.Tokens
import Shorthand.Proofs.Operator.Reading
import Shorthand.Proofs.Caret.Brackets
import Shorthand.Proofs.Caret.Result
import Shorthand.Proofs.Scope.Declared
import Shorthand.Proofs.Scope.Termination
