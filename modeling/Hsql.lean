import Hsql.Flex.Scanner
import Hsql.Flex.Calls
import Hsql.Lexer.Rules
import Hsql.Flex.Choice
import Hsql.Lexer.Letters
import Hsql.Lexer.Boundary
import Hsql.Lexer.Complete
import Hsql.Lexer.Tokenize
import Hsql.Lexer.Strings
import Hsql.Lexer.RoundTrip
import Hsql.Lexer.Comments
import Hsql.Lexer.Names
import Hsql.Lexer.Numbers
import Hsql.Lexer.Minus
import Hsql.Bison.Driver
import Hsql.Sql.Statement
import Hsql.Sql.Column
import Hsql.Parser.Symbols
import Hsql.Parser.State
import Hsql.Parser.Production
import Hsql.Parser.ExprRules
import Hsql.Parser.SelectRules
import Hsql.Parser.CreateRules
import Hsql.Parser.StatementRules
import Hsql.Parser.Grammar
import Hsql.Parser.Tables
import Hsql.Parser.Parse
import Hsql.Data.Rows
import Hsql.Parser.Rows
import Hsql.Data.Nested
import Hsql.Sql.Node
import Hsql.Sql.Shape
import Hsql.Parser.Values
import Hsql.Parser.Spec
import Hsql.Parser.ExprSpec
import Hsql.Parser.SelectSpec
import Hsql.Parser.CreateSpec
import Hsql.Parser.StatementSpec
import Hsql.Parser.GrammarSpec
import Hsql.Bison.Runs
import Hsql.Parser.Accept
import Hsql.Parser.Effects
import Hsql.Parser.WellFormed
import Hsql.Parser.NullSafety
import Hsql.Result.Operations
import Hsql.Result.Ownership
import Hsql.Result.Reuse
import Hsql.Parser.Locations
import Hsql.Parser.Parameters
import Hsql.Parser.Failure
import Hsql.Parser.InOrder
import Hsql.Util.SqlHelper
import Hsql.Util.Printable
import Hsql.Bison.Image
import Hsql.Flex.Blind
import Hsql.Lexer.Case
import Hsql.Parser.Rename
import Hsql.Parser.Case
import Hsql.Bison.Leads
import Hsql.Parser.Operators
import Hsql.Parser.Infix
import Hsql.Parser.Forget
import Hsql.Bison.Losses
import Hsql.Parser.Clauses
import Hsql.Parser.Reached
import Hsql.Bison.Control
import Hsql.Parser.Kinds
import Hsql.Parser.Literals
import Hsql.Bison.Marks
import Hsql.Parser.Integers
import Hsql.Parser.Subtraction
import Hsql.Parser.Reading
import Hsql.Parser.Sign
import Hsql.Parser.Negation
import Hsql.Parser.KeyClause
import Hsql.Parser.Constraints
import Hsql.Bison.Frontier
import Hsql.Parser.Operands
import Hsql.Parser.Joins
import Hsql.Parser.FromClause
import Hsql.Parser.Using
import Hsql.Bison.View
import Hsql.Bison.Readers
import Hsql.Bison.Interchange
import Hsql.Parser.KeywordNames
import Hsql.Parser.Places
import Hsql.Parser.NonReserved
import Hsql.Bison.Bases
import Hsql.Parser.Behind
import Hsql.Parser.Concatenation
import Hsql.Bison.Cuts
import Hsql.Bison.Lookahead
import Hsql.Parser.Splits
import Hsql.Parser.Unread
import Hsql.Parser.Slices
import Hsql.Bison.Progress
import Hsql.Bison.Rejects
import Hsql.Parser.Items
import Hsql.Parser.Progress
import Hsql.Parser.Rejects
import Hsql.Parser.Templates
import Hsql.Data.Disposal
import Hsql.Sql.Destroy
import Hsql.Result.Freed
import Hsql.Bison.Brackets
import Hsql.Parser.Pieces
