import Hsql.Bison.Rejects
import Hsql.Parser.Rows

/-! Syntax errors at a token. The parser reports them when it has read that token and has not looked
at anything behind it. -/

namespace Hsql
open Bison

end Hsql
