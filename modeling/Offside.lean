import Offside.Grammar.Build
import Offside.Grammar.Compiled
import Offside.Grammar.Outline
import Offside.Lex
import Offside.Main
import Offside.Source.File
import Offside.Syntax.Outline
import Offside.Text.Quoted
import Offside.Token.KindSet
import Offside.Proofs.Coverage
import Offside.Proofs.Layout.Closers
import Offside.Proofs.Layout.Exchange
import Offside.Proofs.Layout.ExplicitBlocks
import Offside.Proofs.Layout.Indentation
import Offside.Proofs.Layout.Reindentation
import Offside.Proofs.Lex
import Offside.Proofs.Parse.Accounted
import Offside.Proofs.Parse.Clean
import Offside.Proofs.PureScript
import Offside.Proofs.Grammar.LeftRecursion
import Offside.Proofs.Syntax.Ranges
import Offside.Proofs.Parse.Stopped
import Offside.Proofs.Parse.Wrapping
import Offside.Proofs.Run.Construction
import Offside.Proofs.Run.LeftLeaning
import Offside.Proofs.Parse.Expected
import Offside.Proofs.Run.Resumption
import Offside.Grammar.Search
import Offside.Proofs.Grammar.FirstGraph
import Offside.Proofs.Grammar.Search
import Offside.Grammar.Worklist
import Offside.Proofs.Grammar.Closure
import Offside.Proofs.Token.Merging
import Offside.Proofs.Syntax.Arena
import Offside.Proofs.Parse.Extents
import Offside.Proofs.Parse.Trailing
import Offside.Proofs.Run.Work
import Offside.Proofs.Run.Expectations
import Offside.Proofs.Source.Lookup
import Offside.Proofs.Diagnostic.Underline
import Offside.Proofs.Syntax.Outline
import Offside.Proofs.CommandLine.Check
