import Offside.Layout.Insert

/-! # Layout of a token list

Tokens are fed to the stack one by one, each with the place of the token behind it. Blocks still
open when the tokens run out are closed where the last token ends.
-/

namespace Offside.Layout

open Source Token

namespace Stack

/-- Feeds one token: the stack behind it, and what it emits in order. -/
def feed (stack : Stack) (config : Config) (unit : Qualified) (next : Position)
    (nextKind? : Option Kind) : Stack × List Qualified :=
  let progress := (Arrival.mk config unit next nextKind?).insert ⟨stack, []⟩
  (progress.stack, progress.emitted)

/-- An end token for every block that is open. -/
def unwind (stack : Stack) (stop : Position) : List Qualified :=
  (stack.inner.filter Frame.isIndented).map fun _ => .point .layoutEnd stop

end Stack

/-- The layout of the tokens that follow a stack, where `stop` is the end of the token before. -/
def applyFrom (config : Config) (stack : Stack) (stop : Position) :
    List Qualified → List Qualified
  | [] => stack.unwind stop
  | unit :: rest =>
    let nextKind? := rest.head?.bind Qualified.firstKind?
    let (stack, emitted) := stack.feed config unit unit.stop nextKind?
    emitted ++ applyFrom config stack unit.stop rest

/-- The tokens with blocks made explicit. -/
def apply (config : Config) (units : List Qualified) : List Qualified :=
  applyFrom config .empty .zero units

end Offside.Layout
