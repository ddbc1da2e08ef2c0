import Offside.Source.Position

/-! # Layout delimiters

What a frame of the layout stack stands for. Six delimiters open blocks by indentation and owe an
end token when they close. The others only mask: they decide which tokens may close or separate
the blocks below them.
-/

namespace Offside.Layout

open Source

inductive Delimiter where
  | root
  /-- A `data` declaration, which masks its bars. -/
  | topDecl
  /-- The head of a `class`, which masks the commas of functional dependencies. -/
  | topDeclHead
  | declGuard
  | caseHead
  /-- The binders of a case branch, up to the arrow. -/
  | caseBinders
  | caseGuard
  | lambdaBinders
  | paren
  | brace
  | square
  | ifHead
  | thenBranch
  /-- A record label or an accessed property, where keywords are plain names. -/
  | property
  | forallHead
  | tick
  | letBlock
  /-- The bindings of a `let` statement. -/
  | letStatement
  | whereBlock
  | ofBlock
  | doBlock
  | adoBlock
  /-- A block between braces behind a layout keyword. -/
  | explicitBlock
deriving DecidableEq, Repr, Inhabited

namespace Delimiter

/-- Whether the delimiter opens a block by indentation, which owes an end token. -/
def isIndented : Delimiter → Bool
  | .letBlock | .letStatement | .whereBlock | .ofBlock | .doBlock | .adoBlock => true
  | _ => false

def name : Delimiter → String
  | .root => "Root"
  | .topDecl => "TopDecl"
  | .topDeclHead => "TopDeclHead"
  | .declGuard => "DeclGuard"
  | .caseHead => "Case"
  | .caseBinders => "CaseBinders"
  | .caseGuard => "CaseGuard"
  | .lambdaBinders => "LambdaBinders"
  | .paren => "Paren"
  | .brace => "Brace"
  | .square => "Square"
  | .ifHead => "If"
  | .thenBranch => "Then"
  | .property => "Property"
  | .forallHead => "Forall"
  | .tick => "Tick"
  | .letBlock => "Let"
  | .letStatement => "LetStmt"
  | .whereBlock => "Where"
  | .ofBlock => "Of"
  | .doBlock => "Do"
  | .adoBlock => "Ado"
  | .explicitBlock => "Block"

end Delimiter

structure Frame where
  position : Position
  delimiter : Delimiter
deriving DecidableEq, Repr, Inhabited

def Frame.isIndented (frame : Frame) : Bool := frame.delimiter.isIndented

end Offside.Layout
