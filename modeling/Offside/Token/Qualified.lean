import Offside.Token.Lexeme

/-! # Qualified names

The layout rule must not split a qualified name such as `Data.Map.lookup`. Pairs of a proper name
and a dot that are written without trivia are therefore merged with the lexeme behind them, and
layout works on the merged units. Only at the end of input can a qualifier be left without a name
to qualify.
-/

namespace Offside.Token

open Source

/-- A lexeme with the qualifier written in front of it. -/
structure Qualified where
  /-- Proper names and dots in alternation, none with trivia. -/
  qualifier : List Lexeme
  /-- The lexeme that is qualified, absent only behind a dangling qualifier. -/
  core : Option Lexeme
deriving DecidableEq, Repr

namespace Qualified

def plain (lexeme : Lexeme) : Qualified := ⟨[], some lexeme⟩

/-- A token without text, as the layout rule inserts them. -/
def point (kind : Kind) (position : Position) : Qualified := plain (.bare (.point kind position))

def isQualified (unit : Qualified) : Bool := !unit.qualifier.isEmpty

def lexemes (unit : Qualified) : List Lexeme := unit.qualifier ++ unit.core.toList

def tokens (unit : Qualified) : List Placed := unit.lexemes.flatMap Lexeme.tokens

def coreKind? (unit : Qualified) : Option Kind := unit.core.map Lexeme.kind

def firstKind? (unit : Qualified) : Option Kind := unit.lexemes.head?.map Lexeme.kind

def start (unit : Qualified) : Position :=
  match unit.lexemes.head? with
  | some lexeme => lexeme.token.start
  | none => .zero

/-- Where the last token ends, which is where the next unit starts. -/
def stop (unit : Qualified) : Position :=
  match unit.lexemes.getLast? with
  | some lexeme => lexeme.stop
  | none => .zero

end Qualified

/-- Whether two lexemes are a proper name and its dot, both without trivia. -/
def qualifies (name dot : Lexeme) : Bool :=
  name.kind == .properName && name.trailing.isEmpty && dot.kind == .dot && dot.trailing.isEmpty

/-- The units of the lexemes, behind a qualifier read already. -/
def mergeFrom (qualifier : List Lexeme) : List Lexeme → List Qualified
  | [] => if qualifier.isEmpty then [] else [⟨qualifier, none⟩]
  | [last] => [⟨qualifier, some last⟩]
  | name :: dot :: rest =>
    if qualifies name dot then mergeFrom (qualifier ++ [name, dot]) rest
    else ⟨qualifier, some name⟩ :: mergeFrom [] (dot :: rest)

/-- The lexemes with qualifiers merged into what they qualify. -/
def mergeQualifiers (lexemes : List Lexeme) : List Qualified := mergeFrom [] lexemes

end Offside.Token
