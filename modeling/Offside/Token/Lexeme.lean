import Offside.Token.Basic

/-! # Lexemes

The layout rule must not see trivia. Every trivia token is therefore hung on the significant token
before it; trivia in front of the first significant token has nothing to hang on and is set apart.
-/

namespace Offside.Token

open Source

/-- A significant token and the trivia behind it. -/
structure Lexeme where
  token : Placed
  /-- The trivia that follows it, in order. -/
  trailing : List Placed
deriving DecidableEq, Repr

namespace Lexeme

def bare (token : Placed) : Lexeme := ⟨token, []⟩

def kind (lexeme : Lexeme) : Kind := lexeme.token.kind

def tokens (lexeme : Lexeme) : List Placed := lexeme.token :: lexeme.trailing

/-- Where the lexeme ends, trivia included. -/
def stop (lexeme : Lexeme) : Position :=
  match lexeme.trailing.getLast? with
  | some last => last.stop
  | none => lexeme.token.stop

end Lexeme

/-- The tokens as leading trivia and lexemes. -/
def groupTrivia : List Placed → List Placed × List Lexeme
  | [] => ([], [])
  | token :: rest =>
    let (trivia, lexemes) := groupTrivia rest
    if token.kind.isTrivia then (token :: trivia, lexemes) else ([], ⟨token, trivia⟩ :: lexemes)

def lexemes (tokens : List Placed) : List Lexeme := (groupTrivia tokens).2

def leadingTrivia (tokens : List Placed) : List Placed := (groupTrivia tokens).1

end Offside.Token
