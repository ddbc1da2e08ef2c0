import Offside.Layout.Apply
import Offside.Token.Placement
import Offside.Token.Scan

/-! # Lexing

From source text to the flat list of tokens that parsing starts from: scanned, placed, grouped into
lexemes, qualifiers merged, and blocks made explicit. Trivia in front of everything goes around the
layout rule. Every byte of the source stays covered by exactly one token that is not a layout
token, so the source can be put together again.
-/

namespace Offside

open Token

/-- Everything behind the scanner, for tokens from any tokenizer. -/
def lexRaw (config : Layout.Config) (source : String) (tokens : List Raw) : List Placed :=
  let (leading, lexemes) := groupTrivia (place source tokens)
  leading ++ (Layout.apply config (mergeQualifiers lexemes)).flatMap Qualified.tokens

def lex (config : Layout.Config) (source : String) : List Placed :=
  lexRaw config source (scan source)

end Offside
