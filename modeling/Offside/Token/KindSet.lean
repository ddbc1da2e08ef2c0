import Offside.Token.Kind

/-! # Sets of token kinds

A set holds one bit for each kind, at the kind's place in the order of declaration. Two sets with
the same members are equal, and a set lists its members in that order whatever order it was built
in.
-/

namespace Offside.Token

/-- A set of kinds, one bit each. -/
structure KindSet where
  /-- The bit at `kind.index` says whether `kind` is a member. -/
  bits : BitVec 61
deriving DecidableEq

namespace KindSet

def empty : KindSet := ⟨0⟩

def single (kind : Kind) : KindSet := ⟨BitVec.twoPow 61 kind.index⟩

def union (first second : KindSet) : KindSet := ⟨first.bits ||| second.bits⟩

def ofList (kinds : List Kind) : KindSet :=
  kinds.foldl (fun set kind => set.union (single kind)) empty

def contains (set : KindSet) (kind : Kind) : Bool := set.bits.getLsbD kind.index

def isEmpty (set : KindSet) : Bool := set.bits == 0

/-- The members in order of declaration. -/
def toList (set : KindSet) : List Kind := Kind.all.filter set.contains

def size (set : KindSet) : Nat := set.toList.length

def display (set : KindSet) : String :=
  "\x7b" ++ ", ".intercalate (set.toList.map Kind.name) ++ "\x7d"

instance : Inhabited KindSet := ⟨empty⟩

end KindSet

end Offside.Token
