/-! # Character classes as boundary tables

A class of characters is written as the sorted code points at which membership changes. The
module says how such a table is read; the tables themselves stand in the modules named for the
property they record. Nothing here depends on which property that is.
-/

namespace Offside.Text

/-- Membership read from the boundaries not yet passed, where `inside` is the membership of every
point before the first of them. -/
def memberFrom (inside : Bool) (point : Nat) : List Nat → Bool
  | [] => inside
  | boundary :: rest =>
    if point < boundary then inside else memberFrom (!inside) point rest

/-- A class of characters, as the increasing code points at which membership flips. Points before
the first boundary are outside. -/
structure CharClass where
  boundaries : List Nat

/-- Whether a character belongs to the class. Early characters pass few boundaries, so ordinary
source text is classified in a handful of comparisons. -/
def CharClass.contains (cls : CharClass) (char : Char) : Bool :=
  memberFrom false char.toNat cls.boundaries

end Offside.Text
