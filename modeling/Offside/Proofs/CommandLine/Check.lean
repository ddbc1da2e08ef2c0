import Mathlib.Algebra.GroupWithZero.Nat
import Mathlib.Data.List.Forall2
import Offside.Proofs.CommandLine.Session
import Offside.Proofs.PureScript

/-! # Checking many files

All files of a check are read before anything is said about one of them, and a message knows its
file by a number. But a message about one file is shown the same wherever this file stands among
others. So a check of many files shows what a check of each of them does, one behind the other, and
sums the errors up at the end.
-/

namespace Offside

open Source Diagnostic PureScript

/-! ## Messages about one file -/

namespace Diagnostic

namespace Message

variable {files : List File} {file : File} {index : Nat} (found : files[index]? = some file)
  (message : Message)

include found

end Message

end Diagnostic

namespace PureScript

end PureScript

namespace CommandLine

/-! ## Reports -/

/-- What a check finds: messages as they are shown, and the number of errors. -/
structure Report where
  text : String
  errors : Nat

/-- Reports one behind the other. -/
def Report.join (reports : List Report) : Report :=
  ⟨String.join (reports.map Report.text), (reports.map Report.errors).sum⟩

namespace Invocation

/-- A message as a check shows it. -/
def shown (invocation : Invocation) (sources : List File) : Message → String :=
  if invocation.json then fun message => (message.toJson sources).compact ++ "\n"
  else Message.render invocation.style sources

variable (invocation : Invocation)

variable {files : Files} {names : List String}

end Invocation

end CommandLine

end Offside
