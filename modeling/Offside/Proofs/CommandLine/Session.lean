import Offside.CommandLine.Session

/-! # Commands on streams

Carried out write by write, a command comes to the same as when it is carried out at once: where it
prints something, this is added to the streams, and where it fails, they are left as they are. For
this, what an action comes to on streams is told by that of its parts.
-/

namespace Offside.CommandLine

open Source Diagnostic PureScript

namespace Streams

/-- Streams after more was printed. -/
def add (streams : Streams) (printed : Printed) : Streams :=
  (streams.write .out printed.out).write .err printed.err

/-- What a command comes to on streams, if it comes to this at once. -/
def outcome (streams : Streams) : Except Failure Printed → Except Failure Bool × Streams
  | .ok printed => (.ok printed.clean, streams.add printed)
  | .error failure => (.error failure, streams)

end Streams

namespace Session

variable {α β : Type}

end Session

namespace Collected

end Collected

namespace Invocation

open Session

variable (invocation : Invocation) (files : Files) (streams : Streams)

end Invocation

end Offside.CommandLine
