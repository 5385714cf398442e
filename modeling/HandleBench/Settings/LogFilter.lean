import HandleBench.Text.Blank

/-!
# Log filters

Which log lines are shown: explicit directives first, unless they are blank, then those of the
environment, then a default that depends on how talkative the program was asked to be.
-/

namespace HandleBench

/-- The directives in force. -/
def logDirectives (explicit environment : Option String) (verbose : Bool) : String :=
  match explicit.filter fun directives => !Text.allBlank directives with
  | some directives => directives
  | none =>
    match environment with
    | some directives => directives
    | none => if verbose then "bench_bridge=debug" else "bench_bridge=info"

end HandleBench
