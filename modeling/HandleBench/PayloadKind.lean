/-!
# Kinds of payload

The kinds of value that an object can hold, each with the name that a refusal gives it.
-/

namespace HandleBench

/-- The kind of a payload. -/
inductive PayloadKind where
  /-- One octet. -/
  | octet
  /-- One 64-bit word. -/
  | word
  /-- A text. -/
  | text
  /-- A list of 32-bit words. -/
  | words
  /-- Matrices, by component and sample. -/
  | matrices
  /-- Raw samples, by operand position. -/
  | samples
  deriving DecidableEq, Repr

/-- The name of a kind in messages. -/
def PayloadKind.label : PayloadKind → String
  | .octet => "u8"
  | .word => "u64"
  | .text => "alloc::string::String"
  | .words => "alloc::vec::Vec<u32>"
  | .matrices => "bench_bridge::backend::example::MatMulData"
  | .samples => "alloc::vec::Vec<(u64, alloc::vec::Vec<alloc::vec::Vec<u8>>)>"

end HandleBench
