import Mathlib

/-!
# Errors of input and output

`std::io::Error` as its kind and its text, with the kinds that programs tell
apart.
-/
namespace Core

inductive ErrorKind where
  | notFound
  | alreadyExists
  | wouldBlock
  | timedOut
  | interrupted
  | unexpectedEof
  | invalidInput
  | invalidData
  | other
  deriving DecidableEq, Repr

structure IoError where
  kind : ErrorKind
  message : String
  deriving DecidableEq, Repr

/-- How a read with a time limit ends, by the platform. -/
def IoError.timeout (e : IoError) : Bool := e.kind == .wouldBlock || e.kind == .timedOut

end Core
