/-
The errors of the runner (`src/runner/mod.rs`), which the StackerDB clients also answer with.
-/
import Mathlib.Tactic

namespace Wrb.Runner

inductive Error where
  | failedToRun (cmd : String) (reasons : List String)
  | failedToExecute (cmd : String) (ioe : String)
  | killedBySignal (cmd : String)
  | badExit (es : Int)
  | invalidOutput (s : String)
  | io (e : String)
  | serialize (s : String)
  | deserialize (s : String)
  | notConnected
  | notInitialized
  | noFeeEstimate
  | malformedRequest (s : String)
  | malformedResponse (s : String)
  | httpError (code : UInt32) (headers : List (String × String)) (bodyOffset : ℕ)
  | rpcError (msg : String)
  | storage (msg : String)
  | clarity (err : String)
  | database (err : String)
deriving DecidableEq, Repr

end Wrb.Runner
