import RssMdmAgent.ContractIdentity

set_option autoImplicit false

/-! # Bounded process facts -/

namespace RssMdmAgent.ContractProcess
open ContractIdentity

inductive ProcessScope where
  | preparing
  | delegated (subject session : Identifier)
  | notStarted
  | processGroup (owner group : Nat)
  | jobObject (name : String) (session : Nat)
  deriving DecidableEq, Repr

/-- Why a bounded process owner stopped collecting output. -/
inductive ProcessEnd where
  | rejected
  | exited
  | cancelled
  | timedOut
  | outputLimit
  | unknown
  deriving DecidableEq, Repr

inductive OutputQuality where
  | complete
  | truncated
  | failed
  | partialCapture
  deriving DecidableEq, Repr

inductive ProcessFailureKind where
  | none
  | denied
  | unbound
  | capability
  | unsupported
  | invalidInput
  | capacity
  | conflict
  | unavailable
  | runtime
  | spawn
  | inputDelivery
  | capture
  | supervision
  | outputValidation
  deriving DecidableEq, Repr

/-- Terminal capture persisted beside the execution attempt. -/
structure ProcessEvidence where
  contentDigest : Digest
  attemptId : AttemptId
  runner : Identifier
  scope : ProcessScope
  finished : Bool
  exitCode : Option Int
  processEnd : ProcessEnd
  failureKind : ProcessFailureKind
  quiescent : Bool
  stdout : List UInt8
  stderr : List UInt8
  totalOutputBytes : Nat
  quality : OutputQuality
  deriving DecidableEq, Repr

def ProcessEvidence.exitedZero (p : ProcessEvidence) : Bool :=
  p.processEnd == .exited && p.exitCode == some 0 && p.failureKind == .none

end RssMdmAgent.ContractProcess
