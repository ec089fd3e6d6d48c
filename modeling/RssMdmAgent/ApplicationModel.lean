import Mathlib.Tactic.Linarith

set_option autoImplicit false

/-! # Errors of the application and of its journal -/

namespace RssMdmAgent.ApplicationModel

/-- Why an application operation, or a mechanism behind it, failed. -/
inductive AppError where
  | configuration
  | unbound
  | denied
  | notFound
  | conflict
  | invalidInput
  | clock
  | capability
  | unsupported
  | capacity
  | unavailable
  | storage
  | unsupportedSchema (found supported : Nat)
  | outcomeUnknown
  | confirmationUnknown
  deriving DecidableEq, Repr

/-- Why a journal operation failed. -/
inductive JournalError where
  | configuration
  | invalidInput
  | denied
  | notFound
  | conflict
  | clock
  | trust
  | busy
  | capacity
  | corrupt
  | schema
  | storage
  | operationCommitUnknown
  | confirmationCommitUnknown
  deriving DecidableEq, Repr

def AppError.ofJournal : JournalError → AppError
  | .configuration => .configuration
  | .invalidInput => .invalidInput
  | .denied => .denied
  | .notFound => .notFound
  | .conflict => .conflict
  | .clock => .clock
  | .trust | .busy => .unavailable
  | .capacity => .capacity
  | .operationCommitUnknown => .outcomeUnknown
  | .confirmationCommitUnknown => .confirmationUnknown
  | .corrupt | .schema | .storage => .storage

end RssMdmAgent.ApplicationModel
