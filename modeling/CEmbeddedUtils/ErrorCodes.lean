import Mathlib.Init

/-! # Error codes

    The codes of `error_codes.h`.  `ErrorCode_t` is an integer type so that an
    application can add codes of its own; the library returns only these. -/

/-- `enum ErrorCodes`. -/
inductive ErrorCode where
  | errNone
  | errGenericError
  | errNotInitialised
  | errInvalidState
  | errNoMem
  | errInvalidArg
  | errTimeout
  | errOutOfBounds
  | errNullPointer
  | errNoop
  | errIncomplete
  | errEmpty
  | errNotFound
  | errOverride
  | errBusy
  | errNotImplemented
  deriving DecidableEq, Repr
