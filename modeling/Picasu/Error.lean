import Mathlib.Data.List.Basic

/-! # Application Errors

The error value every fallible operation of the server returns: a kind, which decides the HTTP
status, and a message, with the optional context lines and retry hint the responder adds to the
body. The wrapped source error is never inspected by the modelled code and is left out.
-/

inductive ErrorKind where
  | notFound
  | permissionDenied
  | invalidInput
  | internal
  | conflict
  | database
  | io
  | serialization
  | auth
  | readOnlyMode
  | rateLimited
  deriving DecidableEq, Repr

structure AppError where
  kind : ErrorKind
  message : String
  context : List String := []
  retry_after_secs : Option Nat := none
  deriving DecidableEq, Repr

/-- `AppError::new`: no context lines and no retry hint. -/
def AppError.new (kind : ErrorKind) (message : String) : AppError := { kind, message }

def ErrorKind.as_str : ErrorKind → String
  | .notFound => "Not Found"
  | .permissionDenied => "Permission Denied"
  | .invalidInput => "Invalid Input"
  | .internal => "Internal Error"
  | .conflict => "Conflict"
  | .database => "Database Error"
  | .io => "I/O Error"
  | .serialization => "Serialization Error"
  | .auth => "Authentication Error"
  | .readOnlyMode => "Read Only Mode"
  | .rateLimited => "Rate Limited"

/-- The `Display` text of an error. -/
def AppError.display (e : AppError) : String :=
  e.context.foldl (fun text ctx => text ++ "\n  Context: " ++ ctx)
    (e.kind.as_str ++ ": " ++ e.message)
