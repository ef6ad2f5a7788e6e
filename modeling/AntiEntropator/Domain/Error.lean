import AntiEntropator.Domain.Observation

/-!
# Errors

An error is a cause and the contexts added on its way up, outermost first.
Two causes are typed, because a caller tells them apart; the rest is text.
-/

namespace AntiEntropator

/-- The source file's bytes no longer match the hash the caller expected. -/
structure SourceChanged where
  expectedHash : String
  actualHash : Option String
  expectedLen : Nat
  actualLen : Nat
  deriving DecidableEq

def SourceChanged.display (changed : SourceChanged) : String :=
  match changed.actualHash with
  | some actual =>
      "source changed during upload: expected sha256 " ++ changed.expectedHash ++ " (" ++
        toString changed.expectedLen ++ " bytes), read " ++ actual ++ " (" ++
        toString changed.actualLen ++ " bytes); nothing stored"
  | none =>
      "source changed before upload: expected " ++ toString changed.expectedLen ++
        " bytes, file is now " ++ toString changed.actualLen ++ " bytes; nothing stored"

structure IntegrityMismatch where
  key : String
  field : String
  stored : String
  expected : String
  deriving DecidableEq

def IntegrityMismatch.display (mismatch : IntegrityMismatch) : String :=
  "CAS integrity mismatch for " ++ mismatch.key ++ ": stored " ++ mismatch.field ++ " is " ++
    mismatch.stored ++ ", local file has " ++ mismatch.expected ++ "; object left untouched"

def NonUtf8Path.message (path : NonUtf8Path) : String :=
  "path is not valid UTF-8 and cannot be a catalog identity: " ++ path.display

inductive Cause where
  | sourceChanged : SourceChanged → Cause
  | integrityMismatch : IntegrityMismatch → Cause
  | nonUtf8Path : NonUtf8Path → Cause
  | message : String → Cause
  deriving DecidableEq

def Cause.display : Cause → String
  | .sourceChanged changed => changed.display
  | .integrityMismatch mismatch => mismatch.display
  | .nonUtf8Path path => path.message
  | .message text => text

structure Error where
  contexts : List String
  cause : Cause
  deriving DecidableEq

namespace Error

def ofCause (cause : Cause) : Error := ⟨[], cause⟩

/-- `anyhow!(text)`, or the error of a library call. -/
def msg (text : String) : Error := ofCause (.message text)

def context (error : Error) (text : String) : Error :=
  { error with contexts := text :: error.contexts }

/-- `format!` with the plain form: the outermost context, else the cause. -/
def display (error : Error) : String := error.contexts.headD error.cause.display

def isSourceChanged (error : Error) : Bool :=
  match error.cause with
  | .sourceChanged _ => true
  | _ => false

end Error

end AntiEntropator
