import Sow.Effect.Program
import Sow.Js.String

open sow.js sow.effect

namespace sow.db

/-- The closed failure taxonomy of every repository operation. -/
inductive DbErrorCode where
  | not_found
  | conflict
  | constraint_violation
  | serialization_failure
  | unavailable
  | stored_row_schema_violation
  | unknown
  deriving DecidableEq

/-- A value thrown by a driver: the string codes down its chain of causes, and the
    message it carries. -/
structure DriverError where
  codes : List (Option JsString)
  message : Option JsString
  deriving DecidableEq

structure DbError where
  code : DbErrorCode
  message : JsString
  cause : Option DriverError
  deriving DecidableEq

/-- What every repository method resolves to. -/
abbrev DbResult (α : Type) := Except DbError α

def notFound (what : JsString) : DbError := ⟨.not_found, what ++ str " not found", none⟩

namespace postgres

/-- The chain of causes is walked five levels deep. -/
def extractSqlState (cause : DriverError) : Option JsString := (cause.codes.take 5).findSome? id

def mapDriverCode : Option JsString → DbErrorCode
  | none => .unknown
  | some raw =>
    if raw = str "23505" then .conflict
    else if startsWith raw (str "23") then .constraint_violation
    else if startsWith raw (str "40") then .serialization_failure
    else if startsWith raw (str "08") || startsWith raw (str "57P") || raw = str "53300" then .unavailable
    else .unknown

def toDbError (cause : DriverError) : DbError :=
  ⟨mapDriverCode (extractSqlState cause), cause.message.getD (str "postgres operation failed"), some cause⟩

/-- Run a unit of work, translating any driver throw to a typed error. -/
def run {Op : Type} {Ret : Op → Type} {α : Type} (fn : Program Op Ret DriverError (DbResult α)) :
    Program Op Ret DriverError (DbResult α) :=
  fn.tryCatch fun cause => pure (.error (toDbError cause))

end postgres

end sow.db
