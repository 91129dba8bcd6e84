import OperatorRules.Text.Quoted

/-!
# Errors of the system

What the system answers where an operation on files or programs fails, with the number and the
description that it goes by.
-/

namespace OperatorRules

inductive SystemError where
  | notFound
  | permissionDenied
  | busy
  | alreadyExists
  | notDirectory
  | isDirectory
  | invalid
  | nameTooLong
  /-- A path with a null character, which is refused before the system sees it. -/
  | nullInPath
  /-- Any other, with its number and description. -/
  | other (code : Nat) (description : String)
  deriving DecidableEq, Repr

namespace SystemError

def code : SystemError → Nat
  | notFound => 2
  | permissionDenied => 13
  | busy => 16
  | alreadyExists => 17
  | notDirectory => 20
  | isDirectory => 21
  | invalid => 22
  | nameTooLong => 36
  | nullInPath => 22
  | other code _ => code

def description : SystemError → String
  | notFound => "No such file or directory"
  | permissionDenied => "Permission denied"
  | busy => "Device or resource busy"
  | alreadyExists => "File exists"
  | notDirectory => "Not a directory"
  | isDirectory => "Is a directory"
  | invalid => "Invalid argument"
  | nameTooLong => "File name too long"
  | nullInPath => "file name contained an unexpected NUL byte"
  | other _ description => description

/-- The text of an error; the number is told if the system itself gave it. -/
def message (e : SystemError) : String :=
  if e = nullInPath then e.description
  else e.description ++ " (os error " ++ String.ofList (Text.decimal e.code) ++ ")"

end SystemError

inductive IoError where
  | system (e : SystemError)
  /-- An error of the system on a path that the operation does not name itself. -/
  | located (e : SystemError) (path : String)
  /-- A failure that is only told in words. -/
  | told (text : String)
  deriving DecidableEq, Repr

namespace IoError

/-- The text of an error. -/
def message : IoError → String
  | system e => e.message
  | located e path => e.message ++ " at path " ++ Text.quote path
  | told text => text

end IoError

end OperatorRules
