namespace InjectionPlan
namespace Command

/-!
# Access to files

The command reads files and writes at most one, through the operations of a storage.  They belong
to the monad in which the files live, which is all that the command knows about it.
-/

/-- Why a file cannot be used. -/
inductive FileError
  | notFound
  | notFolder
  | isFolder
  | nameTooLong
  | zeroInName
  | notText
  /-- A cause that has no name here, as the system tells it. -/
  | other (details : String) (code : Nat)
deriving DecidableEq

def FileError.message : FileError -> String
  | .notFound => "No such file or directory (os error 2)"
  | .notFolder => "Not a directory (os error 20)"
  | .isFolder => "Is a directory (os error 21)"
  | .nameTooLong => "File name too long (os error 36)"
  | .zeroInName => "file name contained an unexpected NUL byte"
  | .notText => "stream did not contain valid UTF-8"
  | .other details code => details ++ " (os error " ++ toString code ++ ")"

/-- The cause with a number in the system, which may be given as a negative one in 32 bits. -/
def FileError.ofCode (code : Nat) (details : String) : FileError :=
  match if code < Nat.pow 2 31 then code else Nat.pow 2 32 - code with
  | 2 => .notFound
  | 20 => .notFolder
  | 21 => .isFolder
  | 36 => .nameTooLong
  | number => .other details number

/-- Operations on files.  A handle stands for a file that is open for writing. -/
structure Storage (m : Type -> Type) (Handle : Type) where
  /-- The bytes of the file with a path. -/
  read : (path : String) -> m (Except FileError ByteArray)
  /-- Opens a file, without its former content if it had any. -/
  create : (path : String) -> m (Except FileError Handle)
  /-- Adds bytes to the end of an open file. -/
  append : Handle -> ByteArray -> m Unit

/-- The text of bytes that have been read. -/
def textOf (bytes : Except FileError ByteArray) : Except FileError String :=
  bytes.bind fun bytes =>
    match String.fromUTF8? bytes with
    | some text => .ok text
    | none => .error .notText

end Command
end InjectionPlan
