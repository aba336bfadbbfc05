/-!
# Why files cannot be used

The causes for which the operating system refuses an access, with its wording and its numbers.
-/

namespace MockForge

/-- Why an access to a file fails. -/
inductive FileFault where
  | notFound
  | busy
  | alreadyExists
  | notDirectory
  | isDirectory
  | nameTooLong
  /-- The path holds the character that ends a path. -/
  | nulInPath
  /-- The file is no text. -/
  | notText
  | other (message : String)
  deriving DecidableEq, Repr

/-- The wording of a fault with its number. -/
def FileFault.numbered (text : String) (number : Nat) : String :=
  text ++ " (os error " ++ toString number ++ ")"

/-- The wording of a fault. -/
def FileFault.message : FileFault → String
  | .notFound => numbered "No such file or directory" 2
  | .busy => numbered "Device or resource busy" 16
  | .alreadyExists => numbered "File exists" 17
  | .notDirectory => numbered "Not a directory" 20
  | .isDirectory => numbered "Is a directory" 21
  | .nameTooLong => numbered "File name too long" 36
  | .nulInPath => "file name contained an unexpected NUL byte"
  | .notText => "stream did not contain valid UTF-8"
  | .other message => message

end MockForge
