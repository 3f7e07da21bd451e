/-! # Faults of file operations

The causes a file operation can fail for, worded as the operating system words them.
-/
namespace NavTree

inductive FileFault where
  | notFound | inputOutput | argumentTooLong | denied | busy | exists | notDirectory | isDirectory
  | invalid | noSpace | nameTooLong | notEmpty | tooManyLinks | zeroByte | notText
deriving DecidableEq, Repr

def FileFault.message : FileFault → String
  | notFound => "No such file or directory (os error 2)"
  | inputOutput => "Input/output error (os error 5)"
  | argumentTooLong => "Argument list too long (os error 7)"
  | denied => "Permission denied (os error 13)"
  | busy => "Device or resource busy (os error 16)"
  | .exists => "File exists (os error 17)"
  | notDirectory => "Not a directory (os error 20)"
  | isDirectory => "Is a directory (os error 21)"
  | invalid => "Invalid argument (os error 22)"
  | noSpace => "No space left on device (os error 28)"
  | nameTooLong => "File name too long (os error 36)"
  | notEmpty => "Directory not empty (os error 39)"
  | tooManyLinks => "Too many levels of symbolic links (os error 40)"
  | zeroByte => "file name contained an unexpected NUL byte"
  | notText => "stream did not contain valid UTF-8"

end NavTree
