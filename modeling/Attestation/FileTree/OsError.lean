/-!
# Errors of the operating system

A failed file or driver operation carries an error number, or names a path that holds a NUL character and so is never
handed to the system. `OsError.message` is the text that users see, `errorTexts` the system's own wording.
-/

namespace Attestation

/-- Why the operating system refused an operation. -/
inductive OsError where
  /-- The system answered with this error number. -/
  | code (n : Int)
  /-- A path with a NUL character names no file. -/
  | nulInPath
  deriving DecidableEq, Repr

namespace OsError

/-! ## Error numbers that the file tree gives -/

def notFound : OsError := .code 2

def alreadyExists : OsError := .code 17

/-- A component that has to be a directory is a file. -/
def notADirectory : OsError := .code 20

def isADirectory : OsError := .code 21

/-- The file behind the device node answers no driver requests. -/
def notADevice : OsError := .code 25

def nameTooLong : OsError := .code 36

/-! ## Texts -/

/-- The system's text of each error number, counted from zero. -/
def errorTexts : List String :=
  ["Success", "Operation not permitted", "No such file or directory", "No such process", "Interrupted system call",
    "Input/output error", "No such device or address", "Argument list too long", "Exec format error",
    "Bad file descriptor", "No child processes", "Resource temporarily unavailable", "Cannot allocate memory",
    "Permission denied", "Bad address", "Block device required", "Device or resource busy", "File exists",
    "Invalid cross-device link", "No such device", "Not a directory", "Is a directory", "Invalid argument",
    "Too many open files in system", "Too many open files", "Inappropriate ioctl for device", "Text file busy",
    "File too large", "No space left on device", "Illegal seek", "Read-only file system", "Too many links",
    "Broken pipe", "Numerical argument out of domain", "Numerical result out of range", "Resource deadlock avoided",
    "File name too long", "No locks available", "Function not implemented", "Directory not empty",
    "Too many levels of symbolic links", "Unknown error 41", "No message of desired type", "Identifier removed",
    "Channel number out of range", "Level 2 not synchronized", "Level 3 halted", "Level 3 reset",
    "Link number out of range", "Protocol driver not attached", "No CSI structure available", "Level 2 halted",
    "Invalid exchange", "Invalid request descriptor", "Exchange full", "No anode", "Invalid request code",
    "Invalid slot", "Unknown error 58", "Bad font file format", "Device not a stream", "No data available",
    "Timer expired", "Out of streams resources", "Machine is not on the network", "Package not installed",
    "Object is remote", "Link has been severed", "Advertise error", "Srmount error", "Communication error on send",
    "Protocol error", "Multihop attempted", "RFS specific error", "Bad message",
    "Value too large for defined data type", "Name not unique on network", "File descriptor in bad state",
    "Remote address changed", "Can not access a needed shared library", "Accessing a corrupted shared library",
    ".lib section in a.out corrupted", "Attempting to link in too many shared libraries",
    "Cannot exec a shared library directly", "Invalid or incomplete multibyte or wide character",
    "Interrupted system call should be restarted", "Streams pipe error", "Too many users",
    "Socket operation on non-socket", "Destination address required", "Message too long",
    "Protocol wrong type for socket", "Protocol not available", "Protocol not supported", "Socket type not supported",
    "Operation not supported", "Protocol family not supported", "Address family not supported by protocol",
    "Address already in use", "Cannot assign requested address", "Network is down", "Network is unreachable",
    "Network dropped connection on reset", "Software caused connection abort", "Connection reset by peer",
    "No buffer space available", "Transport endpoint is already connected", "Transport endpoint is not connected",
    "Cannot send after transport endpoint shutdown", "Too many references: cannot splice", "Connection timed out",
    "Connection refused", "Host is down", "No route to host", "Operation already in progress",
    "Operation now in progress", "Stale file handle", "Structure needs cleaning", "Not a XENIX named type file",
    "No XENIX semaphores available", "Is a named type file", "Remote I/O error", "Disk quota exceeded",
    "No medium found", "Wrong medium type", "Operation canceled", "Required key not available", "Key has expired",
    "Key has been revoked", "Key was rejected by service", "Owner died", "State not recoverable",
    "Operation not possible due to RF-kill", "Memory page has hardware error"]

/-- The system's text of an error number; numbers outside of the table have none of their own. -/
def textOf (n : Int) : String :=
  let unknown := "Unknown error " ++ toString n
  if n < 0 then unknown else errorTexts.getD n.toNat unknown

/-- The text of an error, with its number in parentheses. -/
def message : OsError → String
  | .code n => textOf n ++ " (os error " ++ toString n ++ ")"
  | .nulInPath => "file name contained an unexpected NUL byte"

end OsError

end Attestation
