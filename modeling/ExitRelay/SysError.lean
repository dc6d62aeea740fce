/-!
# System errors

`SysError` lists the causes for which an operation on a processor can fail, in the order of
their codes.  `SysError.name` is the name of a cause in reports and `SysError.message` the
sentence that explains it.
-/

namespace ExitRelay

/-- The cause of a failed operation. -/
inductive SysError where
  | addrInUse | alreadyConnected | alreadyExists | argumentListTooLong | badAddress
  | badFileDescriptor | badState | brokenPipe | connectionRefused | connectionReset
  | crossesDevices | directoryNotEmpty | filesystemLoop | illegalBytes | inProgress
  | interrupted | invalidData | invalidExecutable | invalidInput | io | isADirectory
  | nameTooLong | noMemory | noSuchDevice | noSuchProcess | notADirectory | notASocket
  | notATty | notConnected | notFound | operationNotPermitted | operationNotSupported
  | outOfRange | permissionDenied | readOnlyFilesystem | resourceBusy | storageFull
  | timedOut | tooManyOpenFiles | unexpectedEof | unsupported | wouldBlock | writeZero
  deriving DecidableEq, Repr

namespace SysError

/-- Every cause, by ascending code. -/
def all : List SysError :=
  [.addrInUse, .alreadyConnected, .alreadyExists, .argumentListTooLong, .badAddress,
    .badFileDescriptor, .badState, .brokenPipe, .connectionRefused, .connectionReset,
    .crossesDevices, .directoryNotEmpty, .filesystemLoop, .illegalBytes, .inProgress,
    .interrupted, .invalidData, .invalidExecutable, .invalidInput, .io, .isADirectory,
    .nameTooLong, .noMemory, .noSuchDevice, .noSuchProcess, .notADirectory, .notASocket,
    .notATty, .notConnected, .notFound, .operationNotPermitted, .operationNotSupported,
    .outOfRange, .permissionDenied, .readOnlyFilesystem, .resourceBusy, .storageFull,
    .timedOut, .tooManyOpenFiles, .unexpectedEof, .unsupported, .wouldBlock, .writeZero]

/-- The name of a cause. -/
def name : SysError → String
  | .addrInUse => "AddrInUse"
  | .alreadyConnected => "AlreadyConnected"
  | .alreadyExists => "AlreadyExists"
  | .argumentListTooLong => "ArgumentListTooLong"
  | .badAddress => "BadAddress"
  | .badFileDescriptor => "BadFileDescriptor"
  | .badState => "BadState"
  | .brokenPipe => "BrokenPipe"
  | .connectionRefused => "ConnectionRefused"
  | .connectionReset => "ConnectionReset"
  | .crossesDevices => "CrossesDevices"
  | .directoryNotEmpty => "DirectoryNotEmpty"
  | .filesystemLoop => "FilesystemLoop"
  | .illegalBytes => "IllegalBytes"
  | .inProgress => "InProgress"
  | .interrupted => "Interrupted"
  | .invalidData => "InvalidData"
  | .invalidExecutable => "InvalidExecutable"
  | .invalidInput => "InvalidInput"
  | .io => "Io"
  | .isADirectory => "IsADirectory"
  | .nameTooLong => "NameTooLong"
  | .noMemory => "NoMemory"
  | .noSuchDevice => "NoSuchDevice"
  | .noSuchProcess => "NoSuchProcess"
  | .notADirectory => "NotADirectory"
  | .notASocket => "NotASocket"
  | .notATty => "NotATty"
  | .notConnected => "NotConnected"
  | .notFound => "NotFound"
  | .operationNotPermitted => "OperationNotPermitted"
  | .operationNotSupported => "OperationNotSupported"
  | .outOfRange => "OutOfRange"
  | .permissionDenied => "PermissionDenied"
  | .readOnlyFilesystem => "ReadOnlyFilesystem"
  | .resourceBusy => "ResourceBusy"
  | .storageFull => "StorageFull"
  | .timedOut => "TimedOut"
  | .tooManyOpenFiles => "TooManyOpenFiles"
  | .unexpectedEof => "UnexpectedEof"
  | .unsupported => "Unsupported"
  | .wouldBlock => "WouldBlock"
  | .writeZero => "WriteZero"

/-- The sentence that explains a cause. -/
def message : SysError → String
  | .addrInUse => "Address in use"
  | .alreadyConnected => "Already connected"
  | .alreadyExists => "Entity already exists"
  | .argumentListTooLong => "Argument list too long"
  | .badAddress => "Bad address"
  | .badFileDescriptor => "Bad file descriptor"
  | .badState => "Bad internal state"
  | .brokenPipe => "Broken pipe"
  | .connectionRefused => "Connection refused"
  | .connectionReset => "Connection reset"
  | .crossesDevices => "Cross-device link or rename"
  | .directoryNotEmpty => "Directory not empty"
  | .filesystemLoop => "Filesystem loop or indirection limit"
  | .illegalBytes => "Illegal byte sequence"
  | .inProgress => "Operation in progress"
  | .interrupted => "Operation interrupted"
  | .invalidData => "Invalid data"
  | .invalidExecutable => "Invalid executable format"
  | .invalidInput => "Invalid input parameter"
  | .io => "I/O error"
  | .isADirectory => "Is a directory"
  | .nameTooLong => "Filename too long"
  | .noMemory => "Out of memory"
  | .noSuchDevice => "No such device"
  | .noSuchProcess => "No such process"
  | .notADirectory => "Not a directory"
  | .notASocket => "Not a socket"
  | .notATty => "Inappropriate ioctl for device"
  | .notConnected => "Not connected"
  | .notFound => "Entity not found"
  | .operationNotPermitted => "Operation not permitted"
  | .operationNotSupported => "Operation not supported"
  | .outOfRange => "Result out of range"
  | .permissionDenied => "Permission denied"
  | .readOnlyFilesystem => "Read-only filesystem"
  | .resourceBusy => "Resource busy"
  | .storageFull => "No storage space"
  | .timedOut => "Timed out"
  | .tooManyOpenFiles => "Too many open files"
  | .unexpectedEof => "Unexpected end of file"
  | .unsupported => "Operation not supported"
  | .wouldBlock => "Operation would block"
  | .writeZero => "Write zero"

/-- The cause with a name. -/
def ofName? (s : String) : Option SysError :=
  all.find? (·.name = s)

theorem mem_all (e : SysError) :
  e ∈ all
  := by
  cases e <;> decide

end SysError

end ExitRelay
