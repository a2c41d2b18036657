/-
# Failures of storage

A storage operation fails because nothing is stored under its path, or because of something else
that the medium has to say. The first is part of normal work; the second ends the operation that
needed the file.
-/

namespace TableStore

/-- Why a file system refuses an operation. -/
inductive HostFailure where
  | missing
  | notDirectory
  | isDirectory
  | nameTooLong
  /-- The path holds a character that no path may hold. -/
  | invalidPath
  /-- A directory that cannot be removed, because it is in use. -/
  | busy
  /-- The contents were to be text, and are not. -/
  | notText
  deriving DecidableEq, Repr

/-- Texts that the store shows but does not choose: what the reader of JSON and what the file
system have to say about a failure. -/
structure Wording where
  malformed : String
  host : HostFailure → String

/-- What an input or output failure comes from. -/
inductive IoCause where
  | host (failure : HostFailure)
  /-- A failure that was asked for. -/
  | injected
  deriving DecidableEq, Repr

/-- Why a storage operation failed. -/
inductive FileError where
  | notFound (path : String)
  | io (path : String) (cause : IoCause)
  deriving DecidableEq, Repr

namespace FileError

/-- A refusal of the file system: a missing file is a matter of its own. -/
def ofHost (path : String) : HostFailure → FileError
  | .missing => .notFound path
  | failure => .io path (.host failure)

/-- The stable code of a failure. -/
def code : FileError → String
  | .notFound _ => "ROWQUERY_BACKEND_NOT_FOUND"
  | .io _ _ => "ROWQUERY_BACKEND_IO_ERROR"

/-- Whether nothing is stored under the path. -/
def isNotFound : FileError → Bool
  | .notFound _ => true
  | .io _ _ => false

/-- The text of a failure. -/
def message (wording : Wording) : FileError → String
  | .notFound path => "Path not found: " ++ path
  | .io path (.host failure) => "I/O error at " ++ path ++ ": " ++ wording.host failure
  | .io path .injected => "I/O error at " ++ path ++ ": injected fault"

end FileError

end TableStore
