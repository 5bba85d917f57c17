import OrgTree.Diff.Report
import OrgTree.Export.Error
import OrgTree.Sync.Error

/-!
# Errors of commands

Why a command fails, and the chain of words for it: what failed first, then why.
-/

namespace OrgTree.Command

/-- Why a file cannot be read or written. -/
inductive FileFault where
  | missing
  | isFolder
  | notFolder
  | nameTooLong
  | nulInPath
  /-- Any other reason, in the words of the system. -/
  | reported (words : String)
deriving DecidableEq, Repr

/-- The words for a fault. -/
def FileFault.message : FileFault → String
  | .missing => "No such file or directory (os error 2)"
  | .isFolder => "Is a directory (os error 21)"
  | .notFolder => "Not a directory (os error 20)"
  | .nameTooLong => "File name too long (os error 36)"
  | .nulInPath => "file name contained an unexpected NUL byte"
  | .reported words => words

/-- Why a command fails. -/
inductive CommandError where
  | configUnreadable (path : String) (fault : FileFault)
  | configInvalid (path : String)
  /-- The file of the units cannot be read or is no document. -/
  | dataUnreadable (path : String) (e : StoreError)
  /-- The document makes no store. -/
  | dataInvalid (e : StoreError)
  | dataUnwritable (path : String) (fault : FileFault)
  | outputUnwritable (path : String) (fault : FileFault)
  | passwordMissing (name : String)
  | diff (e : DiffError)
  | store (e : StoreError)
  | exporting (e : ExportError)
  | sync (e : SyncError)

/-- The chain of words for an error of a store. -/
def storeChain : StoreError → List String
  | .file words => [(StoreError.file words).message, words]
  | e => [e.message]

/-- The chain of words for an error of a comparison. -/
def diffChain : DiffError → List String
  | .store e => (DiffError.store e).message :: storeChain e
  | e => [e.message]

/-- The chain of words for an error of an export. -/
def exportChain : ExportError → List String
  | .remote words payload messages failure =>
    (ExportError.remote words payload messages failure).message
      :: (failure.map Remote.ClientError.message).toList
  | .cancelled => [ExportError.cancelled.message]

/-- The chain of words for an error of a synchronization. -/
def syncChain : SyncError → List String
  | .store e => (SyncError.store e).message :: storeChain e
  | .invalidDate text reason => [(SyncError.invalidDate text reason).message, reason.message]
  | e => [e.message]

/-- The chain of words for an error, outermost first. -/
def CommandError.chain : CommandError → List String
  | .configUnreadable path fault => ["reading " ++ path, fault.message]
  | .configInvalid path => ["in " ++ path, "invalid configuration"]
  | .dataUnreadable path e => ("reading pyramid " ++ path) :: storeChain e
  | .dataInvalid e => storeChain e
  | .dataUnwritable path fault => ("writing pyramid " ++ path) :: storeChain (.file fault.message)
  | .outputUnwritable path fault => ["writing " ++ path, fault.message]
  | .passwordMissing name =>
    ["environment variable " ++ name ++ " is not set", "environment variable not found"]
  | .diff e => diffChain e
  | .store e => storeChain e
  | .exporting e => exportChain e
  | .sync e => syncChain e

end OrgTree.Command
