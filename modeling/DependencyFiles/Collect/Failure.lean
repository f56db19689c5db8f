import DependencyFiles.Collect.DependencyFile
import DependencyFiles.Ecosystem.Reference
import DependencyFiles.Provider.Basic
import DependencyFiles.Text.Basic

/-!
# Failures of a collection

Missing directories and files, files that cannot be understood, and packages that cannot
be reached are properties of the repositories. Every other answer without result is the
provider's error, passed on as it is.
-/

namespace DependencyFiles

/-- A package whose specification was not found. -/
structure Unreachable where
  name : String
  reason : String
  deriving DecidableEq, Repr

/-- Why a collection has no result. -/
inductive Failure where
  | directoryNotFound (directory : String)
  | fileNotFound (path : String)
  | notParseable (path reason : String)
  /-- Packages could not be reached; all that was collected is carried along. -/
  | unreachable (dependencies : List Unreachable) (collected : List DependencyFile)
  | provider (error : ProviderError)
  | settingsUnreadable (path reason : String)
  | settingsInvalid (origin reason : String)
  | unknownEcosystem (id : String)
  deriving DecidableEq

namespace Failure

/-- The wording of a failure. -/
def message : Failure → String
  | directoryNotFound directory => "Directory not found: " ++ directory
  | fileNotFound path => "Dependency file not found: " ++ path
  | notParseable path reason => "Dependency file not parseable: " ++ path ++ ": " ++ reason
  | unreachable dependencies _ =>
    "The following path based dependencies could not be retrieved:" ++
      String.join (dependencies.map fun dependency => "\n* " ++ dependency.name)
  | provider error => error.message
  | settingsUnreadable path reason => "Failed to read configuration " ++ path ++ ": " ++ reason
  | settingsInvalid origin reason => "Invalid configuration in " ++ origin ++ ": " ++ reason
  | unknownEcosystem id => "Unknown ecosystem: " ++ id

/-- The path of the file that a failure is about. -/
def filePath? : Failure → Option String
  | fileNotFound path => some path
  | notParseable path _ => some path
  | _ => none

/-- What follows the last slash of a path. -/
def lastPart (path : String) : String :=
  match Text.splitAtLast? '/' path.toList with
  | some (_, name) => String.ofList name
  | none => path

/-- What stands before the last slash of a path; the root for a name beneath it, and a dot for
a bare name. -/
def directoryPart (path : String) : String :=
  match Text.splitAtLast? '/' path.toList with
  | some ([], _) => "/"
  | some (directory, _) => String.ofList directory
  | none => "."

/-- The name of the file that a failure is about. -/
def fileName? (failure : Failure) : Option String := failure.filePath?.map lastPart

/-- The directory of the file that a failure is about, or the missing directory itself. -/
def directory? : Failure → Option String
  | directoryNotFound directory => some directory
  | failure => failure.filePath?.map directoryPart

/-- The files that were collected before a failure that waits for the end. -/
def collected? : Failure → Option (List DependencyFile)
  | unreachable _ collected => some collected
  | _ => none

/-- Whether the failure is the provider's. -/
def isProviderError : Failure → Bool
  | provider _ => true
  | _ => false

/-- The failure to list a directory. -/
def ofListing (error : ProviderError) (directory : String) : Failure :=
  if error.isNotFound then directoryNotFound directory else provider error

/-- The failure to read a file that must exist. -/
def ofReading (error : ProviderError) (path : String) : Failure :=
  if error.isNotFound then fileNotFound path else provider error

/-- The failure to tell the references of a file. -/
def ofScan (error : ScanError) (path : String) : Failure := notParseable path error.message

end Failure

end DependencyFiles
