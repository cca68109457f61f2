import ImportSupply.FileTree.Basic
import ImportSupply.Glob.Filter
import ImportSupply.Json.Complaint

/-!
# Failures

Why a scan, a setup or a command fails, and how that is worded. The transformation of a script
itself never fails, and neither does making the text of an output: there is no failure for it. A
write that fails leaves the file as it was, since a file is written as a whole or not at all.
-/

namespace ImportSupply

/-- Why something fails. -/
inductive Failure where
  /-- A file cannot be read or written. -/
  | access (path : String) (trouble : Trouble)
  /-- Options cannot be read. -/
  | configuration (path : String) (complaint : Json.Complaint)
  /-- A glob, or some globs with commas between them, cannot be used. -/
  | glob (text : String) (fault : Glob.Fault)
  /-- A declaration file is blank. -/
  | emptyDeclarations
  /-- A setup fails for one of these reasons. -/
  | setup (cause : Failure)
  deriving DecidableEq, Repr

namespace Failure

/-- The wording of a failure. -/
def message : Failure → String
  | access path trouble => "Failed to access '" ++ path ++ "': " ++ trouble.message
  | configuration path complaint =>
      "Invalid configuration in '" ++ path ++ "': " ++ complaint.message
  | glob text fault => "Invalid glob pattern '" ++ text ++ "': " ++ fault.message
  | emptyDeclarations => "Declaration content cannot be empty"
  | setup cause => "Failed to set up auto-imports plugin: " ++ cause.message

/-- A failure as that of a setup. -/
def inSetup : Failure → Failure
  | setup cause => setup cause
  | cause => setup cause

end Failure

end ImportSupply
