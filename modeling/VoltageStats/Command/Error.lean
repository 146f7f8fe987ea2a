import VoltageStats.FileTree.Statistics
import VoltageStats.Options.ArgumentFile
import VoltageStats.Views

/-!
# Errors of commands

A command fails for one of the causes below. `CommandError.message` is what is shown.
-/

namespace VoltageStats

/-- Why a command fails. -/
inductive CommandError where
  /-- The settings cannot be used. -/
  | config (error : ConfigError)
  /-- An archive cannot be read. -/
  | read (error : FormatError)
  /-- There is no archive at a path. -/
  | notFound (path : String)
  /-- The statistics to be written do not fit together. -/
  | write (error : StatsError)
  /-- There is no path for the archive. -/
  | noPath (error : StatPathError)
  | selection (error : SelectorError)
  | argumentFile (error : ArgumentFileError)
  /-- The host does not allow what has to be done. -/
  | host
  deriving DecidableEq, Repr

namespace CommandError

/-- The message for a command that fails. -/
def message : CommandError → String
  | config error => "Invalid generator configuration: " ++ error.message
  | read error => error.message
  | notFound path => (ReadError.notFound path).message
  | write error => error.message
  | noPath error => "Couldn't determine the STAT file path: " ++ error.message ++
    "\n\nEither supply --output, or --stat-base with the scan identifiers"
  | selection error => error.message
  | argumentFile error => error.message
  | host => "A file or the memory is not accessible"

/-- The cause of a command's failure to read an archive. -/
def ofRead : ReadError → CommandError
  | .notFound path => .notFound path
  | .format error => .read error
  | .unreadable => .host

/-- The cause of a command's failure to write an archive. -/
def ofWrite : WriteError → CommandError
  | .inconsistent error => .write error
  | .unwritable => .host

end CommandError

end VoltageStats
