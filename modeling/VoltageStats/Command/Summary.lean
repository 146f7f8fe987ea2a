import VoltageStats.Command.Generate
import VoltageStats.CommandLine.Invocation

/-!
# Summaries

The summary of an archive is its header and its statistics over all channels. It is logged as two
tables, or printed as a JSON document.
-/

namespace VoltageStats.Command

/-- A text with blanks in front, up to a width. -/
def alignRight (width : Nat) (text : String) : String :=
  String.ofList (List.replicate (width - text.length) ' ') ++ text

/-- A text with blanks after it, up to a width. -/
def alignLeft (width : Nat) (text : String) : String :=
  text ++ String.ofList (List.replicate (width - text.length) ' ')

/-- The lines of the header. Values start in one column. -/
def headerLines (rows : List HeaderRow) : List String :=
  let width := rows.foldl (fun width row => max width row.key.name.length) 0
  rows.map fun row => "  " ++ alignLeft width row.key.name ++ "  " ++ row.value.toText

/-- The widths of the columns of the statistics. -/
def columnWidths : List Nat := [3, 4, 11, 14, 14, 10]

/-- A line of the statistics. -/
def tableLine (cells : List String) : String :=
  "  " ++ " ".intercalate (columnWidths.zipWith alignRight cells)

/-- The lines of the statistics. -/
def tableLines (rows : List FrequencyAveragedRow) : List String :=
  tableLine ["pol", "dim", "rfi_excised", "mean", "variance", "clipped"] ::
    rows.map fun row => tableLine [row.pol.text, row.dim.text, JsonText.boolean row.rfiExcised,
      fixedPlaces 6 row.mean.value, fixedPlaces 6 row.variance.value,
      toString row.numClippedSamples]

/-- The JSON document of a summary. -/
def summaryJson (header : List HeaderRow) (rows : List FrequencyAveragedRow) : String :=
  JsonText.object [("header", JsonText.array (header.map (·.toJson))),
    ("frequency_averaged", JsonText.array (rows.map (·.toJson)))]

section

variable {m : Type → Type} [Monad m] [Host m]

/-- Reads the statistics in the archive at a path. The older format is warned of. -/
def readStatistics (path : String) : ExceptT CommandError m Statistics := do
  let opened ← ExceptT.lift (Host.open? path)
  if let .ok contents := opened then
    if contents.isLegacy then
      warn s!"{path} uses the legacy STAT format {legacyVersion}; sample counts will be zero"
  match readOpened path opened with
  | .ok statistics => return statistics
  | .error error => throw (.ofRead error)

/-- Summarises an archive. -/
def summarise (request : SummaryRequest) : ExceptT CommandError m Unit := do
  match Selection.ofIndices request.pol request.dim request.rfiExcised with
  | .error error => throw (.selection error)
  | .ok selection =>
    let statistics ← readStatistics request.path
    let rows := (statistics.frequencyAveraged selection).getD []
    if request.isJson then ExceptT.lift (Host.print (summaryJson statistics.header rows))
    else
      ([s!"{request.path}:"] ++ headerLines statistics.header ++ [""] ++ tableLines rows).forM info

end

end VoltageStats.Command
