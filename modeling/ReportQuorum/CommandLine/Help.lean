import ReportQuorum.CommandLine.Options

/-!
# Help

Help is laid out from the tables of subcommands and options: what is described stands in a first
column that is as wide as its widest item, the descriptions in a second one.

## Main definitions

* `Help.overview`: the help of the program
* `Help.ofVerb`: the help of a subcommand
* `Help.ofHelp`: the help of asking for help
-/

namespace ReportQuorum.CommandLine.Help

/-- Rows in two columns, each row on a line of its own. -/
def columns (rows : List (String × String)) : String :=
  let width := rows.foldl (fun w (left, _) => max w left.length) 0
  .join (rows.map fun (left, right) =>
    "  " ++ left ++ "".pushn ' ' (width - left.length) ++ "  " ++ right ++ "\n")

/-- The name of an option's value. -/
def placeholder (k : Setting) : String :=
  "<" ++ k.name.map (fun c => if c = '-' then '_' else c.toUpper) ++ ">"

/-- An option as it is typed. -/
def usage (k : Setting) : String := "--" ++ k.name ++ " " ++ placeholder k

/-- The row of an option. -/
def settingRow (k : Setting) : String × String :=
  let short :=
    match k.letter? with
    | some c => "-" ++ c.toString ++ ", "
    | none => "    "
  let fallback :=
    match k.presence with
    | .preset value => " [default: " ++ value ++ "]"
    | .required | .optional => ""
  (short ++ usage k, k.summary ++ fallback)

/-- The row that tells how to get help. -/
def helpRow : String × String := ("-h, --help", "Print help")

/-- What the subcommand for help does. -/
def helpSummary : String := "Print this message or the help of the given subcommand(s)"

/-- The help of the program. -/
def overview : String :=
  "Concord hash consensus engine and utilities\n\nUsage: " ++ programName ++
    " <COMMAND>\n\nCommands:\n" ++
    columns (Verb.all.map (fun v => (v.name, v.summary)) ++ [("help", helpSummary)]) ++
    "\nOptions:\n" ++ columns [helpRow, ("-V, --version", "Print version")]

/-- The help of a subcommand. -/
def ofVerb (v : Verb) : String :=
  let required := v.settings.filter (·.presence = .required)
  let options := if v.settings.any (·.presence ≠ .required) then " [OPTIONS]" else ""
  v.summary ++ "\n\nUsage: " ++ programName ++ " " ++ v.name ++ options ++
    .join (required.map (" " ++ usage ·)) ++
    "\n\nOptions:\n" ++ columns (v.settings.map settingRow ++ [helpRow])

/-- The help of asking for help. -/
def ofHelp : String :=
  helpSummary ++ "\n\nUsage: " ++ programName ++ " help [COMMAND]...\n\nArguments:\n" ++
    columns [("[COMMAND]...", "Print help for the subcommand(s)")]

end ReportQuorum.CommandLine.Help
