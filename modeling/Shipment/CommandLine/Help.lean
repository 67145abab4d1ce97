import Shipment.CommandLine.Arguments

/-!
# Help pages and usage errors

The help page of a level has what it is for, how it is used, and its commands,
words and flags.  A command line that cannot be read is answered with one line
that says why and one that points to the help page.  Only help and the version
count as success.
-/

namespace Shipment.CommandLine

/-- Names in a column and what they are for. -/
def columns (rows : List (String × String)) : String :=
  let width := rows.foldl (fun w row => max w row.1.length) 0
  String.join <| rows.map fun row =>
    "  " ++ row.1 ++ "".pushn ' ' (width - row.1.length) ++ "  " ++ row.2 ++ "\n"

/-- A section of a help page, if it has anything. -/
def pageSection (title : String) (rows : List (String × String)) : String :=
  if rows.isEmpty then "" else "\n" ++ title ++ ":\n" ++ columns rows

/-- The names of a flag and its value. -/
def flagNames (f : Flag) : String :=
  let short := (f.short.map fun c => String.ofList ['-', c]).toList
  let long := (f.long.map fun name => "--" ++ name).toList
  let value :=
    match f.effect with
    | .value label _ => " <" ++ label ++ ">"
    | _ => ""
  Text.joinWith ", " (short ++ long) ++ value

/-- A word as it is written in a usage line. -/
def wordUsage (w : Word) : String :=
  let name := w.name.map Char.toUpper
  if w.required then "<" ++ name ++ ">" else "[" ++ name ++ "]"

/-- The usage line of a level. -/
def usage (l : Level) : String :=
  Text.joinWith " " <|
    ["Usage:", l.name, "[OPTIONS]"] ++ l.words.map wordUsage ++
    if l.commands.isEmpty then [] else ["[COMMAND]"]

/-- The help page of a level. -/
def helpPage (l : Level) : String :=
  l.about ++ "\n\n" ++ usage l ++ "\n" ++
  pageSection "Commands"
    ((l.commands.filter fun c => c.name != completionsLevel.name).map fun c =>
      (c.name, c.about)) ++
  pageSection "Arguments" (l.words.map fun w => (wordUsage w, w.about)) ++
  pageSection "Options" (l.flags.map fun f => (flagNames f, f.about))

namespace Stop

/-- The fault in words, or what was asked for. -/
def text : Stop → String
  | unknownArgument argument => "error: unexpected argument '" ++ argument ++ "' found\n"
  | unknownCommand argument => "error: unrecognized subcommand '" ++ argument ++ "'\n"
  | invalidValue flag => "error: a value is required for '" ++ flag ++ "' but none was supplied\n"
  | missingWord word => "error: the required argument '" ++ word ++ "' was not provided\n"
  | conflict first second =>
      if first = second then
        "error: the argument '" ++ first ++ "' cannot be used multiple times\n"
      else
        "error: the argument '" ++ first ++ "' cannot be used with '" ++ second ++ "'\n"
  | surplusValue flag =>
      "error: unexpected value for '" ++ flag ++ "' found; no more were expected\n"
  | help level => helpPage level
  | version => versionText ++ "\n"

/-- Whether help or the version was asked for. -/
def isAnswer : Stop → Bool
  | help _ => true
  | version => true
  | _ => false

/-- The exit code. -/
def exitCode (s : Stop) : UInt32 := if s.isAnswer then 0 else 2

end Stop

end Shipment.CommandLine
