import Shipment.CommandLine.Arguments
import Shipment.Failure

/-!
# Completion scripts

A completion script teaches a shell the flags and commands of every level of the
command line.  A shell is named by its name or by the path of its program.
-/

namespace Shipment.CommandLine

/-- A shell with completion scripts. -/
inductive Shell where
  /-- The Bourne again shell. -/
  | bash
  /-- The Z shell. -/
  | zsh
  /-- The friendly interactive shell. -/
  | fish
deriving DecidableEq, Repr

namespace Shell

/-- The shells there are scripts for. -/
def all : List Shell := [bash, zsh, fish]

/-- The name of a shell. -/
def name : Shell → String
  | bash => "bash"
  | zsh => "zsh"
  | fish => "fish"

/-- The shell of a name or a path. -/
def ofText (text : String) : Except Failure Shell :=
  let name := (Path.mk text).fileName?.getD text
  match all.find? fun s => s.name == name with
  | some s => .ok s
  | none => .error <| .config <|
      "Unsupported shell: '" ++ name ++ "'. Supported shells are: " ++
      Text.joinWith ", " (all.map Shell.name) ++ "."

end Shell

/-! ## Levels -/

/-- A level and the names on the way to it, its own included. -/
structure Stage where
  /-- The names. -/
  path : List String
  /-- The level. -/
  level : Level

mutual

/-- The stages of a level, outer ones first. -/
def stages (above : List String) : Level → List Stage
  | .mk name about flags words exclusive commands =>
      ⟨above ++ [name], .mk name about flags words exclusive commands⟩ ::
        stagesOf (above ++ [name]) commands

/-- The stages of several levels. -/
def stagesOf (above : List String) : List Level → List Stage
  | [] => []
  | l :: ls => stages above l ++ stagesOf above ls

end

/-- The stages of the whole command line. -/
def allStages : List Stage := stages [] program

/-- The commands of a level and what they are for. -/
def commandRows (l : Level) : List (String × String) :=
  if l.commands.isEmpty then []
  else (l.commands.map fun c => (c.name, c.about)) ++
    [(Level.helpName, "Print this message or the help of the given subcommand(s)")]

/-- The short name of a flag with its dash. -/
def shortName (f : Flag) : List String := (f.short.map fun c => String.ofList ['-', c]).toList

/-- The long name of a flag with its dashes. -/
def longName (f : Flag) : List String := (f.long.map fun name => "--" ++ name).toList

/-- Whether a flag takes a value. -/
def takesValue (f : Flag) : Bool :=
  match f.effect with
  | .value _ _ => true
  | _ => false

/-- Lines, each with its end. -/
def unlines (ls : List String) : String := String.join (ls.map fun l => l ++ "\n")

/-- A text between single quotes of a shell. -/
def shellQuoted (text : String) : String :=
  "'" ++ String.join (text.toList.map fun c => if c = '\'' then "'\\''" else String.ofList [c]) ++
  "'"

/-! ## Bash -/

/-- The name of a stage in the script for bash. -/
def bashName (s : Stage) : String := Text.joinWith "__" s.path

/-- The step from one stage to the next. -/
def bashStep (s : Stage) : List String :=
  (commandRows s.level).map fun row =>
    "            " ++ bashName s ++ "," ++ row.1 ++ ") cmd=\"" ++ bashName s ++ "__" ++ row.1 ++
    "\" ;;"

/-- What is completed at a stage. -/
def bashCase (s : Stage) : List String :=
  let flags := s.level.flags
  let offers :=
    flags.flatMap shortName ++ flags.flatMap longName ++ (commandRows s.level).map (·.1)
  let valued := (flags.filter takesValue).flatMap fun f => shortName f ++ longName f
  ["        " ++ bashName s ++ ")",
    "            opts=\"" ++ Text.joinWith " " offers ++ "\""] ++
  (if valued.isEmpty then []
    else
      ["            case \"$prev\" in",
        "                " ++ Text.joinWith "|" valued ++ ")",
        "                    COMPREPLY=( $(compgen -f -- \"$cur\") )",
        "                    return 0",
        "                    ;;",
        "            esac"]) ++
  ["            ;;"]

/-- The script for bash. -/
def bashScript (name : String) : String :=
  unlines <|
    ["_" ++ name ++ "() \x7b",
      "    local i cur prev cmd opts",
      "    COMPREPLY=()",
      "    cur=\"$\x7bCOMP_WORDS[COMP_CWORD]\x7d\"",
      "    prev=\"$\x7bCOMP_WORDS[COMP_CWORD-1]\x7d\"",
      "    cmd=\"" ++ name ++ "\"",
      "    opts=\"\"",
      "    for i in \"$\x7bCOMP_WORDS[@]:1:COMP_CWORD-1\x7d\"; do",
      "        case \"$cmd,$i\" in"] ++
    allStages.flatMap bashStep ++
    ["        esac",
      "    done",
      "    case \"$cmd\" in"] ++
    allStages.flatMap bashCase ++
    ["    esac",
      "    COMPREPLY=( $(compgen -W \"$opts\" -- \"$cur\") )",
      "\x7d",
      "",
      "complete -F _" ++ name ++ " -o nosort -o bashdefault -o default " ++ name]

/-! ## Zsh -/

/-- The name of a stage in the script for zsh. -/
def zshName (s : Stage) : String := "_" ++ Text.joinWith "__" s.path

/-- A description with the marks of a specification escaped. -/
def zshEscaped (text : String) : String :=
  String.join <| text.toList.map fun c =>
    if c = '[' ∨ c = ']' ∨ c = ':' ∨ c = '\\' then String.ofList ['\\', c] else String.ofList [c]

/-- The specifications of a flag. -/
def zshFlag (f : Flag) : List String :=
  let about := "[" ++ zshEscaped f.about ++ "]"
  match f.effect with
  | .value label _ =>
      ((shortName f).map fun n => shellQuoted (n ++ "+" ++ about ++ ":" ++ label ++ ":_default")) ++
      (longName f).map fun n => shellQuoted (n ++ "=" ++ about ++ ":" ++ label ++ ":_default")
  | _ => (shortName f ++ longName f).map fun n => shellQuoted (n ++ about)

/-- The function of a stage. -/
def zshFunction (s : Stage) : List String :=
  let rows := commandRows s.level
  let names := rows.map (·.1)
  let words :=
    (s.level.words.map fun w => shellQuoted (":" ++ w.name ++ ":_default")) ++
    if names.isEmpty then []
    else [shellQuoted (":command:(" ++ Text.joinWith " " names ++ ")"), shellQuoted "*::arg:->args"]
  [zshName s ++ "() \x7b",
    "    local line state",
    "    _arguments -s -S -C \\"] ++
  (s.level.flags.flatMap zshFlag ++ words).map (fun spec => "        " ++ spec ++ " \\") ++
  ["        && return 0"] ++
  (if s.level.commands.isEmpty then []
    else
      ["    case $line[1] in"] ++
      (s.level.commands.map fun c =>
        "        " ++ c.name ++ ") " ++ zshName s ++ "__" ++ c.name ++ " ;;") ++
      ["    esac"]) ++
  ["\x7d", ""]

/-- The script for zsh. -/
def zshScript (name : String) : String :=
  unlines <|
    ["#compdef " ++ name, ""] ++ allStages.flatMap zshFunction ++ ["_" ++ name ++ " \"$@\""]

/-! ## Fish -/

/-- The condition that a stage was reached and none below it. -/
def fishCondition (s : Stage) : String :=
  let reached := s.path.drop 1
  if reached.isEmpty then "__fish_use_subcommand"
  else
    let below := (commandRows s.level).map (·.1)
    Text.joinWith "; and " <|
      (reached.map fun name => "__fish_seen_subcommand_from " ++ name) ++
      if below.isEmpty then []
      else ["not __fish_seen_subcommand_from " ++ Text.joinWith " " below]

/-- The start of a line of the script for fish. -/
def fishStart (name : String) (s : Stage) : String :=
  "complete -c " ++ name ++ " -n \"" ++ fishCondition s ++ "\""

/-- The line of a flag. -/
def fishFlag (start : String) (f : Flag) : String :=
  let short := ((f.short.map fun c => " -s " ++ String.ofList [c]).getD "")
  let long := ((f.long.map fun name => " -l " ++ name).getD "")
  start ++ short ++ long ++ " -d " ++ shellQuoted f.about ++ if takesValue f then " -r" else ""

/-- The lines of a stage. -/
def fishLines (name : String) (s : Stage) : List String :=
  s.level.flags.map (fishFlag (fishStart name s)) ++
  (commandRows s.level).map fun row =>
    fishStart name s ++ " -f -a \"" ++ row.1 ++ "\" -d " ++ shellQuoted row.2

/-- The script for fish. -/
def fishScript (name : String) : String := unlines (allStages.flatMap (fishLines name))

/-- The completion script for a shell. -/
def Shell.script : Shell → String
  | .bash => bashScript program.name
  | .zsh => zshScript program.name
  | .fish => fishScript program.name

end Shipment.CommandLine
