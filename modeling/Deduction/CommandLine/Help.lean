/-
The help of the command line: how it is used, and an entry for each option. It is laid out for a
terminal wide enough to hold each line.
-/
import Deduction.CommandLine.Options

namespace Deduction.CommandLine

/-- What stands for the value of an option. -/
def Key.placeholder : Key → String
  | formula => "FORMULA"
  | maxVars => "MAX_VARS"
  | goal => "GOAL"
  | kb => "\x7b" ++ Text.joinWith "," KnowledgeBase.ids ++ "\x7d"
  | apply => "RULE"
  | delete => "STEP"

def Key.help : Key → String
  | formula => "Show LaTeX markup and the truth table of a formula"
  | maxVars => "Truth-table variable limit (default " ++ toString TruthTable.defaultLimit ++ ")"
  | goal => "Start a proof of this goal"
  | kb => "Knowledge base whose premises the proof starts from"
  | apply => "Apply a rule, e.g. 'mp 1 2' or 'assume p' (repeatable)"
  | delete => "Delete a step (and everything after it) after applying rules"

def Flag.help : Flag → String
  | rules => "List the rule catalog"
  | kbs => "List knowledge bases"
  | goals => "List suggested goals"
  | examples => "List example formulas"
  | quiet => "Less output"

/-- An option with its value as the help shows it. -/
def Key.shown (key : Key) : String :=
  key.name ++ " " ++ key.placeholder

/-- An entry: the option and what it does, on one line if the option is short enough. -/
def helpEntry (option help : String) : List String :=
  if option.length ≤ 20 then ["  " ++ Text.padEnd 22 option ++ help]
  else ["  " ++ option, Text.spaces 24 ++ help]

def helpLines (program : String) : List String :=
  let options := "-h" :: (Key.all.map Key.shown ++ Flag.all.map Flag.name)
  ["usage: " ++ program ++ " " ++ Text.joinWith " " (options.map fun option => "[" ++ option ++ "]"), "",
    "Propositional logic and Natural Deduction", "", "options:"]
    ++ helpEntry "-h, --help" "show this help message and exit"
    ++ Key.all.flatMap (fun key => helpEntry key.shown key.help)
    ++ Flag.all.flatMap fun flag => helpEntry flag.name flag.help

end Deduction.CommandLine
