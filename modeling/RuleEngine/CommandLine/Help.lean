/-
  RuleEngine/CommandLine/Help.lean
  ================================
  **What the program tells about itself.**

  The help for the program and for each command, and the wording of what is wrong
  with arguments.
-/
import RuleEngine.CommandLine.Invocation

namespace RuleEngine.CommandLine

/-! ### Help -/

def Flag.shape (f : Flag) : String :=
  let short := match f.short? with
    | some c => "-" ++ String.ofList [c] ++ ", "
    | none => "    "
  short ++ "--" ++ f.long ++ (f.valueName?.elim "" fun name => " <" ++ name ++ ">")

def columns (rows : List (String × String)) : List String :=
  let width := (rows.map fun r => r.1.length).foldl max 0
  rows.map fun (left, right) =>
    "  " ++ left ++ String.ofList (List.replicate (width - left.length) ' ') ++ "  " ++ right

def usage : Option CommandName → String
  | none => "Usage: ruleloom [OPTIONS] <COMMAND>"
  | some command =>
    let required := match command with
      | .check => " <RULES>"
      | .run => " --event <EVENT> <RULES>"
      | .expansions => ""
    "Usage: ruleloom " ++ command.word ++ " [OPTIONS]" ++ required

def helpLines (command? : Option CommandName) : List String :=
  let about := command?.elim "Command line tools for ruleloom rule files" CommandName.about
  let commands := match command? with
    | none =>
      ["Commands:"] ++ columns (CommandName.all.map (fun c => (c.word, c.about)) ++
        [("help", "Print this message or the help of a command")]) ++ [""]
    | some _ => []
  let flags := columns ((Flag.understood command?).map fun f => (f.shape, f.about))
  [about, "", usage command?, ""] ++ commands ++ ["Options:"] ++ flags

def versionLine : String := "ruleloom-cli 0.1.0"

/-! ### Wording of misuse -/

def ValueFault.message : ValueFault → String
  | empty => "a value is required"
  | notCount => "not a number from 0 to 18446744073709551615"
  | notAssignment error => error.message

def Misuse.message : Misuse → String
  | noCommand => "a command is required"
  | unknownCommand word => s!"unrecognized command '{word}'"
  | unknownFlag argument => s!"unexpected argument '{argument}' found"
  | unexpected argument => s!"unexpected argument '{argument}' found"
  | needsValue flag => s!"a value is required for '--{flag.long}'"
  | takesNoValue flag => s!"no value is allowed for '--{flag.long}'"
  | givenTwice flag => s!"the argument '--{flag.long}' cannot be used multiple times"
  | badValue flag value fault =>
    s!"invalid value '{value}' for '--{flag.long}': {fault.message}"
  | badRules fault => s!"invalid rule file: {fault.message}"
  | missingRules => "a rule file is required"
  | missingFlag flag => s!"the argument '--{flag.long}' is required"

end RuleEngine.CommandLine
