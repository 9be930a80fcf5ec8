/-
  RuleEngine/CommandLine/Invocation.lean
  ======================================
  **What the program is asked to do.**

  The arguments are read from left to right: first the flags of the program, then a
  command with its own.  A flag is written with two dashes and its name or with one
  dash and its letter; letters may stand together, and a value follows its flag in
  the same argument or the next.  After two dashes alone no argument is a flag.  The
  first argument that asks for help or the version, or that is wrong, ends the
  reading.
-/
import RuleEngine.CommandLine.Flag

namespace RuleEngine.CommandLine

/-! ### Results -/

inductive Misuse where
  | noCommand
  | unknownCommand (word : String)
  | unknownFlag (argument : String)
  | unexpected (argument : String)
  | needsValue (flag : Flag)
  | takesNoValue (flag : Flag)
  | givenTwice (flag : Flag)
  | badValue (flag : Flag) (value : String) (fault : ValueFault)
  | badRules (fault : ValueFault)
  | missingRules
  | missingFlag (flag : Flag)
deriving DecidableEq, Repr

inductive Stop where
  | help (command? : Option CommandName)
  | version
  | misuse (cause : Misuse)
deriving DecidableEq, Repr

inductive Command where
  | check (rules : String) (expansions? : Option String)
  | run (rules event subject : String) (properties placeholders : List Assignment)
      (ticks : Nat) (expansions? : Option String) (seed? : Option Nat)
  | expansions (directory? : Option String)
deriving DecidableEq, Repr

/-- The directory that a command names to take expansions from. -/
def Command.directory? : Command → Option String
  | .check _ expansions? => expansions?
  | .run _ _ _ _ _ _ expansions? _ => expansions?
  | .expansions directory? => directory?

structure Invocation where
  command : Command
  config? : Option String := none
  /-- How often more logging was asked for. -/
  verbosity : Nat := 0
deriving DecidableEq, Repr

/-! ### Collecting -/

structure Given where
  /-- Flags with their values, in order. -/
  values : List (Flag × String) := []
  verbosity : Nat := 0
  rules? : Option String := none
deriving DecidableEq, Repr

namespace Given

def valuesOf (g : Given) (f : Flag) : List String :=
  (g.values.filter fun v => v.1 == f).map Prod.snd

def value? (g : Given) (f : Flag) : Option String := (g.valuesOf f).head?

def add (g : Given) (f : Flag) (value : String) : Except Stop Given :=
  if !f.isRepeatable && (g.value? f).isSome then .error (.misuse (.givenTwice f))
  else
    match f.fault? value with
    | some fault => .error (.misuse (.badValue f value fault))
    | none => .ok { g with values := g.values ++ [(f, value)] }

def turnOn (g : Given) (command? : Option CommandName) (f : Flag) : Except Stop Given :=
  match f with
  | .help => .error (.help command?)
  | .version => .error .version
  | _ => .ok { g with verbosity := g.verbosity + 1 }

def addRules (g : Given) (command : CommandName) (argument : String) : Except Stop Given :=
  if !command.takesRules || g.rules?.isSome then .error (.misuse (.unexpected argument))
  else
    match pathFault? argument with
    | some fault => .error (.misuse (.badRules fault))
    | none => .ok { g with rules? := some argument }

end Given

/-! ### Arguments -/

inductive ArgumentView where
  | dashes
  | long (name : String) (value? : Option String)
  | letters (cs : List Char)
  | plain
deriving DecidableEq, Repr

def ArgumentView.of (argument : String) : ArgumentView :=
  match argument.toList with
  | ['-', '-'] => dashes
  | '-' :: '-' :: cs =>
    let name := String.ofList (cs.takeWhile (· != '='))
    match cs.dropWhile (· != '=') with
    | _ :: value => long name (some (String.ofList value))
    | [] => long name none
  | '-' :: c :: cs => letters (c :: cs)
  | _ => plain

/-- Take letters.  The last may be a flag whose value is still to come. -/
def takeLetters (command? : Option CommandName) (g : Given) :
    List Char → Except Stop (Given × Option Flag)
  | [] => .ok (g, none)
  | c :: rest =>
    match (Flag.understood command?).find? fun f => f.short? == some c with
    | none => .error (.misuse (.unknownFlag (String.ofList ['-', c])))
    | some f =>
      if f.valueName?.isNone then do takeLetters command? (← g.turnOn command? f) rest
      else
        match rest with
        | [] => .ok (g, some f)
        | '=' :: value => do return (← g.add f (String.ofList value), none)
        | value => do return (← g.add f (String.ofList value), none)

def takeLong (command? : Option CommandName) (g : Given) (name : String)
    (value? : Option String) : Except Stop (Given × Option Flag) :=
  match (Flag.understood command?).find? fun f => f.long == name with
  | none => .error (.misuse (.unknownFlag ("--" ++ name)))
  | some f =>
    match f.valueName?, value? with
    | some _, some value => do return (← g.add f value, none)
    | some _, none => .ok (g, some f)
    | none, some _ => .error (.misuse (.takesNoValue f))
    | none, none => do return (← g.turnOn command? f, none)

def takePlain (command? : Option CommandName) (g : Given) : List String → Except Stop Given
  | [] => .ok g
  | argument :: rest =>
    match command? with
    | none => .error (.misuse (.unexpected argument))
    | some command => do takePlain command? (← g.addRules command argument) rest

/-- Take arguments up to a word that is none, while `waiting?` may still need its
    value.  Before a command that word is given back with the arguments after it. -/
def take (command? : Option CommandName) (g : Given) (waiting? : Option Flag) :
    List String → Except Stop (Given × List String)
  | [] =>
    match waiting? with
    | some f => .error (.misuse (.needsValue f))
    | none => .ok (g, [])
  | argument :: rest =>
    match ArgumentView.of argument, waiting? with
    | .plain, some f => do take command? (← g.add f argument) none rest
    | .plain, none =>
      match command? with
      | none => .ok (g, argument :: rest)
      | some command => do take command? (← g.addRules command argument) none rest
    | _, some f => .error (.misuse (.needsValue f))
    | .dashes, none => do return (← takePlain command? g rest, [])
    | .long name value?, none => do
      let (g, waiting?) ← takeLong command? g name value?
      take command? g waiting? rest
    | .letters cs, none => do
      let (g, waiting?) ← takeLetters command? g cs
      take command? g waiting? rest

/-! ### Invocations -/

def Given.assignments (g : Given) (f : Flag) : List Assignment :=
  (g.valuesOf f).filterMap fun v => (Assignment.parse v).toOption

/-- The command that was given, if all that it needs is there. -/
def Given.command (g : Given) : CommandName → Except Misuse Command
  | .check =>
    match g.rules? with
    | some rules => .ok (.check rules (g.value? .expansions))
    | none => .error .missingRules
  | .run =>
    match g.rules?, g.value? .event with
    | some rules, some event => .ok <|
      .run rules event ((g.value? .subject).getD "Steve") (g.assignments .property)
        (g.assignments .placeholder) (((g.value? .ticks).bind readCount?).getD 0)
        (g.value? .expansions) ((g.value? .seed).bind readCount?)
    | none, _ => .error .missingRules
    | _, none => .error (.missingFlag .event)
  | .expansions => .ok (.expansions (g.value? .directory))

def helpFor : List String → Stop
  | [] => .help none
  | ["help"] => .help none
  | [word] =>
    match CommandName.ofWord? word with
    | some command => .help (some command)
    | none => .misuse (.unknownCommand word)
  | _ :: word :: _ => .misuse (.unknownCommand word)

def Invocation.ofArguments (arguments : List String) : Except Stop Invocation := do
  let (outer, rest) ← take none {} none arguments
  match rest with
  | [] => throw (.misuse .noCommand)
  | "help" :: words => throw (helpFor words)
  | word :: rest =>
    match CommandName.ofWord? word with
    | none => throw (.misuse (.unknownCommand word))
    | some name => do
      let (inner, _) ← take (some name) {} none rest
      let command ← (inner.command name).mapError Stop.misuse
      return {
        command
        config? := (inner.value? .config).orElse fun _ => outer.value? .config
        verbosity := if inner.verbosity = 0 then outer.verbosity else inner.verbosity }

end RuleEngine.CommandLine
