/-
  RuleEngine/Notice.lean
  ======================
  **What the engine reports while it works.**

  No rule failure leaves a trigger: it is reported as a notice and contained where
  it happened.  A notice is a value of the type below; its level, its target and
  its wording are functions of it, so what was reported can be counted and told
  apart without reading texts.
-/
import RuleEngine.Template.Reference
import RuleEngine.Text.Quoted

namespace RuleEngine

/-! ### Levels and targets -/

inductive NoticeLevel where
  | error
  | warn
  | info
  | debug
  | trace
deriving DecidableEq, Repr

inductive NoticeTarget where
  | rules
  | scheduler
  | cooldown
  | expansions
deriving DecidableEq, Repr

def NoticeLevel.name : NoticeLevel → String
  | .error => "ERROR"
  | .warn => "WARN"
  | .info => "INFO"
  | .debug => "DEBUG"
  | .trace => "TRACE"

def NoticeTarget.name : NoticeTarget → String
  | .rules => "rules"
  | .scheduler => "scheduler"
  | .cooldown => "cooldown"
  | .expansions => "expansions"

/-! ### Kinds of rules -/

/-- The two kinds of rules: an action does something, a requirement decides. -/
inductive RuleKind where
  | action
  | requirement
deriving DecidableEq, Repr

def RuleKind.name : RuleKind → String
  | .action => "action"
  | .requirement => "requirement"

def RuleKind.title : RuleKind → String
  | .action => "Action"
  | .requirement => "Requirement"

/-! ### Why a rule is disabled -/

inductive Expected where
  | ruleMap
  | actionBlock
  | requirementBlock
  | map
  | mapOrPair
  | scalarOperand
  | eventMap
deriving DecidableEq, Repr

def Expected.text : Expected → String
  | .ruleMap => "a rule map"
  | .actionBlock => "an action block"
  | .requirementBlock => "a requirement block"
  | .map => "a map"
  | .mapOrPair => "a map or a list of two operands"
  | .scalarOperand => "a scalar operand"
  | .eventMap => "a map of events"

inductive ValueFault where
  | notTickCount
  | notBoolean
  | zeroPeriod
  | notBranch (found : Shape)
  | operandCount (found : Nat)
  | notNumeric
  | twoUnits
deriving DecidableEq, Repr

def ValueFault.text : ValueFault → String
  | .notTickCount => "expected a non-negative tick count"
  | .notBoolean => "expected a boolean"
  | .zeroPeriod => "must be at least 1 tick"
  | .notBranch found => s!"expected a map of conditions and actions, found a {found.name}"
  | .operandCount found => s!"expected two operands, found {found}"
  | .notNumeric => "expected a numeric expression"
  | .twoUnits => "give either seconds or millis, not both"

inductive CompileError where
  | shape (expected : Expected) (found : Shape)
  | missingKey (key : String)
  | invalidValue (key : String) (fault : ValueFault)
  | template (cause : TemplateError)
  | rejected (reason : String)
  /-- A rule inside the node failed and has reported why itself. -/
  | nestedRejected
deriving DecidableEq, Repr

def CompileError.message : CompileError → String
  | .shape expected found => s!"expected {expected.text}, found {found.name}"
  | .missingKey key => s!"missing required key '{key}'"
  | .invalidValue key fault => s!"invalid value for '{key}': {fault.text}"
  | .template cause => s!"expression error: {cause.message}"
  | .rejected reason => s!"rejected: {reason}"
  | .nestedRejected => "a nested rule failed to compile"

inductive RejectReason where
  | failed (error : CompileError)
  | wrongKind (found : RuleKind)
  | unknownType
  | invalidChance (cause : TemplateError)
  | factoryPanicked (message : String)
deriving DecidableEq, Repr

def RejectReason.message : RejectReason → String
  | .failed error => error.message
  | .wrongKind .requirement => "is a requirement, expected an action"
  | .wrongKind .action => "is an action, expected a requirement"
  | .unknownType => "unknown type"
  | .invalidChance cause => s!"invalid chance: {cause.message}"
  | .factoryPanicked message => s!"factory panicked: {message}"

/-! ### Notices -/

inductive Notice where
  | engineReady (builtins : Nat)
  | registered (kind : RuleKind) (keys : List String)
  | keyTaken (key : String)
  | ruleDisabled (typeKey : String) (reason : RejectReason)
  | eventSkipped (event : String) (found : Shape)
  | bookCompiled (events : Nat)
  | noRulesFor (event : String)
  | evaluationPanicked (what : String) (message : String)
  | chanceMissed (typeKey : String) (roll chance : Float)
  | notMet (typeKey : String) (actions : Nat)
  | branchSelected (branch : String)
  | notNumeric (target : Reference)
  | delayed (actions delay task : Nat)
  | timerStarted (task period duration : Nat)
  | taskPanicked (task : Nat) (message : String)
  | cancelledWhileFiring (task : Nat)
  | coolingDown (subject key : String) (left : Nat)
  | cooldownsPruned (subject : String) (count : Nat)
  | windowNotNumeric (key : String)
  | guestLog (typeKey : String) (text : String)
  | guestDetached (typeKey : String)
  | guestLoaded (kind : RuleKind) (typeKey version author : String)
  | guestOutOfFuel (typeKey : String) (units : Nat)
  | guestTrapped (typeKey : String) (cause : String)
  | discoveryPanicked (directory : String) (message : String)
  | directoryMissing (directory : String)
  | directoryUnreadable (directory : String) (cause : String)
  | artifactsFound (count : Nat) (directory : String)
  | expansionInstalled (typeKey version author : String) (overrides : Bool)
  | expansionFailed (path : String) (cause : String)
  | expansionGone (typeKey path : String) (restored : Bool)
  | artifactsChanged (directory : String)
  | directoryScanned (directory : String) (added modified removed : Nat)
  | expansionsDisabled
  | loadingFrom (directory : String)
deriving DecidableEq

namespace Notice

def level : Notice → NoticeLevel
  | evaluationPanicked .. | taskPanicked .. => .error
  | ruleDisabled .. | eventSkipped .. | guestOutOfFuel .. | guestTrapped ..
  | discoveryPanicked .. | directoryUnreadable .. | expansionFailed .. => .warn
  | engineReady .. | guestLog .. | directoryMissing .. | expansionInstalled ..
  | expansionGone .. | artifactsChanged .. => .info
  | registered .. | keyTaken .. | bookCompiled .. | noRulesFor .. | cancelledWhileFiring ..
  | coolingDown .. | cooldownsPruned .. | guestDetached .. | guestLoaded ..
  | artifactsFound .. | directoryScanned .. | expansionsDisabled | loadingFrom .. => .debug
  | chanceMissed .. | notMet .. | branchSelected .. | notNumeric .. | delayed ..
  | timerStarted .. | windowNotNumeric .. => .trace

def target : Notice → NoticeTarget
  | engineReady .. | registered .. | keyTaken .. | ruleDisabled .. | eventSkipped ..
  | bookCompiled .. | noRulesFor .. | evaluationPanicked .. | chanceMissed .. | notMet ..
  | branchSelected .. | notNumeric .. => .rules
  | delayed .. | timerStarted .. | taskPanicked .. | cancelledWhileFiring .. => .scheduler
  | coolingDown .. | cooldownsPruned .. | windowNotNumeric .. => .cooldown
  | guestLog .. | guestDetached .. | guestLoaded .. | guestOutOfFuel .. | guestTrapped ..
  | discoveryPanicked .. | directoryMissing .. | directoryUnreadable .. | artifactsFound ..
  | expansionInstalled ..
  | expansionFailed .. | expansionGone .. | artifactsChanged .. | directoryScanned ..
  | expansionsDisabled | loadingFrom .. => .expansions

def taskName (task : Nat) : String := s!"TaskId({task})"

def text : Notice → String
  | engineReady builtins => s!"Rule engine ready with {builtins} built-in type(s)"
  | registered kind keys => s!"Registered {kind.name} {Text.listText keys}"
  | keyTaken key => s!"Type key '{key}' is already registered"
  | ruleDisabled typeKey reason => s!"Rule '{typeKey}' disabled: {reason.message}"
  | eventSkipped event found =>
    s!"Event '{event}' skipped: expected a map with conditions and actions, " ++
      s!"found a {found.name}"
  | bookCompiled events => s!"Compiled rule book with {events} event(s)"
  | noRulesFor event => s!"No rules for event '{event}'"
  | evaluationPanicked what message => s!"Rule evaluation for '{what}' panicked: {message}"
  | chanceMissed typeKey roll chance =>
    s!"'{typeKey}' skipped: rolled {Decimal.fixed 3 roll} against {Decimal.plain chance}"
  | notMet typeKey actions => s!"'{typeKey}' not met, firing {actions} action(s)"
  | branchSelected branch => s!"Priority branch '{branch}' selected"
  | notNumeric (.property key) => s!"Property '{key}' is not numeric"
  | notNumeric (.placeholder name) => s!"Placeholder '%{name}%' is not numeric"
  | delayed actions delay task =>
    s!"Delayed {actions} action(s) by {delay} tick(s) as {taskName task}"
  | timerStarted task period duration =>
    s!"Timer {taskName task}: every {period} tick(s) for {duration} tick(s)"
  | taskPanicked task message => s!"Task {taskName task} panicked: {message}"
  | cancelledWhileFiring task => s!"Task {taskName task} cancelled while firing"
  | coolingDown subject key left => s!"{subject} is cooling down on '{key}' ({left}ms left)"
  | cooldownsPruned subject count => s!"Pruned {count} cooldown(s) for {subject}"
  | windowNotNumeric key => s!"Cooldown window for '{key}' is not a number"
  | guestLog typeKey text => s!"[{typeKey}] {text}"
  | guestDetached typeKey => s!"[{typeKey}] host call outside of a trigger ignored"
  | guestLoaded kind typeKey version author =>
    s!"Loaded {kind.title} expansion '{typeKey}' v{version} by {author}"
  | guestOutOfFuel typeKey units => s!"Expansion '{typeKey}' ran out of fuel ({units} units)"
  | guestTrapped typeKey cause => s!"Expansion '{typeKey}' trapped: {cause}"
  | discoveryPanicked directory message =>
    s!"Expansion discovery in {directory} panicked: {message}"
  | directoryMissing directory =>
    s!"Expansion directory does not exist: {directory} (fine if no expansions are used)"
  | directoryUnreadable directory cause =>
    s!"Failed to read expansion directory {directory}: {cause}"
  | artifactsFound count directory => s!"Found {count} artifact(s) in {directory}"
  | expansionInstalled typeKey version author overrides =>
    s!"Installed expansion '{typeKey}' v{version} by {author}" ++
      (if overrides then " (override)" else "")
  | expansionFailed path cause => s!"Failed to load expansion {path}: {cause}"
  | expansionGone typeKey path true =>
    s!"Expansion '{typeKey}' from {path} is gone, restored the previous rule type"
  | expansionGone typeKey path false =>
    s!"Expansion '{typeKey}' from {path} is gone, unregistered"
  | artifactsChanged directory => s!"Expansion artifacts changed in {directory}, reloading"
  | directoryScanned directory added modified removed =>
    s!"{directory}: {added} added, {modified} modified, {removed} removed"
  | expansionsDisabled => "Expansions are disabled"
  | loadingFrom directory => s!"Loading expansions from: {directory}"

/-- Whether a notice warns that something in the rules or the expansions is wrong. -/
def isWarning (n : Notice) : Bool :=
  n.level == .warn && (n.target == .rules || n.target == .expansions)

end Notice

end RuleEngine
