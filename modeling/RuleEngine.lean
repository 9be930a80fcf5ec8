import RuleEngine.Main
import RuleEngine.Proofs.Scheduler.Moment
import RuleEngine.Proofs.Scheduler.Invariant
import RuleEngine.Proofs.Scheduler.Timetable
import RuleEngine.Proofs.Scheduler.Race
import RuleEngine.Proofs.Scheduler.Order
import RuleEngine.Proofs.Scheduler.Load
import RuleEngine.Proofs.Rule.Timer
import RuleEngine.Proofs.Entries
import RuleEngine.Proofs.Expansion.Install
import RuleEngine.Proofs.Expansion.Reload
import RuleEngine.Proofs.Expansion.Directory
import RuleEngine.Proofs.Expansion.HotReload
import RuleEngine.Proofs.Rule.Calling
import RuleEngine.Proofs.Rule.Reading
import RuleEngine.Proofs.Rule.NotMet
import RuleEngine.Proofs.Rule.Compiling
import RuleEngine.Proofs.Rule.Deferring
import RuleEngine.Proofs.Rule.Continuations
import RuleEngine.Proofs.Rule.Warnings
import RuleEngine.Proofs.Rule.FailClosed
import RuleEngine.Proofs.Ledger.History
import RuleEngine.Proofs.Rule.FailSafe
import RuleEngine.Proofs.Template.NotNumber
import RuleEngine.Proofs.Template.Grammar
import RuleEngine.Proofs.Rule.Verdict
import RuleEngine.Proofs.Guest.Detached
import RuleEngine.Proofs.Guest.Attached
import RuleEngine.Proofs.Guest.Boundary
import RuleEngine.Proofs.Guest.Host
import RuleEngine.Proofs.Guest.Stopping
import RuleEngine.Proofs.Guest.Handing
import RuleEngine.Proofs.Scheduler.Unrelated
import RuleEngine.Proofs.Rule.Certain
import RuleEngine.Proofs.Rule.Firing
import RuleEngine.Proofs.Rule.Deciding
import RuleEngine.Proofs.Configuration.Storing
import RuleEngine.Proofs.Ledger.Waiting
import RuleEngine.Proofs.Template.Rendering
import RuleEngine.Proofs.Template.Spacing
import RuleEngine.Proofs.Guest.Passage
import RuleEngine.Proofs.Guest.Visit
import RuleEngine.Proofs.Guest.Property
import RuleEngine.Proofs.Expansion.Scanning
import RuleEngine.Proofs.Expansion.Links
import RuleEngine.Proofs.Expansion.Ownership
import RuleEngine.Proofs.Registry
import RuleEngine.Proofs.Rule.Comparing
import RuleEngine.Proofs.Rule.Panicking
import RuleEngine.Proofs.Rule.Contexts
import RuleEngine.Proofs.Ledger.Forward
import RuleEngine.Proofs.Node.OfYaml
import RuleEngine.Proofs.Template.Offsets
import RuleEngine.Proofs.Rule.Reach
import RuleEngine.Proofs.Scheduler.Answers
import RuleEngine.Proofs.Node.Integers
