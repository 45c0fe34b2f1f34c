import CheckedLists.Text.Form
import CheckedLists.Text.CodePoints
import CheckedLists.Text.Invisible
import CheckedLists.Text.Combining
import CheckedLists.Text.Unassigned
import CheckedLists.Text.Quoted
import CheckedLists.Handle
import CheckedLists.Fault
import CheckedLists.Outcome
import CheckedLists.Journal
import CheckedLists.Abort
import CheckedLists.Store.Basic
import CheckedLists.Store.Walk
import CheckedLists.Arena.Allocator
import CheckedLists.Arena.Basic
import CheckedLists.Arena.Create
import CheckedLists.Arena.Link
import CheckedLists.Arena.Destroy
import CheckedLists.Arena.Operation
import CheckedLists.Payload
import CheckedLists.Session.Sample
import CheckedLists.Session.Registers
import CheckedLists.Session.Command
import CheckedLists.Session.Bench
import CheckedLists.Choices
import CheckedLists.Choices.Numbered
import CheckedLists.Scenario.Harness
import CheckedLists.Scenario.Explore
import CheckedLists.Scenario.Fixture
import CheckedLists.Scenario.Program
import CheckedLists.Scenario.Report
import CheckedLists.Proofs.Change
import CheckedLists.Proofs.Chain
import CheckedLists.Proofs.Linked
import CheckedLists.Proofs.Slotted
import CheckedLists.Proofs.Walk
import CheckedLists.Proofs.Coherent
import CheckedLists.Proofs.Operation
import CheckedLists.Proofs.Effect
import CheckedLists.Proofs.Run
import CheckedLists.Proofs.Totality
import CheckedLists.Proofs.Generation
import CheckedLists.Proofs.Issue
import CheckedLists.Proofs.Bound
import CheckedLists.Proofs.Refusal
import CheckedLists.Proofs.Capacity
import CheckedLists.Proofs.Recorded
import CheckedLists.Proofs.Census
import CheckedLists.Proofs.Survivor
import CheckedLists.Proofs.Composed
import CheckedLists.Proofs.Driven
import CheckedLists.Proofs.Outline
import CheckedLists.Proofs.Replay
import CheckedLists.Proofs.Programs
import CheckedLists.Proofs.Leak
import CheckedLists.Proofs.Stream
import CheckedLists.Proofs.Answer
import CheckedLists.Proofs.Termination
import CheckedLists.Proofs.Lockstep
import CheckedLists.Proofs.Release
import CheckedLists.Proofs.Permanence
import CheckedLists.Proofs.Head
import CheckedLists.Proofs.Cell
import CheckedLists.Proofs.Renaming
import CheckedLists.Proofs.Twin
import CheckedLists.Proofs.Concatenation
import CheckedLists.Proofs.HighWater
import CheckedLists.Proofs.Append
import CheckedLists.Proofs.Destruction
import CheckedLists.Proofs.Admission
import CheckedLists.Proofs.LinkOrder
import CheckedLists.Proofs.Traversal
import CheckedLists.Proofs.Reuse
import CheckedLists.Proofs.Building
import CheckedLists.Proofs.Fixtures
import CheckedLists.Proofs.Wording
