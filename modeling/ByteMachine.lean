import ByteMachine.Main
import ByteMachine.Computer.Command
import ByteMachine.Proofs.ControlFlow.Integrity
import ByteMachine.Proofs.Display
import ByteMachine.Proofs.Layout.Refusal
import ByteMachine.Proofs.Listing.Reassembly
import ByteMachine.Proofs.Loading
import ByteMachine.Proofs.Machine.Fixtures
import ByteMachine.Proofs.Pacing
import ByteMachine.Proofs.Restart
import ByteMachine.Proofs.Scheduler.Consistency
import ByteMachine.Proofs.Tickets.Safety
import ByteMachine.Proofs.Layout.Order
import ByteMachine.Proofs.Report
import ByteMachine.Proofs.Scheduler.Clock
import ByteMachine.Proofs.Stopped
import ByteMachine.Proofs.Draws
import ByteMachine.Proofs.Checked.Indexing
import ByteMachine.Proofs.Machine.Oversleep
import ByteMachine.Proofs.Checked.Instructions
import ByteMachine.Proofs.Scheduler.Counters
import ByteMachine.Proofs.Overflow
import ByteMachine.Proofs.FailedSteps
import ByteMachine.Proofs.Delivery
import ByteMachine.Proofs.StackDepth
import ByteMachine.Proofs.Flags
import ByteMachine.Proofs.TimedSleep
import ByteMachine.Proofs.Frame
import ByteMachine.Proofs.Returns
import ByteMachine.Proofs.Listing.Recovery
import ByteMachine.Proofs.Branches
import ByteMachine.Proofs.Console.Input
import ByteMachine.Proofs.Console.Play
import ByteMachine.Proofs.Console.Questions
import ByteMachine.Proofs.Arithmetic
import ByteMachine.Proofs.Word.TwosComplement
import ByteMachine.Proofs.Text.TypedByte
import ByteMachine.Proofs.Console.CommandLine
import ByteMachine.Proofs.Console.Course
import ByteMachine.Proofs.Console.Timing
import ByteMachine.Proofs.Console.Opening
import ByteMachine.Proofs.Console.Outcome
import ByteMachine.Proofs.Encoder.Agreement
import ByteMachine.Proofs.Snapshot
