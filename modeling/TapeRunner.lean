import TapeRunner.Machine.Rig
import TapeRunner.Number.Decimal
import TapeRunner.Session.Control
import TapeRunner.Session.Order
import TapeRunner.Bus.Rehearsal
import TapeRunner.Timer.Rehearsal
import TapeRunner.Timer.Thread
import TapeRunner.Session.Stamp
import TapeRunner.Journal.Console
import TapeRunner.Settings
import TapeRunner.Service.Answer
import TapeRunner.Proofs.Machine.Agreement
import TapeRunner.Proofs.Journal
import TapeRunner.Proofs.Machine.Soundness
import TapeRunner.Proofs.Session.Observers
import TapeRunner.Proofs.Session.Driving
import TapeRunner.Proofs.Session.Control
import TapeRunner.Proofs.Session.Gear
import TapeRunner.Proofs.Session.Steadiness
import TapeRunner.Proofs.Session.Honesty
import TapeRunner.Proofs.Session.Completion
import TapeRunner.Proofs.Session.Passive
import TapeRunner.Proofs.Session.Course
import TapeRunner.Proofs.Session.Schedule
import TapeRunner.Proofs.Session.Timing
import TapeRunner.Proofs.Session.Generations
import TapeRunner.Proofs.Machine.Feeding
import TapeRunner.Proofs.Session.Reachable
import TapeRunner.Proofs.Truncation
import TapeRunner.Proofs.Session.Moments
import TapeRunner.Proofs.Session.Chunks
import TapeRunner.Proofs.Machine.Stretches
import TapeRunner.Proofs.Session.Ticks
import TapeRunner.Proofs.Session.Silence
import TapeRunner.Proofs.Lockstep
import TapeRunner.Proofs.Session.Tally
import TapeRunner.Proofs.Session.Accounting
import TapeRunner.Proofs.Session.Reentry
import TapeRunner.Proofs.Session.Interruption
import TapeRunner.Proofs.Session.Kindred
import TapeRunner.Proofs.Session.Concert
import TapeRunner.Proofs.Session.Restart
import TapeRunner.Proofs.Session.Record
import TapeRunner.Proofs.Session.Recount
import TapeRunner.Proofs.Session.Tidings
import TapeRunner.Proofs.Session.Protocol
import TapeRunner.Proofs.Session.Sight
import TapeRunner.Proofs.Session.Publication
import TapeRunner.Proofs.Session.Sequence
import TapeRunner.Proofs.Session.Belonging
import TapeRunner.Proofs.Session.Repose
import TapeRunner.Proofs.Session.Inertness
import TapeRunner.Proofs.Session.Shutdown
import TapeRunner.Proofs.Session.Retuning
import TapeRunner.Proofs.Session.Abandonment
import TapeRunner.Proofs.Session.Interim
import TapeRunner.Proofs.Session.Labels
import TapeRunner.Proofs.Tracking
import TapeRunner.Proofs.Session.Threshold
import TapeRunner.Proofs.Session.Loudness
import TapeRunner.Proofs.Session.Authorship
import TapeRunner.Proofs.Session.Accord
import TapeRunner.Proofs.Service.Payload
import TapeRunner.Proofs.Service.Contract
import TapeRunner.Proofs.Machine.Depth
import TapeRunner.Proofs.Machine.Safety
import TapeRunner.Proofs.Session.Injection
import TapeRunner.Proofs.Session.Atomicity
import TapeRunner.Proofs.Bus.Dispatch
import TapeRunner.Proofs.Bus.Subscriptions
import TapeRunner.Proofs.Timer.Rounds
import TapeRunner.Proofs.Timer.Callbacks
import TapeRunner.Proofs.Machine.Comments
import TapeRunner.Proofs.Machine.TapeSize
import TapeRunner.Proofs.Session.Frame
import TapeRunner.Proofs.Session.Refusals
import TapeRunner.Proofs.Machine.Intake
import TapeRunner.Proofs.Session.Provision
import TapeRunner.Proofs.Session.Neighbourhood
