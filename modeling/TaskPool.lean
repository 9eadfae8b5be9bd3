import TaskPool.Barrier
import TaskPool.Batch
import TaskPool.Job
import TaskPool.Journal
import TaskPool.LoadLimit
import TaskPool.Machine.Begin
import TaskPool.Machine.Frame
import TaskPool.Machine.Launch
import TaskPool.Machine.Run
import TaskPool.Machine.Step
import TaskPool.Notice
import TaskPool.Payload
import TaskPool.Pool
import TaskPool.Proofs.AcceptedOperations
import TaskPool.Proofs.Admission
import TaskPool.Proofs.Backpressure
import TaskPool.Proofs.BatchKinds
import TaskPool.Proofs.BatchLifetimes
import TaskPool.Proofs.BatchLine
import TaskPool.Proofs.CapturedFailures
import TaskPool.Proofs.CaughtPanics
import TaskPool.Proofs.ClaimFlag
import TaskPool.Proofs.ClosedBatches
import TaskPool.Proofs.DrainOrder
import TaskPool.Proofs.Executing
import TaskPool.Proofs.Failures
import TaskPool.Proofs.FirstPanic
import TaskPool.Proofs.FixedAttributes
import TaskPool.Proofs.FrameTurns
import TaskPool.Proofs.InlinePanics
import TaskPool.Proofs.Interleaving
import TaskPool.Proofs.JobAccounting
import TaskPool.Proofs.JobConservation
import TaskPool.Proofs.LoanDependence
import TaskPool.Proofs.LoanExchange
import TaskPool.Proofs.Loans
import TaskPool.Proofs.Lockstep
import TaskPool.Proofs.LostWakes
import TaskPool.Proofs.MergedStep
import TaskPool.Proofs.MergedSystem
import TaskPool.Proofs.MergedTurn
import TaskPool.Proofs.MergedWorld
import TaskPool.Proofs.Merging
import TaskPool.Proofs.Moves
import TaskPool.Proofs.ObjectChanges
import TaskPool.Proofs.ObjectOrder
import TaskPool.Proofs.OperationOpenings
import TaskPool.Proofs.OutstandingCount
import TaskPool.Proofs.PanicContainment
import TaskPool.Proofs.PoolDrop
import TaskPool.Proofs.QueueMoves
import TaskPool.Proofs.QueuedCount
import TaskPool.Proofs.Queues
import TaskPool.Proofs.Registry
import TaskPool.Proofs.RegistryKept
import TaskPool.Proofs.RelayedPanics
import TaskPool.Proofs.ScriptOperations
import TaskPool.Proofs.SoloRuns
import TaskPool.Proofs.Spans
import TaskPool.Proofs.Stack
import TaskPool.Proofs.StartOrder
import TaskPool.Proofs.SystemChanges
import TaskPool.Proofs.TaskChanges
import TaskPool.Proofs.TaskStacks
import TaskPool.Proofs.TokenLanes
import TaskPool.Proofs.TokenReceivers
import TaskPool.Proofs.TurnMoves
import TaskPool.Proofs.WaitBarrier
import TaskPool.Proofs.WaitBudgets
import TaskPool.Proofs.WaitProgress
import TaskPool.Proofs.WaitingJobs
import TaskPool.Report
import TaskPool.Script.Argument
import TaskPool.Script.Op
import TaskPool.Script.Reply
import TaskPool.Script.Table
import TaskPool.Session
import TaskPool.SharedBarrier
import TaskPool.SharedPool
import TaskPool.SleepWake
import TaskPool.Submission
import TaskPool.Submitters
import TaskPool.System
import TaskPool.World
