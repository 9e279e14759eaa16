import Statechart.Checkpoint.Basic
import Statechart.Definition.Compile
import Statechart.Proofs.Addressees
import Statechart.Proofs.Alarms
import Statechart.Proofs.Announcements
import Statechart.Proofs.Beginnings
import Statechart.Proofs.Coexisting
import Statechart.Proofs.Delays
import Statechart.Proofs.DocumentOrder
import Statechart.Proofs.EarlyMail
import Statechart.Proofs.EndedInterpreters
import Statechart.Proofs.ExactSteps
import Statechart.Proofs.FailedSteps
import Statechart.Proofs.FaithfulCheckpoints
import Statechart.Proofs.FinalStates
import Statechart.Proofs.ForetoldSteps
import Statechart.Proofs.ForgottenMail
import Statechart.Proofs.FreshIds
import Statechart.Proofs.Isolation
import Statechart.Proofs.LeafSearches
import Statechart.Proofs.LosslessCheckpoints
import Statechart.Proofs.MicrostepLimits
import Statechart.Proofs.OwnedActors
import Statechart.Proofs.ParallelDomains
import Statechart.Proofs.Priorities
import Statechart.Proofs.Reentering
import Statechart.Proofs.ReleasedActors
import Statechart.Proofs.ResolvedMachines
import Statechart.Proofs.RestartPoints
import Statechart.Proofs.RestoredHistory
import Statechart.Proofs.RestoredTwins
import Statechart.Proofs.RootCompletion
import Statechart.Proofs.RunValidity
import Statechart.Proofs.RunVisits
import Statechart.Proofs.StateEntries
import Statechart.Proofs.StateValues
import Statechart.Proofs.TargetLists
import Statechart.Proofs.Timekeeping
import Statechart.Proofs.Tokens
import Statechart.Proofs.UnboundedPlanning
import Statechart.Proofs.UnheardEvents
import Statechart.Proofs.Visibility
import Statechart.Report.Run
import Statechart.Simulation.Handles
