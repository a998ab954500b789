import Simulator.RestoreInPlace
import Simulator.ParallelSerial
import Simulator.TornSnapshots
import Simulator.TerminalStates
import Simulator.ExactRuns
import Simulator.EntitySetCache
import Simulator.ShardOwnership
import Simulator.JobLoss
import Simulator.JobResults
import Simulator.EntityReuse
import Simulator.OrphanedRuns
import Simulator.UserIsolation
import Simulator.StatusConvergence
import Simulator.PersistedSnapshots
import Simulator.SchedulerDepth
import Simulator.ResourceRoundTrips
import Simulator.EventIdentifiers
import Simulator.TimeLimit
import Simulator.StepAgreement
import Simulator.BrokerRecovery
import Simulator.RestoreSafety
import Simulator.MigrationFiles
import Simulator.RegistryVersions
import Simulator.RetryDelays
import Simulator.QueueGauge
import Simulator.ActiveGauge
import Simulator.ClosedBroker
import Simulator.ErrorReports
import Simulator.PanicContainment
import Simulator.UniformDraws
import Simulator.StreamKeys
import Simulator.PasswordHashes
import Simulator.CreationOrder
import Simulator.TimeoutWriter
import Simulator.QueueingConservation
import Simulator.LogisticsDeterminism
import Simulator.TrafficCells
import Simulator.EcosystemCapacity
import Simulator.RateLimits
