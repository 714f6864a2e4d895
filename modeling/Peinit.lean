import Peinit.Timer.Sampling
import Peinit.Boot.CycleSearches
import Peinit.Boot.SafeMode
import Peinit.Boot.Sound
import Peinit.Control.ReadBound
import Peinit.Graph.Final
import Peinit.Graph.Propagation
import Peinit.Graph.Pruning
import Peinit.Health.Runs
import Peinit.Ids.Increasing
import Peinit.Job.Atomic
import Peinit.Job.CgroupTrees
import Peinit.Job.Command
import Peinit.Timer.Horizon
import Peinit.Logging.Batch
import Peinit.Operation.Lives
import Peinit.Service.BuiltIn
import Peinit.Service.LeakRuns
import Peinit.Service.Terminal
import Peinit.Shutdown.Deadlines
import Peinit.Shutdown.Exact
import Peinit.Shutdown.MainProcess
import Peinit.Start.Once
import Peinit.Submitted.InShutdown
import Peinit.Supervisor.DeferredReaps
import Peinit.Supervisor.Promote
import Peinit.Supervisor.RestartBudget
import Peinit.Timer.Jitter
