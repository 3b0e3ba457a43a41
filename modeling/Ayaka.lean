import Ayaka.Memory.AllocatorSafety
import Ayaka.Memory.AllocatorBatches
import Ayaka.Memory.AllocatorPromises
import Ayaka.Prefix.IdentityAgreement
import Ayaka.Prefix.TransferRuns
import Ayaka.Sched.DecodeRing
import Ayaka.Sched.PromptScores
import Ayaka.Executor.CompletionRuns
import Ayaka.Memory.LedgerRollback
import Ayaka.Speculative.Lossless
import Ayaka.Sampling.Draws
import Ayaka.Sampling.GreedyMask
import Ayaka.Speculative.Rejection
import Ayaka.Runtime.IpcLifetimes
import Ayaka.Runtime.OutputStreams
import Ayaka.Memory.WorkspaceMoves
import Ayaka.Runner.DecodeGraphRuns
import Ayaka.DeviceComm.SignalEpochRuns
import Ayaka.Distributed.ExecutionRuns
import Ayaka.DeviceComm.CollectiveAgreement
import Ayaka.Layers.VocabParallelDense
import Ayaka.Prefix.ResumeStale
import Ayaka.Prefix.GlobalIndexLookup
import Ayaka.Configs.Parallel
import Ayaka.Serving.NodeTransport
import Ayaka.DeviceComm.CollectiveRoutes
import Ayaka.KvCache.Retention
import Ayaka.Speculative.TreeAcceptance
