import Dora.Daemon.PendingVerdict
import Dora.Daemon.AllInputsClosed
import Dora.Node.OutputPath
import Dora.Daemon.ListenerQueue
import Dora.Daemon.NodeRemoval
import Dora.Coordinator.AutoRecovery
import Dora.Core.TypeAdmission
import Dora.Node.IpcUint8
import Dora.Node.PipelinedWaits
import Dora.Node.SchedulerFairness
import Dora.TensorPool.WriteAck
import Dora.Daemon.RestartLoop
import Dora.Daemon.FinishStragglers
import Dora.Recording.ReaderViews
import Dora.Coordinator.Generations
import Dora.Coordinator.CleanSafety
import Dora.Core.NodeIds
import Dora.Store.Interchange
import Dora.Coordinator.ParamCatchUp
import Dora.Core.Resolution
import Dora.Core.TypeCompatibility
import Dora.Daemon.LogRotation
import Dora.Hub.Catalog
import Dora.Ros2.ServiceServer
import Dora.Runtime.OperatorLoop
import Dora.Runtime.OverflowPolicy
import Dora.Ros2.LivelinessKeys
import Dora.TensorPool.SegmentNames
import Dora.Ros2.StringDefaults
