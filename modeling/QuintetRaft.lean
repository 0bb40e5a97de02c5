import QuintetRaft.Library.Sections
import QuintetRaft.Model.Sections
import QuintetRaft.Safety.Acknowledged
import QuintetRaft.Safety.AddLogThreads
import QuintetRaft.Safety.AppendingLoop
import QuintetRaft.Safety.ApplyOrder
import QuintetRaft.Safety.Backtracking
import QuintetRaft.Safety.BeatContract
import QuintetRaft.Safety.CandidateSteps
import QuintetRaft.Safety.ConfigurationFile
import QuintetRaft.Safety.Durability
import QuintetRaft.Safety.ElectionTimeout
import QuintetRaft.Safety.ElectionTimer
import QuintetRaft.Safety.ElectionsSucceed
import QuintetRaft.Safety.FileFormat
import QuintetRaft.Safety.FileInterruption
import QuintetRaft.Safety.FileStore
import QuintetRaft.Safety.FollowerLog
import QuintetRaft.Safety.GracefulStop
import QuintetRaft.Safety.IndexSections
import QuintetRaft.Safety.LeaderBounds
import QuintetRaft.Safety.QueueOrder
import QuintetRaft.Safety.RemoteCalls
import QuintetRaft.Safety.Replication
import QuintetRaft.Safety.RpcOutcomes
import QuintetRaft.Safety.RpcPause
import QuintetRaft.Safety.Sections
import QuintetRaft.Safety.StopFinal
import QuintetRaft.Safety.StoredCommands
import QuintetRaft.Safety.Stranding
import QuintetRaft.Safety.StrandingSections
import QuintetRaft.Safety.TimerDeadlock
import QuintetRaft.Safety.TypedCalls
import QuintetRaft.Safety.WireCluster
