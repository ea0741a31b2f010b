import Vireo.Timer.Budget
import Vireo.Timer.Shutdown
import Vireo.Timer.Wait
import Vireo.Thread.CompletionTransfer
import Vireo.Thread.TaskCancel
import Vireo.Thread.ThreadPoolLaw
import Vireo.Security.PageToken
import Vireo.Security.RateLimiterRun
import Vireo.Persistence.PoolSafety
import Vireo.Persistence.MigrationSafety
import Vireo.Persistence.Node.Authority
import Vireo.Protocol.Chunk
import Vireo.Protocol.NodeListCodec
import Vireo.Protocol.AuthGrammar
import Vireo.Protocol.NodeFrames
import Vireo.Net.Flow
import Vireo.Net.Close
import Vireo.Net.Wakeup
import Vireo.Net.PoolAccounts
import Vireo.Net.EventLoopRun
import Vireo.Net.RequestHeadRun
import Vireo.Net.TlsFlow
import Vireo.Net.TlsCloseSafety
import Vireo.Base.ConfigParsing
import Vireo.Base.Log
import Vireo.Net.AuthConsumerRun
import Vireo.Net.ClientQueueRun
import Vireo.Service.FailureAuditRun
import Vireo.Security.PasswordCodec
import Vireo.Net.CompletionResponse
import Vireo.Persistence.User.Conflict
import Vireo.Service.AuthPublish
import Vireo.App.Shutdown
import Vireo.Persistence.Node.Depth
import Vireo.Service.DirectoryName
