import GameBackend.DungeonLedger
import GameBackend.ReadFailures
import GameBackend.LockOwnership
import GameBackend.HashCompleteness
import GameBackend.SessionNumbers
import GameBackend.BattleNumbers
import GameBackend.UpstreamAnswers
import GameBackend.Freshness
import GameBackend.BattleContexts
import GameBackend.PaidBattles
import GameBackend.Authorization
import GameBackend.MysqlHandle
import GameBackend.RedisContext
import GameBackend.ErrorCodes
import GameBackend.SessionStores
import GameBackend.EventLoop
import GameBackend.WriteQueues
import GameBackend.LastRequests
import GameBackend.BindingLifecycle
import GameBackend.Configuration
import GameBackend.PasswordHasher
import GameBackend.ByteOrder
import GameBackend.Forwarding
import GameBackend.RoundTrips
import GameBackend.Escaping
import GameBackend.ColdLoads
import GameBackend.LockWindow
import GameBackend.Deadlocks
import GameBackend.Deadlines
import GameBackend.Receipts
