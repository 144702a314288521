import ZcashFaucet.Lib.Run
import ZcashFaucet.Lib.DeadlineLoop
import ZcashFaucet.Lib.Modify
import ZcashFaucet.Lib.RollingWindow
import ZcashFaucet.Lib.SlidingWindow
import ZcashFaucet.Lib.Buckets
import ZcashFaucet.Lib.JsString
import ZcashFaucet.Lib.Hex
import ZcashFaucet.Lib.Protobuf
import ZcashFaucet.Lib.Json
import ZcashFaucet.Lib.JsMap
import ZcashFaucet.Lib.Calendar
import ZcashFaucet.Lib.Decimal
import ZcashFaucet.Lib.UrlHost
import ZcashFaucet.Lib.JsDate
import ZcashFaucet.Lib.CrashStop
import ZcashFaucet.Lib.Tables
import ZcashFaucet.Lib.Bytes
import ZcashFaucet.Lib.WireRead
import ZcashFaucet.Lib.Bech32
import ZcashFaucet.Lib.Base58
import ZcashFaucet.Lib.Sha256
import ZcashFaucet.Lib.PagedScan
import ZcashFaucet.Lib.ParseUnsigned
import ZcashFaucet.Lib.Bearer
import ZcashFaucet.Lib.BigNumber
import ZcashFaucet.Lib.JsonNumeral
import ZcashFaucet.Lib.JsonText
import ZcashFaucet.Lib.JsonLayout
import ZcashFaucet.Lib.CivilTime
import ZcashFaucet.Lib.Cells
import ZcashFaucet.Lib.Throttle
import ZcashFaucet.Lib.ExpiringChain
import ZcashFaucet.Config
import ZcashFaucet.Db.Sql
import ZcashFaucet.Db.Ledger
import ZcashFaucet.Db.LedgerTheorems
import ZcashFaucet.Db.WhyBlocked
import ZcashFaucet.Db.Purge
import ZcashFaucet.Db.DripCount
import ZcashFaucet.Db.DripCountTheorems
import ZcashFaucet.Db.UsedChallenges
import ZcashFaucet.Db.Migrations
import ZcashFaucet.Db.MigrationsTheorems
import ZcashFaucet.Db.DripSeries
import ZcashFaucet.Db.DripSeriesTheorems
import ZcashFaucet.Db.Feedback
import ZcashFaucet.Db.D1Proxy
import ZcashFaucet.Pow.Challenge
import ZcashFaucet.Pow.ChallengeTheorems
import ZcashFaucet.Pow.Replay
import ZcashFaucet.Pow.Difficulty
import ZcashFaucet.Pow.Issue
import ZcashFaucet.Pow.Solvable
import ZcashFaucet.Pow.Escalation
import ZcashFaucet.Pow.Worker
import ZcashFaucet.Pow.IssueVerify
import ZcashFaucet.Zcash.Queue
import ZcashFaucet.Zcash.QueueTheorems
import ZcashFaucet.Zcash.QueueTiming
import ZcashFaucet.Zcash.Send
import ZcashFaucet.Zcash.SendHealth
import ZcashFaucet.Zcash.CrosslinkSend
import ZcashFaucet.Zcash.Explorer
import ZcashFaucet.Zcash.ZalletSend
import ZcashFaucet.Zcash.ZalletTheorems
import ZcashFaucet.Zcash.SendBudget
import ZcashFaucet.Zcash.Grpc
import ZcashFaucet.Zcash.TipWire
import ZcashFaucet.Zcash.TipWireTheorems
import ZcashFaucet.Zcash.TipEndpoint
import ZcashFaucet.Zcash.RealSend
import ZcashFaucet.Zcash.TipReferences
import ZcashFaucet.Zcash.TipRate
import ZcashFaucet.Zcash.Gates
import ZcashFaucet.Zcash.GateTheorems
import ZcashFaucet.Zcash.OracleWait
import ZcashFaucet.Zcash.OracleWaitTheorems
import ZcashFaucet.Zcash.NodeStatus
import ZcashFaucet.Zcash.QuietNetwork
import ZcashFaucet.Zcash.Address
import ZcashFaucet.Zcash.Wallet
import ZcashFaucet.Zcash.NodeStatusCache
import ZcashFaucet.Zcash.Donations
import ZcashFaucet.Zcash.DonationCache
import ZcashFaucet.Zcash.TransparentTx
import ZcashFaucet.Zcash.T2zWorker
import ZcashFaucet.Zcash.DirectTip
import ZcashFaucet.Zcash.ZecLiteral
import ZcashFaucet.Zcash.ZalletRequest
import ZcashFaucet.Zcash.ChainIdentity
import ZcashFaucet.Zcash.ForkReference
import ZcashFaucet.Zcash.StatusBooks
import ZcashFaucet.Zcash.StatusRead
import ZcashFaucet.Zcash.ExpiryTip
import ZcashFaucet.Zcash.PayoutFate
import ZcashFaucet.Api.FaucetRoute
import ZcashFaucet.Api.PreReservation
import ZcashFaucet.Api.FaucetPhase
import ZcashFaucet.Api.Readiness
import ZcashFaucet.Api.OwnRefusals
import ZcashFaucet.Api.PageAndClaim
import ZcashFaucet.Api.CapRetry
import ZcashFaucet.Api.SendWindow
import ZcashFaucet.Api.SendHealthLaws
import ZcashFaucet.Api.ClientIp
import ZcashFaucet.Api.Subnet
import ZcashFaucet.Api.RateLimit
import ZcashFaucet.Api.LedgerProbe
import ZcashFaucet.Reserve.Decide
import ZcashFaucet.Reserve.Reconciler
import ZcashFaucet.Reserve.OneRefill
import ZcashFaucet.Reserve.ZalletRefiller
import ZcashFaucet.Reserve.ShieldStep
import ZcashFaucet.Reserve.Residence
import ZcashFaucet.Reserve.Pacing
import ZcashFaucet.Reserve.PacingTheorems
import ZcashFaucet.Reserve.Panel
import ZcashFaucet.System.World
import ZcashFaucet.System.WorldInvariant
import ZcashFaucet.System.DoubleDrip
import ZcashFaucet.System.Drain
import ZcashFaucet.System.Broadcasts
import ZcashFaucet.System.GatesAtUse
import ZcashFaucet.Miner.Rfc3339
import ZcashFaucet.Miner.Heartbeat
import ZcashFaucet.Miner.Reading
import ZcashFaucet.Miner.WaitingTheorems
import ZcashFaucet.Miner.HeartbeatText
import ZcashFaucet.Miner.Lifetime
import ZcashFaucet.Miner.LifetimeTheorems
import ZcashFaucet.Miner.Target
import ZcashFaucet.Miner.Block
import ZcashFaucet.Miner.Mining
import ZcashFaucet.Miner.Accounting
import ZcashFaucet.Miner.HeartbeatAge
import ZcashFaucet.Miner.Settings
import ZcashFaucet.Miner.Solve
import ZcashFaucet.Miner.SolveTheorems
import ZcashFaucet.Miner.Calls
import ZcashFaucet.Evidence.BoxIntegrity
import ZcashFaucet.Evidence.CtazRecency
import ZcashFaucet.Evidence.FutureStamps
import ZcashFaucet.Crosslink.Node
import ZcashFaucet.Crosslink.Cache
