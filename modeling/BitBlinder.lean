import BitBlinder.Runs
import BitBlinder.Interleaving
import BitBlinder.Effects
import BitBlinder.Deferred
import BitBlinder.Table
import BitBlinder.FifoCache
import BitBlinder.Fragment
import BitBlinder.Tiers
import BitBlinder.Rsa
import BitBlinder.Struct
import BitBlinder.Basic
import BitBlinder.ACoin
import BitBlinder.Signatures
import BitBlinder.Bank.SpentStore
import BitBlinder.Bank.Rollover
import BitBlinder.Bank.DoubleSpend
import BitBlinder.Bank.Accounts
import BitBlinder.Bank.Withdrawals
import BitBlinder.Bank.Solvency
import BitBlinder.Bank.Replay
import BitBlinder.Bank.UdpServer
import BitBlinder.Client.BankMessages
import BitBlinder.Client.CoinLifecycle
import BitBlinder.Client.BankConnection
import BitBlinder.Client.BankFrames
import BitBlinder.Client.Serialised
import BitBlinder.Client.LiveCoins
import BitBlinder.Client.ExactCoins
import BitBlinder.Client.Persistence
import BitBlinder.Client.ForwardedPort
import BitBlinder.Client.OldCoins
import BitBlinder.Client.BankReplies
import BitBlinder.Tor.TorMessages
import BitBlinder.Tor.Reassembly
import BitBlinder.Tor.RoundTrip
import BitBlinder.Tor.ExitPolicy
import BitBlinder.Tor.MakePath
import BitBlinder.Tor.ServerPayment
import BitBlinder.Tor.TokenGrants
import BitBlinder.Tor.ClientPayment
import BitBlinder.Tor.Refill
import BitBlinder.Tor.PaymentFrames
import BitBlinder.Tor.PaidTraffic
import BitBlinder.Tor.Inflight
import BitBlinder.Tor.QueuedRequests
import BitBlinder.Tor.MerchantTokens
import BitBlinder.Tor.FailedPayments
import BitBlinder.Innomitor.Circuit
import BitBlinder.Innomitor.Control
import BitBlinder.Innomitor.PaymentGate
import BitBlinder.Innomitor.Addtokens
import BitBlinder.Innomitor.PaymentCells
import BitBlinder.Innomitor.EdgeStreams
import BitBlinder.Innomitor.WakeUps
import BitBlinder.Innomitor.AbsentStreams
import BitBlinder.Innomitor.FlowControl
import BitBlinder.Tor.CircuitRegistry
import BitBlinder.Tor.TokenLevels
import BitBlinder.Tor.DhtRequests
import BitBlinder.Tor.TorCtl
import BitBlinder.Tor.ControlReplies
import BitBlinder.Tor.SocksApp
import BitBlinder.Tor.CircuitWaiters
import BitBlinder.Tor.StreamMembership
import BitBlinder.Applications.SocksStreams
import BitBlinder.Applications.HttpDownload
import BitBlinder.Applications.PauseDiscipline
import BitBlinder.Callbacks
import BitBlinder.Applications.Lifecycle
import BitBlinder.Applications.LifecycleClaims
import BitBlinder.Applications.LifecycleCalls
import BitBlinder.Applications.LifecycleRuns
import BitBlinder.BitTorrent.RequestSequence
import BitBlinder.BitTorrent.Rerequester
import BitBlinder.BitTorrent.CancelledRequests
import BitBlinder.BitTorrent.Choker
import BitBlinder.BitTorrent.JashEncoder
import BitBlinder.BitTorrent.PeerRegistry
import BitBlinder.BitTorrent.PeerAccounting
import BitBlinder.Bank.AllOrNothing
import BitBlinder.Bank.LoginLockout
import BitBlinder.Bank.AccountCreation
import BitBlinder.Bank.IntervalTracking
import BitBlinder.Tor.EarnedCoins
import BitBlinder.Client.Persistence
import BitBlinder.BitTorrent.AlterQuery
import BitBlinder.Client.SocksClient
import BitBlinder.Tor.DhtRoundTrip
import BitBlinder.Bank.Events
import BitBlinder.Bank.EventImport
import BitBlinder.Client.Versions
import BitBlinder.Client.Unblinding
import BitBlinder.BitTorrent.ResumeStore
import BitBlinder.Client.BandwidthHistory
import BitBlinder.Client.EventHandlers
import BitBlinder.Bank.LogPasses
import BitBlinder.Applications.SettingsFile
import BitBlinder.Feeding
import BitBlinder.StreamCipher
import BitBlinder.BitTorrent.PeerWire
import BitBlinder.BitTorrent.OneBuffer
import BitBlinder.BitTorrent.TwoReaders
import BitBlinder.BitTorrent.LaterData
import BitBlinder.BitTorrent.PeerStreams
import BitBlinder.BitTorrent.Stages
import BitBlinder.BitTorrent.Segmentation
import BitBlinder.BitTorrent.TwoPlaces
import BitBlinder.BitTorrent.Bitfield
import BitBlinder.BitTorrent.PiecePicker
import BitBlinder.Bisect
import BitBlinder.BitTorrent.ActiveRequests
import BitBlinder.BitTorrent.Blame
import BitBlinder.BitTorrent.PickerIndex
import BitBlinder.BitTorrent.Swarm
