import BenchBF3.Foundation.System
import BenchBF3.Foundation.Program
import BenchBF3.SmallBank.Mutex
import BenchBF3.SmallBank.Server
import BenchBF3.SmallBank.Locking
import BenchBF3.SmallBank.Protocol
import BenchBF3.SmallBank.Serial
import BenchBF3.Dpa.BankServer
import BenchBF3.Dpa.Completion
import BenchBF3.SmallBank.Client
import BenchBF3.Dpa.Reflector
import BenchBF3.Dpa.BankClient
import BenchBF3.Dpa.BankPipeline
import BenchBF3.Channel.Dma
import BenchBF3.Channel.FlowControl
import BenchBF3.Channel.SyncEvent
import BenchBF3.Foundation.Footprint
import BenchBF3.SmallBank.Barrier
import BenchBF3.Dpa.Ddio
import BenchBF3.SmallBank.Independent
import BenchBF3.Dpa.BankRollback
import BenchBF3.Dpa.BankFinish
import BenchBF3.Dpa.KvAggregation
import BenchBF3.Channel.Descriptors
import BenchBF3.Channel.Accounting
import BenchBF3.Foundation.Ledger
import BenchBF3.Foundation.Slots
import BenchBF3.Tasks.GdrImporter
import BenchBF3.Tasks.RdmaSender
import BenchBF3.Jobs.Pipeline
import BenchBF3.Jobs.Compress
import BenchBF3.Jobs.ErasureCoding
import BenchBF3.Foundation.Merge
import BenchBF3.Receive.MergeResult
import BenchBF3.Receive.Timestamps
import BenchBF3.Foundation.Shares
import BenchBF3.Jobs.RegexChunks
import BenchBF3.Foundation.Buckets
import BenchBF3.Memory.Buckets
import BenchBF3.Dpa.PacketScan
import BenchBF3.Memory.Cycles
import BenchBF3.Memory.Throughput
import BenchBF3.Foundation.Blocks
import BenchBF3.Foundation.Mixing
import BenchBF3.SmallBank.XxHash
import BenchBF3.Bench.Reporter
import BenchBF3.Tasks.TaskPool
import BenchBF3.Dpa.RoundTrip
import BenchBF3.Foundation.Totals
import BenchBF3.SmallBank.Money
import BenchBF3.Dpa.SendThreads
import BenchBF3.Dpa.Steering
import BenchBF3.Dpa.PacketHeaders
