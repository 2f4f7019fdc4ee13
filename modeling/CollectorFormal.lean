import CollectorFormal.Pdata.Raw
import CollectorFormal.Xpdata.Request
import CollectorFormal.Xpdata.EntityCopy
import CollectorFormal.Xpdata.EntityEdits
import CollectorFormal.Queue.PersistentOrder
import CollectorFormal.Queue.PersistentRecovery
import CollectorFormal.Queue.CondTokens
import CollectorFormal.Queue.PersistentOffer
import CollectorFormal.Queue.AsyncQueue
import CollectorFormal.Batch.CachedSize
import CollectorFormal.Batch.ProfilesBytes
import CollectorFormal.Batcher.MetadataPartitioner
import CollectorFormal.Batcher.WorkerDeadlock
import CollectorFormal.Batcher.IdleRemoval
import CollectorFormal.Batcher.Isolation
import CollectorFormal.Batcher.EarlyRelease
import CollectorFormal.Processor.SplitMetrics
import CollectorFormal.Processor.Shard
import CollectorFormal.Processor.MultiShard
import CollectorFormal.Exporter.ObsReport
import CollectorFormal.Confmap.MergeAppend
import CollectorFormal.Confmap.Closers
import CollectorFormal.Confmap.Watch
import CollectorFormal.Confmap.Quoting
import CollectorFormal.Confmap.Escaping
import CollectorFormal.Otelcol.Secrets
import CollectorFormal.Otelcol.ConfigDiff
import CollectorFormal.Service.Fanout
import CollectorFormal.Proto.Bounds
import CollectorFormal.Proto.Marshal
import CollectorFormal.Service.Extensions
import CollectorFormal.Service.Status
import CollectorFormal.Pprofile.Inline
import CollectorFormal.Scraper.ScrapeProfiles
import CollectorFormal.Memorylimiter.Check
import CollectorFormal.Configtls.ClientCAs
import CollectorFormal.Consumererror.Status
