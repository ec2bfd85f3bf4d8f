import GpuTel.Api.EndToEnd
import GpuTel.Api.Handlers
import GpuTel.Api.ListGPUs
import GpuTel.Api.OptionalBounds
import GpuTel.Api.TimeRange
import GpuTel.Lib.Attempt
import GpuTel.Lib.Chunk
import GpuTel.Lib.Fifo
import GpuTel.Lib.History
import GpuTel.Lib.InFlight
import GpuTel.Lib.Json
import GpuTel.Lib.KeyedLog
import GpuTel.Lib.Lanes
import GpuTel.Lib.Resets
import GpuTel.Lib.SetMap
import GpuTel.Lib.Ties
import GpuTel.Lib.Transition
import GpuTel.Lib.Windows
import GpuTel.Mq.AckOutcomes
import GpuTel.Mq.AcknowledgeStream
import GpuTel.Mq.Acknowledgement
import GpuTel.Mq.Backlog
import GpuTel.Mq.BatchReads
import GpuTel.Mq.Broker
import GpuTel.Mq.BrokerInvariant
import GpuTel.Mq.Coherence
import GpuTel.Mq.Delivery
import GpuTel.Mq.Drain
import GpuTel.Mq.FreshMessages
import GpuTel.Mq.GetMessages
import GpuTel.Mq.InFlight
import GpuTel.Mq.InMemoryStore
import GpuTel.Mq.LastWriter
import GpuTel.Mq.Lifecycle
import GpuTel.Mq.Message
import GpuTel.Mq.OnTheWay
import GpuTel.Mq.OnlyTopic
import GpuTel.Mq.PublishStream
import GpuTel.Mq.Redelivery
import GpuTel.Mq.ReliableDelivery
import GpuTel.Mq.Retention
import GpuTel.Mq.Server
import GpuTel.Mq.ServerShutdown
import GpuTel.Mq.ServerStop
import GpuTel.Mq.Services
import GpuTel.Mq.StreamMessages
import GpuTel.Mq.SubscriberRegistry
import GpuTel.Mq.TopicIndex
import GpuTel.Mq.World
import GpuTel.Mq.WorldInvariant
import GpuTel.Pipeline.Acknowledgements
import GpuTel.Pipeline.Agreement
import GpuTel.Pipeline.Answers
import GpuTel.Pipeline.Broadcast
import GpuTel.Pipeline.CompleteAnswers
import GpuTel.Pipeline.Connections
import GpuTel.Pipeline.Goroutines
import GpuTel.Pipeline.KeepingUp
import GpuTel.Pipeline.Listing
import GpuTel.Pipeline.Origin
import GpuTel.Pipeline.Polls
import GpuTel.Pipeline.Provenance
import GpuTel.Pipeline.Readers
import GpuTel.Pipeline.Restarts
import GpuTel.Pipeline.System
import GpuTel.Pipeline.Ticks
import GpuTel.Pipeline.Topics
import GpuTel.Telemetry.AckBatches
import GpuTel.Telemetry.Collector
import GpuTel.Telemetry.CollectorLoop
import GpuTel.Telemetry.CollectorRounds
import GpuTel.Telemetry.CollectorStop
import GpuTel.Telemetry.CollectorTrace
import GpuTel.Telemetry.CsvColumns
import GpuTel.Telemetry.CursorBounds
import GpuTel.Telemetry.LoadMetrics
import GpuTel.Telemetry.MemoryStorage
import GpuTel.Telemetry.MetricRows
import GpuTel.Telemetry.Models
import GpuTel.Telemetry.SentRecords
import GpuTel.Telemetry.SinkMain
import GpuTel.Telemetry.StorageLaws
import GpuTel.Telemetry.StorageQueries
import GpuTel.Telemetry.Streamer
import GpuTel.Telemetry.StreamerBatches
import GpuTel.Telemetry.StreamerFailures
import GpuTel.Telemetry.StreamerLoop
import GpuTel.Telemetry.StreamerMain
import GpuTel.Telemetry.StreamerProcess
import GpuTel.Telemetry.TelemetryJson
