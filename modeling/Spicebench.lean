import Spicebench.Library.Machine
import Spicebench.Library.OrderedMap
import Spicebench.Library.Binary64
import Spicebench.Construction.Dataset.Batch
import Spicebench.Construction.Etl.Segments
import Spicebench.Construction.Etl.WorkPlan
import Spicebench.Construction.Etl.TableTask
import Spicebench.Construction.Etl.RunPipeline
import Spicebench.Construction.Etl.Pipeline
import Spicebench.Proof.Etl.WorkPlan
import Spicebench.Proof.Etl.TableTask
import Spicebench.Proof.Etl.HealthyTask
import Spicebench.Proof.Etl.Ledger
import Spicebench.Proof.Etl.RunPipeline
import Spicebench.Proof.Etl.Segment
import Spicebench.Proof.Etl.Termination
import Spicebench.Proof.Etl.Segments
import Spicebench.Proof.Etl.Delivery
import Spicebench.Proof.Etl.RunDelivery
import Spicebench.Proof.Etl.Boundary
import Spicebench.Proof.Etl.Pipeline
import Spicebench.Proof.Etl.Lifecycle
import Spicebench.Proof.Etl.ExactlyOnce
import Spicebench.Construction.Dataset.KeySet
import Spicebench.Library.KeyLog
import Spicebench.Library.KeyTrace
import Spicebench.Proof.Dataset.KeySet
import Spicebench.Construction.Dataset.Generator
import Spicebench.Construction.Dataset.SimpleSequence
import Spicebench.Construction.Dataset.Tpch
import Spicebench.Proof.Dataset.Changes
import Spicebench.Proof.Dataset.Tpch
import Spicebench.Proof.Dataset.TpchStream
import Spicebench.Proof.Dataset.BaseRows
import Spicebench.Proof.Dataset.SimpleSequence
import Spicebench.Proof.Dataset.Validity
import Spicebench.Proof.Etl.Operations
import Spicebench.Proof.Etl.SegmentKeys
import Spicebench.Proof.Etl.RowCounts
import Spicebench.Proof.Etl.Replay
import Spicebench.Proof.Etl.TargetTable
import Spicebench.Construction.Commands.Checkpoint
import Spicebench.Construction.Commands.Run
import Spicebench.Proof.Commands.Background
import Spicebench.Proof.Commands.Failure
import Spicebench.Proof.Commands.Schedule
import Spicebench.Proof.Commands.Checkpoint
import Spicebench.Proof.Commands.Run
import Spicebench.Proof.Commands.Agreement
import Spicebench.Construction.Checkpointer
import Spicebench.Construction.Commands.Load
import Spicebench.Construction.Databricks
import Spicebench.Construction.Etl.ReadBatches
import Spicebench.Construction.Etl.SplitColumns
import Spicebench.Construction.Etl.WriteSegments
import Spicebench.Construction.Sink.Ingest
import Spicebench.Construction.Sink.Statements
import Spicebench.Construction.Sink.Streams
import Spicebench.Construction.SpiceTest
import Spicebench.Construction.SystemAdapter
import Spicebench.Construction.Validation
import Spicebench.Proof.Checkpointer
import Spicebench.Proof.Commands.Load
import Spicebench.Proof.Commands.Pauses
import Spicebench.Proof.Databricks
import Spicebench.Proof.Duration
import Spicebench.Proof.Etl.Coalesce
import Spicebench.Proof.Etl.OpIndices
import Spicebench.Proof.Etl.ReadBatches
import Spicebench.Proof.Etl.Retirement
import Spicebench.Proof.Etl.SplitColumns
import Spicebench.Proof.Etl.WriteSegments
import Spicebench.Proof.Sink.Durability
import Spicebench.Proof.Sink.Deletes
import Spicebench.Proof.Sink.Effects
import Spicebench.Proof.Sink.Faithful
import Spicebench.Proof.Sink.Order
import Spicebench.Proof.Sink.Updates
import Spicebench.Proof.SpiceTest
import Spicebench.Proof.SystemAdapter
import Spicebench.Proof.Validation
import Spicebench.Construction.Yaml
import Spicebench.Proof.Yaml
import Spicebench.Construction.DurationBytes
import Spicebench.Construction.Queries
import Spicebench.Construction.Sink.DynamoDb
import Spicebench.Construction.Sink.MongoDb
import Spicebench.Construction.Sink.StagingMerge
import Spicebench.Construction.Stringify
import Spicebench.Library.Calendar
import Spicebench.Library.Lexing
import Spicebench.Library.Separator
import Spicebench.Library.Utf8
import Spicebench.Proof.DurationBytes
import Spicebench.Proof.DurationGrammar
import Spicebench.Proof.Queries
import Spicebench.Proof.Quoting
import Spicebench.Proof.Sink.DynamoDb
import Spicebench.Proof.Sink.MongoDb
import Spicebench.Proof.Sink.SizeLimit
import Spicebench.Proof.Sink.StagingMerge
import Spicebench.Proof.Stringify
import Spicebench.Library.Timeline
import Spicebench.Library.OrderStatistics
import Spicebench.Library.KeyedMap
import Spicebench.Library.Outline
import Spicebench.Construction.RateLimiter
import Spicebench.Construction.Statistics
import Spicebench.Construction.Commands.Probe
import Spicebench.Construction.Commands.Convergence
import Spicebench.Construction.CheckpointerUpload
import Spicebench.Construction.Dataset.Storage
import Spicebench.Construction.Dataset.DataGenerator
import Spicebench.Construction.Dataset.S3Storage
import Spicebench.Construction.Etl.LogicalBatch
import Spicebench.Construction.AdbcClient
import Spicebench.Construction.Snapshot
import Spicebench.Proof.RateLimiter
import Spicebench.Proof.Statistics
import Spicebench.Proof.Commands.Probe
import Spicebench.Proof.Commands.Convergence
import Spicebench.Proof.CheckpointerUpload
import Spicebench.Proof.Dataset.Recording
import Spicebench.Proof.Dataset.S3Storage
import Spicebench.Proof.Etl.LogicalBatch
import Spicebench.Proof.AdbcClient
import Spicebench.Proof.Snapshot.Lines
import Spicebench.Proof.Snapshot.Subtrees
import Spicebench.Proof.Snapshot.Canonical
import Spicebench.Proof.DurationValue
import Spicebench.Library.OffsetList
import Spicebench.Library.HashGroups
import Spicebench.Construction.OtelArrow.Metrics
import Spicebench.Construction.OtelArrow.Builders
import Spicebench.Construction.OtelArrow.Converter
import Spicebench.Proof.OtelArrow.Builders
import Spicebench.Proof.OtelArrow.Converter
import Spicebench.Proof.OtelArrow.Batch
import Spicebench.Proof.OtelArrow.Rows
import Spicebench.Proof.OtelArrow.Reuse
import Spicebench.Proof.YamlMerge
import Spicebench.Construction.YamlSerde
import Spicebench.Construction.YamlValue
import Spicebench.Construction.Dataset.RawKeySet
import Spicebench.Construction.QuerySets
import Spicebench.Proof.YamlSerde
import Spicebench.Proof.YamlValue
import Spicebench.Proof.Dataset.RawKeySet
import Spicebench.Proof.QuerySets
import Spicebench.Construction.Execution
import Spicebench.Construction.DatabricksWaits
import Spicebench.Construction.Sink.RowCounts
import Spicebench.Construction.StreamingMetrics
import Spicebench.Proof.DatabricksWaits
import Spicebench.Proof.Execution
import Spicebench.Proof.Sink.RowCounters
import Spicebench.Proof.StreamingMetrics
import Spicebench.Construction.Cookies
import Spicebench.Proof.Cookies
