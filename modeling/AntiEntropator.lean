import AntiEntropator.Cli
import AntiEntropator.Doctor.Agreement
import AntiEntropator.Domain.Identity
import AntiEntropator.FileHash
import AntiEntropator.Ingest.Collect
import AntiEntropator.Ingest.Journal.Bucket
import AntiEntropator.Ingest.Journal.Closure
import AntiEntropator.Ingest.Pipeline.Bytes
import AntiEntropator.Ingest.Pipeline.Delivery
import AntiEntropator.Ingest.Pipeline.Progress
import AntiEntropator.Ingest.ProcessFile.Adversary
import AntiEntropator.Ingest.Run.Batches
import AntiEntropator.Ingest.Run.Descriptions
import AntiEntropator.Ingest.Run.FailedStart
import AntiEntropator.Ingest.Run.Forecast
import AntiEntropator.Ingest.State.Reduction
import AntiEntropator.Ingest.System.Isolation
import AntiEntropator.Ingest.System.Links
import AntiEntropator.Ingest.System.Recovery
import AntiEntropator.Ingest.Upload.Integrity
import AntiEntropator.Lakehouse.Bootstrap.Guarantees
import AntiEntropator.Lakehouse.Writer.Accepted
import AntiEntropator.Lakehouse.Writer.Guarantees
import AntiEntropator.Profile.Categories
import AntiEntropator.Profile.Largest
import AntiEntropator.Profile.MapOrder
import AntiEntropator.Profile.Reclaimable
import AntiEntropator.Scan.Names
import AntiEntropator.Scan.Summary
