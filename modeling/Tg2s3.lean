import Tg2s3.Lib.Table
import Tg2s3.Lib.Run
import Tg2s3.Lib.RefCount
import Tg2s3.Lib.Cas
import Tg2s3.Lib.Hex
import Tg2s3.Lib.Prefixes
import Tg2s3.Lib.Paging
import Tg2s3.Lib.Slices
import Tg2s3.Lib.Assembly
import Tg2s3.Lib.Pacing
import Tg2s3.Model
import Tg2s3.Schema
import Tg2s3.Db.Support
import Tg2s3.Db.Bucket
import Tg2s3.Db.Multipart
import Tg2s3.Db.Object
import Tg2s3.Db.Gc
import Tg2s3.Constraints
import Tg2s3.Accounts
import Tg2s3.Writers
import Tg2s3.History
import Tg2s3.FreeBlocks
import Tg2s3.Counts
import Tg2s3.Engine
import Tg2s3.GcSafety
import Tg2s3.Staging
import Tg2s3.Reads
import Tg2s3.Answers
import Tg2s3.Conditional
import Tg2s3.Completion
import Tg2s3.Collection
import Tg2s3.Steps
import Tg2s3.Removal
import Tg2s3.Chats
import Tg2s3.Endings
import Tg2s3.Buckets
import Tg2s3.Backing
import Tg2s3.Uploads
import Tg2s3.S3.Request
import Tg2s3.S3.Copy
import Tg2s3.Listing
import Tg2s3.S3.Scan
import Tg2s3.S3.List
import Tg2s3.Download
import Tg2s3.ExactRange
import Tg2s3.S3.Range
import Tg2s3.S3.GetObject
import Tg2s3.Transfer
import Tg2s3.Sending
import Tg2s3.RoundTrip
import Tg2s3.Limits
import Tg2s3.Lib.Tiling
import Tg2s3.Lib.Xml
import Tg2s3.Lib.Utf8
import Tg2s3.Lib.Inet
import Tg2s3.Lib.Fields
import Tg2s3.Lib.Sha256
import Tg2s3.Registry
import Tg2s3.Cutting
import Tg2s3.Readable
import Tg2s3.CopySource
import Tg2s3.S3.Xml
import Tg2s3.S3.Cors
import Tg2s3.S3.Addressing
import Tg2s3.S3.OnePage
import Tg2s3.Failures
import Tg2s3.Cleanup
import Tg2s3.Parameters
import Tg2s3.Session
import Tg2s3.S3.Metadata
import Tg2s3.S3.Dispatch
import Tg2s3.Auth
import Tg2s3.S3.Handle
import Tg2s3.Lib.Traces
import Tg2s3.Serving
import Tg2s3.Service
import Tg2s3.AtRest
import Tg2s3.Lifecycle
import Tg2s3.MultipartLife
import Tg2s3.Authority
import Tg2s3.Refusals
import Tg2s3.Attempts
