import Webroot.Config
import Webroot.Files.Path
import Webroot.Files.Snapshot
import Webroot.Files.Source
import Webroot.Files.Tree
import Webroot.Glob.Draft
import Webroot.Glob.Footprint
import Webroot.Glob.Parser
import Webroot.Glob.Pattern
import Webroot.HiddenNames
import Webroot.Host
import Webroot.Http.Body
import Webroot.Http.ByteRange
import Webroot.Http.EntityTag
import Webroot.Http.Failure
import Webroot.Http.FieldList
import Webroot.Http.MediaType
import Webroot.Http.Method
import Webroot.Http.Quality
import Webroot.Http.Request
import Webroot.Http.RequestReader
import Webroot.Http.Response
import Webroot.Http.Revalidation
import Webroot.Http.Status
import Webroot.Main
import Webroot.Mount.Exchange
import Webroot.Mount.HandlerTable
import Webroot.Mount.Listing
import Webroot.Mount.Options
import Webroot.Mount.Ranges
import Webroot.Mount.Resolve
import Webroot.Mount.Service
import Webroot.Mount.Setting
import Webroot.Mount.StaticFile
import Webroot.Number.Binary64
import Webroot.Number.Fnv
import Webroot.Page.Markup
import Webroot.Page.Status
import Webroot.Proofs.Files.Dots
import Webroot.Proofs.Files.EntryNames
import Webroot.Proofs.Files.FlatTree
import Webroot.Proofs.Files.Names
import Webroot.Proofs.Files.NormalForm
import Webroot.Proofs.Glob.Hiding
import Webroot.Proofs.Glob.Notation
import Webroot.Proofs.Glob.Reading
import Webroot.Proofs.Host.HeadRequests
import Webroot.Proofs.Host.Streaming
import Webroot.Proofs.Http.AddedLengths
import Webroot.Proofs.Http.EntityTag
import Webroot.Proofs.Http.FieldList
import Webroot.Proofs.Http.Fields
import Webroot.Proofs.Http.Head
import Webroot.Proofs.Http.HeadLines
import Webroot.Proofs.Http.Message
import Webroot.Proofs.Http.Multipart
import Webroot.Proofs.Http.PreferenceOrder
import Webroot.Proofs.Http.QualityList
import Webroot.Proofs.Http.RangeArithmetic
import Webroot.Proofs.Http.RangeField
import Webroot.Proofs.Http.RangeList
import Webroot.Proofs.Http.RecasedTags
import Webroot.Proofs.Http.RequestBody
import Webroot.Proofs.Http.RequestFields
import Webroot.Proofs.Http.RequestLine
import Webroot.Proofs.Http.ResponseFields
import Webroot.Proofs.Http.Suffixes
import Webroot.Proofs.Http.TagList
import Webroot.Proofs.Http.TameText
import Webroot.Proofs.Http.WrittenRequest
import Webroot.Proofs.Mount.Answers
import Webroot.Proofs.Mount.ChangedFile
import Webroot.Proofs.Mount.Choice
import Webroot.Proofs.Mount.Containment
import Webroot.Proofs.Mount.DescribedAnswer
import Webroot.Proofs.Mount.DirectoryReached
import Webroot.Proofs.Mount.Disclosure
import Webroot.Proofs.Mount.Entries
import Webroot.Proofs.Mount.ExactResolution
import Webroot.Proofs.Mount.FailedAttempt
import Webroot.Proofs.Mount.HandlerHistory
import Webroot.Proofs.Mount.HeadLikeGet
import Webroot.Proofs.Mount.HomeDirectory
import Webroot.Proofs.Mount.LastBytes
import Webroot.Proofs.Mount.LastName
import Webroot.Proofs.Mount.LengthSum
import Webroot.Proofs.Mount.ListedNames
import Webroot.Proofs.Mount.ListingLinks
import Webroot.Proofs.Mount.MeasuredAnswer
import Webroot.Proofs.Mount.MountPoint
import Webroot.Proofs.Mount.Negotiation
import Webroot.Proofs.Mount.Observers
import Webroot.Proofs.Mount.Outcome
import Webroot.Proofs.Mount.OutdatedCopies
import Webroot.Proofs.Mount.PageMarkup
import Webroot.Proofs.Mount.PathConserved
import Webroot.Proofs.Mount.RecasedLanguages
import Webroot.Proofs.Mount.Redirect
import Webroot.Proofs.Mount.RedirectFollowed
import Webroot.Proofs.Mount.Refusal
import Webroot.Proofs.Mount.RefusedLanguages
import Webroot.Proofs.Mount.ResumedDownload
import Webroot.Proofs.Mount.Revalidation
import Webroot.Proofs.Mount.SentLength
import Webroot.Proofs.Mount.SeveralRanges
import Webroot.Proofs.Mount.SingleRange
import Webroot.Proofs.Mount.SortedEntries
import Webroot.Proofs.Mount.StoredFields
import Webroot.Proofs.Mount.TrialOrder
import Webroot.Proofs.Mount.UntouchedResponse
import Webroot.Proofs.Mount.VariantType
import Webroot.Proofs.Mount.Walk
import Webroot.Proofs.Number.Rounding
import Webroot.Proofs.Page.Markup
import Webroot.Proofs.StableSort
import Webroot.Proofs.Text.Basic
import Webroot.Proofs.Text.LossyUtf8
import Webroot.Proofs.Text.Utf8
import Webroot.Proofs.Text.Utf8Order
import Webroot.Proofs.Time.Calendar
import Webroot.Proofs.Time.HttpDate
import Webroot.Proofs.Time.HttpDateForms
import Webroot.Proofs.Url.EscapedPath
import Webroot.Proofs.Url.Percent
import Webroot.Proofs.Url.Reference
import Webroot.Proofs.Url.RoundTrip
import Webroot.Text.Basic
import Webroot.Text.Blank
import Webroot.Text.CharSet
import Webroot.Text.DecimalDigit
import Webroot.Text.Numeral
import Webroot.Text.OctetRange
import Webroot.Text.Printable
import Webroot.Text.Quoted
import Webroot.Text.Reader
import Webroot.Text.Utf8
import Webroot.Text.WordChar
import Webroot.Time.Calendar
import Webroot.Time.HttpDate
import Webroot.Time.HttpDateReader
import Webroot.Time.Instant
import Webroot.Time.Scan
import Webroot.Toml.Parser
import Webroot.Toml.Scalar
import Webroot.Toml.Scan
import Webroot.Toml.Value
import Webroot.Url.Percent
import Webroot.Url.Query
