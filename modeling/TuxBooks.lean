import TuxBooks.Catalog.Covers
import TuxBooks.Catalog.Edits
import TuxBooks.Catalog.Frame
import TuxBooks.Catalog.Merge
import TuxBooks.Catalog.Metadata
import TuxBooks.Catalog.Project
import TuxBooks.Catalog.Recompute
import TuxBooks.Catalog.Rows
import TuxBooks.Catalog.SearchIndex
import TuxBooks.Catalog.Tables
import TuxBooks.Catalog.Triggers
import TuxBooks.Device.Binding
import TuxBooks.Device.Capture
import TuxBooks.Device.Concurrent
import TuxBooks.Device.Consistent
import TuxBooks.Device.Device
import TuxBooks.Device.Draining
import TuxBooks.Device.Emit
import TuxBooks.Device.Fleet
import TuxBooks.Device.Fold
import TuxBooks.Device.Forgotten
import TuxBooks.Device.Mentioned
import TuxBooks.Device.Pass
import TuxBooks.Device.Project
import TuxBooks.Device.Publish
import TuxBooks.Device.Readback
import TuxBooks.Device.Recorded
import TuxBooks.Device.Republish
import TuxBooks.Device.Resolution
import TuxBooks.Device.Shelves
import TuxBooks.Device.Steps
import TuxBooks.Device.Tracked
import TuxBooks.Epub.Archive
import TuxBooks.Epub.ChapterTree
import TuxBooks.Epub.Contents
import TuxBooks.Epub.Readback
import TuxBooks.Epub.Href
import TuxBooks.Epub.LinkFence
import TuxBooks.Epub.MemberPath
import TuxBooks.Epub.Metadata
import TuxBooks.Epub.NavTree
import TuxBooks.Epub.NcxTree
import TuxBooks.Epub.Positions
import TuxBooks.Epub.ProgressMigration
import TuxBooks.Epub.TocLinks
import TuxBooks.Epub.TocTree
import TuxBooks.Epub.XmlTree
import TuxBooks.Lib.Arrangement
import TuxBooks.Lib.Base64
import TuxBooks.Lib.Bisect
import TuxBooks.Lib.Decimal
import TuxBooks.Lib.Delivery
import TuxBooks.Lib.Fallible
import TuxBooks.Lib.Guarded
import TuxBooks.Lib.JsText
import TuxBooks.Lib.Lines
import TuxBooks.Lib.LruCache
import TuxBooks.Lib.Lww
import TuxBooks.Lib.MergeForest
import TuxBooks.Lib.Occurrences
import TuxBooks.Lib.Pairing
import TuxBooks.Lib.Patches
import TuxBooks.Lib.Percent
import TuxBooks.Lib.Routine
import TuxBooks.Lib.Segments
import TuxBooks.Lib.Table
import TuxBooks.Lib.Tagging
import TuxBooks.Lib.Url
import TuxBooks.Lib.Utf16
import TuxBooks.Library.Artwork
import TuxBooks.Library.CollectionGroups
import TuxBooks.Library.EditForm
import TuxBooks.Library.EventBatch
import TuxBooks.Library.Forget
import TuxBooks.Library.Import
import TuxBooks.Library.Lifecycle
import TuxBooks.Library.Listing
import TuxBooks.Library.Membership
import TuxBooks.Library.Paths
import TuxBooks.Library.Registry
import TuxBooks.Library.Relink
import TuxBooks.Library.Sweep
import TuxBooks.Library.Trashed
import TuxBooks.Library.Editions
import TuxBooks.Library.Unwatch
import TuxBooks.Reader.BookBytes
import TuxBooks.Reader.DrawnHighlights
import TuxBooks.Reader.Echo
import TuxBooks.Reader.Engine
import TuxBooks.Reader.JumpHold
import TuxBooks.Reader.NavigationOrder
import TuxBooks.Reader.OneNavigator
import TuxBooks.Reader.PageScroll
import TuxBooks.Reader.PdfProgress
import TuxBooks.Reader.PdfSearch
import TuxBooks.Reader.PdfZoom
import TuxBooks.Reader.Position
import TuxBooks.Reader.Progress
import TuxBooks.Reader.RangeSource
import TuxBooks.Reader.Saves
import TuxBooks.Reader.SearchText
import TuxBooks.Reader.SettledCanvas
import TuxBooks.Reader.Worker
import TuxBooks.Shell.BookProtocol
import TuxBooks.Shell.Framing
import TuxBooks.Shell.Ladder
import TuxBooks.Sync.Accounting
import TuxBooks.Sync.Alias
import TuxBooks.Sync.Canonical
import TuxBooks.Sync.Choices
import TuxBooks.Sync.Clock
import TuxBooks.Sync.ClockBounds
import TuxBooks.Sync.CollectionMerge
import TuxBooks.Sync.Components
import TuxBooks.Sync.Cover
import TuxBooks.Sync.DeadChoices
import TuxBooks.Sync.EntityMode
import TuxBooks.Sync.FieldMode
import TuxBooks.Sync.Identity
import TuxBooks.Sync.InStep
import TuxBooks.Sync.Inbox
import TuxBooks.Sync.Lifecycle
import TuxBooks.Sync.Merge
import TuxBooks.Sync.Mirror
import TuxBooks.Sync.Model
import TuxBooks.Sync.Recordings
import TuxBooks.Sync.Rekey
import TuxBooks.Sync.Replayable
import TuxBooks.Sync.Restore
import TuxBooks.Sync.Review
import TuxBooks.Sync.Row
import TuxBooks.Sync.RowSpec
import TuxBooks.Sync.Run
import TuxBooks.Sync.Store
import TuxBooks.Sync.Tombstone
import TuxBooks.Sync.Unify
import TuxBooks.Pdf.Embedding
import TuxBooks.Reader.EpubSearch
import TuxBooks.Library.Indexing
