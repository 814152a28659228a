import TableStore.Main
import TableStore.Disk.Outside
import TableStore.Sql.Shown
import TableStore.Json.Reader
import TableStore.Proofs.Sql.Grammar
import TableStore.Proofs.Sql.Recognition
import TableStore.Proofs.Query.Fields
import TableStore.Proofs.Query.Sorting
import TableStore.Proofs.Query.Meaning
import TableStore.Proofs.Disk.Names
import TableStore.Proofs.Disk.Siblings
import TableStore.Proofs.Disk.Running
import TableStore.Proofs.Disk.Saving
import TableStore.Proofs.Disk.Crash
import TableStore.Proofs.Json.Takes
import TableStore.Proofs.Json.Texts
import TableStore.Proofs.Json.Nested
import TableStore.Proofs.Store.Maps
import TableStore.Proofs.Store.RoundTrip
import TableStore.Proofs.Store.Documents
import TableStore.Proofs.Store.Operations
import TableStore.Proofs.Database.Ideal
import TableStore.Proofs.Database.Refinement
import TableStore.Proofs.Database.Runs
import TableStore.Proofs.Wire.Framing
import TableStore.Proofs.Wire.Responses
import TableStore.Proofs.Wire.Exchange
import TableStore.Proofs.Disk.Replacing
import TableStore.Proofs.Disk.Mishaps
import TableStore.Proofs.Disk.Spared
import TableStore.Proofs.Store.Reading
import TableStore.Proofs.Store.Sparing
import TableStore.Proofs.Store.Failures
import TableStore.Proofs.Store.Soundness
import TableStore.Proofs.Store.Histories
import TableStore.Proofs.Store.Halfway
import TableStore.Proofs.Store.Growing
import TableStore.Proofs.Database.Turns
import TableStore.Proofs.Database.Serial
import TableStore.Proofs.Wire.Serving
import TableStore.Proofs.Database.Isolation
import TableStore.Proofs.Database.Inserting
import TableStore.Proofs.Store.Encoding
import TableStore.Proofs.Disk.Restarting
import TableStore.Proofs.Sql.Lexemes
import TableStore.Proofs.Sql.Layout
import TableStore.Proofs.Disk.Stumbling
import TableStore.Proofs.Disk.Unsaved
import TableStore.Proofs.Store.Loading
import TableStore.Proofs.Json.Behind
import TableStore.Proofs.Json.Lines
import TableStore.Proofs.Sql.Failing
import TableStore.Proofs.Sql.Prospects
import TableStore.Proofs.Sql.Offenders
import TableStore.Proofs.Query.Projecting
import TableStore.Proofs.Query.Stability
import TableStore.Proofs.Query.Paging
import TableStore.Proofs.Traps
import TableStore.Proofs.Text.Sizes
import TableStore.Proofs.Query.Reordering
import TableStore.Proofs.Query.Lockstep
import TableStore.Proofs.Client.Widths
import TableStore.Proofs.Client.Alignment
import TableStore.Proofs.Json.Values
import TableStore.Proofs.Client.JsonLine
import TableStore.Proofs.Disk.Counting
import TableStore.Proofs.Disk.Sharing
import TableStore.Proofs.Cursor
import TableStore.Proofs.Sql.Scanner
import TableStore.Proofs.Sql.Track
import TableStore.Proofs.Sql.Accesses
