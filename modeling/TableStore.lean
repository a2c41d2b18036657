import TableStore.Main
import TableStore.Proofs.Table.Obeys
import TableStore.Proofs.Query.Literal
import TableStore.Proofs.Query.Routing
import TableStore.Proofs.Query.Run
import TableStore.Proofs.Session.Basic
import TableStore.Proofs.Session.Transparency
import TableStore.Proofs.Session.Queries
import TableStore.Proofs.Session.Invariant
import TableStore.Proofs.Table.Refinement
import TableStore.Proofs.Table.Interrupted
import TableStore.Proofs.Table.Insertion
import TableStore.Proofs.Table.Containment
import TableStore.Proofs.Table.Disagreement
import TableStore.Proofs.Query.Candidates
import TableStore.Proofs.Files.Path
import TableStore.Proofs.Files.Tree
import TableStore.Proofs.Files.Disk
import TableStore.Proofs.Session.Media
import TableStore.Proofs.Session.Foreign
import TableStore.Proofs.Session.Isolation
import TableStore.Proofs.Session.Listing
import TableStore.Proofs.Query.Failure
import TableStore.Proofs.Index.Order
import TableStore.Proofs.Index.Canonical
import TableStore.Proofs.Table.Building
import TableStore.Proofs.Query.Limit
import TableStore.Proofs.Session.Rewriting
import TableStore.Proofs.Table.Unmoved
import TableStore.Proofs.Query.Joining
import TableStore.Proofs.Query.Explanation
import TableStore.Proofs.Query.Fallback
import TableStore.Proofs.Session.Columns
import TableStore.Proofs.Index.Identifiers
import TableStore.Proofs.CommandLine.Filters
import TableStore.Proofs.CommandLine.Lines
import TableStore.Proofs.Index.Relation
import TableStore.Proofs.Files.Scan
