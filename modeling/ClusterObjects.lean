import ClusterObjects.Main
import ClusterObjects.Remote.Store
import ClusterObjects.Proofs.Json.Restoration
import ClusterObjects.Proofs.Json.Locality
import ClusterObjects.Proofs.Time.Rfc3339
import ClusterObjects.Proofs.Schema.Canonical
import ClusterObjects.Proofs.Schema.Merge
import ClusterObjects.Proofs.Object.Container
import ClusterObjects.Proofs.Store.Stored
import ClusterObjects.Proofs.Store.Concurrency
import ClusterObjects.Proofs.Schema.Catalog
import ClusterObjects.Proofs.Store.Atomicity
import ClusterObjects.Proofs.Facade.Requests
import ClusterObjects.Proofs.Facade.Paths
import ClusterObjects.Proofs.Facade.Concurrency
import ClusterObjects.Proofs.Facade.Frame
import ClusterObjects.Proofs.Identity.Kind
import ClusterObjects.Proofs.Object.Printing
import ClusterObjects.Proofs.Facade.Service
import ClusterObjects.Proofs.Facade.MergePatch
import ClusterObjects.Proofs.Facade.Precondition
import ClusterObjects.Proofs.Watch.Channel
import ClusterObjects.Proofs.Watch.Run
import ClusterObjects.Proofs.Watch.Delivery
import ClusterObjects.Proofs.Store.Versions
import ClusterObjects.Proofs.Store.Listings
import ClusterObjects.Proofs.Watch.Versions
import ClusterObjects.Proofs.Watch.Replica
import ClusterObjects.Proofs.Store.ServerFields
import ClusterObjects.Proofs.Store.Representation
import ClusterObjects.Proofs.Facade.ServerFields
import ClusterObjects.Proofs.Query.Sort
import ClusterObjects.Proofs.Query.Listing
import ClusterObjects.Proofs.Facade.Listing
import ClusterObjects.Proofs.Facade.Reading
import ClusterObjects.Proofs.Json.Printer
import ClusterObjects.Proofs.Watch.Frame
import ClusterObjects.Proofs.Watch.Handle
import ClusterObjects.Proofs.Query.SelectorScan
import ClusterObjects.Proofs.Query.FieldSelector
import ClusterObjects.Proofs.Query.Paging
import ClusterObjects.Proofs.Remote.Agreement
import ClusterObjects.Proofs.Query.Pipeline
import ClusterObjects.Proofs.Json.Path
import ClusterObjects.Proofs.Query.MetadataFilters
import ClusterObjects.Proofs.Facade.Containers
import ClusterObjects.Proofs.Json.Address
import ClusterObjects.Proofs.Json.Merging
import ClusterObjects.Proofs.Query.Ties
import ClusterObjects.Proofs.Query.PageBounds
import ClusterObjects.Proofs.Store.LabelSelector
import ClusterObjects.Proofs.Object.Reloading
import ClusterObjects.Proofs.Query.LabelFilters
import ClusterObjects.Proofs.Query.Pairs
import ClusterObjects.Proofs.Command.ListFlags
import ClusterObjects.Proofs.Command.Seed
import ClusterObjects.Proofs.Registry
import ClusterObjects.Proofs.Identity.Conversion
import ClusterObjects.Proofs.Command.Target
