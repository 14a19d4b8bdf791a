import SchemaCatalog.Main
import SchemaCatalog.Proofs.Normal.Passes
import SchemaCatalog.Proofs.Normal.Expansion
import SchemaCatalog.Proofs.Normal.Idempotence
import SchemaCatalog.Proofs.Catalog.Closed
import SchemaCatalog.Proofs.Catalog.Coverage
import SchemaCatalog.Proofs.Catalog.Parameters
import SchemaCatalog.Proofs.Qualification
import SchemaCatalog.Proofs.Catalog.Life
import SchemaCatalog.Proofs.Catalog.Definitions
import SchemaCatalog.Proofs.Documents.Reading
import SchemaCatalog.Proofs.Documents.Collecting
import SchemaCatalog.Proofs.Registration
import SchemaCatalog.Proofs.Catalog.MethodTypes
import SchemaCatalog.Proofs.Normal.Composition
import SchemaCatalog.Proofs.Normal.MergeEnding
import SchemaCatalog.Proofs.Normal.Flattening
import SchemaCatalog.Proofs.Catalog.Elements
import SchemaCatalog.Proofs.Catalog.Order
import SchemaCatalog.Proofs.Catalog.Required
import SchemaCatalog.Proofs.Resolution
import SchemaCatalog.Proofs.Documents.Growth
import SchemaCatalog.Proofs.Catalog.Overriding
import SchemaCatalog.Proofs.Catalog.Listing
import SchemaCatalog.Proofs.Schema.Addresses
import SchemaCatalog.Proofs.Catalog.Locating
import SchemaCatalog.Proofs.Catalog.Kinds
import SchemaCatalog.Proofs.Normal.Recursion
import SchemaCatalog.Proofs.Options.RoundTrip
import SchemaCatalog.Proofs.Catalog.Tags
import SchemaCatalog.Proofs.Catalog.FieldNames
import SchemaCatalog.Proofs.Following
import SchemaCatalog.Proofs.Catalog.Alternatives
import SchemaCatalog.Proofs.Identifiers
import SchemaCatalog.Proofs.Registration.Calls
