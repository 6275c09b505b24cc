import Depot.Main
import Depot.Proofs.Agreement
import Depot.Proofs.Column.Convergence
import Depot.Proofs.Column.Membership
import Depot.Proofs.Registry.Operations
import Depot.Proofs.Column.Lifecycle
import Depot.Proofs.Embedded.Lifecycle
import Depot.Proofs.Relational.Lifecycle
import Depot.Proofs.Lifecycle
import Depot.Proofs.Column.Race
import Depot.Proofs.Column.Reading
import Depot.Proofs.Content.Body
import Depot.Proofs.Files.Store
import Depot.Proofs.Audit
import Depot.Proofs.Uploads
import Depot.Proofs.Gate
import Depot.Proofs.Column.Server
import Depot.Proofs.Concordance
import Depot.Proofs.Files.Concurrent
import Depot.Proofs.Column.Alone
import Depot.Proofs.Relational.Listing
import Depot.Proofs.Traceless
import Depot.Proofs.Accounts
import Depot.Proofs.Contents
import Depot.Proofs.Closed
import Depot.Proofs.Bucket.Protocol
import Depot.Proofs.Bucket.Unreliable
import Depot.Proofs.Files.Outcome
import Depot.Proofs.Files.Reading
import Depot.Proofs.Credential.Header
import Depot.Proofs.Registry.Survival
import Depot.Proofs.Embedded.Commitment
import Depot.Proofs.Credential.Password
import Depot.Proofs.Content.Stream
import Depot.Proofs.Verification
import Depot.Proofs.Damage
import Depot.Proofs.Bucket.Signature
import Depot.Proofs.Arrangement
import Depot.Proofs.Credential.Truncation
import Depot.Proofs.Admission
import Depot.Proofs.Relational.Location
import Depot.Proofs.Naming
import Depot.Proofs.Settings
import Depot.Proofs.Registry.Insertion
import Depot.Proofs.Confinement
