import Deposit.Host.Surroundings
import Deposit.Main
import Deposit.Package.Draft
import Deposit.Repository.Packaging
import Deposit.Proofs.Placement.Resolution
import Deposit.Proofs.Package.NormalForm
import Deposit.Proofs.Placement.Confinement
import Deposit.Proofs.Text.Utf8
import Deposit.Proofs.Digest.Tally
import Deposit.Proofs.Content.Reading
import Deposit.Proofs.Archive.Tar.Header
import Deposit.Proofs.Codec.Deflate
import Deposit.Proofs.Archive.Tar.Reading
import Deposit.Proofs.Archive.Tar.Writer
import Deposit.Proofs.Archive.Zip.Record
import Deposit.Proofs.Archive.Zip.Writer
import Deposit.Proofs.Archive.Writer
import Deposit.Proofs.Host.Surroundings
import Deposit.Proofs.Http.Attempts
import Deposit.Proofs.Assembly.Composition
import Deposit.Proofs.Assembly.Assembler
import Deposit.Proofs.Assembly.Package
import Deposit.Proofs.Archive.Faults
import Deposit.Proofs.Assembly.Failure
import Deposit.Proofs.Assembly.Paths
import Deposit.Proofs.Specification.Generation
import Deposit.Proofs.Assembly.Outcome
import Deposit.Proofs.Archive.Splitting
import Deposit.Proofs.Assembly.Splitting
import Deposit.Proofs.Schema.Checked
import Deposit.Proofs.Status.Statement
import Deposit.Proofs.Status.Processor
import Deposit.Proofs.Assembly.Guard
import Deposit.Proofs.Assembly.Names
import Deposit.Proofs.Text.Separators
import Deposit.Proofs.Xml.Escaping
import Deposit.Proofs.Xml.Markup
import Deposit.Proofs.Xml.Elements
import Deposit.Proofs.Xml.RoundTrip
import Deposit.Proofs.Xml.Content
import Deposit.Proofs.Specification.ReadBack
import Deposit.Proofs.Specification.References
import Deposit.Proofs.Archive.Layout
import Deposit.Proofs.Archive.Tar.Taking
import Deposit.Proofs.Archive.Offered
import Deposit.Proofs.Archive.Zip.Taking
import Deposit.Proofs.Assembly.Depiction
import Deposit.Proofs.Assembly.Manifest
import Deposit.Proofs.Assembly.FileList
import Deposit.Proofs.Archive.Tar.RoundTrip
import Deposit.Proofs.Archive.Zip.RoundTrip
import Deposit.Proofs.Archive.Sizes
import Deposit.Proofs.Assembly.Sizes
import Deposit.Proofs.Assembly.Withheld
import Deposit.Proofs.Json.Objects
import Deposit.Proofs.Json.RoundTrip
import Deposit.Proofs.Json.Scalars
import Deposit.Proofs.Repository.Load
import Deposit.Proofs.Disk.Directories
import Deposit.Proofs.Package.Stream
import Deposit.Proofs.Package.Session
import Deposit.Proofs.Assembly.PackageName
import Deposit.Proofs.Assembly.Contents
import Deposit.Proofs.Submission.Manifest
import Deposit.Proofs.CommandLine.Delivery
import Deposit.Proofs.CommandLine.Assemble
import Deposit.Proofs.Placement.Order
import Deposit.Proofs.Assembly.Relocation
import Deposit.Proofs.Assembly.Single
import Deposit.Proofs.Assembly.Compression
import Deposit.Proofs.Placement.Stability
import Deposit.Proofs.Specification.Fields
import Deposit.Proofs.Assembly.Fields
import Deposit.Proofs.Assembly.MediaTypes
import Deposit.Proofs.Placement.Bounds
import Deposit.Proofs.Fetch.Local
import Deposit.Proofs.CommandLine.Outcome
