import DesiredState.Api.Client
import DesiredState.Catalog.FileTree
import DesiredState.Engine
import DesiredState.Proofs.Schedule.Interleaving
import DesiredState.Proofs.Schedule.Turns
import DesiredState.Proofs.Schedule.Course
import DesiredState.Proofs.Schedule.Retrace
import DesiredState.Proofs.Plan.Endings
import DesiredState.Proofs.Run.Own
import DesiredState.Proofs.Run.Handling
import DesiredState.Proofs.Blueprint.Ordered
import DesiredState.Proofs.Run.Coverage
import DesiredState.Proofs.NameMap
import DesiredState.Proofs.Plan.Contract
import DesiredState.Proofs.Api.Pathwise
import DesiredState.Proofs.Plan.Alike
import DesiredState.Proofs.Run.Independence
import DesiredState.Proofs.Run.Keeping
import DesiredState.Proofs.Api.Store
import DesiredState.Proofs.Run.Placing
import DesiredState.Proofs.Run.Foresight
import DesiredState.Proofs.Run.Custody
import DesiredState.Proofs.Run.Bounds
import DesiredState.Proofs.Run.Repetition
import DesiredState.Proofs.Run.Record
import DesiredState.Proofs.Schedule.Braid
import DesiredState.Proofs.Run.Account
import DesiredState.Proofs.Run.Accounting
import DesiredState.Proofs.Run.Sequence
import DesiredState.Proofs.Run.Dry
import DesiredState.Proofs.Run.Inspection
import DesiredState.Proofs.Run.Prediction
import DesiredState.Proofs.Run.Ancestry
import DesiredState.Proofs.Plan.Completion
import DesiredState.Proofs.Run.Protocol
import DesiredState.Proofs.Schedule.Memory
import DesiredState.Proofs.Entity
import DesiredState.Proofs.Run.Updating
import DesiredState.Proofs.Run.Retelling
import DesiredState.Proofs.Run.Rehearsal
import DesiredState.Proofs.Template.Substitution
import DesiredState.Proofs.Schedule.Crews
import DesiredState.Proofs.Schedule.Batches
import DesiredState.Proofs.Run.Failing
import DesiredState.Proofs.Template.Delimiters
import DesiredState.Proofs.Template.Identity
import DesiredState.Proofs.Run.Differences
import DesiredState.Proofs.Run.Addressing
import DesiredState.Proofs.Json.Lexeme
import DesiredState.Proofs.Text.Comments
import DesiredState.Proofs.Schedule.Succession
import DesiredState.Proofs.Run.Catalogs
import DesiredState.Proofs.Run.Descent
import DesiredState.Proofs.Run.Creating
import DesiredState.Proofs.Blueprint.RoundTrip
import DesiredState.Proofs.Registry
import DesiredState.Proofs.Api.Credentials
import DesiredState.Proofs.Plan.Interruption
import DesiredState.Proofs.Run.Patience
import DesiredState.Proofs.Run.Attending
import DesiredState.Proofs.Text.Pieces
import DesiredState.Proofs.Catalog.Fingerprints
