import Refit.Log.Message
import Refit.Main
import Refit.Proofs.Source.Sequence
import Refit.Proofs.Conversion.Foreign
import Refit.Proofs.Conversion.Planned
import Refit.Proofs.Conversion.Frame
import Refit.Proofs.Route.Spelling
import Refit.Proofs.Files.Admitted
import Refit.Proofs.Run.Containment
import Refit.Proofs.Run.Marks
import Refit.Proofs.Run.Isolation
import Refit.Proofs.Run.Restoration
import Refit.Proofs.CommandLine.Overwriting
import Refit.Proofs.CommandLine.Exclusion
import Refit.Proofs.CommandLine.Routing
import Refit.Proofs.Adapter.Names
import Refit.Proofs.Adapter.Recognition
import Refit.Proofs.Run.Redirection
import Refit.Proofs.Naming.Embedded
import Refit.Proofs.Config.File
import Refit.Proofs.Output.Manifest
import Refit.Proofs.Project.PageMeta
