import FormatSettings.Log.Colored
import FormatSettings.Log.Pattern
import FormatSettings.Main
import FormatSettings.Options.Arguments
import FormatSettings.Proofs.CommandLine.ExitCodes
import FormatSettings.Proofs.CommandLine.Levels
import FormatSettings.Proofs.CommandLine.Refusals
import FormatSettings.Proofs.CommandLine.Running
import FormatSettings.Proofs.CommandLine.Verbosity
import FormatSettings.Proofs.Config.Documents
import FormatSettings.Proofs.Config.Mistyped
import FormatSettings.Proofs.Config.MistypedFixes
import FormatSettings.Proofs.Config.ProfileToken
import FormatSettings.Proofs.Draft.Composing
import FormatSettings.Proofs.Draft.FrontEnds
import FormatSettings.Proofs.Draft.Persistence
import FormatSettings.Proofs.Draft.Records
import FormatSettings.Proofs.Draft.Resolving
import FormatSettings.Proofs.Fix.Selection
import FormatSettings.Proofs.LineEnding.Selection
import FormatSettings.Proofs.Options.Canonical
import FormatSettings.Proofs.Options.Construction
import FormatSettings.Proofs.Options.Overriding
import FormatSettings.Proofs.Options.ProfileRoutes
import FormatSettings.Proofs.Options.Reloading
import FormatSettings.Proofs.Options.TopLayer
import FormatSettings.Proofs.Profile.Selection
import FormatSettings.Proofs.Text.Respelling
import FormatSettings.Proofs.Toml.NestedMeaning
