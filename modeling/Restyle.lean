import Restyle.Json.Writer
import Restyle.Main
import Restyle.Project.Transform
import Restyle.Proofs.CommandLine.Target
import Restyle.Proofs.Config.Reload
import Restyle.Proofs.Docstring.Reported
import Restyle.Proofs.Element.Enclosed
import Restyle.Proofs.Layout.LayoutOnly
import Restyle.Proofs.Naming.Recognised
import Restyle.Proofs.Naming.RoundTrip
import Restyle.Proofs.Naming.Usable
import Restyle.Proofs.Output.InPlace
import Restyle.Proofs.Output.NewFiles
import Restyle.Proofs.Project.Collision
import Restyle.Proofs.Rename.ImportLines
import Restyle.Proofs.Rename.UsageReports
import Restyle.Proofs.Rename.WholeWords
import Restyle.Proofs.Review.Followers
import Restyle.Proofs.Review.Mentions
import Restyle.Proofs.Review.Partition
import Restyle.Proofs.Review.Standing
import Restyle.Proofs.Review.WordMarks
import Restyle.Proofs.Selection.Selected
import Restyle.Proofs.Source.Loading
import Restyle.Proofs.Source.Window
import Restyle.Proofs.Symbol.Contributions
import Restyle.Proofs.Symbol.ExactPlan
import Restyle.Proofs.Symbol.ModuleNames
import Restyle.Proofs.Symbol.UsageCounts
import Restyle.Rule.Outline
