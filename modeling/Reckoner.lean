import Reckoner.Installation
import Reckoner.Main
import Reckoner.Token.Written
import Reckoner.Window.Step
import Reckoner.Window.View
import Reckoner.Proofs.Calculation
import Reckoner.Proofs.Expression.Accepted
import Reckoner.Proofs.Expression.Classified
import Reckoner.Proofs.Expression.Enclosed
import Reckoner.Proofs.Settings.Saved
import Reckoner.Proofs.Settings.Usable
import Reckoner.Proofs.Decimal.Places
import Reckoner.Proofs.Display
import Reckoner.Proofs.Agreement
import Reckoner.Proofs.Token.Spacing
import Reckoner.Proofs.Expression.Spacing
import Reckoner.Proofs.Checked.Reading
import Reckoner.Proofs.Expression.Staged
import Reckoner.Proofs.Checked.Ordering
import Reckoner.Proofs.Checked.Value
import Reckoner.Proofs.Checked.Result
import Reckoner.Proofs.Window.Widgets
import Reckoner.Proofs.Settings.Complete
import Reckoner.Proofs.Window.Presses
import Reckoner.Proofs.Window.Chosen
import Reckoner.Proofs.Window.Copied
import Reckoner.Proofs.Console
import Reckoner.Proofs.Postfix.Tree
import Reckoner.Proofs.Postfix.Arrangement
import Reckoner.Proofs.Postfix.Layers
import Reckoner.Proofs.Window.Logged
import Reckoner.Proofs.Postfix.Counted
import Reckoner.Proofs.Token.Partition
import Reckoner.Proofs.Token.Context
import Reckoner.Proofs.Binary64.Grid
import Reckoner.Proofs.Binary64.Exact
import Reckoner.Proofs.Display.Rounded
import Reckoner.Proofs.Display.Reentered
import Reckoner.Proofs.Binary64.Powers
import Reckoner.Proofs.Binary64.Quotient
import Reckoner.Proofs.Checked.Arithmetic
import Reckoner.Proofs.Log.Written
