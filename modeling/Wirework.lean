import Wirework.Main
import Wirework.Script.Factory
import Wirework.Proofs.Words
import Wirework.Proofs.Names
import Wirework.Proofs.Text.Attributes
import Wirework.Proofs.Parameters.Arguments
import Wirework.Proofs.Design.Listing
import Wirework.Proofs.Design.CopiedResults
import Wirework.Proofs.Design.Refusals
import Wirework.Proofs.Interface.Acceptance
import Wirework.Proofs.Engine.Bounds
import Wirework.Proofs.Engine.Naming
import Wirework.Proofs.Engine.Rejecting
import Wirework.Proofs.Engine.Permanence
import Wirework.Proofs.Engine.Numbers
import Wirework.Proofs.Engine.Parameters
import Wirework.Proofs.Engine.Printing
import Wirework.Proofs.Library.Execution
import Wirework.Proofs.Library.Labels
import Wirework.Proofs.Independence.Histories

