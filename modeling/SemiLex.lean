import SemiLex.Collector
import SemiLex.Output
import SemiLex.Proofs.Bodies
import SemiLex.Proofs.CarriageReturns
import SemiLex.Proofs.Comments
import SemiLex.Proofs.Displaying
import SemiLex.Proofs.Editing
import SemiLex.Proofs.Equality
import SemiLex.Proofs.LineEnds
import SemiLex.Proofs.Lines
import SemiLex.Proofs.Loading
import SemiLex.Proofs.Passages
import SemiLex.Proofs.Pieces
import SemiLex.Proofs.Regrouping
import SemiLex.Proofs.Reopening
import SemiLex.Proofs.Retention
import SemiLex.Proofs.Settling
import SemiLex.Proofs.Transport
import SemiLex.Source.Description
import SemiLex.TokenSource
import SemiLex.Unicode.Class
