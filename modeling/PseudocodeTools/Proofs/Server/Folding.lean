import PseudocodeTools.Proofs.Block.Crossing
import PseudocodeTools.Proofs.Server.Position
import PseudocodeTools.Server.LineBreak
/-!
# Folding by line numbers

An editor folds whole lines.  It is told the numbers of the lines that open and
close a block, since the end of a line lies on that line.
-/

namespace PseudocodeTools

end PseudocodeTools
