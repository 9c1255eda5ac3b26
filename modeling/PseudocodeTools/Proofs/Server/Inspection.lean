import PseudocodeTools.Proofs.Lexeme.Locality
import PseudocodeTools.Proofs.Server.Highlight
import PseudocodeTools.Server.Inspection
/-!
# Inspecting a highlighted document

Hovering, diagnostics and highlighting find positions in three ways, and mean
the same tokens by them, as far as 32 bits suffice to count lines and characters.
-/

namespace PseudocodeTools

/-!
# Hovering
-/

section Countable

variable {source : Text} (hcount : source.Countable)
include hcount

end Countable

end PseudocodeTools
