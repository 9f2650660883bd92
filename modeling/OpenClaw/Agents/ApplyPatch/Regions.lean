import OpenClaw.Agents.ApplyPatch.Frame

/-!
# The regions of a patch

The regions of the chunks with old lines are apart and in the order of the chunks, where no
end-of-file chunk goes back. A chunk without old lines only adds, at the end of the file.
-/

namespace OpenClaw.Agents.ApplyPatch

open Js (Text)
open Splice (Region Apart)

/-- A line that is added before another is replaced. -/
def added : UpdateFileChunk := ⟨none, [], [['b']], false⟩

end OpenClaw.Agents.ApplyPatch
