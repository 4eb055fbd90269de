import Recolor.Proofs.FileTree.Store
import Recolor.Proofs.Run.Stages

namespace Recolor

namespace FileTree.Writer.IsCautious

variable {write : FileTree.Writer} {t : FileTree} {here : Place} {p : Path} {bytes : ByteArray}

end FileTree.Writer.IsCautious

namespace Outcome

variable {o : Outcome} {w : Workspace} {devices : Devices} {i : Invocation}

end Outcome

namespace Workspace

variable {w : Workspace} {devices : Devices} {i : Invocation} {text : String}

theorem Makes.unique {codec : Picture.Codec} {text' : String} (h : w.Makes codec i text)
    (h' : w.Makes codec i text') : text = text' := by
  obtain ⟨s, m, prepared, made⟩ := h
  obtain ⟨s', m', prepared', made'⟩ := h'
  cases prepared.symm.trans prepared'
  cases made.symm.trans made'
  rfl

open Classical

end Workspace

end Recolor
