-- The lifecycle of sessions. Owner and thread come out of every call in step: they mean the same
-- session, whose backend is the only one that lives, and a start that is refused leaves all there
-- is as it was.
import PictureInPicture.Proofs.Session.Calls
import PictureInPicture.Proofs.Session.Quiet
import PictureInPicture.Proofs.Session.Rounds

namespace PictureInPicture

variable {σ : Type} {b : Backend σ}

/-! ## Backends that are made -/

/-- A call on a backend has crashed. -/
def Happening.isCrash : Happening → Bool
  | worked _ event => event.isCrash
  | _ => false

namespace Loop

variable {l : Loop σ} {i : Inbox} {role : Role} {frame : Frame}

end Loop

namespace World

variable {w w' : World σ} {events : List Event}

end World

namespace Course

variable {c c' : Course σ} {n : Nat}

/-! ## Nothing has crashed -/

end Course

/-! ## The answer to a start -/

namespace Footing

end Footing

namespace Course

variable {c c' : Course σ} {n : Nat}

end Course

/-! ## Starts -/

namespace Course

variable {c c' : Course σ} {n : Nat} {config : Config Float32} {factory : Factory σ} {clock : Clock}

end Course

end PictureInPicture
