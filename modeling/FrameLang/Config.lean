/-!
Limits of an evaluation.
-/

set_option autoImplicit false

namespace FrameLang

/-- The base frame counts as one level of the call depth, and every active call as one more. -/
structure Config where
  maxCallDepth : UInt64 := 128
deriving DecidableEq, Repr

end FrameLang
