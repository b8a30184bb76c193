import FrameLang.Expr

/-!
Top-level declarations of a program.
-/

set_option autoImplicit false

namespace FrameLang

inductive Declaration where
  | function (definition : Function)
  | expression (expr : Expr)

end FrameLang
