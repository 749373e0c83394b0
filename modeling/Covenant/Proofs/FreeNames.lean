import Covenant.Proofs.Offsets
import Covenant.Proofs.Remembering

/-!
# The names a condition depends on

An evaluation looks up only the names that are free in the expression, those that no comprehension
around them binds, so two scopes that resolve these alike cannot be told apart.
-/

set_option autoImplicit false

namespace Covenant

open List

namespace Condition

open Scope (AgreeOn)

end Condition

namespace Contract

open Condition (Scope)
open Condition.Scope (AgreeOn AgreeBeyond)

end Contract

end Covenant
