import Covenant.Condition.Eval

/-!
# Classes with conditions

A class may be declared with a condition on its values, which are called `v` there, and with
samples. Conditions of classes may run those of other classes; how deep that may go is bounded.
-/

set_option autoImplicit false

namespace Covenant

structure ClassDeclaration where
  type : HostType
  parents : List HostType
  test : Option Condition
  samples : Option (Except Failure (List Value))

namespace ClassDeclaration

def check (world : World) (condition : Condition) (value : Value) : Except Failure Unit :=
  let scope := Condition.Scope.root.push [("v", value)]
  match ((condition.holds world scope).run Memory.empty).1 with
  | .ok true => .ok ()
  | .ok false => .error (.violation ⟨"hook", value, condition.source⟩)
  | .error failure => .error failure

def info (world : World) (declaration : ClassDeclaration) : ClassInfo :=
  ⟨declaration.parents, declaration.test.map (check world), declaration.samples⟩

end ClassDeclaration

/-- The world with its declared classes, the earliest first; conditions run inside conditions at
most `depth` deep. -/
def World.declare (host : Host) (declarations : List ClassDeclaration) : Nat → World
  | 0 => ⟨host, []⟩
  | depth + 1 =>
    let inner := World.declare host declarations depth
    ⟨host, declarations.foldl
      (fun classes declaration => classes.register declaration.type (declaration.info inner)) []⟩

def World.hookDepth : Nat := 12

def World.of (host : Host) (declarations : List ClassDeclaration) : World :=
  World.declare host declarations World.hookDepth

end Covenant
