import Ecdsa.Curve.Lift
import Ecdsa.Immutability

/-!
# Points kept under names

A run of steps builds points out of earlier ones, which are kept under names, and asks about them.
A step that fails, or finds no point, keeps nothing; a point that was found is kept also if it then
cannot be shown.
-/

namespace Ecdsa

/-- How a point is obtained, from nothing or from points kept under names. -/
inductive Construction where
  /-- Any three coordinates. -/
  | coordinates (x y z : Int)
  | generator
  | infinity
  | ofAffine (x y : Int)
  | liftX (x : Int) (odd : Bool)
  | double (of : String)
  | add (of other : String)
  | scalarMult (of : String) (k : Int)
  | normalize (of : String)
  deriving DecidableEq, Repr

/-- One step in the use of named points. -/
inductive PointStep where
  /-- Obtains a point and keeps it under a name, if one is given. -/
  | obtain (name : Option String) (how : Construction)
  /-- Asks for affine coordinates. -/
  | toAffine (of : String)
  /-- Asks whether a pair of coordinates lies on the curve. -/
  | contains (x y : Int)
  /-- Attempts to change a field of a point. -/
  | change (of : String) (field : Text)
  deriving DecidableEq, Repr

/-- A point as it is shown: its coordinates as they are, and what they stand for. -/
structure PointView where
  x : Int
  y : Int
  z : Int
  isInfinity : Bool
  affine : Option (Int × Int)
  deriving DecidableEq, Repr

/-- What a step answers. -/
inductive PointAnswer where
  | point (view : Option PointView)
  | affine (coordinates : Option (Int × Int))
  | contains (answer : Bool)
  deriving DecidableEq, Repr

/-- Shows a point. -/
def Point.view {C : Curve} (P : Point C) : Except Fault PointView := do
  pure ⟨P.x, P.y, P.z, P.IsInfinity, ← P.toAffine⟩

/-- Shows a point, if there is one. -/
def Point.view? {C : Curve} : Option (Point C) → Except Fault (Option PointView)
  | none => .ok none
  | some P => P.view.map some

/-- Points kept under names, the latest first. -/
abbrev PointStore (C : Curve) := List (String × Point C)

namespace PointStore

variable {C : Curve}

/-- The point kept under a name. -/
def find (store : PointStore C) (name : String) : Except Fault (Point C) :=
  match store.lookup name with
  | some P => .ok P
  | none => .error .unknownName

/-- Obtains a point, if there is one. -/
def construct (store : PointStore C) : Construction → Except Fault (Option (Point C))
  | .coordinates x y z => .ok (some ⟨x, y, z⟩)
  | .generator => .ok (some (Point.generator C))
  | .infinity => .ok (some Point.infinity)
  | .ofAffine x y => .ok (Point.ofAffine? C x y)
  | .liftX x odd => C.liftX x odd
  | .double of => do some <$> (← store.find of).double
  | .add of other => do some <$> (← store.find of).add (← store.find other)
  | .scalarMult of k => do some <$> (← store.find of).scalarMult k
  | .normalize of => do some <$> (← store.find of).normalize

/-- The points kept after an attempt to obtain one for a name. -/
def keep (store : PointStore C) (name : Option String) :
    Except Fault (Option (Point C)) → PointStore C
  | .ok (some P) => (name.map fun name => (name, P)).toList ++ store
  | _ => store

/-- One step: the points after it, and its answer. -/
def step (store : PointStore C) : PointStep → PointStore C × Except Fault PointAnswer
  | .obtain name how =>
    let found := store.construct how
    (store.keep name found, do PointAnswer.point <$> Point.view? (← found))
  | .toAffine of => (store, do PointAnswer.affine <$> (← store.find of).toAffine)
  | .contains x y => (store, .ok (.contains (decide (C.Contains x y))))
  | .change of field => (store, do
      let _ ← store.find of
      throw (ValueKind.point.refuseChange field))

/-- The answers of a run of steps, in order. -/
def run (store : PointStore C) : List PointStep → List (Except Fault PointAnswer)
  | [] => []
  | s :: rest => (store.step s).2 :: (store.step s).1.run rest

end PointStore

end Ecdsa
