/-
  Reachability: the points that steps lead to from a start. Every point is expanded once, so the
  number of points pushed is bounded by the steps out of all points and the start.
-/

namespace FluentGrammar

/-- Goes on from the points on the stack, past the points seen. -/
def visit (next : Nat → List Nat) : Nat → List Nat → List Nat → List Nat
  | 0, _, seen => seen
  | _ + 1, [], seen => seen
  | fuel + 1, n :: stack, seen =>
    if seen.contains n then visit next fuel stack seen
    else visit next fuel (next n ++ stack) (n :: seen)

/-- The points reachable from `start` in ascending order. `steps` is the number of steps out of
    all points together. -/
def reachableFrom (next : Nat → List Nat) (steps start : Nat) : List Nat :=
  (visit next (steps + 2) [start] []).mergeSort

end FluentGrammar
