import InterfacePlan.Path.Basic
/-!
# Relative paths

The path that leads from a directory to a file, found by comparing components only.

## Main definitions

* `Path.wayTo?`: the components that lead from one path to another
* `Path.relativeTo`: a path as seen from a directory
-/

namespace InterfacePlan.Path

/-- The components that lead from a directory to a path, both given by their components. Common
leading components are skipped, as long as nothing else came before (`fresh`); every component of
the directory that is left over is undone by a step to the parent. A step to the parent that is left
over cannot be undone. -/
def wayTo? (fresh : Bool) : List Component → List Component → Option (List Component)
  | [], p => some p
  | _ :: base, [] => (wayTo? false base []).map (.parent :: ·)
  | b :: base, c :: p =>
    if fresh && b = c then wayTo? true base p
    else if b = .current then (wayTo? false base p).map (c :: ·)
    else if b = .parent then none
    else some (.parent :: base.map (fun _ => .parent) ++ c :: p)

/-- **A path as seen from a directory.** Where there is no such path, `p` itself. -/
def relativeTo (base p : Path) : Path :=
  if isAbsolute base = isAbsolute p then
    match wayTo? true (components base) (components p) with
    | some way => Text.join "/" (way.map Component.text)
    | none => p
  else p

end InterfacePlan.Path
