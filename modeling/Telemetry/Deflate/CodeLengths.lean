import Telemetry.Deflate.Alphabet

/-!
# Code lengths from weights

The lengths of a code that spends the fewest bits on symbols of given weights,
no code being longer than a limit.  Packages of symbols are formed level by
level; a symbol's code is as long as the number of chosen packages it is in.
-/

namespace Telemetry.Deflate

/-- Symbols that are lengthened together, with the weight that this costs. -/
structure Package where
  weight : Nat
  symbols : List Nat

/-- Joins packages two by two; one that is left over is dropped. -/
def pairUp : List Package → List Package
  | p :: q :: rest =>
    ⟨p.weight + q.weight, p.symbols ++ q.symbols⟩ :: pairUp rest
  | _ => []

def sortPackages (ps : List Package) : List Package :=
  ps.mergeSort fun p q => p.weight ≤ q.weight

/-- The packages of the last of `n` levels. -/
def packages (leaves : List Package) : Nat → List Package
  | 0 => []
  | n + 1 => sortPackages (leaves ++ pairUp (packages leaves n))

/-- The lengths of an optimal code for weights, none above the limit; a symbol
of weight zero has no code. -/
def codeLengths (limit : Nat) (weights : List Nat) : List Nat :=
  let leaves := sortPackages <|
    (weights.zipIdx.filter fun p => 0 < p.1).map fun p => ⟨p.1, [p.2]⟩
  let none := Array.replicate weights.length 0
  match leaves with
  | [] => none.toList
  | [only] => (only.symbols.foldl (fun a s => a.set! s 1) none).toList
  | _ =>
    let chosen := (packages leaves limit).take (2 * leaves.length - 2)
    (chosen.foldl
      (fun a p => p.symbols.foldl (fun a s => a.modify s (· + 1)) a)
      none).toList

end Telemetry.Deflate
