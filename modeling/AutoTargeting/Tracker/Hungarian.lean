import Mathlib.Algebra.Order.Ring.Rat
import Mathlib.Logic.Function.Basic
import Mathlib.Data.List.Basic

namespace AutoTargeting.Tracker

-- The arrays of `hungarian` have `size + 1` entries, from index 0; the search keeps every index
-- that it uses within them. `none` is infinity in `minv` and `delta`.

/-- The variables that last from row to row: the potentials, `p j`, the row of column `j` or 0,
and `way`. -/
structure Rows where
  u : ℕ → ℚ
  v : ℕ → ℚ
  p : ℕ → ℕ
  way : ℕ → ℕ

structure Search where
  u : ℕ → ℚ
  v : ℕ → ℚ
  way : ℕ → ℕ
  minv : ℕ → Option ℚ
  used : ℕ → Bool
  j0 : ℕ

structure Scan where
  minv : ℕ → Option ℚ
  way : ℕ → ℕ
  delta : Option ℚ
  j1 : ℕ

structure Shift where
  u : ℕ → ℚ
  v : ℕ → ℚ
  minv : ℕ → Option ℚ

/-- `a < b`, where `none` is infinity. -/
def below : Option ℚ → Option ℚ → Prop
  | some a, some b => a < b
  | some _, none => True
  | none, _ => False

instance : ∀ a b, Decidable (below a b)
  | some a, some b => inferInstanceAs (Decidable (a < b))
  | some _, none => inferInstanceAs (Decidable True)
  | none, _ => inferInstanceAs (Decidable False)

section
variable (size : ℕ) (cost : ℕ → ℕ → ℚ) (p : ℕ → ℕ)

/-- The reduced cost of column `j` for the row of `j0`. -/
def reducedCost (s : Search) (j : ℕ) : ℚ := cost (p s.j0) j - s.u (p s.j0) - s.v j

/-- One column of the loop that looks for the smallest `minv`. -/
def scanColumn (s : Search) (t : Scan) (j : ℕ) : Scan :=
  if s.used j = true then t
  else
    let cur := reducedCost cost p s j
    let t := if below (some cur) (t.minv j) then
        { t with minv := Function.update t.minv j (some cur), way := Function.update t.way j s.j0 }
      else t
    if below (t.minv j) t.delta then { t with delta := t.minv j, j1 := j } else t

def scan (s : Search) : Scan :=
  (List.range' 1 size).foldl (scanColumn cost p s) ⟨s.minv, s.way, none, 0⟩

/-- One column of the loop that shifts the potentials by `delta`. -/
def shiftColumn (used : ℕ → Bool) (delta : ℚ) (t : Shift) (j : ℕ) : Shift :=
  if used j = true then
    { t with
      u := Function.update t.u (p j) (t.u (p j) + delta)
      v := Function.update t.v j (t.v j - delta) }
  else { t with minv := Function.update t.minv j ((t.minv j).map (· - delta)) }

def shift (used : ℕ → Bool) (delta : ℚ) (t : Shift) : Shift :=
  (List.range (size + 1)).foldl (shiftColumn p used delta) t

/-- One turn of the search; with an infinite `delta` the code would turn for ever. -/
def searchStep (s : Search) : Option Search :=
  let s := { s with used := Function.update s.used s.j0 true }
  let t := scan size cost p s
  t.delta.map fun delta =>
    let shifted := shift size p s.used delta ⟨s.u, s.v, t.minv⟩
    ⟨shifted.u, shifted.v, t.way, shifted.minv, s.used, t.j1⟩

/-- The search, which ends at a free column, and `none` where the turns run out. -/
def search : ℕ → Search → Option Search
  | 0, _ => none
  | turns + 1, s =>
    (searchStep size cost p s).bind fun s => if p s.j0 = 0 then some s else search turns s

end

/-- The rows move along the path that ends at column `j0`. -/
def augment (way : ℕ → ℕ) : ℕ → (ℕ → ℕ) → ℕ → Option (ℕ → ℕ)
  | 0, _, _ => none
  | turns + 1, p, j0 =>
    let j1 := way j0
    let p := Function.update p j0 (p j1)
    if j1 = 0 then some p else augment way turns p j1

def addRow (size : ℕ) (cost : ℕ → ℕ → ℚ) (r : Rows) (i : ℕ) : Option Rows :=
  let p := Function.update r.p 0 i
  (search size cost p (size + 1) ⟨r.u, r.v, r.way, fun _ => none, fun _ => false, 0⟩).bind fun s =>
    (augment s.way (size + 1) p s.j0).map fun p => ⟨s.u, s.v, p, s.way⟩

/-- The matrix with its indices from 1. -/
def oneBased (matrix : ℕ → ℕ → ℚ) (i j : ℕ) : ℚ :=
  if i = 0 ∨ j = 0 then 0 else matrix (i - 1) (j - 1)

def columnsOfRows (size : ℕ) (p : ℕ → ℕ) : List ℕ :=
  (List.range' 1 size).foldl
    (fun result j => if 0 < p j then result.set (p j - 1) (j - 1) else result)
    (List.replicate size 0)

def hungarian (matrix : ℕ → ℕ → ℚ) (size : ℕ) : Option (List ℕ) :=
  ((List.range' 1 size).foldlM (addRow size (oneBased matrix))
    ⟨fun _ => 0, fun _ => 0, fun _ => 0, fun _ => 0⟩).map fun r => columnsOfRows size r.p

def largeCost : ℚ := 1000000

def padded (costs : List (List ℚ)) (i j : ℕ) : ℚ :=
  ((costs[i]?).bind fun row => row[j]?).getD largeCost

/-- `solve`, and `none` where it does not return: a row that is shorter than the first one ends it
with a panic. -/
def solve (costs : List (List ℚ)) : Option (List (Option ℕ)) :=
  match costs with
  | [] => some []
  | first :: _ =>
    let n := costs.length
    let m := first.length
    if m = 0 then some (List.replicate n none)
    else if costs.any (·.length < m) then none
    else
      (hungarian (padded (costs.map (·.take m))) (max n m)).map fun assignment =>
        (assignment.take n).map fun assign => if assign < m then some assign else none

end AutoTargeting.Tracker
