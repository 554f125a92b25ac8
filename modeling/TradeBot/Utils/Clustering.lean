import Mathlib.Algebra.Order.Ring.Unbundled.Rat
import Mathlib.Data.List.Sort
import Mathlib.Logic.Function.Basic

set_option autoImplicit false

/-! # Dbscan1D

`numeric/Clustering.hpp`: clusters of prices on a line. The prices are sorted first, so that the
neighbours of one of them are a range of positions, from the first one that is not below `val - eps` to
the last one that is not above `val + eps`. Vectors indexed by positions are functions here.

Those two sums are rounded to doubles in the source, while the prices are compared as they are. `round`
says how: with `nearestDouble`, a price can have a neighbour that does not have it as one. -/

namespace TradeBot

namespace Dbscan1D

/-- `find_range_`: the positions from `lo` to `hi`. -/
def findRange (round : ℚ → ℚ) (points : List ℚ) (val eps : ℚ) : List ℕ :=
  let lo := (points.takeWhile (fun p => decide (p < round (val - eps)))).length
  let hi := lo + ((points.drop lo).takeWhile (fun p => decide (¬ round (val + eps) < p))).length
  List.range' lo (hi - lo)

/-- The growth of one cluster. -/
structure Growth where
  clusterId : ℕ → Option ℕ
  visitedGen : ℕ → ℕ
  /-- The queue from `k` on. -/
  queue : List ℕ

variable (round : ℚ → ℚ) (points : List ℚ) (eps : ℚ) (minPts : ℕ)

/-- `queue.push_back(idx); visited_gen[idx] = current_gen;`. -/
def Growth.push (gen : ℕ) (g : Growth) (idx : ℕ) : Growth :=
  { g with visitedGen := Function.update g.visitedGen idx gen, queue := g.queue ++ [idx] }

/-- The loop over the neighbours of the point `i` that the cluster starts with. -/
def Growth.pushOthers (gen i : ℕ) (range : List ℕ) (g : Growth) : Growth :=
  range.foldl (fun g idx => if idx ≠ i then g.push gen idx else g) g

/-- The loop over the neighbours of a core point. -/
def Growth.pushNew (gen : ℕ) (range : List ℕ) (g : Growth) : Growth :=
  range.foldl
    (fun g idx => if g.clusterId idx = none ∧ g.visitedGen idx ≠ gen then g.push gen idx else g) g

/-- The body of the loop over the queue. -/
def Growth.visit (id gen : ℕ) (g : Growth) (idx : ℕ) : Growth :=
  if g.clusterId idx = none then
    let g := { g with clusterId := Function.update g.clusterId idx (some id) }
    let range := findRange round points (points.getD idx 0) eps
    if minPts ≤ range.length then g.pushNew gen range else g
  else g

/-- `for (size_t k = 0; k < queue.size(); ++k)`, for at most `fuel` turns. -/
def Growth.expand (id gen : ℕ) : ℕ → Growth → Growth
  | 0, g => g
  | fuel + 1, g =>
      match g.queue with
      | [] => g
      | idx :: queue =>
          expand id gen fuel ({ g with queue := queue }.visit round points eps minPts id gen idx)

/-- The loop over the points. -/
structure Scan where
  clusterId : ℕ → Option ℕ := fun _ => none
  visitedGen : ℕ → ℕ := fun _ => 0
  currentGen : ℕ := 0
  nextClusterId : ℕ := 0

/-- The body of the loop over the points. No position is queued twice, so the queue is never longer than
    the points are. -/
def Scan.step (st : Scan) (i : ℕ) : Scan :=
  if st.clusterId i ≠ none then st
  else
    let range := findRange round points (points.getD i 0) eps
    if range.length < minPts then st
    else
      let id := st.nextClusterId
      let gen := st.currentGen + 1
      let g : Growth :=
        { clusterId := Function.update st.clusterId i (some id), visitedGen := st.visitedGen,
          queue := [] }
      let g := (g.pushOthers gen i range).expand round points eps minPts id gen points.length
      { clusterId := g.clusterId, visitedGen := g.visitedGen, currentGen := gen,
        nextClusterId := id + 1 }

/-- The whole loop. -/
def scan : Scan := (List.range points.length).foldl (Scan.step round points eps minPts) {}

/-- The body of the loop that fills the result. -/
def addPoint (clusterId : ℕ → Option ℕ) (result : List (List ℚ)) (p : ℚ × ℕ) : List (List ℚ) :=
  match clusterId p.2 with
  | some id => result.modify id (· ++ [p.1])
  | none => result

/-- The points of each cluster, in their order. -/
def collect (clusterId : ℕ → Option ℕ) (count : ℕ) : List (List ℚ) :=
  points.zipIdx.foldl (addPoint clusterId) (List.replicate count [])

/-- `cluster`: the clusters in the order of their first core points. -/
def cluster (values : List ℚ) (eps : ℚ) (minPts : ℕ) : List (List ℚ) :=
  if values = [] then []
  else
    let points := values.insertionSort (· ≤ ·)
    let st := scan round points eps minPts
    collect points st.clusterId st.nextClusterId

/-- Two clusters, and a point of neither. -/
example : cluster id [201, 100, 101, 200, 150, 102] 1 2 = [[100, 101, 102], [200, 201]] := by
  decide +kernel

end Dbscan1D

end TradeBot
