import TradeBot.Lib.Runs
import TradeBot.Lib.WeightedPoints

set_option autoImplicit false

/-! # TDigest

`numeric/TDigest.hpp`: quantiles of a stream. Added values wait in a buffer; a merge sorts them in among the
centroids and combines neighbours. The sums are those of `KahanAccumulator`, which are exact here.

The order that sorting gives equal means is left open, as `std::sort` leaves it (`CentroidSort`). The
pass over the sorted centroids goes from left to right with a current centroid, and the limit depends
on the quantiles on both sides of it. -/

namespace TradeBot

/-- A mean with the number of values that it stands for. -/
abbrev Centroid : Type := WeightedPoint ℚ

/-- `std::sort` of centroids. It may leave centroids of one mean in any order. -/
structure CentroidSort where
  sort : List Centroid → List Centroid
  perm : ∀ l, (sort l).Perm l
  sorted : ∀ l, WeightedPoint.Sorted (sort l)

/-- One of the sorts that the library may use. -/
def CentroidSort.byMean : CentroidSort where
  sort l := l.mergeSort fun a b => decide (a.mean ≤ b.mean)
  perm l := List.mergeSort_perm l _
  sorted l := by
    have hpairwise : (l.mergeSort fun a b => decide (a.mean ≤ b.mean)).Pairwise
        fun a b => decide (a.mean ≤ b.mean) = true := List.pairwise_mergeSort
      (fun a b c hab hbc => by
        simp only [decide_eq_true_eq] at hab hbc ⊢
        exact hab.trans hbc)
      (fun a b => by
        simp only [Bool.or_eq_true, decide_eq_true_eq]
        exact le_total _ _) l
    exact hpairwise.imp fun h => of_decide_eq_true h

/-- The centroids, the buffer, and the weight of each. -/
structure TDigest where
  delta : ℚ
  deltaInv : ℚ
  centroids : List Centroid := []
  unmerged : List Centroid := []
  totalSum : ℚ := 0
  unmergedSum : ℚ := 0

/-- A call of the digest. -/
inductive TDigestCall
  | add (value weight : ℚ)
  | merge
  | quantile (q : ℚ)

namespace TDigest

/-- An empty digest. -/
def create (delta : ℚ) : TDigest := { delta := delta, deltaInv := 1 / delta }

/-! ## Merging -/

/-- What the loop of `merge` keeps. -/
structure Pass where
  centroids : List Centroid := []
  cur : Centroid
  weightSoFar : ℚ

/-- A centroid is combined with the current one if both together stay within the limit. -/
def Pass.step (totalSum deltaInv : ℚ) (s : Pass) (c : Centroid) : Pass :=
  let nextWeight := s.weightSoFar + c.weight
  let q0 := s.weightSoFar / totalSum
  let q1 := nextWeight / totalSum
  let limit := totalSum * deltaInv * min (q1 * (1 - q1)) (q0 * (1 - q0)) * 4
  if s.cur.weight + c.weight ≤ max 1 limit then
    { s with cur := s.cur.combine c, weightSoFar := nextWeight }
  else { centroids := s.centroids ++ [s.cur], cur := c, weightSoFar := nextWeight }

/-- The centroids of a sorted list. -/
def compress (totalSum deltaInv : ℚ) : List Centroid → List Centroid
  | [] => []
  | first :: rest =>
      let s := rest.foldl (Pass.step totalSum deltaInv) { cur := first, weightSoFar := first.weight }
      s.centroids ++ [s.cur]

variable (S : CentroidSort) (st : TDigest)

/-- The buffer is sorted in, and empty afterwards. -/
def merge : TDigest :=
  if st.unmerged = [] then st
  else
    { st with
      centroids := compress st.totalSum st.deltaInv (S.sort (st.centroids ++ st.unmerged))
      unmerged := []
      unmergedSum := 0 }

/-- `unmerged_` with one more entry. -/
def buffer (value weight : ℚ) : TDigest :=
  { st with
    unmerged := st.unmerged ++ [⟨value, weight⟩]
    unmergedSum := st.unmergedSum + weight
    totalSum := st.totalSum + weight }

/-- A value is buffered, and the buffer merged once it is full. -/
def add (value weight : ℚ) : TDigest :=
  let st := st.buffer value weight
  if st.delta * 10 ≤ st.unmerged.length then st.merge S else st

/-! ## Quantiles -/

/-- The loop of `quantile`, with the mean of the centroid before. -/
def scan (target : ℚ) : Option ℚ → ℚ → List Centroid → Option ℚ
  | prev, _, [] => prev
  | prev, weightSoFar, c :: rest =>
      if target ≤ weightSoFar + c.weight then
        match prev with
        | none => some c.mean
        | some prevMean => some (prevMean + (c.mean - prevMean) * (target - weightSoFar) / c.weight)
      else scan target (some c.mean) (weightSoFar + c.weight) rest

/-- `none` is `NAN`. -/
def quantile (q : ℚ) : TDigest × Option ℚ :=
  if q < 0 ∨ 1 < q then (st, none)
  else
    let st := st.merge S
    match st.centroids with
    | [] => (st, none)
    | [c] => (st, some c.mean)
    | centroids => (st, scan (q * st.totalSum) none 0 centroids)

/-- The weight of everything added, buffered or not. -/
def totalWeight : ℚ := st.totalSum + st.unmergedSum

/-- The digest after a call. -/
def step : TDigestCall → TDigest
  | .add value weight => st.add S value weight
  | .merge => st.merge S
  | .quantile q => (st.quantile S q).1

/-- The values of the `add` calls with their weights. -/
def added (calls : List TDigestCall) : List Centroid :=
  calls.filterMap fun
    | .add value weight => some ⟨value, weight⟩
    | _ => none

end TDigest

end TradeBot
