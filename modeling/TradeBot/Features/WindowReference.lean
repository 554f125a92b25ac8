import Mathlib.Data.List.Induction
import Mathlib.Tactic.Linarith
import TradeBot.Features.FeatureExtractor

set_option autoImplicit false

/-! # The reference of a price change

A price change over a window is to be measured against the oldest mid of the window, and where the
samples have a gap against the latest one before it. `extract` falls back to the oldest mid of its ring,
and it measures a missing mid as a fall to zero.

The right reference is defined over all calls so far, while the extractor looks into its ring, which
has forgotten the older ones. The two are brought together by `after_ring`, after which the scan is a
filter (`filter_takeWhile`), so that only the two fall-backs are left to differ. The condition of
`shown_eq_rightChange_iff` names them both. -/

namespace TradeBot

/-- The four windows over which a frame shows a change. -/
inductive ChangeWindow
  | w1s
  | w2s
  | w5s
  | w30s
  deriving DecidableEq

namespace ChangeWindow

/-- The length of a window in seconds. -/
def secs : ChangeWindow → ℤ
  | w1s => 1
  | w2s => 2
  | w5s => 5
  | w30s => 30

/-- The change that a frame shows for a window. -/
def shown (frame : FeatureFrame) : ChangeWindow → ℚ
  | w1s => frame.priceChange1s
  | w2s => frame.priceChange2s
  | w5s => frame.priceChange5s
  | w30s => frame.priceChange30s

end ChangeWindow

namespace FeatureExtractor

/-- A call of `extract`, with what the sources held. -/
structure Extraction where
  now : TimePoint
  sources : FeatureFrame

/-- An extractor after some calls. -/
def after (ticker : Ticker) (reserve : ℕ) (calls : List Extraction) : FeatureExtractor :=
  calls.foldl (fun ex c => (ex.extract c.now c.sources).1) { ticker := ticker, reserveHistory := reserve }

/-! ## What the changes should be -/

section

variable (reserve : ℕ) (calls : List Extraction) (call : Extraction) (w : ChangeWindow)

/-- A call pushes a sample only if it has a mid. -/
def Extraction.sample? (c : Extraction) : Option MidSample :=
  if h : 0 < c.sources.mid then some ⟨c.now, c.sources.mid, h⟩ else none

/-- The mids of some calls, newest first. -/
def samples : List MidSample := calls.reverse.filterMap Extraction.sample?

/-- The mids that are still in the ring beside the current one. -/
def earlier : List MidSample := (samples calls).take (max 1 reserve - 1)

/-- A sample is recent if it lies in the window. -/
def isRecent (s : MidSample) : Bool := decide (call.now - s.t ≤ w.secs * nsPerSec)

/-- The oldest mid in the window, else the latest one. -/
def rightReference? : Option MidSample :=
  ((earlier reserve calls).filter (isRecent call w)).getLast?.or (earlier reserve calls).head?

/-- The change in percent since the right reference, where there is one and the mid is known. -/
def rightChange : ℚ :=
  if 0 < call.sources.mid then
    ((rightReference? reserve calls call w).map
      (fun s => (call.sources.mid - s.mid) / s.mid * 100)).getD 0
  else 0

/-- A missing mid meets fewer than two samples, and a mid after a gap samples that begin and end with
    the same mid. -/
def Referable : Prop :=
  if 0 < call.sources.mid then
    (∀ s ∈ earlier reserve calls, isRecent call w s = false) →
      (earlier reserve calls).getLast?.map MidSample.mid
        = (earlier reserve calls).head?.map MidSample.mid
  else ((samples calls).take (max 1 reserve)).length < 2

end

/-! ## The ring -/

section

variable {ticker : Ticker} {reserve : ℕ} {calls : List Extraction}

theorem samples_concat (calls : List Extraction) (c : Extraction) :
    samples (calls ++ [c]) = c.sample?.toList ++ samples calls := by
  rw [samples, List.reverse_append, List.filterMap_append, samples]
  cases hsample : c.sample? <;> simp [hsample]

theorem after_concat (calls : List Extraction) (c : Extraction) :
    after ticker reserve (calls ++ [c])
      = (after ticker reserve calls).record c.now c.sources.mid := by
  rw [after, List.foldl_append]
  rfl

theorem record_reserveHistory (ex : FeatureExtractor) (now : TimePoint) (mid : ℚ) :
    (ex.record now mid).reserveHistory = ex.reserveHistory := by
  unfold record
  split <;> rfl

theorem record_midHistory (ex : FeatureExtractor) (c : Extraction) {all : List MidSample}
    (hall : ex.midHistory = all.take (max 1 ex.reserveHistory)) :
    (ex.record c.now c.sources.mid).midHistory
      = (c.sample?.toList ++ all).take (max 1 ex.reserveHistory) := by
  unfold record Extraction.sample?
  by_cases hmid : 0 < c.sources.mid
  · obtain ⟨n, hn⟩ : ∃ n, max 1 ex.reserveHistory = n + 1 := ⟨_, (Nat.sub_add_cancel (le_max_left ..)).symm⟩
    rw [dif_pos hmid, dif_pos hmid, hall, hn]
    simp [List.take_take]
  · rw [dif_neg hmid, dif_neg hmid, hall]
    rfl

/-- The ring holds the newest of all mids. -/
theorem after_ring (ticker : Ticker) (reserve : ℕ) (calls : List Extraction) :
    (after ticker reserve calls).midHistory = (samples calls).take (max 1 reserve) ∧
      (after ticker reserve calls).reserveHistory = reserve := by
  induction calls using List.reverseRecOn with
  | nil => exact ⟨List.take_nil.symm, rfl⟩
  | append_singleton calls c ih =>
      obtain ⟨hring, hreserve⟩ := ih
      rw [after_concat, samples_concat, record_reserveHistory]
      refine ⟨?_, hreserve⟩
      rw [record_midHistory _ c (by rw [hreserve, hring]), hreserve]

theorem samples_sorted (hsorted : calls.Pairwise (fun c d => c.now ≤ d.now)) :
    (samples calls).Pairwise (fun s t => t.t ≤ s.t) := by
  refine List.Pairwise.filterMap _ ?_ (List.pairwise_reverse.2 hsorted)
  intro c d hle s hs t ht
  rw [Extraction.sample?, Option.dite_none_right_eq_some] at hs ht
  obtain ⟨_, hs⟩ := hs
  obtain ⟨_, ht⟩ := ht
  rw [← Option.some.inj hs, ← Option.some.inj ht]
  exact hle

/-! ## The scan -/

/-- In samples that grow older, stopping at the first one that is too old loses none that are recent. -/
theorem filter_takeWhile {p q : MidSample → Bool} (hpq : ∀ s, q s = true → p s = true)
    (hp : ∀ s t : MidSample, t.t ≤ s.t → p t = true → p s = true) {l : List MidSample}
    (hsorted : l.Pairwise (fun s t => t.t ≤ s.t)) : (l.takeWhile p).filter q = l.filter q := by
  induction l with
  | nil => rfl
  | cons a l ih =>
      obtain ⟨hold, hrest⟩ := List.pairwise_cons.1 hsorted
      by_cases ha : p a = true
      · rw [List.takeWhile_cons_of_pos ha, List.filter_cons, List.filter_cons, ih hrest]
      · rw [List.takeWhile_cons_of_neg ha, List.filter_nil, eq_comm, List.filter_eq_nil_iff]
        intro s hs hqs
        rcases List.mem_cons.1 hs with rfl | hmem
        · exact ha (hpq _ hqs)
        · exact ha (hp _ _ (hold s hmem) (hpq _ hqs))

/-- No window is longer than a minute. -/
theorem windowSample?_eq {ex : FeatureExtractor} {new : MidSample} {old : List MidSample}
    (hring : ex.midHistory = new :: old) (hsorted : old.Pairwise (fun s t => t.t ≤ s.t))
    (call : Extraction) (w : ChangeWindow) :
    ex.windowSample? call.now w.secs = (old.filter (isRecent call w)).getLast? := by
  have hrecent : (fun s : MidSample => decide (call.now - w.secs * nsPerSec ≤ s.t)) = isRecent call w := by
    funext s
    rw [isRecent, decide_eq_decide]
    constructor <;> intro h <;> linarith
  rw [windowSample?, hring, List.tail_cons, hrecent, filter_takeWhile _ _ hsorted]
  · intro s hs
    have hminute : w.secs * nsPerSec ≤ 60 * nsPerSec := by cases w <;> decide
    rw [isRecent, decide_eq_true_eq] at hs
    exact decide_eq_true (by linarith)
  · intro s t hle ht
    exact decide_eq_true ((of_decide_eq_true ht).trans hle)

theorem calcPct_eq_iff {mid ref ref' : ℚ} (hmid : 0 < mid) (href : 0 < ref) (href' : 0 < ref') :
    calcPct mid ref = (mid - ref') / ref' * 100 ↔ ref = ref' := by
  rw [calcPct, if_pos href, mul_left_inj' (by norm_num), sub_div, sub_div, div_self href.ne',
    div_self href'.ne', sub_left_inj, div_eq_div_iff href.ne' href'.ne', mul_right_inj' hmid.ne', eq_comm]

/-- Without a mid every change is a fall to zero or below. -/
theorem calcPct_neg {mid ref : ℚ} (hmid : mid ≤ 0) (href : 0 < ref) : calcPct mid ref < 0 := by
  rw [calcPct, if_pos href]
  exact mul_neg_of_neg_of_pos (div_neg_of_neg_of_pos (by linarith) href) (by norm_num)

/-! ## The change that is shown -/

theorem shown_eq (ex : FeatureExtractor) (call : Extraction) (w : ChangeWindow) :
    w.shown (ex.extract call.now call.sources).2
      = (ex.record call.now call.sources.mid).priceChange call.now call.sources.mid w.secs := by
  cases w <;> rfl

/-- With a mid, the change is measured against a recent one or the oldest. -/
theorem shown_of_mid {ex : FeatureExtractor} {call : Extraction} {old : List MidSample}
    (w : ChangeWindow) (hmid : 0 < call.sources.mid)
    (hring : (ex.record call.now call.sources.mid).midHistory = ⟨call.now, call.sources.mid, hmid⟩ :: old)
    (hsorted : old.Pairwise (fun s t => t.t ≤ s.t)) :
    w.shown (ex.extract call.now call.sources).2
      = (((old.filter (isRecent call w)).getLast?.or old.getLast?).map
          (fun s => calcPct call.sources.mid s.mid)).getD 0 := by
  rw [shown_eq, priceChange, hring, referenceMid, windowSample?_eq hring hsorted, hring]
  cases old with
  | nil => simp
  | cons s old =>
      have hsome : (((s :: old).filter (isRecent call w)).getLast?.or (s :: old).getLast?).isSome := by
        rw [Option.isSome_or, List.getLast?_isSome.2 (List.cons_ne_nil _ _), Bool.or_true]
      obtain ⟨x, hx⟩ := Option.isSome_iff_exists.1 hsome
      rw [if_pos (by simp), List.getLast?_cons_cons, hx]
      rfl

/-- Both references are the same where there is a recent sample; else one is the oldest and the other
    the latest. -/
theorem changes_eq_iff {mid : ℚ} (hmid : 0 < mid) (old : List MidSample) (p : MidSample → Bool) :
    ((((old.filter p).getLast?.or old.getLast?).map (fun s => calcPct mid s.mid)).getD 0
        = (((old.filter p).getLast?.or old.head?).map (fun s => (mid - s.mid) / s.mid * 100)).getD 0) ↔
      ((∀ s ∈ old, p s = false) →
        old.getLast?.map MidSample.mid = old.head?.map MidSample.mid) := by
  cases hfilter : (old.filter p).getLast? with
  | some s =>
      have hs := List.mem_filter.1 (List.mem_of_getLast? hfilter)
      refine iff_of_true ?_ (fun hnone => absurd (hnone s hs.1) (by simp [hs.2]))
      exact (calcPct_eq_iff hmid s.mid_pos s.mid_pos).2 rfl
  | none =>
      have hnone : ∀ s ∈ old, p s = false := by
        simpa [List.filter_eq_nil_iff] using List.getLast?_eq_none_iff.1 hfilter
      rw [Option.none_or, Option.none_or, imp_iff_right hnone]
      cases old with
      | nil => exact iff_of_true rfl rfl
      | cons s old =>
          rw [List.getLast?_eq_some_getLast (List.cons_ne_nil s old), List.head?_cons, Option.map_some,
            Option.map_some, Option.map_some, Option.map_some, Option.some.injEq]
          exact calcPct_eq_iff hmid (MidSample.mid_pos _) s.mid_pos

/-- The change is the right one exactly if the samples are such that it does not matter where it is
    looked for. -/
theorem shown_eq_rightChange_iff (hsorted : calls.Pairwise (fun c d => c.now ≤ d.now))
    (call : Extraction) (w : ChangeWindow) :
    w.shown ((after ticker reserve calls).extract call.now call.sources).2
        = rightChange reserve calls call w ↔ Referable reserve calls call w := by
  have hring := (after_ring ticker reserve (calls ++ [call])).1
  rw [after_concat, samples_concat, Extraction.sample?] at hring
  by_cases hmid : 0 < call.sources.mid
  · rw [dif_pos hmid, Option.toList_some, List.singleton_append,
      show max 1 reserve = (max 1 reserve - 1) + 1 by omega, List.take_succ_cons] at hring
    have hold := (samples_sorted hsorted).sublist (List.take_sublist (max 1 reserve - 1) _)
    rw [shown_of_mid w hmid hring hold, rightChange, Referable, if_pos hmid, if_pos hmid, rightReference?]
    exact changes_eq_iff hmid (earlier reserve calls) (isRecent call w)
  · rw [dif_neg hmid, Option.toList_none, List.nil_append] at hring
    rw [shown_eq, rightChange, Referable, if_neg hmid, if_neg hmid, priceChange, hring]
    by_cases hlen : 2 ≤ ((samples calls).take (max 1 reserve)).length
    · have hne := List.ne_nil_of_length_pos (by omega : 0 < ((samples calls).take (max 1 reserve)).length)
      have href := referenceMid_pos call.now w.secs (hring ▸ hne)
      rw [if_pos hlen]
      exact iff_of_false (calcPct_neg (not_lt.1 hmid) href).ne (not_lt.2 hlen)
    · rw [if_neg hlen]
      exact iff_of_true rfl (not_le.1 hlen)

end

/-! ## A gap and a missing mid -/

/-- A call with this mid and nothing else. -/
def quoted (now : TimePoint) (mid : ℚ) : Extraction := ⟨now, { mid := mid }⟩

/-- The price goes up to 200 before nothing is heard for a minute. -/
def climb : List Extraction := [quoted 0 100, quoted nsPerSec 200]

theorem climb_sorted : climb.Pairwise (fun c d => c.now ≤ d.now) := by decide

/-- While the samples have no gap, the change of five seconds is the one since the first of them. -/
theorem shown_eq_rightChange_climb :
    ChangeWindow.w5s.shown ((after "T" 600 climb).extract (2 * nsPerSec) { mid := 150 }).2
      = rightChange 600 climb (quoted (2 * nsPerSec) 150) .w5s :=
  (shown_eq_rightChange_iff climb_sorted (quoted (2 * nsPerSec) 150) .w5s).2 (by
    rw [Referable, if_pos (by decide +kernel)]
    exact fun hnone => absurd hnone (by decide +kernel))

/-- After the gap a price that stands still is shown as doubled, and one that is missing as lost. -/
theorem shown_ne_rightChange :
    (ChangeWindow.w1s.shown ((after "T" 600 climb).extract (90 * nsPerSec) { mid := 200 }).2 = 100 ∧
      rightChange 600 climb (quoted (90 * nsPerSec) 200) .w1s = 0) ∧
    ChangeWindow.w1s.shown ((after "T" 600 climb).extract (2 * nsPerSec) { mid := 0 }).2 = -100 ∧
      rightChange 600 climb (quoted (2 * nsPerSec) 0) .w1s = 0 := by
  decide +kernel

end FeatureExtractor

end TradeBot
