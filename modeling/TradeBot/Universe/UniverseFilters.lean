import TradeBot.Lib.Wildcards
import TradeBot.Utils.TickerSymbol

set_option autoImplicit false

/-! # UniverseFilters

`universe/UniverseFilters.{hpp,cpp}`: the static filter of the universe, by lists and by patterns. The
matcher remembers the last wildcard only and goes back there when it gets stuck.

The loop is a function of what is left of the pattern and of the string, and of the place to go back
to. Its invariant `Consistent` says that nothing but the last place can lead to a match any more, and
the measure of its turns is lexicographic. -/

namespace TradeBot

open Wildcards

/-- The configured filter. -/
structure UniverseFilters where
  allowPatterns : List String := []
  denyPatterns : List String := []
  manualAllow : List Ticker := []
  manualDeny : List Ticker := []

namespace UniverseFilters

section

variable {α : Type*}

/-- What `pi = star_p + 1; si = ++star_s` goes back to: the pattern behind the last wildcard, and the
    string from where it was matched last. -/
abbrev LastStar (α : Type*) := Option (List α × List α)

/-- The longest string that a matcher may still have to read. -/
def reach (str : List α) : LastStar α → ℕ
  | none => str.length + 1
  | some last => max str.length last.2.length

theorem reach_star_le (pattern str : List α) (last : LastStar α) :
    reach str (some (pattern, str)) ≤ reach str last := by
  cases last with
  | none => simp [reach]
  | some last => simp [reach]

theorem reach_tail_le (c : α) (rest : List α) (last : LastStar α) :
    reach rest last ≤ reach (c :: rest) last := by
  cases last with
  | none => simp [reach]
  | some last => exact max_le_max (by simp) le_rfl

theorem reach_retry_lt (str after after' : List α) (c : α) (later : List α) :
    reach later (some (after, later)) < reach str (some (after', c :: later)) := by
  simp [reach]

theorem tail_length_lt {pattern : List α} {c : α} (h : pattern.head? = some c) :
    pattern.tail.length < pattern.length := by
  cases pattern with
  | nil => simp at h
  | cons _ _ => simp

variable [DecidableEq α] (star : α)

/-- The first loop of `glob_match`. An index is what is left of its string from there on; the result is
    what is left of the pattern at the end of the string. -/
def scan (pattern str : List α) (last : LastStar α) : Option (List α) :=
  match str with
  | [] => some pattern
  | c :: rest =>
      if pattern.head? = some star then
        scan pattern.tail (c :: rest) (some (pattern.tail, c :: rest))
      else if pattern.head? = some c then scan pattern.tail rest last
      else
        match last with
        | some (after, _ :: later) => scan after later (some (after, later))
        | _ => none
termination_by (reach str last, pattern.length)
decreasing_by
  · exact Prod.Lex.right' _ (reach_star_le ..) (tail_length_lt ‹_›)
  · exact Prod.Lex.right' _ (reach_tail_le ..) (tail_length_lt ‹_›)
  · exact Prod.Lex.left _ _ (reach_retry_lt ..)

/-- `glob_match`. -/
def globMatch (pattern str : List α) : Bool :=
  (scan star pattern str none).any (fun rest => rest.all (fun c => decide (c = star)))

/-! ## The matcher -/

variable {star} {p s : List α} {last : LastStar α}

/-- The string matches what is left of the pattern, or going back to the last wildcard finds a match. -/
def Matches (star : α) (p s : List α) (last : LastStar α) : Prop :=
  s ∈ language star p ∨
    ∃ back ∈ last, ∃ t, t <:+ back.2 ∧ t ≠ back.2 ∧ t ∈ language star back.1

/-- Since the last wildcard a literal has been read. -/
def Consistent (star : α) (p s : List α) (last : LastStar α) : Prop :=
  ∀ back ∈ last, ∃ read, Literal star read ∧ back = (read ++ p, read ++ s)

theorem matches_some_self : Matches star p s (some (p, s)) ↔ s ∈ language star (star :: p) := by
  rw [mem_language_star]
  constructor
  · rintro (hs | ⟨_, ⟨⟩, t, hsuffix, -, ht⟩)
    · exact ⟨s, List.suffix_rfl, hs⟩
    · exact ⟨t, hsuffix, ht⟩
  · rintro ⟨t, hsuffix, ht⟩
    by_cases heq : t = s
    · exact Or.inl (heq ▸ ht)
    · exact Or.inr ⟨_, rfl, t, hsuffix, heq, ht⟩

/-- What follows a wildcard and a literal is found after that literal, so that nothing is lost if a
    second wildcard takes the place of the first. -/
theorem Consistent.forget (h : Consistent star (star :: p) s last) :
    Matches star p s (some (p, s)) ↔ Matches star (star :: p) s last := by
  rw [matches_some_self]
  refine ⟨Or.inl, ?_⟩
  rintro (hs | ⟨back, hback, t, hsuffix, -, ht⟩)
  · exact hs
  · obtain ⟨read, hread, rfl⟩ := h back hback
    obtain ⟨t', ht', rfl⟩ := (mem_language_append hread).1 ht
    obtain ⟨t'', hsuffix', ht''⟩ := mem_language_star.1 ht'
    rw [mem_language_star]
    refine ⟨t'', List.suffix_of_suffix_length_le
      ((hsuffix'.trans (List.suffix_append read t')).trans hsuffix) (List.suffix_append read s) ?_, ht''⟩
    have hlength := hsuffix.length_le
    have hlength' := hsuffix'.length_le
    simp only [List.length_append] at hlength
    omega

omit [DecidableEq α] in
theorem Consistent.read {c : α} (hc : c ≠ star) (h : Consistent star (c :: p) (c :: s) last) :
    Consistent star p s last := by
  intro back hback
  obtain ⟨read, hread, rfl⟩ := h back hback
  refine ⟨read ++ [c], ?_, by simp⟩
  simp only [Literal, List.mem_append, List.mem_singleton, not_or]
  exact ⟨hread, hc.symm⟩

omit [DecidableEq α] in
theorem consistent_some_self : Consistent star p s (some (p, s)) := by
  rintro _ ⟨⟩
  exact ⟨[], List.not_mem_nil, rfl⟩

/-- A literal that has been read to the end of the string cannot be read from a later place on. -/
theorem Consistent.matches_nil (h : Consistent star p [] last) :
    Matches star p [] last ↔ [] ∈ language star p := by
  refine ⟨?_, Or.inl⟩
  rintro (hs | ⟨back, hback, t, hsuffix, hne, ht⟩)
  · exact hs
  · obtain ⟨read, hread, rfl⟩ := h back hback
    obtain ⟨t', -, rfl⟩ := (mem_language_append hread).1 ht
    refine absurd (hsuffix.eq_of_length_le ?_) hne
    simp

theorem matches_letter {c : α} (hc : c ≠ star) :
    Matches star (c :: p) (c :: s) last ↔ Matches star p s last := by
  rw [Matches, Matches, cons_mem_language_letter hc]

theorem notMem_language_of_head {c : α} (hstar : p.head? ≠ some star) (hc : p.head? ≠ some c) :
    c :: s ∉ language star p := by
  cases p with
  | nil => simp [mem_language_nil]
  | cons d p =>
      rw [mem_language_letter (fun hd => hstar (congrArg some hd))]
      rintro ⟨t, -, heq⟩
      exact hc (congrArg some (List.cons.inj heq).1.symm)

theorem matches_back {c : α} {after later : List α} (hs : s ∉ language star p) :
    Matches star after later (some (after, later)) ↔ Matches star p s (some (after, c :: later)) := by
  rw [matches_some_self, mem_language_star, Matches, or_iff_right hs]
  constructor
  · rintro ⟨t, hsuffix, ht⟩
    refine ⟨_, rfl, t, hsuffix.trans (List.suffix_cons ..), ?_, ht⟩
    rintro rfl
    exact absurd hsuffix.length_le (by simp)
  · rintro ⟨_, ⟨⟩, t, hsuffix, hne, ht⟩
    exact ⟨t, (List.suffix_cons_iff.1 hsuffix).resolve_left hne, ht⟩

/-- The loop decides whether there is a match. -/
theorem scan_matches (h : Consistent star p s last) :
    (scan star p s last).any (fun rest => rest.all (fun c => decide (c = star))) = true ↔
      Matches star p s last := by
  fun_induction scan star p s last with
  | case1 pattern last =>
      rw [h.matches_nil, nil_mem_language_iff]
      simp
  | case2 pattern last c rest hstar ih =>
      obtain ⟨p, rfl⟩ := List.head?_eq_some_iff.1 hstar
      exact (ih consistent_some_self).trans h.forget
  | case3 pattern last c rest hstar hc ih =>
      obtain ⟨p, rfl⟩ := List.head?_eq_some_iff.1 hc
      have hne : c ≠ star := fun heq => hstar (congrArg some heq)
      exact (ih (h.read hne)).trans (matches_letter hne).symm
  | case4 pattern c rest hstar hc after d later ih =>
      exact (ih consistent_some_self).trans (matches_back (notMem_language_of_head hstar hc))
  | case5 pattern last c rest hstar hc hback =>
      refine iff_of_false (by simp) ?_
      rintro (hs | ⟨⟨after, str⟩, hlast, -⟩)
      · exact notMem_language_of_head hstar hc hs
      · -- a remembered string has at least the characters that are left
        obtain ⟨read, -, heq⟩ := h _ hlast
        obtain ⟨rfl, rfl⟩ := Prod.mk.inj heq
        cases read with
        | nil => exact hback _ _ _ hlast
        | cons d read => exact hback _ _ _ hlast

theorem scan_none_iff (pattern str : List α) :
    (scan star pattern str none).any (fun rest => rest.all (fun c => decide (c = star))) = true ↔
      str ∈ language star pattern := by
  have hconsistent : Consistent star pattern str none :=
    fun back hback => absurd hback (Option.not_mem_none back)
  rw [scan_matches hconsistent, Matches]
  simp

/-- `glob_match` decides the language of the pattern. -/
theorem globMatch_eq_true_iff (star : α) (pattern str : List α) :
    globMatch star pattern str = true ↔ str ∈ language star pattern :=
  scan_none_iff pattern str

example : globMatch '*' "*UP*".toList "BTCUPUSDT".toList = true := by
  simp [globMatch, scan]

end

/-! ## The filter -/

/-- A pattern may be given in either spelling. -/
def matchesTicker (ticker : Ticker) (pattern : String) : Bool :=
  globMatch '*' pattern.toList (toInternalTicker ticker).toList ||
    globMatch '*' pattern.toList (toMetascalpSymbol ticker).toList

variable (filters : UniverseFilters) (ticker : Ticker)

/-- `accepts`. -/
def accepts : Bool :=
  let key := toInternalTicker ticker
  if key ∈ filters.manualDeny.map toInternalTicker then false
  else if key ∈ filters.manualAllow.map toInternalTicker then true
  else if filters.denyPatterns.any (matchesTicker ticker) then false
  else if filters.allowPatterns.isEmpty then true
  else filters.allowPatterns.any (matchesTicker ticker)

/-- A pattern covers a ticker in its internal or in its wire spelling. -/
def Covers (pattern : String) : Prop :=
  (toInternalTicker ticker).toList ∈ language '*' pattern.toList ∨
    (toMetascalpSymbol ticker).toList ∈ language '*' pattern.toList

theorem matchesTicker_iff (pattern : String) :
    matchesTicker ticker pattern = true ↔ Covers ticker pattern := by
  rw [matchesTicker, Bool.or_eq_true, globMatch, globMatch, scan_none_iff, scan_none_iff, Covers]

/-- What the order of the five rules comes to. -/
theorem accepts_iff :
    filters.accepts ticker = true ↔
      toInternalTicker ticker ∉ filters.manualDeny.map toInternalTicker ∧
        (toInternalTicker ticker ∈ filters.manualAllow.map toInternalTicker ∨
          (∀ pattern ∈ filters.denyPatterns, ¬ Covers ticker pattern) ∧
            (filters.allowPatterns = [] ∨ ∃ pattern ∈ filters.allowPatterns, Covers ticker pattern)) := by
  have hany (patterns : List String) : patterns.any (matchesTicker ticker) = true ↔
      ∃ pattern ∈ patterns, Covers ticker pattern := by
    simp only [List.any_eq_true, matchesTicker_iff]
  rw [accepts]
  by_cases hdeny : toInternalTicker ticker ∈ filters.manualDeny.map toInternalTicker
  · rw [if_pos hdeny]
    exact iff_of_false Bool.false_ne_true (fun h => h.1 hdeny)
  · rw [if_neg hdeny, and_iff_right hdeny]
    by_cases hallow : toInternalTicker ticker ∈ filters.manualAllow.map toInternalTicker
    · rw [if_pos hallow]
      exact iff_of_true rfl (Or.inl hallow)
    · rw [if_neg hallow, or_iff_right hallow]
      by_cases hpattern : filters.denyPatterns.any (matchesTicker ticker) = true
      · obtain ⟨pattern, hmem, hcovers⟩ := (hany _).1 hpattern
        rw [if_pos hpattern]
        exact iff_of_false Bool.false_ne_true (fun h => h.1 pattern hmem hcovers)
      · have hnone : ∀ pattern ∈ filters.denyPatterns, ¬ Covers ticker pattern :=
          fun pattern hmem hcovers => hpattern ((hany _).2 ⟨pattern, hmem, hcovers⟩)
        rw [if_neg hpattern, and_iff_right hnone]
        by_cases hempty : filters.allowPatterns = []
        · simp [hempty]
        · rw [if_neg (mt List.isEmpty_iff.1 hempty), hany, or_iff_right hempty]

end UniverseFilters

end TradeBot
