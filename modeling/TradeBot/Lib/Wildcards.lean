import Mathlib.Computability.Language

set_option autoImplicit false

/-! # Patterns with a wildcard

A pattern is a string in which one character, the wildcard, stands for any string, and every other
character for itself. What follows a wildcard may be looked for from any place on; what stands before the
first one is at the beginning of every match.

The language of a pattern is a product of the languages of its characters, so that matching is
membership in a product. A matcher may backtrack to the last wildcard only, because a wildcard takes
any prefix (`mem_language_star`). -/

namespace Wildcards

variable {α : Type*} [DecidableEq α] {star c : α} {p q s t : List α}

/-- The strings a character of a pattern stands for. -/
def letter (star c : α) : Language α := if c = star then ⊤ else {[c]}

/-- The strings that match a pattern. -/
def language (star : α) (p : List α) : Language α := (p.map (letter star)).prod

/-- The pattern has no wildcard. -/
def Literal (star : α) (p : List α) : Prop := star ∉ p

theorem mem_language_nil : s ∈ language star [] ↔ s = [] := Iff.rfl

theorem mem_language_star : s ∈ language star (star :: p) ↔ ∃ t, t <:+ s ∧ t ∈ language star p := by
  rw [language, List.map_cons, List.prod_cons, letter, if_pos rfl, Language.mem_mul]
  constructor
  · rintro ⟨skipped, -, t, ht, rfl⟩
    exact ⟨t, List.suffix_append _ _, ht⟩
  · rintro ⟨t, ⟨skipped, rfl⟩, ht⟩
    exact ⟨skipped, trivial, t, ht, rfl⟩

theorem mem_language_letter (hc : c ≠ star) :
    s ∈ language star (c :: p) ↔ ∃ t ∈ language star p, s = c :: t := by
  rw [language, List.map_cons, List.prod_cons, letter, if_neg hc, Language.mem_mul]
  constructor
  · rintro ⟨x, hx, t, ht, rfl⟩
    obtain rfl : x = [c] := hx
    exact ⟨t, ht, rfl⟩
  · rintro ⟨t, ht, rfl⟩
    exact ⟨[c], rfl, t, ht, rfl⟩

theorem cons_mem_language_letter (hc : c ≠ star) :
    c :: s ∈ language star (c :: p) ↔ s ∈ language star p := by
  rw [mem_language_letter hc]
  simp

/-- A match of a pattern that begins with a literal begins with the literal. -/
theorem mem_language_append (hq : Literal star q) :
    s ∈ language star (q ++ p) ↔ ∃ t ∈ language star p, s = q ++ t := by
  induction q generalizing s with
  | nil => simp
  | cons c q ih =>
      have hne := List.ne_of_not_mem_cons hq
      rw [List.cons_append, mem_language_letter hne.symm]
      simp only [ih (List.not_mem_of_not_mem_cons hq)]
      constructor
      · rintro ⟨_, ⟨t, ht, rfl⟩, rfl⟩
        exact ⟨t, ht, rfl⟩
      · rintro ⟨t, ht, rfl⟩
        exact ⟨_, ⟨t, ht, rfl⟩, rfl⟩

/-- Only a pattern of wildcards matches the empty string. -/
theorem nil_mem_language_iff : [] ∈ language star p ↔ ∀ c ∈ p, c = star := by
  induction p with
  | nil => simp [mem_language_nil]
  | cons c p ih =>
      by_cases hc : c = star
      · subst hc
        rw [mem_language_star]
        simp [ih]
      · rw [mem_language_letter hc]
        simp [hc]

end Wildcards
