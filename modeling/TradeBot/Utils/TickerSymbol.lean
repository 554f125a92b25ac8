import TradeBot.Domain.Types

set_option autoImplicit false

/-! # Ticker spellings

`utils/TickerSymbol.hpp`: the wire spelling of a symbol and the internal `BASE_QUOTE` spelling that
the reconciliator and the risk gate use as a key.

A spelling on the wire has no underscore, and the internal one puts it before the quote currency, of
which the source has a list. Two spellings belong together if they are the same on the wire, and then
they have one internal spelling (`toInternalTicker_eq_iff`), which is what a key has to be. -/

namespace TradeBot

/-- Drop the separators and upper-case the rest. -/
def toMetascalpSymbol (ticker : String) : String :=
  .ofList ((ticker.toList.filter (fun c => !(c == '_' || c == '-' || c == '/'))).map Char.toUpper)

/-- The quote suffixes in the order `to_internal_ticker` tries them. -/
def quoteSuffixes : List String := ["USDT", "USDC", "BTC", "ETH", "BNB", "BUSD"]

/-- Does `normalized` end in the quote `q`, with something before it? -/
def endsInQuote (normalized q : String) : Bool :=
  decide (q.toList.length < normalized.toList.length) && q.toList.isSuffixOf normalized.toList

/-- `to_internal_ticker`: split off the first known quote suffix with an underscore. -/
def toInternalTicker (raw : String) : Ticker :=
  let normalized := toMetascalpSymbol raw
  match quoteSuffixes.find? (endsInQuote normalized) with
  | some q =>
      .ofList (normalized.toList.take (normalized.toList.length - q.toList.length)) ++ "_" ++ q
  | none => normalized

example : toInternalTicker "btc-usdt" = "BTC_USDT" := by decide +kernel

/-! ## The internal spelling is stable -/

theorem isLower_iff {c : Char} : c.isLower = true ↔ 'a'.val ≤ c.val ∧ c.val ≤ 'z'.val := by
  delta Char.isLower
  simp

theorem toUpper_of_not_isLower {c : Char} (h : c.isLower = false) : c.toUpper = c := by
  have hrange : ¬ ('a'.val ≤ c.val ∧ c.val ≤ 'z'.val) := by
    rw [← isLower_iff, h]
    exact Bool.false_ne_true
  delta Char.toUpper
  rw [dif_neg hrange]

theorem isLower_toUpper (c : Char) : c.toUpper.isLower = false := by
  delta Char.isLower Char.toUpper
  split <;> grind [UInt32.toNat_add, Char.toNat_val]

/-- The characters that `to_metascalp_symbol` keeps. -/
def isKept (c : Char) : Bool := !(c == '_' || c == '-' || c == '/')

theorem isKept_toUpper {c : Char} (h : isKept c = true) : isKept c.toUpper = true := by
  by_cases hlower : c.isLower = true
  · rw [isLower_iff] at hlower
    delta Char.toUpper
    simp only [isKept, Bool.not_or, Bool.and_eq_true, Bool.not_eq_true',
      beq_eq_false_iff_ne, ne_eq, Char.ext_iff]
    split <;> grind [UInt32.toNat_add, Char.toNat_val]
  · rw [toUpper_of_not_isLower (by simpa using hlower)]
    exact h

/-- Only kept characters, in upper case. -/
def Normalized (cs : List Char) : Prop := ∀ c ∈ cs, isKept c = true ∧ c.isLower = false

theorem normalized_toMetascalpSymbol (ticker : String) :
    Normalized (toMetascalpSymbol ticker).toList := by
  intro c hc
  rw [toMetascalpSymbol, String.toList_ofList] at hc
  obtain ⟨c', hc', rfl⟩ := List.mem_map.1 hc
  exact ⟨isKept_toUpper (List.mem_filter.1 hc').2, isLower_toUpper c'⟩

theorem Normalized.filter_map {cs : List Char} (h : Normalized cs) :
    (cs.filter isKept).map Char.toUpper = cs := by
  have hkept : cs.filter isKept = cs := List.filter_eq_self.2 (fun c hc => (h c hc).1)
  rw [hkept]
  exact (List.map_congr_left (fun c hc => toUpper_of_not_isLower (h c hc).2)).trans (List.map_id cs)

theorem toMetascalpSymbol_ofList (cs : List Char) :
    toMetascalpSymbol (.ofList cs) = .ofList ((cs.filter isKept).map Char.toUpper) := by
  rw [toMetascalpSymbol, String.toList_ofList]
  rfl

theorem normalized_quote {q : String} (hq : q ∈ quoteSuffixes) : Normalized q.toList := by
  have hall : ∀ q ∈ quoteSuffixes, ∀ c ∈ q.toList, isKept c = true ∧ c.isLower = false := by
    simp [quoteSuffixes, isKept]
  exact hall q hq

/-- The underscore before the quote is dropped again. -/
theorem toMetascalpSymbol_toInternalTicker (raw : String) :
    toMetascalpSymbol (toInternalTicker raw) = toMetascalpSymbol raw := by
  have hnorm := normalized_toMetascalpSymbol raw
  unfold toInternalTicker
  dsimp only
  generalize toMetascalpSymbol raw = normalized at hnorm ⊢
  cases hfind : quoteSuffixes.find? (endsInQuote normalized) with
  | none =>
      show toMetascalpSymbol normalized = normalized
      rw [← String.ofList_toList (s := normalized), toMetascalpSymbol_ofList, hnorm.filter_map]
  | some q =>
      have hends := List.find?_some hfind
      have hquote := normalized_quote (List.mem_of_find?_eq_some hfind)
      rw [endsInQuote, Bool.and_eq_true, List.isSuffixOf_iff_suffix] at hends
      set base := normalized.toList.take (normalized.toList.length - q.toList.length) with hbase
      have hsplit : base ++ q.toList = normalized.toList := by
        rw [hbase]
        exact (List.suffix_iff_eq_append.1 hends.2)
      have hbaseNorm : Normalized base := fun c hc => hnorm c (List.mem_of_mem_take hc)
      have hjoined : String.ofList base ++ "_" ++ q = .ofList (base ++ '_' :: q.toList) := by
        apply String.toList_injective
        simp
      show toMetascalpSymbol (String.ofList base ++ "_" ++ q) = normalized
      rw [hjoined, toMetascalpSymbol_ofList, List.filter_append, List.filter_cons_of_neg (by decide),
        List.map_append, hbaseNorm.filter_map, hquote.filter_map, hsplit, String.ofList_toList]

/-- The internal spelling depends on the wire spelling only. -/
theorem toInternalTicker_congr {raw raw' : String}
    (h : toMetascalpSymbol raw = toMetascalpSymbol raw') :
    toInternalTicker raw = toInternalTicker raw' := by
  unfold toInternalTicker
  rw [h]

/-- Normalizing a normalized ticker changes nothing. -/
theorem toInternalTicker_idem (raw : String) :
    toInternalTicker (toInternalTicker raw) = toInternalTicker raw :=
  toInternalTicker_congr (toMetascalpSymbol_toInternalTicker raw)

/-- Two spellings are the same ticker internally if and only if they are the same symbol on the wire. -/
theorem toInternalTicker_eq_iff {raw raw' : String} :
    toInternalTicker raw = toInternalTicker raw' ↔
      toMetascalpSymbol raw = toMetascalpSymbol raw' := by
  constructor
  · intro h
    rw [← toMetascalpSymbol_toInternalTicker raw, h, toMetascalpSymbol_toInternalTicker]
  · exact toInternalTicker_congr

/-- Both spellings are keys of one equivalence. -/
theorem spellings_equivalent (a b : String) :
    toInternalTicker (toInternalTicker a) = toInternalTicker a ∧
      toMetascalpSymbol (toInternalTicker a) = toMetascalpSymbol a ∧
      (toInternalTicker a = toInternalTicker b ↔ toMetascalpSymbol a = toMetascalpSymbol b) :=
  ⟨toInternalTicker_idem a, toMetascalpSymbol_toInternalTicker a, toInternalTicker_eq_iff⟩

end TradeBot
