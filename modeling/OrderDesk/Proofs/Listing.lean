import OrderDesk.Listing
import OrderDesk.Proofs.Capitals
import OrderDesk.Proofs.Table

/-!
# There and back through a listing

A listing is built by entering symbols one after another, and some of them displace others.  What
is left after every entry is that a symbol that is known can be reached by its ticker
(`Listing.Returns`), whatever the exchange lists: the one that loses its ticker is forgotten in the
same step.  The other way round it takes more.  A symbol that is listed under two tickers keeps
both, but is known by the later one only; where no symbol is, a ticker always leads to a symbol
that goes by it (`Listing.Leads`).

From the two it follows that wire symbols and instruments correspond one to one.
-/

namespace OrderDesk

/-! ## 1. Tickers -/

/-- No symbol is listed under two tickers. -/
def OneTicker (symbols : List ListedSymbol) : Prop :=
  ∀ s ∈ symbols, ∀ s' ∈ symbols, s.wire = s'.wire → s.ticker = s'.ticker

namespace ListedSymbol

/-- A ticker is written in capital letters. -/
theorem upper_ticker (s : ListedSymbol) : Text.upper s.ticker = s.ticker := by
  unfold ticker
  split <;> exact Text.upper_upper _

end ListedSymbol

namespace Listing

/-! ## 2. What entering a symbol does -/

/-- Whether a symbol is entered: it is if its ticker is free, and a perpetual contract always. -/
def admits (l : Listing) (s : ListedSymbol) : Bool :=
  (l.byTicker.get? s.ticker).isNone || s.isPerpetual

theorem enter_of_not_admits {l : Listing} {s : ListedSymbol} (h : l.admits s = false) :
    l.enter s = l := by
  simp only [admits, Bool.or_eq_false_iff] at h
  obtain ⟨hticker, hperpetual⟩ := h
  unfold enter
  split
  · rename_i hnone
    rw [hnone] at hticker
    cases hticker
  · rw [if_neg (by simp [hperpetual])]

/-- **After an entry the ticker belongs to the symbol**, and all others to whom they did. -/
theorem byTicker_enter {l : Listing} {s : ListedSymbol} (h : l.admits s = true) (t : String) :
    (l.enter s).byTicker.get? t = if t = s.ticker then some s.wire else l.byTicker.get? t := by
  unfold enter
  split
  · exact Table.get?_put ..
  · rename_i holder hholder
    have hperpetual : s.isPerpetual = true := by simpa [admits, hholder] using h
    rw [if_pos hperpetual]
    exact Table.get?_put ..

/-- **After an entry the symbol is known**, and the one that had its ticker is not. -/
theorem byWire_enter {l : Listing} {s : ListedSymbol} (h : l.admits s = true) (w : String) :
    (l.enter s).byWire.get? w =
      if w = s.wire then some s
      else if l.byTicker.get? s.ticker = some w then none else l.byWire.get? w := by
  unfold enter
  split
  · rename_i hfree
    rw [Table.get?_put, hfree, if_neg (Option.some_ne_none w).symm]
  · rename_i holder hholder
    have hperpetual : s.isPerpetual = true := by simpa [admits, hholder] using h
    rw [if_pos hperpetual, Table.get?_put, hholder]
    by_cases hw : w = s.wire
    · rw [if_pos hw, if_pos hw]
    · rw [if_neg hw, if_neg hw]
      by_cases hheld : holder = w
      · subst hheld
        rw [if_neg hw, Table.get?_erase_self, if_pos rfl]
      · rw [if_neg (fun he => hheld (Option.some.inj he))]
        split
        · rfl
        · exact Table.get?_erase_of_ne (Ne.symm hheld) _

/-! ## 3. What every listing keeps -/

/-- A symbol that is known can be reached by its ticker. -/
def Returns (l : Listing) : Prop :=
  ∀ w s, l.byWire.get? w = some s → l.byTicker.get? s.ticker = some w

/-- A ticker leads to a symbol that goes by it. -/
def Leads (l : Listing) : Prop :=
  ∀ t w, l.byTicker.get? t = some w → ∃ s, l.byWire.get? w = some s ∧ s.ticker = t

/-- What is known of a wire symbol was listed for it, and every key stands once. -/
structure Drawn (symbols : List ListedSymbol) (l : Listing) : Prop where
  listed : ∀ w s, l.byWire.get? w = some s → s ∈ symbols ∧ s.wire = w
  wires : l.byWire.keys.Nodup
  tickers : l.byTicker.keys.Nodup

variable {l : Listing} {s : ListedSymbol} {symbols : List ListedSymbol}

/-- **An entry leaves nobody behind without a ticker.**  The only one that loses it is forgotten. -/
theorem Returns.enter (h : l.Returns) (s : ListedSymbol) : (l.enter s).Returns := by
  cases hadmits : l.admits s with
  | false =>
    rw [enter_of_not_admits hadmits]
    exact h
  | true =>
    intro w s' hs'
    rw [byWire_enter hadmits] at hs'
    rw [byTicker_enter hadmits]
    split at hs'
    · rename_i hw
      obtain rfl := Option.some.inj hs'
      rw [if_pos rfl, hw]
    · split at hs'
      · cases hs'
      · rename_i hheld
        have hticker := h w s' hs'
        rw [if_neg, hticker]
        intro he
        rw [he] at hticker
        exact hheld hticker

theorem Drawn.enter (h : l.Drawn symbols) (hs : s ∈ symbols) : (l.enter s).Drawn symbols where
  listed := by
    cases hadmits : l.admits s with
    | false =>
      rw [enter_of_not_admits hadmits]
      exact h.listed
    | true =>
      intro w s' hs'
      rw [byWire_enter hadmits] at hs'
      split at hs'
      · rename_i hw
        obtain rfl := Option.some.inj hs'
        exact ⟨hs, hw.symm⟩
      · split at hs'
        · cases hs'
        · exact h.listed w s' hs'
  wires := by
    unfold Listing.enter
    split
    · exact Table.keys_nodup_put _ _ h.wires
    · split
      · split
        · exact Table.keys_nodup_put _ _ h.wires
        · exact Table.keys_nodup_put _ _ (Table.keys_nodup_erase _ h.wires)
      · exact h.wires
  tickers := by
    unfold Listing.enter
    split
    · exact Table.keys_nodup_put _ _ h.tickers
    · split
      · exact Table.keys_nodup_put _ _ h.tickers
      · exact h.tickers

/-- **An entry leaves no ticker behind without a symbol**, where nobody is listed under two.  The
symbol that is displaced has no other ticker, and the one that is entered had none. -/
theorem Leads.enter (h : l.Leads) (hdrawn : l.Drawn symbols) (hone : OneTicker symbols)
    (hs : s ∈ symbols) : (l.enter s).Leads := by
  cases hadmits : l.admits s with
  | false =>
    rw [enter_of_not_admits hadmits]
    exact h
  | true =>
    intro t w ht
    rw [byTicker_enter hadmits] at ht
    rw [byWire_enter hadmits]
    split at ht
    · rename_i hticker
      obtain rfl := Option.some.inj ht
      exact ⟨s, if_pos rfl, hticker.symm⟩
    · rename_i hticker
      obtain ⟨s', hs', rfl⟩ := h t w ht
      obtain ⟨hmem, hwire⟩ := hdrawn.listed w s' hs'
      refine ⟨s', ?_, rfl⟩
      rw [if_neg, if_neg, hs']
      · intro hheld
        obtain ⟨s'', hs'', hsame⟩ := h s.ticker w hheld
        rw [hs'] at hs''
        obtain rfl := Option.some.inj hs''
        exact hticker hsame
      · intro hw
        exact hticker (hone s' hmem s hs (hwire.trans hw))

theorem returns_empty (surface : Surface) : (empty surface).Returns := by
  intro w s h
  cases h

theorem leads_empty (surface : Surface) : (empty surface).Leads := by
  intro t w h
  cases h

theorem drawn_empty (surface : Surface) (symbols : List ListedSymbol) :
    (empty surface).Drawn symbols where
  listed := by
    intro w s h
    cases h
  wires := List.nodup_nil
  tickers := List.nodup_nil

/-- What is kept by every entry of these symbols holds of their listing. -/
theorem foldl_enter_keeps {P : Listing → Prop} (h : P l)
    (hstep : ∀ l, P l → ∀ s ∈ symbols, P (l.enter s)) : P (symbols.foldl Listing.enter l) := by
  induction symbols generalizing l with
  | nil => exact h
  | cons s rest ih =>
    exact ih (hstep l h s List.mem_cons_self) fun l hl s' hs' =>
      hstep l hl s' (List.mem_cons_of_mem s hs')

theorem returns_ofSymbols (surface : Surface) (symbols : List ListedSymbol) :
    (ofSymbols surface symbols).Returns :=
  foldl_enter_keeps (returns_empty surface) fun _ h s _ => h.enter s

theorem drawn_ofSymbols (surface : Surface) (symbols : List ListedSymbol) :
    (ofSymbols surface symbols).Drawn symbols :=
  foldl_enter_keeps (drawn_empty surface symbols) fun _ h _ hs => h.enter hs

/-- Entering symbols does not change the surface. -/
theorem surface_ofSymbols (surface : Surface) (symbols : List ListedSymbol) :
    (ofSymbols surface symbols).surface = surface := by
  refine foldl_enter_keeps (P := fun l => l.surface = surface) rfl fun l h s _ => ?_
  unfold Listing.enter
  split
  · exact h
  · split <;> exact h

theorem leads_ofSymbols (surface : Surface) (hone : OneTicker symbols) :
    (ofSymbols surface symbols).Leads :=
  (foldl_enter_keeps (P := fun l => l.Drawn symbols ∧ l.Leads)
    ⟨drawn_empty surface symbols, leads_empty surface⟩
    fun _ h _ hs => ⟨h.1.enter hs, h.2.enter h.1 hone hs⟩).2

/-! ## 4. Wire symbols and instruments -/

/-- An instrument goes by a wire symbol if it is of the surface and its ticker leads there. -/
theorem wireSymbol_eq_ok {i : Instrument} {w : String} :
    l.wireSymbol i = .ok w ↔ l.isOwn i = true ∧ l.byTicker.get? i.ticker = some w := by
  unfold wireSymbol
  split
  · rename_i hown
    split
    · rename_i w' hw'
      simp [hown, hw']
    · rename_i hnone
      simp [hnone]
  · rename_i hown
    simp [hown]

theorem isOwn_iff {i : Instrument} :
    l.isOwn i = true ↔ i.security = l.surface.security ∧ i.market = l.surface.market := by
  simp only [isOwn, Bool.and_eq_true, beq_iff_eq]

theorem instrument_of_known {w : String} (h : l.byWire.get? w = some s) :
    l.instrument w = .ok ⟨s.ticker, l.surface.security, l.surface.market⟩ := by
  simp only [instrument, instrumentIn, h, Instrument.named, s.upper_ticker]

/-- Only what is known has an instrument. -/
theorem known_of_instrument {w : String} {i : Instrument} (h : l.instrument w = .ok i) :
    ∃ s, l.byWire.get? w = some s ∧ i = ⟨s.ticker, l.surface.security, l.surface.market⟩ := by
  cases hs : l.byWire.get? w with
  | none => simp [instrument, instrumentIn, hs] at h
  | some s => exact ⟨s, rfl, (Except.ok.inj ((instrument_of_known hs).symm.trans h)).symm⟩

/-- **From a wire symbol to its instrument and back.** -/
theorem Returns.wireSymbol_of_instrument (h : l.Returns) {w : String} {i : Instrument}
    (hi : l.instrument w = .ok i) : l.wireSymbol i = .ok w := by
  obtain ⟨s, hs, rfl⟩ := known_of_instrument hi
  exact wireSymbol_eq_ok.mpr ⟨isOwn_iff.mpr ⟨rfl, rfl⟩, h w s hs⟩

/-- **From an instrument to its wire symbol and back.** -/
theorem Leads.instrument_of_wireSymbol (h : l.Leads) {w : String} {i : Instrument}
    (hi : l.wireSymbol i = .ok w) : l.instrument w = .ok i := by
  obtain ⟨hown, hticker⟩ := wireSymbol_eq_ok.mp hi
  obtain ⟨hsecurity, hmarket⟩ := isOwn_iff.mp hown
  obtain ⟨s, hs, hsame⟩ := h i.ticker w hticker
  rw [instrument_of_known hs, hsame, ← hsecurity, ← hmarket]

theorem knows_iff {i : Instrument} : l.knows i = true ↔ ∃ w, l.wireSymbol i = .ok w := by
  simp only [wireSymbol_eq_ok, knows, Bool.and_eq_true, Table.contains_iff, exists_and_left]

/-- The ticker of a symbol that is known. -/
def tickerOf (l : Listing) (w : String) : String := ((l.byWire.get? w).map (·.ticker)).getD ""

theorem tickerOf_known {w : String} (h : l.byWire.get? w = some s) : l.tickerOf w = s.ticker := by
  simp only [tickerOf, h, Option.map_some, Option.getD_some]

/-- The symbols that are known are no more than the tickers. -/
theorem Returns.size_le (h : l.Returns) (hwires : l.byWire.keys.Nodup) :
    l.byWire.size ≤ l.byTicker.size := by
  refine Table.size_le_of_leads hwires l.tickerOf ?_ ?_
  · intro w hw
    obtain ⟨s, hs⟩ := Table.mem_keys_iff.mp hw
    rw [tickerOf_known hs]
    exact Table.mem_keys_iff.mpr ⟨w, h w s hs⟩
  · intro w hw w' hw' he
    obtain ⟨s, hs⟩ := Table.mem_keys_iff.mp hw
    obtain ⟨s', hs'⟩ := Table.mem_keys_iff.mp hw'
    rw [tickerOf_known hs, tickerOf_known hs'] at he
    have hback := h w s hs
    rw [he, h w' s' hs'] at hback
    exact (Option.some.inj hback).symm

/-- The symbol that a ticker leads to. -/
def wireOf (l : Listing) (t : String) : String := (l.byTicker.get? t).getD ""

theorem wireOf_taken {t w : String} (h : l.byTicker.get? t = some w) : l.wireOf t = w := by
  simp only [wireOf, h, Option.getD_some]

/-- The tickers are no more than the symbols that are known. -/
theorem Leads.size_le (h : l.Leads) (htickers : l.byTicker.keys.Nodup) :
    l.byTicker.size ≤ l.byWire.size := by
  refine Table.size_le_of_leads htickers l.wireOf ?_ ?_
  · intro t ht
    obtain ⟨w, hw⟩ := Table.mem_keys_iff.mp ht
    obtain ⟨s, hs, -⟩ := h t w hw
    rw [wireOf_taken hw]
    exact Table.mem_keys_iff.mpr ⟨s, hs⟩
  · intro t ht t' ht' he
    obtain ⟨w, hw⟩ := Table.mem_keys_iff.mp ht
    obtain ⟨w', hw'⟩ := Table.mem_keys_iff.mp ht'
    obtain ⟨s, hs, hticker⟩ := h t w hw
    obtain ⟨s', hs', hticker'⟩ := h t' w' hw'
    rw [wireOf_taken hw, wireOf_taken hw'] at he
    rw [he, hs'] at hs
    rw [← hticker, ← hticker', Option.some.inj hs]

/-! ## 5. One to one -/

/-- **Wire symbols and instruments correspond.**  Whatever the exchange lists, a symbol that is
known is what its instrument leads to.  Where no symbol is listed under two tickers, an instrument
that has a wire symbol is also what that symbol leads to, these are the instruments that are known,
and there are as many of them as of symbols. -/
theorem symbols_correspond (surface : Surface) (symbols : List ListedSymbol) :
    (∀ w, (Listing.entry? (ofSymbols surface symbols) w).isSome = true →
      ∃ i, (ofSymbols surface symbols).instrument w = .ok i ∧
        (ofSymbols surface symbols).wireSymbol i = .ok w) ∧
    (OneTicker symbols →
      (∀ i w, (ofSymbols surface symbols).wireSymbol i = .ok w →
        (ofSymbols surface symbols).instrument w = .ok i) ∧
      (∀ i, (ofSymbols surface symbols).knows i = true ↔
        ∃ w, (ofSymbols surface symbols).wireSymbol i = .ok w) ∧
      (ofSymbols surface symbols).byWire.size = (ofSymbols surface symbols).byTicker.size) := by
  have hreturns := returns_ofSymbols surface symbols
  have hdrawn := drawn_ofSymbols surface symbols
  constructor
  · intro w hw
    obtain ⟨s, hs⟩ := Option.isSome_iff_exists.mp hw
    have hi := instrument_of_known hs
    exact ⟨_, hi, hreturns.wireSymbol_of_instrument hi⟩
  · intro hone
    have hleads := leads_ofSymbols surface hone
    exact ⟨fun _ _ => hleads.instrument_of_wireSymbol, fun _ => knows_iff,
      Nat.le_antisymm (hreturns.size_le hdrawn.wires) (hleads.size_le hdrawn.tickers)⟩

/-- A delivery contract that loses its ticker to a perpetual one, and another delivery contract. -/
def coinSymbols : List ListedSymbol :=
  [⟨"BTCUSD", "BTC", "USD", none, some "CURRENT_QUARTER", some "BTCUSD"⟩,
    ⟨"BTCUSD_PERP", "BTC", "USD", none, some "PERPETUAL", some "btcusd"⟩,
    ⟨"ETHUSD_240628", "ETH", "USD", none, some "CURRENT_QUARTER", some "ETHUSD"⟩]

theorem symbols_correspond_coin :
    OneTicker coinSymbols ∧ Listing.entry? (ofSymbols .coinFutures coinSymbols) "BTCUSD" = none ∧
      (Listing.entry? (ofSymbols .coinFutures coinSymbols) "BTCUSD_PERP").isSome = true ∧
      (∃ i, (ofSymbols .coinFutures coinSymbols).instrument "BTCUSD_PERP" = .ok i ∧
        (ofSymbols .coinFutures coinSymbols).wireSymbol i = .ok "BTCUSD_PERP" ∧
        (ofSymbols .coinFutures coinSymbols).knows i = true) ∧
      (ofSymbols .coinFutures coinSymbols).byWire.size =
        (ofSymbols .coinFutures coinSymbols).byTicker.size := by
  have hone : OneTicker coinSymbols := by
    unfold OneTicker
    decide +kernel
  have hknown :
      (Listing.entry? (ofSymbols .coinFutures coinSymbols) "BTCUSD_PERP").isSome = true := by
    decide +kernel
  obtain ⟨hback, hall⟩ := symbols_correspond .coinFutures coinSymbols
  obtain ⟨-, hknows, hsize⟩ := hall hone
  obtain ⟨i, hi, hwire⟩ := hback "BTCUSD_PERP" hknown
  exact ⟨hone, by decide +kernel, hknown, ⟨i, hi, hwire, (hknows i).mpr ⟨_, hwire⟩⟩, hsize⟩

end Listing
end OrderDesk
