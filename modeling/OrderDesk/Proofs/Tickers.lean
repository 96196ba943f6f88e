import OrderDesk.Proofs.Listing

/-!
# Who has a ticker

Several symbols may lay claim to one ticker, such as the contracts on a pair that end at different
dates, and the one that never ends.  A listing enters the symbols one after another and decides by
what is there already: a perpetual contract takes the ticker from whoever has it, and any other
symbol gives way to whoever has it.

What all entries come to can be said without them (`holder?`): a ticker belongs to the last
perpetual contract among its claimants, and to the first claimant if there is none.  The induction
is on the listing from its end, and it is all about tickers (`byTicker_ofSymbols`).  Which symbols
are known follows from that and from what every listing keeps, as long as no symbol is listed twice
(`byWire_eq_some_iff`).

The rule mixes the last with the first, so the order of the exchange matters in general.  It does
not where every ticker has one claimant that counts (`Uncontested`): there the holder can be told
without looking at the order (`holder?_eq_some_iff`), and the listing is the same in every order.
-/

namespace OrderDesk.Listing

variable {surface : Surface} {symbols symbols' : List ListedSymbol} {s : ListedSymbol} {t : String}

/-! ## 1. Claims -/

/-- The symbols that lay claim to a ticker, in the order of the exchange. -/
def claimants (symbols : List ListedSymbol) (t : String) : List ListedSymbol :=
  symbols.filter fun s => s.ticker = t

/-- The symbol that a ticker belongs to: the last perpetual contract among its claimants, or else
the first claimant. -/
def holder? (symbols : List ListedSymbol) (t : String) : Option ListedSymbol :=
  ((claimants symbols t).filter (·.isPerpetual)).getLast?.or (claimants symbols t).head?

theorem mem_claimants : s ∈ claimants symbols t ↔ s ∈ symbols ∧ s.ticker = t := by
  simp [claimants]

/-- A ticker has no holder just if nobody lays claim to it. -/
theorem holder?_eq_none_iff : holder? symbols t = none ↔ ∀ s ∈ symbols, s.ticker ≠ t := by
  have hempty : holder? symbols t = none ↔ claimants symbols t = [] := by
    unfold holder?
    constructor
    · intro h
      exact List.head?_eq_none_iff.mp (Option.or_eq_none_iff.mp h).2
    · intro h
      rw [h]
      rfl
  rw [hempty, claimants, List.filter_eq_nil_iff]
  simp only [decide_eq_true_eq, ne_eq]

/-- A holder lays claim to its ticker, and where a perpetual contract does the holder is one. -/
theorem holder?_spec (h : holder? symbols t = some s) :
    s ∈ symbols ∧ s.ticker = t ∧
      (s.isPerpetual = true ∨ ∀ p ∈ symbols, p.ticker = t → p.isPerpetual = false) := by
  unfold holder? at h
  cases hlast : ((claimants symbols t).filter (·.isPerpetual)).getLast? with
  | some p =>
    rw [hlast, Option.some_or] at h
    obtain rfl := Option.some.inj h
    obtain ⟨hclaims, hperpetual⟩ := List.mem_filter.mp (List.mem_of_getLast? hlast)
    obtain ⟨hlisted, hticker⟩ := mem_claimants.mp hclaims
    exact ⟨hlisted, hticker, Or.inl hperpetual⟩
  | none =>
    rw [hlast, Option.none_or] at h
    obtain ⟨hlisted, hticker⟩ := mem_claimants.mp (List.mem_of_head? h)
    refine ⟨hlisted, hticker, Or.inr fun p hp hclaims => ?_⟩
    have hnone := List.filter_eq_nil_iff.mp (List.getLast?_eq_none_iff.mp hlast) p
    exact Bool.eq_false_iff.mpr (hnone (mem_claimants.mpr ⟨hp, hclaims⟩))

/-- Who lays no claim to a ticker does not change its holder. -/
theorem holder?_snoc_of_ne (h : s.ticker ≠ t) :
    holder? (symbols ++ [s]) t = holder? symbols t := by
  simp [holder?, claimants, h]

/-- **One more claimant** is the holder if there was none or if it is a perpetual contract. -/
theorem holder?_snoc_self (symbols : List ListedSymbol) (s : ListedSymbol) :
    holder? (symbols ++ [s]) s.ticker =
      if (holder? symbols s.ticker).isNone || s.isPerpetual then some s
      else holder? symbols s.ticker := by
  have hclaimants : claimants (symbols ++ [s]) s.ticker = claimants symbols s.ticker ++ [s] := by
    simp [claimants]
  unfold holder?
  rw [hclaimants, List.filter_append]
  cases hperpetual : s.isPerpetual with
  | true => simp [hperpetual]
  | false =>
    cases hbefore : claimants symbols s.ticker with
    | nil => simp [hperpetual]
    | cons first rest => simp [hperpetual]

/-! ## 2. What all entries come to -/

theorem ofSymbols_snoc (surface : Surface) (symbols : List ListedSymbol) (s : ListedSymbol) :
    ofSymbols surface (symbols ++ [s]) = (ofSymbols surface symbols).enter s :=
  List.foldl_concat ..

/-- **A ticker leads to its holder**, whatever the exchange lists.  The induction is on the listing
from its end, since an entry looks at those before it. -/
theorem byTicker_ofSymbols (surface : Surface) (symbols : List ListedSymbol) (t : String) :
    (ofSymbols surface symbols).byTicker.get? t = (holder? symbols t).map (·.wire) := by
  induction symbols using List.reverseRecOn generalizing t with
  | nil => rfl
  | append_singleton symbols s ih =>
    have hadmits : (ofSymbols surface symbols).admits s =
        ((holder? symbols s.ticker).isNone || s.isPerpetual) := by
      rw [admits, ih, Option.isNone_map]
    rw [ofSymbols_snoc]
    cases hcase : (ofSymbols surface symbols).admits s with
    | true =>
      rw [byTicker_enter hcase]
      rw [hadmits] at hcase
      split
      · rename_i hticker
        rw [hticker, holder?_snoc_self, if_pos hcase]
        rfl
      · rename_i hticker
        rw [holder?_snoc_of_ne (Ne.symm hticker), ih]
    | false =>
      rw [enter_of_not_admits hcase, ih]
      rw [hadmits] at hcase
      by_cases hticker : s.ticker = t
      · rw [← hticker, holder?_snoc_self, if_neg (by simp [hcase])]
      · rw [holder?_snoc_of_ne hticker]

/-- Where no symbol is listed twice, a symbol is told by its name. -/
theorem eq_of_wire_eq (hwires : (symbols.map (·.wire)).Nodup) {s' : ListedSymbol} (hs : s ∈ symbols)
    (hs' : s' ∈ symbols) (h : s.wire = s'.wire) : s = s' :=
  List.inj_on_of_nodup_map hwires hs hs' h

/-- **The symbols that are known are the holders of tickers**, where none is listed twice. -/
theorem byWire_eq_some_iff (surface : Surface) (hwires : (symbols.map (·.wire)).Nodup)
    {w : String} : (ofSymbols surface symbols).byWire.get? w = some s ↔
      s.wire = w ∧ holder? symbols s.ticker = some s := by
  constructor
  · intro hknown
    obtain ⟨hlisted, hwire⟩ := (drawn_ofSymbols surface symbols).listed w s hknown
    have hticker := returns_ofSymbols surface symbols w s hknown
    rw [byTicker_ofSymbols] at hticker
    obtain ⟨holder, hholder, hsame⟩ := Option.map_eq_some_iff.mp hticker
    obtain ⟨hclaims, -, -⟩ := holder?_spec hholder
    obtain rfl := eq_of_wire_eq hwires hclaims hlisted (hsame.trans hwire.symm)
    exact ⟨hwire, hholder⟩
  · rintro ⟨rfl, hholder⟩
    have hone : OneTicker symbols := fun s hs s' hs' h =>
      congrArg ListedSymbol.ticker (eq_of_wire_eq hwires hs hs' h)
    have hticker : (ofSymbols surface symbols).byTicker.get? s.ticker = some s.wire := by
      rw [byTicker_ofSymbols, hholder]
      rfl
    obtain ⟨s', hknown, -⟩ := leads_ofSymbols surface hone s.ticker s.wire hticker
    obtain ⟨hlisted, hwire⟩ := (drawn_ofSymbols surface symbols).listed s.wire s' hknown
    obtain rfl := eq_of_wire_eq hwires hlisted (holder?_spec hholder).1 hwire
    exact hknown

/-! ## 3. The order of the exchange -/

/-- Every ticker has one claimant that counts.

* `perpetuals`: no two perpetual contracts lay claim to a ticker;
* `others`: no two symbols lay claim to a ticker without a perpetual contract. -/
structure Uncontested (symbols : List ListedSymbol) : Prop where
  perpetuals : ∀ s ∈ symbols, ∀ s' ∈ symbols, s.isPerpetual = true → s'.isPerpetual = true →
    s.ticker = s'.ticker → s = s'
  others : ∀ s ∈ symbols, ∀ s' ∈ symbols, s.ticker = s'.ticker →
    (∀ p ∈ symbols, p.ticker = s.ticker → p.isPerpetual = false) → s = s'

/-- **Without a contest the holder is told by who is there**, in whichever order. -/
theorem Uncontested.holder?_eq_some_iff (h : Uncontested symbols) :
    holder? symbols t = some s ↔ s ∈ symbols ∧ s.ticker = t ∧
      (s.isPerpetual = true ∨ ∀ p ∈ symbols, p.ticker = t → p.isPerpetual = false) := by
  refine ⟨holder?_spec, ?_⟩
  rintro ⟨hlisted, rfl, hcounts⟩
  cases hholder : holder? symbols s.ticker with
  | none => exact absurd rfl (holder?_eq_none_iff.mp hholder s hlisted)
  | some holder =>
    obtain ⟨hlisted', hticker, hcounts'⟩ := holder?_spec hholder
    congr 1
    rcases hcounts with hperpetual | hnone
    · have hperpetual' : holder.isPerpetual = true := hcounts'.resolve_right fun hnone =>
        absurd (hnone s hlisted rfl) (by simp [hperpetual])
      exact h.perpetuals holder hlisted' s hlisted hperpetual' hperpetual hticker
    · exact (h.others s hlisted holder hlisted' hticker.symm hnone).symm

theorem Uncontested.perm (h : Uncontested symbols) (hperm : symbols'.Perm symbols) :
    Uncontested symbols' where
  perpetuals s hs s' hs' := h.perpetuals s (hperm.subset hs) s' (hperm.subset hs')
  others s hs s' hs' hticker hnone :=
    h.others s (hperm.subset hs) s' (hperm.subset hs') hticker
      fun p hp => hnone p (hperm.symm.subset hp)

theorem Uncontested.holder?_perm (h : Uncontested symbols) (hperm : symbols'.Perm symbols)
    (t : String) : holder? symbols' t = holder? symbols t := by
  refine Option.ext fun s => ?_
  rw [(h.perm hperm).holder?_eq_some_iff, h.holder?_eq_some_iff]
  simp only [hperm.mem_iff]

/-- Two listings give the same answers to all questions. -/
structure Agree (l l' : Listing) : Prop where
  wireSymbol : ∀ i, l.wireSymbol i = l'.wireSymbol i
  knows : ∀ i, l.knows i = l'.knows i
  instrument : ∀ w, l.instrument w = l'.instrument w
  instrumentIn : ∀ w security market,
    l.instrumentIn w security market = l'.instrumentIn w security market
  entry? : ∀ w, Listing.entry? l w = Listing.entry? l' w
  size : l.size = l'.size

/-- Tables with every key once that answer alike are of one size. -/
theorem size_eq_of_get?_eq {α β : Type} [DecidableEq α] {u u' : Table α β} (hu : u.keys.Nodup)
    (hu' : u'.keys.Nodup) (h : ∀ k, u.get? k = u'.get? k) : u.size = u'.size := by
  have hkeys : ∀ k, k ∈ u.keys ↔ k ∈ u'.keys := fun k => by
    rw [Table.mem_keys_iff, Table.mem_keys_iff, h]
  exact Nat.le_antisymm
    (Table.size_le_of_leads hu id (fun k hk => (hkeys k).mp hk) fun _ _ _ _ => id)
    (Table.size_le_of_leads hu' id (fun k hk => (hkeys k).mpr hk) fun _ _ _ _ => id)

/-- Listings with the same holders agree, where no symbol is listed twice. -/
theorem agree_of_holder?_eq (surface : Surface) (hwires : (symbols.map (·.wire)).Nodup)
    (hwires' : (symbols'.map (·.wire)).Nodup) (h : ∀ t, holder? symbols' t = holder? symbols t) :
    Agree (ofSymbols surface symbols') (ofSymbols surface symbols) := by
  have hsurface : (ofSymbols surface symbols').surface = (ofSymbols surface symbols).surface :=
    (surface_ofSymbols ..).trans (surface_ofSymbols ..).symm
  have hticker : ∀ t, (ofSymbols surface symbols').byTicker.get? t =
      (ofSymbols surface symbols).byTicker.get? t := fun t => by
    rw [byTicker_ofSymbols, byTicker_ofSymbols, h]
  have hwire : ∀ w, (ofSymbols surface symbols').byWire.get? w =
      (ofSymbols surface symbols).byWire.get? w := fun w => Option.ext fun s => by
    rw [byWire_eq_some_iff surface hwires', byWire_eq_some_iff surface hwires, h]
  exact {
    wireSymbol := fun i => by rw [wireSymbol, wireSymbol, isOwn, isOwn, hsurface, hticker]
    knows := fun i => by simp only [knows, isOwn, hsurface, Table.contains_eq_isSome, hticker]
    instrument := fun w => by simp only [instrument, instrumentIn, hsurface, hwire]
    instrumentIn := fun w _ _ => by simp only [instrumentIn, hwire]
    entry? := hwire
    size := size_eq_of_get?_eq (drawn_ofSymbols surface symbols').wires
      (drawn_ofSymbols surface symbols).wires hwire }

/-! ## 4. Which symbol wins -/

/-- **A ticker goes to the last perpetual contract that lays claim to it, or else to the first
claimant**, on every surface and whatever the exchange lists as long as it lists no symbol twice.
It is unknown just if there is no claimant, the claimants that lose it are unknown, and where there
is no contest the listing is the same in every order. -/
theorem ticker_goes_to_holder (surface : Surface) (symbols : List ListedSymbol)
    (hwires : (symbols.map (·.wire)).Nodup) :
    (∀ t, (ofSymbols surface symbols).wireSymbol ⟨t, surface.security, surface.market⟩ =
      match holder? symbols t with
      | some s => .ok s.wire
      | none => .error (.unknownTicker t)) ∧
    (∀ t, holder? symbols t = none ↔ ∀ s ∈ symbols, s.ticker ≠ t) ∧
    (∀ s ∈ symbols, (ofSymbols surface symbols).instrument s.wire =
      if holder? symbols s.ticker = some s then .ok ⟨s.ticker, surface.security, surface.market⟩
      else .error (.unknownTicker s.wire)) ∧
    (Uncontested symbols → ∀ symbols' : List ListedSymbol, symbols'.Perm symbols →
      Agree (ofSymbols surface symbols') (ofSymbols surface symbols)) := by
  have hsurface := surface_ofSymbols surface symbols
  refine ⟨fun t => ?_, fun _ => holder?_eq_none_iff, fun s hs => ?_, fun h symbols' hperm => ?_⟩
  · have hown : (ofSymbols surface symbols).isOwn ⟨t, surface.security, surface.market⟩ = true :=
      isOwn_iff.mpr (by simp only [hsurface, and_self])
    rw [wireSymbol, if_pos hown, byTicker_ofSymbols]
    cases holder? symbols t <;> rfl
  · split
    · rename_i hholder
      have hknown := (byWire_eq_some_iff surface hwires).mpr ⟨rfl, hholder⟩
      rw [instrument_of_known hknown, hsurface]
    · rename_i hlost
      cases hknown : (ofSymbols surface symbols).byWire.get? s.wire with
      | none => simp only [instrument, instrumentIn, hknown]
      | some s' =>
        obtain ⟨hwire, hholder⟩ := (byWire_eq_some_iff surface hwires).mp hknown
        obtain rfl := eq_of_wire_eq hwires (holder?_spec hholder).1 hs hwire
        exact absurd hholder hlost
  · have hwires' : (symbols'.map (·.wire)).Nodup := (hperm.map _).nodup_iff.mpr hwires
    exact agree_of_holder?_eq surface hwires hwires' (h.holder?_perm hperm)

/-- A pair with two delivery contracts around a perpetual one, which has the ticker in any order. -/
def pairSymbols : List ListedSymbol :=
  [⟨"BTCUSD", "BTC", "USD", none, some "CURRENT_QUARTER", some "BTCUSD"⟩,
    ⟨"BTCUSD_PERP", "BTC", "USD", none, some "PERPETUAL", some "btcusd"⟩,
    ⟨"btcusd", "BTC", "USD", none, some "NEXT_QUARTER", some "BTCUSD"⟩]

theorem ticker_goes_to_holder_pair :
    (pairSymbols.map (·.wire)).Nodup ∧ Uncontested pairSymbols ∧
      (ofSymbols .coinFutures pairSymbols).wireSymbol (.cryptoFuture "BTCUSD") =
        .ok "BTCUSD_PERP" ∧
      (ofSymbols .coinFutures pairSymbols).instrument "btcusd" =
        .error (.unknownTicker "btcusd") ∧
      Agree (ofSymbols .coinFutures pairSymbols.reverse) (ofSymbols .coinFutures pairSymbols) := by
  have hwires : (pairSymbols.map (·.wire)).Nodup := by decide
  have hperpetual : holder? pairSymbols "BTCUSD" = pairSymbols[1]? := by decide +kernel
  have huncontested : Uncontested pairSymbols :=
    ⟨by decide +kernel, by decide +kernel⟩
  obtain ⟨hwire, -, hknown, hagree⟩ := ticker_goes_to_holder .coinFutures pairSymbols hwires
  refine ⟨hwires, huncontested, ?_, ?_, hagree huncontested _ (List.reverse_perm _)⟩
  · have hticker := hwire "BTCUSD"
    rw [hperpetual] at hticker
    exact hticker
  · have hlast := hknown ⟨"btcusd", "BTC", "USD", none, some "NEXT_QUARTER", some "BTCUSD"⟩
      (by decide)
    rw [if_neg (by decide +kernel)] at hlast
    exact hlast

end OrderDesk.Listing
