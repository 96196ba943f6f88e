import OrderDesk.Proofs.Feed.Replay
import OrderDesk.Proofs.Feed.Ticks

/-!
# Whose ticks the host gets

The pool has every symbol on one connection, but a connection that takes in a trade asks only
whether the host wants it, not whether the symbol is still its own.  As long as a connection is
done with what the pool told it about a symbol, the two come to the same: what it still asks the
exchange for is what is placed on it (`Settled.placement_of_carries`).

A connection that lags behind is another matter.  A symbol that was let go of and asked for again
may have gone to another connection meanwhile, and then it is wanted again before the first one
has got round to letting go.  Both hand the same trade to the host.
-/

namespace OrderDesk.Feed

/-! ## 1. What is taken for a tick -/

namespace Record

/-- The tick that the connection at `index` would take a frame for. -/
def forwarded? (r : Record) (w : Surroundings) (index : Nat) (f : Frame) : Option Tick :=
  match r.state.connections[index]? with
  | none => none
  | some k =>
    match k.phase, (k.react (r.state.viewFor w.listing w.lifetime) (.arrival (.frame f) true)).1.phase
    with
    | .live _, .delivering _ t => some t
    | _, _ => none

/-- The connection at `index` asks the exchange for a stream of a symbol. -/
def Carries (r : Record) (l : Listing) (index : Nat) (symbol : String) : Prop :=
  ∃ k, r.state.connections[index]? = some k ∧ ∃ n ∈ symbolStreams l.surface symbol, n ∈ k.streams

/-- The connection at `index` was told to let go of a symbol and has not taken this in yet. -/
def Lags (r : Record) (l : Listing) (index : Nat) (symbol : String) : Prop :=
  ∃ k, r.state.connections[index]? = some k ∧
    ⟨.unsubscribe, symbolStreams l.surface symbol⟩ ∈ k.queue

end Record

theorem forwarded?_eq_some {r : Record} {w : Surroundings} {index : Nat} {f : Frame} {t : Tick}
    (h : r.forwarded? w index f = some t) :
    ∃ k horizon horizon', r.state.connections[index]? = some k ∧ k.phase = .live horizon ∧
      (k.react (r.state.viewFor w.listing w.lifetime) (.arrival (.frame f) true)).1.phase =
        .delivering horizon' t := by
  unfold Record.forwarded? at h
  split at h
  · cases h
  · rename_i k hk
    split at h
    · rename_i horizon horizon' t' hlive hafter
      obtain rfl := Option.some.inj h
      exact ⟨k, horizon, horizon', hk, hlive, hafter⟩
    · cases h

/-- A tick that waits is one that the host wanted. -/
theorem isWanted_of_receive {k : Connection} {v : ConnectionView} {horizon horizon' : Nat}
    (hstill : ∀ h t, k.phase ≠ .delivering h t) {f : Frame} {t : Tick}
    (h : (k.receive v horizon f).1.phase = .delivering horizon' t) :
    Connection.isWanted v t = true := by
  unfold Connection.receive at h
  split at h
  · exact absurd h (hstill _ _)
  · rename_i m _
    by_cases hm : ∃ text, m = .serverError text
    · obtain ⟨text, rfl⟩ := hm
      exact absurd h (hstill _ _)
    · rw [k.deliver_eq v horizon fun text he => hm ⟨text, he⟩] at h
      cases htick : (Connection.tickOf v m).filter (Connection.isWanted v) with
      | none =>
        rw [htick] at h
        exact absurd h (hstill _ _)
      | some t' =>
        rw [htick] at h
        cases h
        exact (Option.filter_eq_some_iff.mp htick).2
  · exact absurd h (hstill _ _)
  · cases h

theorem isWanted_of_react {k : Connection} {v : ConnectionView} {horizon horizon' : Nat}
    (hlive : k.phase = .live horizon) {f : Frame} {t : Tick}
    (h : (k.react v (.arrival (.frame f) true)).1.phase = .delivering horizon' t) :
    Connection.isWanted v t = true := by
  have hstill : ∀ h t, k.phase ≠ .delivering h t := by
    intro h t
    rw [hlive]
    exact ConnectionPhase.noConfusion
  simp only [Connection.react, hlive] at h
  cases f with
  | ping bytes => exact absurd h (hstill _ _)
  | pong bytes => exact absurd h (hstill _ _)
  | close => cases h
  | text s => exact isWanted_of_receive hstill h
  | binary bytes => exact isWanted_of_receive hstill h

/-! ## 2. What a connection still asks for -/

/-- A symbol that is placed stays there unless it is let go of. -/
theorem mem_foldl_placeOne {os : List (String × PoolOrder)} {x : String}
    (hkeep : ∀ o ∈ os, o.1 = x → o.2.verb ≠ .unsubscribe) {symbols : List String}
    (hx : x ∈ symbols) : x ∈ os.foldl placeOne symbols := by
  induction os generalizing symbols with
  | nil => exact hx
  | cons o os ih =>
    refine ih (fun o' ho' => hkeep o' (List.mem_cons_of_mem o ho')) ?_
    unfold placeOne
    split
    · exact List.mem_append_left _ hx
    · rename_i hverb
      have hne : x ≠ o.1 := fun he => hkeep o List.mem_cons_self he.symm hverb
      exact List.mem_filter.mpr ⟨hx, by simpa using hne⟩

namespace Record

variable {l : Listing} {limits : PoolLimits} {r : Record}

/-- **A symbol that a live connection asks for stands on its carrier**, once nothing is left to
take that lets go of it. -/
theorem Settled.placement_of_carries
    (hcase : ∀ i j x y, l.wireSymbol i = .ok x → l.wireSymbol j = .ok y →
      Text.lower x = Text.lower y → x = y)
    (hs : r.Settled l limits) (ho : r.Orderly l limits) {index : Nat} {k : Connection}
    (hk : r.state.connections[index]? = some k) (hpending : k.phase.pending = [])
    {i : Instrument} {x : String} (hx : l.wireSymbol i = .ok x) (hcarries : r.Carries l index x)
    (hdone : ¬ r.Lags l index x) : r.state.pool.placement.get? x = some index := by
  obtain ⟨hlt, -⟩ := List.getElem?_eq_some_iff.mp hk
  rw [ho.connections, ← ho.diaries] at hlt
  have hd := List.getElem?_eq_getElem hlt
  have hstreams := hs.streams hcase ho hk hd
  have htold := ho.told index k _ hk hd
  rw [hpending, List.length_nil, Nat.sub_zero] at hstreams
  obtain ⟨k', hk', n, hn, hmem⟩ := hcarries
  obtain rfl := Option.some.inj (hk.symm.trans hk')
  -- the stream belongs to a symbol that was placed, and no two symbols share one
  have hplaced : x ∈ placedAfter ((r.ordersFor index).take r.diaries[index].taken.length) := by
    rw [hstreams] at hmem
    obtain ⟨y, hy, hny⟩ := List.mem_flatMap.mp hmem
    obtain ⟨o, hmemo, rfl⟩ := mem_of_mem_placedAfter hy
    obtain ⟨j, hj⟩ := hs.listed o (List.mem_of_mem_filter (List.mem_of_mem_take hmemo))
    by_cases hlower : Text.lower x = Text.lower o.1
    · rw [hcase i j x o.1 hx hj hlower]
      exact hy
    · exact absurd hny (symbolStreams_disjoint l.surface hlower hn)
  -- what the connection has still to take lets go of other symbols only
  have hrest : ∀ o ∈ (r.ordersFor index).drop r.diaries[index].taken.length,
      o.1 = x → o.2.verb ≠ .unsubscribe := by
    intro o hmemo he hverb
    refine hdone ⟨k, hk, ?_⟩
    have hqueue : k.queue = ((r.ordersFor index).drop r.diaries[index].taken.length).map
        (commandOf l.surface) := by
      rw [List.map_drop, ← htold, List.drop_left]
    rw [hqueue]
    refine List.mem_map.mpr ⟨o, hmemo, ?_⟩
    rw [commandOf, hverb, he]
  rw [ho.sound.carried.placed_iff, ho.carried, placedAfter,
    ← List.take_append_drop r.diaries[index].taken.length (r.ordersFor index), List.foldl_append]
  exact mem_foldl_placeOne hrest hplaced

end Record

/-! ## 3. A connection that lags behind -/

/-- A second symbol. -/
def ether : ListedSymbol := ⟨"ETHUSDT", "ETH", "USDT", none, none, none⟩

/-- The listing of both. -/
def pairListing : Listing where
  surface := .spot
  byWire := ⟨[("BTCUSDT", bitcoin), ("ETHUSDT", ether)]⟩
  byTicker := ⟨[("BTCUSDT", "BTCUSDT"), ("ETHUSDT", "ETHUSDT")]⟩

theorem eq_of_wireSymbol_pair {i : Instrument} {x : String}
    (h : pairListing.wireSymbol i = .ok x) : x = "BTCUSDT" ∨ x = "ETHUSDT" := by
  obtain ⟨-, hticker⟩ := Listing.wireSymbol_eq_ok.mp h
  simp only [pairListing, Table.get?_cons] at hticker
  split at hticker
  · exact Or.inl (Option.some.inj hticker).symm
  · split at hticker
    · exact Or.inr (Option.some.inj hticker).symm
    · cases hticker

/-- The two symbols can be told apart. -/
theorem apart_pair (i j : Instrument) (x y : String) (hx : pairListing.wireSymbol i = .ok x)
    (hy : pairListing.wireSymbol j = .ok y) (h : Text.lower x = Text.lower y) : x = y := by
  rcases eq_of_wireSymbol_pair hx with rfl | rfl <;>
    rcases eq_of_wireSymbol_pair hy with rfl | rfl <;> revert h <;> decide +kernel

/-- The trades of a symbol. -/
def tradesOf (ticker : String) : Subscription := ⟨⟨ticker, .crypto, "binance"⟩, .tick, .trade⟩

/-- Two symbols on two connections; both are let go of, the second is asked for again and placed on
the first connection, which does as it is told while the second one lags behind. -/
def laggingHappenings : List Happening :=
  [.call (.subscribe (tradesOf "BTCUSDT")) (.ok true),
    .call (.subscribe (tradesOf "ETHUSDT")) (.ok true),
    .reaction (.standard pairListing) 0 .opened,
    .reaction (.standard pairListing) 0 (.turn true),
    .reaction (.standard pairListing) 1 .opened,
    .reaction (.standard pairListing) 1 (.turn true),
    .call (.unsubscribe (tradesOf "BTCUSDT")) (.ok true),
    .call (.unsubscribe (tradesOf "ETHUSDT")) (.ok true),
    .call (.subscribe (tradesOf "ETHUSDT")) (.ok true),
    .reaction (.standard pairListing) 0 .command,
    .reaction (.standard pairListing) 0 (.turn true),
    .reaction (.standard pairListing) 0 .command,
    .reaction (.standard pairListing) 0 (.turn true)]

/-- A trade of the second symbol. -/
def etherFrame : Frame :=
  .text "\x7b\"e\":\"trade\",\"s\":\"ETHUSDT\",\"p\":\"100.5\",\"q\":\"2\",\"T\":1700000000000\x7d"

/-- The tick that it is. -/
def etherTick : Tick :=
  .trade ⟨"ETHUSDT", .crypto, "binance"⟩ (Instant.ofMillis 1700000000000)
    ((Decimal.ofParts? 1005 1).getD .zero) ((Decimal.ofInt? 2).getD .zero)

/-- Whether a connection has these streams, and whether it has something left to take. -/
def hasStreams (r : Record) (index : Nat) (streams : List String) (lags : Bool) : Bool :=
  (r.state.connections[index]?).any fun k =>
    k.streams = streams &&
      k.queue = if lags then [⟨.unsubscribe, symbolStreams .spot "ETHUSDT"⟩] else []

/-- What the run leads to. -/
theorem reached_lagging :
    ∃ r, Record.Reached pairListing ⟨2, 512⟩ r ∧
      r.state.pool.placement.get? "ETHUSDT" = some 0 ∧
      r.forwarded? (.standard pairListing) 0 etherFrame = some etherTick ∧
      r.forwarded? (.standard pairListing) 1 etherFrame = some etherTick ∧
      hasStreams r 0 (symbolStreams .spot "ETHUSDT") false = true ∧
      hasStreams r 1 (symbolStreams .spot "ETHUSDT") true = true := by
  have hfollow : (Record.follow? pairListing 0 laggingHappenings
      (.start (.start ⟨2, 512⟩ 0))).any (fun run =>
        run.2.state.pool.placement.get? "ETHUSDT" = some 0 &&
        run.2.forwarded? (.standard pairListing) 0 etherFrame = some etherTick &&
        run.2.forwarded? (.standard pairListing) 1 etherFrame = some etherTick &&
        hasStreams run.2 0 (symbolStreams .spot "ETHUSDT") false &&
        hasStreams run.2 1 (symbolStreams .spot "ETHUSDT") true) = true := by
    decide +kernel
  obtain ⟨⟨j, r⟩, hrun, hend⟩ := (Option.any_eq_true ..).mp hfollow
  simp only [Bool.and_eq_true, decide_eq_true_eq] at hend
  obtain ⟨⟨⟨⟨hplace, hfirst⟩, hsecond⟩, hstreams⟩, hlags⟩ := hend
  exact ⟨r, (Record.run_of_follow? hrun).reached (.start rfl rfl rfl), hplace, hfirst, hsecond,
    hstreams, hlags⟩

theorem carries_of_hasStreams {r : Record} {index : Nat} {lags : Bool}
    (h : hasStreams r index (symbolStreams .spot "ETHUSDT") lags = true) :
    r.Carries pairListing index "ETHUSDT" ∧ (r.Lags pairListing index "ETHUSDT" ↔ lags = true) := by
  obtain ⟨k, hk, hend⟩ := (Option.any_eq_true ..).mp h
  simp only [Bool.and_eq_true, decide_eq_true_eq] at hend
  obtain ⟨hstreams, hqueue⟩ := hend
  constructor
  · exact ⟨k, hk, "ethusdt@trade", by decide +kernel, hstreams ▸ by decide +kernel⟩
  · constructor
    · rintro ⟨k', hk', hmem⟩
      obtain rfl := Option.some.inj (hk.symm.trans hk')
      rw [hqueue] at hmem
      cases lags with
      | true => rfl
      | false => cases hmem
    · rintro rfl
      exact ⟨k, hk, hqueue ▸ List.mem_cons_self⟩

/-! ## 4. Owners -/

/-- **Ticks come from the owner, unless a connection lags behind.**  What a connection takes for a
tick is of a symbol that the host subscribed to, and the symbol has its place on some connection.
If the connection asks the exchange for the symbol and was not told to let go of it without having
done so, that place is this very connection; and no two connections like that take a frame about
the same symbol for a tick at the same time. -/
theorem ticks_from_owner {l : Listing} {limits : PoolLimits} (hroom : 0 < limits.symbols)
    (hcase : ∀ i j x y, l.wireSymbol i = .ok x → l.wireSymbol j = .ok y →
      Text.lower x = Text.lower y → x = y)
    {r : Record} (h : Record.Reached l limits r) {w : Surroundings} (hw : w.listing = l)
    {index : Nat} {f : Frame} {t : Tick} (ht : r.forwarded? w index f = some t) :
    ∃ x, l.wireSymbol t.instrument = .ok x ∧ 0 < r.state.pool.countOf x t.kind ∧
      (∃ owner, r.state.pool.placement.get? x = some owner) ∧
      (r.Carries l index x → ¬ r.Lags l index x →
        r.state.pool.placement.get? x = some index ∧
        ∀ (other : Nat) (f' : Frame) (t' : Tick), r.forwarded? w other f' = some t' →
          l.wireSymbol t'.instrument = .ok x → r.Carries l other x → ¬ r.Lags l other x →
            other = index) := by
  subst hw
  have ho := h.orderly hroom
  have hs := h.settled hroom
  have howner : ∀ {index : Nat} {f : Frame} {t : Tick} {x : String},
      r.forwarded? w index f = some t → w.listing.wireSymbol t.instrument = .ok x →
      r.Carries w.listing index x → ¬ r.Lags w.listing index x →
        r.state.pool.placement.get? x = some index := by
    intro index f t x ht hx hcarries hdone
    obtain ⟨k, horizon, -, hk, hlive, -⟩ := forwarded?_eq_some ht
    exact hs.placement_of_carries hcase ho hk (by rw [hlive]; rfl) hx hcarries hdone
  obtain ⟨k, horizon, horizon', hk, hlive, hafter⟩ := forwarded?_eq_some ht
  have hwanted := isWanted_of_react hlive hafter
  unfold Connection.isWanted at hwanted
  split at hwanted
  · rename_i x hx
    have hcount : 0 < r.state.pool.countOf x t.kind :=
      (ho.sound.counted.mem_kinds x t.kind).mp (List.contains_iff_mem.mp hwanted)
    refine ⟨x, hx, hcount, (ho.sound.placed_iff_wants x).mpr ⟨_, hcount⟩, ?_⟩
    intro hcarries hdone
    have hplace := howner ht hx hcarries hdone
    refine ⟨hplace, ?_⟩
    intro other f' t' ht' hx' hcarries' hdone'
    exact Option.some.inj ((howner ht' hx' hcarries' hdone').symm.trans hplace)
  · cases hwanted

theorem ticks_from_owner_ether :
    ∃ r t, 0 < 512 ∧
      (∀ i j x y, pairListing.wireSymbol i = .ok x → pairListing.wireSymbol j = .ok y →
        Text.lower x = Text.lower y → x = y) ∧
      Record.Reached pairListing ⟨2, 512⟩ r ∧
      (Surroundings.standard pairListing).listing = pairListing ∧
      r.forwarded? (.standard pairListing) 0 etherFrame = some t ∧
      r.Carries pairListing 0 "ETHUSDT" ∧ ¬ r.Lags pairListing 0 "ETHUSDT" ∧
      r.state.pool.placement.get? "ETHUSDT" = some 0 := by
  obtain ⟨r, hreached, -, hfirst, -, hstreams, -⟩ := reached_lagging
  obtain ⟨hcarries, hlags⟩ := carries_of_hasStreams hstreams
  have hdone : ¬ r.Lags pairListing 0 "ETHUSDT" := fun h => Bool.false_ne_true (hlags.mp h)
  obtain ⟨x, hx, -, -, howner⟩ := ticks_from_owner (by decide) apart_pair hreached rfl hfirst
  obtain rfl : x = "ETHUSDT" := Except.ok.inj
    (hx.symm.trans (by decide +kernel : pairListing.wireSymbol etherTick.instrument = .ok "ETHUSDT"))
  exact ⟨r, etherTick, by decide, apart_pair, hreached, rfl, hfirst, hcarries, hdone,
    (howner hcarries hdone).1⟩

/-- **A tick may come from a former owner.**  The symbol is placed on the first connection, which
asks for it; the second one was told to let go of it, but lags behind and asks for it still.  Both
take the same trade for a tick. -/
theorem tick_of_former_owner :
    pairListing = .ofSymbols .spot [bitcoin, ether] ∧
    ∃ r, Record.Reached pairListing ⟨2, 512⟩ r ∧
      pairListing.wireSymbol etherTick.instrument = .ok "ETHUSDT" ∧
      r.state.pool.placement.get? "ETHUSDT" = some 0 ∧
      r.Carries pairListing 0 "ETHUSDT" ∧
      r.forwarded? (.standard pairListing) 0 etherFrame = some etherTick ∧
      r.Carries pairListing 1 "ETHUSDT" ∧ r.Lags pairListing 1 "ETHUSDT" ∧
      r.forwarded? (.standard pairListing) 1 etherFrame = some etherTick := by
  obtain ⟨r, hreached, hplace, hfirst, hsecond, hstreams, hlags⟩ := reached_lagging
  obtain ⟨hcarries, hbehind⟩ := carries_of_hasStreams hlags
  exact ⟨by decide +kernel, r, hreached, by decide +kernel, hplace,
    (carries_of_hasStreams hstreams).1, hfirst, hcarries, hbehind.mpr rfl, hsecond⟩

end OrderDesk.Feed
