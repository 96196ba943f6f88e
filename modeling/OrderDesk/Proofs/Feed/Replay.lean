import OrderDesk.Proofs.Feed.Streams

/-!
# The streams along a run

The pool knows what its connections are to carry, a connection knows what it has to ask for, and
between the two lies a queue.  At any moment of a run a connection stands where the pool stood
some orders ago: its streams are those of the symbols that were placed on it by the orders whose
commands it took.

`Record.Settled` is what a record keeps for that, besides being in order.  The limits of the pool
hold of every beginning of the orders for a carrier, since the pool kept them all the time.
-/

namespace OrderDesk.Feed

namespace Record

/-- What every record of a new pool has to itself, as regards streams. -/
structure Settled (l : Listing) (limits : PoolLimits) (r : Record) : Prop where
  follows : ∀ (i : Nat) (k : Connection) (d : Diary),
    r.state.connections[i]? = some k → r.diaries[i]? = some d → d.Follows k
  listed : ∀ o ∈ r.orders, ∃ instrument, l.wireSymbol instrument = .ok o.1
  roomy : ∀ i n, (placedAfter ((r.ordersFor i).take n)).Nodup ∧
    (placedAfter ((r.ordersFor i).take n)).length ≤ limits.symbols

variable {l : Listing} {limits : PoolLimits} {r : Record}

theorem settled_start {s : DeskState} (hconnections : s.connections = []) :
    (start s).Settled l limits where
  follows := by
    intro i k d hk
    rw [start, hconnections] at hk
    cases hk
  listed := by intro o ho; cases ho
  roomy := by
    intro i n
    have hnil : ((start s).ordersFor i).take n = [] := by simp [start, ordersFor]
    rw [hnil]
    exact ⟨List.nodup_nil, Nat.zero_le _⟩

/-! ## 1. Calls -/

section Calls

variable {call : PoolCall} {answer : Outcome Bool} {os : List (String × PoolOrder)} {s : DeskState}

/-- A subscription that can be streamed is to a listed symbol. -/
theorem wireSymbol_of_streamSymbol {w : Subscription} {x : String}
    (h : l.streamSymbol w = .ok x) : l.wireSymbol w.instrument = .ok x := by
  unfold Listing.streamSymbol at h
  split at h
  · cases h
  · exact h

/-- Orders are about listed symbols. -/
theorem listed_of_effect (h : PoolCall.Effect l r.state call answer os s) :
    ∀ o ∈ os, ∃ instrument, l.wireSymbol instrument = .ok o.1 := by
  intro o ho
  cases h with
  | unknown _ | full _ | again _ _ | stranger _ | missing _ _ | fewer _ _ _ | weights _ => cases ho
  | @first w x i q hx hnew hput =>
    obtain rfl := List.mem_singleton.mp ho
    exact ⟨w.instrument, wireSymbol_of_streamSymbol hx⟩
  | @last w x i q hx hpos hgone hi hdrop =>
    obtain rfl := List.mem_singleton.mp ho
    exact ⟨w.instrument, wireSymbol_of_streamSymbol hx⟩

/-- A beginning of the orders is one of those before the call, or it is all of them. -/
theorem take_ordersFor_afterCall (ho : r.Orderly l limits)
    (heffect : PoolCall.Effect l r.state call answer os s) (i n : Nat) :
    (∃ m, ((r.afterCall call answer os s).ordersFor i).take n = (r.ordersFor i).take m) ∨
    ((r.afterCall call answer os s).ordersFor i).take n =
      (r.afterCall call answer os s).ordersFor i := by
  rcases Nat.lt_or_ge (r.ordersFor i).length n with hlt | hle
  · refine Or.inr (List.take_of_length_le ?_)
    have hone : os.length ≤ 1 := by
      rcases heffect.connections ho.sound ho.carriers ho.connections with
        ⟨rfl, -⟩ | ⟨o, rfl, -⟩ | ⟨o, -, rfl, -⟩
      · exact Nat.zero_le 1
      · exact Nat.le_refl 1
      · exact Nat.le_refl 1
    have hfew := List.length_filter_le (fun o : String × PoolOrder => decide (o.2.index = i)) os
    rw [ordersFor_afterCall, List.length_append]
    omega
  · refine Or.inl ⟨n, ?_⟩
    rw [ordersFor_afterCall, List.take_append_of_le_length hle]

theorem Settled.afterCall (h : r.Settled l limits) (ho : r.Orderly l limits)
    (heffect : PoolCall.Effect l r.state call answer os s) :
    (r.afterCall call answer os s).Settled l limits where
  follows := by
    intro i k d hk hd
    rcases ho.pair_afterCall heffect hk hd with ⟨-, hk₀, hd₀⟩ | ⟨o, k₀, -, hk₀, hd₀, rfl⟩ |
      ⟨o, name, -, -, -, rfl, rfl⟩
    · exact h.follows i k d hk₀ hd₀
    · exact (h.follows i k₀ d hk₀ hd₀).enqueue _
    · exact Diary.follows_begin name _
  listed := by
    intro o ho
    rcases List.mem_append.mp ho with hold | hnew
    · exact h.listed o hold
    · exact listed_of_effect heffect o hnew
  roomy := by
    intro i n
    have ho' := ho.afterCall heffect
    rcases take_ordersFor_afterCall ho heffect i n with ⟨m, hm⟩ | hall
    · rw [hm]
      exact h.roomy i m
    · rw [hall, ← ho'.carried, ← ho'.limits]
      exact ⟨ho'.sound.carried.nodup i, ho'.sound.carried.room i⟩

end Calls

/-! ## 2. Runs -/

theorem Settled.afterReaction (h : r.Settled l limits) (w : Surroundings) (index : Nat)
    (i : ConnectionInput) : (r.afterReaction w index i).Settled l limits where
  follows := by
    intro j k' d' hk hd
    rcases pair_afterReaction hk hd with ⟨hk₀, hd₀⟩ | ⟨v, k, d, fs, hk₀, hd₀, hmove, rfl⟩
    · exact h.follows j k' d' hk₀ hd₀
    · exact (h.follows j k d hk₀ hd₀).move hmove
  listed := h.listed
  roomy := h.roomy

theorem Settled.elsewhere (h : r.Settled l limits) {s : DeskState}
    (hconn : s.connections = r.state.connections) :
    ({ r with state := s } : Record).Settled l limits where
  follows := by rw [hconn]; exact h.follows
  listed := h.listed
  roomy := h.roomy

/-- **Every record of a new pool is settled.** -/
theorem Reached.settled (hroom : 0 < limits.symbols) (h : Reached l limits r) :
    r.Settled l limits := by
  induction h with
  | start _ _ hconn => exact settled_start hconn
  | step hbefore hstep ih =>
    have ho := hbefore.orderly hroom
    cases hstep with
    | call hends => exact ih.afterCall ho (PoolCall.effect (ho.limits ▸ hroom) ho.sound hends)
    | reaction index i _ => exact ih.afterReaction _ index i
    | elsewhere _ _ hconn => exact ih.elsewhere hconn

/-! ## 3. Streams -/

/-- The commands that had their turn are a beginning of the orders. -/
theorem Orderly.applied (h : r.Orderly l limits) {i : Nat} {k : Connection} {d : Diary}
    (hk : r.state.connections[i]? = some k) (hd : r.diaries[i]? = some d)
    {applied : List StreamCommand} (ht : d.taken = applied ++ k.phase.pending) :
    applied = ((r.ordersFor i).take (d.taken.length - k.phase.pending.length)).map
      (commandOf l.surface) := by
  have htold := h.told i k d hk hd
  have hlen : d.taken.length - k.phase.pending.length = applied.length := by
    rw [ht, List.length_append, Nat.add_sub_cancel]
  rw [hlen, List.map_take, ← htold, ht, List.append_assoc, List.take_left]

section Apart

variable (hcase : ∀ i j x y, l.wireSymbol i = .ok x → l.wireSymbol j = .ok y →
  Text.lower x = Text.lower y → x = y)
include hcase

/-- The symbols of orders can be told apart, since they are listed. -/
theorem Settled.apart (h : r.Settled l limits) {i n : Nat} :
    ∀ o ∈ (r.ordersFor i).take n, ∀ o' ∈ (r.ordersFor i).take n,
      Text.lower o.1 = Text.lower o'.1 → o.1 = o'.1 := by
  intro o hmem o' hmem' hlower
  obtain ⟨j, hj⟩ := h.listed o (List.mem_of_mem_filter (List.mem_of_mem_take hmem))
  obtain ⟨j', hj'⟩ := h.listed o' (List.mem_of_mem_filter (List.mem_of_mem_take hmem'))
  exact hcase j j' o.1 o'.1 hj hj' hlower

/-- The streams of a connection are those of the symbols that the orders placed whose commands had
their turn. -/
theorem Settled.streams (h : r.Settled l limits) (ho : r.Orderly l limits) {i : Nat}
    {k : Connection} {d : Diary} (hk : r.state.connections[i]? = some k)
    (hd : r.diaries[i]? = some d) :
    k.streams = streamsOf l.surface
      (placedAfter ((r.ordersFor i).take (d.taken.length - k.phase.pending.length))) := by
  obtain ⟨applied, htaken, hstreams⟩ := (h.follows i k d hk hd).streams
  rw [hstreams, ho.applied hk hd htaken]
  exact foldl_commandOf l.surface (h.apart hcase)

theorem Settled.streamsOf_nodup (h : r.Settled l limits) (i n : Nat) :
    (streamsOf l.surface (placedAfter ((r.ordersFor i).take n))).Nodup := by
  refine Feed.streamsOf_nodup l.surface (h.roomy i n).1 ?_
  intro x hx y hy hlower
  obtain ⟨o, hmem, rfl⟩ := mem_of_mem_placedAfter hx
  obtain ⟨o', hmem', rfl⟩ := mem_of_mem_placedAfter hy
  exact h.apart hcase o hmem o' hmem' hlower

end Apart

end Record

/-- **Streams follow the pool.**  Every connection of every run has a diary, and what it took from
the pool and has still to take are the orders for its carrier.  Its streams are, each once, the
two of every symbol that was placed on the carrier by the orders whose commands had their turn;
a command that is being sent has its turn next.  On a socket that is up the control frames that
were written come to the same streams.  Once nothing is left to take and to send, the streams are
those of the symbols that stand on the carrier now; and there are never more than two for every
symbol that a connection may carry. -/
theorem streams_follow_pool {l : Listing} {limits : PoolLimits} (hroom : 0 < limits.symbols)
    (hcase : ∀ i j x y, l.wireSymbol i = .ok x → l.wireSymbol j = .ok y →
      Text.lower x = Text.lower y → x = y)
    {r : Record} (h : Record.Reached l limits r) {i : Nat} {k : Connection}
    (hk : r.state.connections[i]? = some k) :
    ∃ d, r.diaries[i]? = some d ∧
      d.taken ++ k.queue = (r.ordersFor i).map (commandOf l.surface) ∧
      r.state.pool.carriedBy i = placedAfter (r.ordersFor i) ∧
      k.streams.Nodup ∧
      k.streams = streamsOf l.surface
        (placedAfter ((r.ordersFor i).take (d.taken.length - k.phase.pending.length))) ∧
      (k.phase.isUp = true → ∃ cs, d.controls = controlFrames 1 cs ∧
        cs.foldl Connection.streamsAfter [] = k.streams) ∧
      (k.queue = [] → k.phase.pending = [] →
        k.streams = streamsOf l.surface (r.state.pool.carriedBy i)) ∧
      k.streams.length ≤ 2 * limits.symbols := by
  have ho := h.orderly hroom
  have hs := h.settled hroom
  obtain ⟨hlt, -⟩ := List.getElem?_eq_some_iff.mp hk
  rw [ho.connections, ← ho.diaries] at hlt
  have hd := List.getElem?_eq_getElem hlt
  have hstreams := hs.streams hcase ho hk hd
  refine ⟨_, hd, ho.told i k _ hk hd, ho.carried i, ?_, hstreams, ?_, ?_, ?_⟩
  · rw [hstreams]
    exact hs.streamsOf_nodup hcase i _
  · intro hup
    obtain ⟨cs, hcontrols, hfold, -⟩ := (hs.follows i k _ hk hd).socket hup
    exact ⟨cs, hcontrols, hfold.symm⟩
  · intro hqueue hpending
    have htold := ho.told i k _ hk hd
    rw [hqueue, List.append_nil] at htold
    have hlen : r.diaries[i].taken.length = (r.ordersFor i).length := by
      rw [htold, List.length_map]
    rw [hstreams, hpending, List.length_nil, Nat.sub_zero, hlen, List.take_length, ho.carried]
  · rw [hstreams, length_streamsOf]
    exact Nat.mul_le_mul_left 2 (hs.roomy i _).2

/-- The run of `Record.solo`, up to the moment when the replay is through. -/
def Record.soloLive : Record :=
  (Record.solo.afterReaction (.standard (.solo .spot "BTCUSDT")) 0 .opened).afterReaction
    (.standard (.solo .spot "BTCUSDT")) 0 (.turn true)

theorem Record.reached_soloLive :
    Record.Reached (.solo .spot "BTCUSDT") ⟨1, 1⟩ Record.soloLive :=
  .step (.step Record.reached_solo (.reaction 0 .opened rfl)) (.reaction 0 (.turn true) rfl)

/-- A listing of one symbol leads there, or nowhere. -/
theorem eq_of_wireSymbol_solo {surface : Surface} {symbol x : String} {i : Instrument}
    (h : (Listing.solo surface symbol).wireSymbol i = .ok x) : x = symbol := by
  unfold Listing.wireSymbol at h
  split at h
  · simp only [Listing.solo, Table.get?_cons] at h
    split at h
    · rename_i wire hwire
      split at hwire
      · cases hwire
        cases h
        rfl
      · cases hwire
    · cases h
  · cases h

theorem streams_follow_pool_solo :
    ∃ k, 0 < 1 ∧ Record.Reached (.solo .spot "BTCUSDT") ⟨1, 1⟩ Record.soloLive ∧
      (∀ i j x y, (Listing.solo .spot "BTCUSDT").wireSymbol i = .ok x →
        (Listing.solo .spot "BTCUSDT").wireSymbol j = .ok y → Text.lower x = Text.lower y →
          x = y) ∧
      Record.soloLive.state.connections[0]? = some k ∧ k.phase.isUp = true ∧
      k.streams = ["btcusdt@trade", "btcusdt@bookTicker"] := by
  have hcase : ∀ i j x y, (Listing.solo .spot "BTCUSDT").wireSymbol i = .ok x →
      (Listing.solo .spot "BTCUSDT").wireSymbol j = .ok y → Text.lower x = Text.lower y →
        x = y := by
    intro i j x y hx hy _
    rw [eq_of_wireSymbol_solo hx, eq_of_wireSymbol_solo hy]
  obtain ⟨d, -, -, -, -, -, -, hnow, -⟩ := streams_follow_pool (by decide) hcase
    Record.reached_soloLive (i := 0) rfl
  exact ⟨_, by decide, Record.reached_soloLive, hcase, rfl, rfl, (hnow rfl rfl).trans (by decide)⟩

end OrderDesk.Feed
