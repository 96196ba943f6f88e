import OrderDesk.Proofs.Feed.Effect
import OrderDesk.Proofs.Pool.Connection

/-!
# The books of the pool along a run

`Record.Orderly` is what every record of a new pool has to itself: the books of the pool agree,
the counts are what the calls of the host say, every symbol is asked for and let go of in turn,
the carriers have the symbols that the orders say, and what a connection took or still has to take
is what the pool told it.

A call keeps it by the cases of `PoolCall.Effect`, a reaction by the cases of `Connection.Move`; the
rest is an induction over the run.
-/

namespace OrderDesk.Feed

/-! ## 1. Turns -/

/-- Asking and letting go in turn, beginning with asking. -/
def Alternates (verbs : List StreamVerb) : Prop :=
  ∀ n v, verbs[n]? = some v → v = if n % 2 = 0 then .subscribe else .unsubscribe

theorem Alternates.snoc {verbs : List StreamVerb} (h : Alternates verbs) {v : StreamVerb}
    (hv : v = if verbs.length % 2 = 0 then .subscribe else .unsubscribe) :
    Alternates (verbs ++ [v]) := by
  intro n w hw
  rcases Nat.lt_trichotomy n verbs.length with hlt | rfl | hgt
  · rw [List.getElem?_append_left hlt] at hw
    exact h n w hw
  · rw [List.getElem?_concat_length] at hw
    exact (Option.some.inj hw).symm.trans hv
  · have : (verbs ++ [v])[n]? = none :=
      List.getElem?_eq_none (by rw [List.length_append, List.length_singleton]; omega)
    rw [this] at hw
    cases hw

/-! ## 2. What a record keeps -/

namespace Record

/-- What every record of a new pool has to itself. -/
structure Orderly (l : Listing) (limits : PoolLimits) (r : Record) : Prop where
  limits : r.state.pool.limits = limits
  sound : r.state.pool.Sound
  balance : ∀ x t, r.subscribed l x t = r.state.pool.countOf x t + r.unsubscribed l x t
  turns : ∀ x, Alternates ((r.ordersAbout x).map PoolOrder.verb)
  placed : ∀ x, (r.state.pool.placement.get? x).isSome = decide ((r.ordersAbout x).length % 2 = 1)
  carried : ∀ i, r.state.pool.carriedBy i = placedAfter (r.ordersFor i)
  carriers : r.state.carriers = List.range r.state.pool.carriers.length
  connections : r.state.connections.length = r.state.pool.carriers.length
  diaries : r.diaries.length = r.state.pool.carriers.length
  indices : ∀ o ∈ r.orders, o.2.index < r.state.pool.carriers.length
  told : ∀ (i : Nat) (k : Connection) (d : Diary),
    r.state.connections[i]? = some k → r.diaries[i]? = some d →
      d.taken ++ k.queue = (r.ordersFor i).map (commandOf l.surface)

variable {l : Listing} {limits : PoolLimits} {r : Record}

theorem orderly_start {s : DeskState} (hpool : s.pool = .empty limits) (hcarriers : s.carriers = [])
    (hconnections : s.connections = []) : (start s).Orderly l limits where
  limits := by rw [start, hpool]; rfl
  sound := by rw [start, hpool]; exact Pool.sound_empty limits
  balance := by intro x t; rw [start, hpool]; rfl
  turns := by intro x n v h; cases h
  placed := by intro x; rw [start, hpool]; rfl
  carried := by intro i; rw [start, hpool]; rfl
  carriers := by rw [start, hpool]; exact hcarriers
  connections := by rw [start, hpool, hconnections]; rfl
  diaries := by rw [start, hpool]; rfl
  indices := by intro o h; cases h
  told := by
    intro i k d hk
    rw [start, hconnections] at hk
    cases hk

/-! ## 3. Calls -/

section Calls

variable {call : PoolCall} {answer : Outcome Bool} {os : List (String × PoolOrder)} {s : DeskState}

theorem ordersAbout_afterCall (x : String) :
    (r.afterCall call answer os s).ordersAbout x =
      r.ordersAbout x ++ (os.filter (·.1 = x)).map (·.2) := by
  simp only [ordersAbout, afterCall, List.filter_append, List.map_append]

theorem ordersFor_afterCall (i : Nat) :
    (r.afterCall call answer os s).ordersFor i = r.ordersFor i ++ os.filter (·.2.index = i) := by
  simp only [ordersFor, afterCall, List.filter_append]

/-- An order for a carrier that is still to come was not given yet. -/
theorem Orderly.ordersFor_eq_nil (h : r.Orderly l limits) {i : Nat}
    (hi : r.state.pool.carriers.length ≤ i) : r.ordersFor i = [] := by
  refine List.filter_eq_nil_iff.mpr ?_
  intro o ho hindex
  have := h.indices o ho
  rw [decide_eq_true_eq] at hindex
  omega

theorem Orderly.turns_afterCall (h : r.Orderly l limits)
    (heffect : PoolCall.Effect l r.state call answer os s) (x : String) :
    Alternates (((r.afterCall call answer os s).ordersAbout x).map PoolOrder.verb) ∧
      (s.pool.placement.get? x).isSome =
        decide (((r.afterCall call answer os s).ordersAbout x).length % 2 = 1) := by
  rw [ordersAbout_afterCall]
  have hplaced := h.placed x
  rcases heffect.turn x with ⟨hnil, hsame⟩ | ⟨o, ho, hverb, hbefore, hafter⟩ |
    ⟨o, ho, hverb, hbefore, hafter⟩
  · rw [hnil, List.map_nil, List.append_nil, hsame]
    exact ⟨h.turns x, hplaced⟩
  · rw [hbefore, eq_comm, decide_eq_false_iff_not] at hplaced
    rw [ho, List.map_singleton, List.map_append, List.map_singleton, hafter]
    constructor
    · refine (h.turns x).snoc ?_
      rw [List.length_map, if_pos (by omega)]
      exact hverb
    · rw [List.length_append, List.length_singleton, eq_comm, decide_eq_true_eq]
      omega
  · rw [hbefore, eq_comm, decide_eq_true_eq] at hplaced
    rw [ho, List.map_singleton, List.map_append, List.map_singleton, hafter]
    constructor
    · refine (h.turns x).snoc ?_
      rw [List.length_map, if_neg (by omega)]
      exact hverb
    · rw [List.length_append, List.length_singleton, eq_comm, decide_eq_false_iff_not]
      omega

theorem Orderly.balance_afterCall (h : r.Orderly l limits)
    (heffect : PoolCall.Effect l r.state call answer os s) (x : String) (t : TickKind) :
    (r.afterCall call answer os s).subscribed l x t =
      s.pool.countOf x t + (r.afterCall call answer os s).unsubscribed l x t := by
  have hcount := heffect.countOf x t
  have hbalance := h.balance x t
  have hone : ∀ f : PoolCall × Outcome Bool → Bool, [(call, answer)].countP f =
      (f (call, answer)).toNat := by
    intro f
    rw [List.countP_singleton]
    cases f (call, answer) <;> rfl
  simp only [subscribed, unsubscribed, afterCall, List.countP_append, hone] at hbalance ⊢
  omega

/-- Without a new connection there is no new diary. -/
theorem Orderly.diaries_afterCall (h : r.Orderly l limits)
    (hlength : s.connections.length = r.state.connections.length) :
    (r.afterCall call answer os s).diaries = r.diaries := by
  have hdrop : s.connections.drop r.diaries.length = [] := by
    refine List.drop_eq_nil_of_le (Nat.le_of_eq ?_)
    rw [hlength, h.connections, h.diaries]
  simp only [afterCall, hdrop, List.map_nil, List.append_nil]

/-- **What a connection and its diary have to do with a call**: nothing, or the connection was told
something, or both are new. -/
theorem Orderly.pair_afterCall (h : r.Orderly l limits)
    (heffect : PoolCall.Effect l r.state call answer os s) {i : Nat} {k : Connection} {d : Diary}
    (hk : s.connections[i]? = some k) (hd : (r.afterCall call answer os s).diaries[i]? = some d) :
    (os.filter (·.2.index = i) = [] ∧ r.state.connections[i]? = some k ∧ r.diaries[i]? = some d) ∨
    (∃ o k₀, os.filter (·.2.index = i) = [o] ∧ r.state.connections[i]? = some k₀ ∧
      r.diaries[i]? = some d ∧ k = k₀.enqueue (commandOf l.surface o)) ∨
    ∃ o name, os.filter (·.2.index = i) = [o] ∧ r.ordersFor i = [] ∧ o.2.verb = .subscribe ∧
      k = .start name (symbolStreams l.surface o.1) ∧ d = .begin k := by
  rcases heffect.connections h.sound h.carriers h.connections with
    ⟨rfl, hconn, -, -⟩ | ⟨o, rfl, hidx, -, hconn, -⟩ | ⟨o, name, rfl, hidx, hverb, -, hconn, -⟩
  · rw [h.diaries_afterCall (by rw [hconn])] at hd
    rw [hconn] at hk
    exact Or.inl ⟨rfl, hk, hd⟩
  · rw [h.diaries_afterCall (by rw [hconn, List.length_modify])] at hd
    rw [hconn] at hk
    by_cases hi : o.2.index = i
    · subst hi
      rw [List.getElem?_modify_eq] at hk
      obtain ⟨k₀, hk₀, rfl⟩ := Option.map_eq_some_iff.mp hk
      exact Or.inr (Or.inl ⟨o, k₀, by simp, hk₀, hd, rfl⟩)
    · rw [List.getElem?_modify_ne _ _ hi] at hk
      exact Or.inl ⟨by simp [hi], hk, hd⟩
  · have hdiaries : (r.afterCall call answer [o] s).diaries =
        r.diaries ++ [Diary.begin (.start name (symbolStreams l.surface o.1))] := by
      simp only [Record.afterCall, hconn]
      rw [h.diaries, ← h.connections, List.drop_left, List.map_singleton]
    rw [hdiaries] at hd
    rw [hconn] at hk
    rcases Nat.lt_or_ge i r.state.pool.carriers.length with hlt | hge
    · rw [List.getElem?_append_left (by rw [h.connections]; exact hlt)] at hk
      rw [List.getElem?_append_left (by rw [h.diaries]; exact hlt)] at hd
      have hi : o.2.index ≠ i := by omega
      exact Or.inl ⟨by simp [hi], hk, hd⟩
    · obtain rfl : i = r.state.pool.carriers.length := by
        obtain ⟨hlt, -⟩ := List.getElem?_eq_some_iff.mp hk
        rw [List.length_append, List.length_singleton, h.connections] at hlt
        omega
      rw [← h.connections, List.getElem?_concat_length] at hk
      rw [← h.diaries, List.getElem?_concat_length] at hd
      obtain rfl := Option.some.inj hk
      obtain rfl := Option.some.inj hd
      exact Or.inr (Or.inr
        ⟨o, name, by simp [hidx], h.ordersFor_eq_nil (Nat.le_refl _), hverb, rfl, rfl⟩)

theorem Orderly.told_afterCall (h : r.Orderly l limits)
    (heffect : PoolCall.Effect l r.state call answer os s) (i : Nat) (k : Connection) (d : Diary)
    (hk : s.connections[i]? = some k) (hd : (r.afterCall call answer os s).diaries[i]? = some d) :
    d.taken ++ k.queue = ((r.afterCall call answer os s).ordersFor i).map (commandOf l.surface) := by
  rw [ordersFor_afterCall, List.map_append]
  rcases h.pair_afterCall heffect hk hd with ⟨hos, hk₀, hd₀⟩ | ⟨o, k₀, hos, hk₀, hd₀, rfl⟩ |
    ⟨o, name, hos, hnone, hverb, rfl, rfl⟩
  · rw [hos, List.map_nil, List.append_nil]
    exact h.told i k d hk₀ hd₀
  · rw [hos, List.map_singleton, ← h.told i k₀ d hk₀ hd₀, List.append_assoc]
    rfl
  · rw [hos, hnone]
    simp only [Diary.begin, Connection.start, commandOf, hverb, List.map_nil, List.map_cons,
      List.nil_append, List.append_nil]

/-- **A call keeps everything in order.** -/
theorem Orderly.afterCall (h : r.Orderly l limits)
    (heffect : PoolCall.Effect l r.state call answer os s) :
    (r.afterCall call answer os s).Orderly l limits := by
  have hbooks := heffect.connections h.sound h.carriers h.connections
  refine {
    limits := heffect.limits.trans h.limits
    sound := heffect.sound h.sound
    balance := h.balance_afterCall heffect
    turns := fun x => (h.turns_afterCall heffect x).1
    placed := fun x => (h.turns_afterCall heffect x).2
    carried := ?carried
    carriers := ?carriers
    connections := ?connections
    diaries := ?diaries
    indices := ?indices
    told := h.told_afterCall heffect }
  case carried =>
    intro i
    show s.pool.carriedBy i = _
    rw [heffect.carriedBy, h.carried, ordersFor_afterCall, placedAfter, placedAfter,
      List.foldl_append]
  case carriers =>
    show s.carriers = List.range s.pool.carriers.length
    rcases hbooks with ⟨-, -, hcarriers, hlen⟩ | ⟨o, -, -, hcarriers, -, hlen⟩ |
      ⟨o, name, -, -, -, hcarriers, -, hlen⟩
    · rw [hcarriers, hlen, h.carriers]
    · rw [hcarriers, hlen, h.carriers]
    · rw [hcarriers, hlen, h.carriers, List.range_succ]
  case connections =>
    show s.connections.length = s.pool.carriers.length
    rcases hbooks with ⟨-, hconn, -, hlen⟩ | ⟨o, -, -, -, hconn, hlen⟩ |
      ⟨o, name, -, -, -, -, hconn, hlen⟩
    · rw [hconn, hlen, h.connections]
    · rw [hconn, hlen, List.length_modify, h.connections]
    · rw [hconn, hlen, List.length_append, List.length_singleton, h.connections]
  case diaries =>
    show (r.diaries ++ _).length = s.pool.carriers.length
    rw [List.length_append, List.length_map, List.length_drop, h.diaries]
    rcases hbooks with ⟨-, hconn, -, hlen⟩ | ⟨o, -, -, -, hconn, hlen⟩ |
      ⟨o, name, -, -, -, -, hconn, hlen⟩
    · rw [hconn, hlen, h.connections]
      omega
    · rw [hconn, hlen, List.length_modify, h.connections]
      omega
    · rw [hconn, hlen, List.length_append, List.length_singleton, h.connections]
      omega
  case indices =>
    show ∀ o ∈ r.orders ++ os, o.2.index < s.pool.carriers.length
    intro o ho
    rcases List.mem_append.mp ho with hold | hnew
    · have := h.indices o hold
      rcases hbooks with ⟨-, -, -, hlen⟩ | ⟨o', -, -, -, -, hlen⟩ | ⟨o', name, -, -, -, -, -, hlen⟩ <;>
        omega
    · rcases hbooks with ⟨rfl, -, -, -⟩ | ⟨o', rfl, hidx, -, -, hlen⟩ |
        ⟨o', name, rfl, hidx, -, -, -, hlen⟩
      · cases hnew
      · obtain rfl := List.mem_singleton.mp hnew
        omega
      · obtain rfl := List.mem_singleton.mp hnew
        omega

end Calls

/-! ## 4. Reactions -/

theorem afterReaction_none {index : Nat} (h : r.state.connections[index]? = none)
    (w : Surroundings) (i : ConnectionInput) : r.afterReaction w index i = r := by
  simp only [afterReaction, noted, DeskState.connectionStep_none h, h]

/-- **What a reaction does to a record**: one connection makes a move, and its diary takes note. -/
theorem afterReaction_some {index : Nat} {k : Connection}
    (h : r.state.connections[index]? = some k) (w : Surroundings) (i : ConnectionInput) :
    ∃ k' fs, Connection.Move (r.state.viewFor w.listing w.lifetime) k i k' fs ∧
      (r.afterReaction w index i).state.connections = r.state.connections.set index k' ∧
      (r.afterReaction w index i).diaries = r.diaries.modify index (fun d => d.note k k' i fs) ∧
      (r.afterReaction w index i).state.pool = r.state.pool ∧
      (r.afterReaction w index i).state.carriers = r.state.carriers := by
  obtain ⟨k', hmove, hconn, hpool, hcarriers⟩ := DeskState.connectionStep_some h w i
  refine ⟨k', _, hmove, hconn, ?_, hpool, hcarriers⟩
  obtain ⟨hlt, -⟩ := List.getElem?_eq_some_iff.mp h
  have hk' : (r.state.connectionStep w index i).1.connections[index]? = some k' := by
    rw [hconn, List.getElem?_set_self hlt]
  simp only [afterReaction, noted, h, hk']

/-- The pool takes no part in a reaction. -/
theorem pool_afterReaction (r : Record) (w : Surroundings) (index : Nat) (i : ConnectionInput) :
    (r.afterReaction w index i).state.pool = r.state.pool := by
  cases hk : r.state.connections[index]? with
  | none => rw [afterReaction_none hk]
  | some k =>
    obtain ⟨_, _, -, -, -, hpool, -⟩ := afterReaction_some hk w i
    exact hpool

/-- **What a connection and its diary have to do with a reaction**: nothing, or they made a
move. -/
theorem pair_afterReaction {w : Surroundings} {index j : Nat} {i : ConnectionInput}
    {k' : Connection} {d' : Diary}
    (hk : (r.afterReaction w index i).state.connections[j]? = some k')
    (hd : (r.afterReaction w index i).diaries[j]? = some d') :
    (r.state.connections[j]? = some k' ∧ r.diaries[j]? = some d') ∨
    ∃ v k d fs, r.state.connections[j]? = some k ∧ r.diaries[j]? = some d ∧
      Connection.Move v k i k' fs ∧ d' = d.note k k' i fs := by
  cases hold : r.state.connections[index]? with
  | none =>
    rw [afterReaction_none hold] at hk hd
    exact Or.inl ⟨hk, hd⟩
  | some k =>
    obtain ⟨k₁, fs, hmove, hconn, hdiaries, -, -⟩ := afterReaction_some hold w i
    rw [hconn] at hk
    rw [hdiaries] at hd
    by_cases hj : index = j
    · subst hj
      obtain ⟨hlt, -⟩ := List.getElem?_eq_some_iff.mp hold
      rw [List.getElem?_set_self hlt] at hk
      obtain rfl := Option.some.inj hk
      rw [List.getElem?_modify_eq] at hd
      obtain ⟨d, hd₀, rfl⟩ := Option.map_eq_some_iff.mp hd
      exact Or.inr ⟨_, k, d, fs, hold, hd₀, hmove, rfl⟩
    · rw [List.getElem?_set_ne hj] at hk
      rw [List.getElem?_modify_ne _ _ hj] at hd
      exact Or.inl ⟨hk, hd⟩

/-- **A reaction keeps everything in order.** -/
theorem Orderly.afterReaction (h : r.Orderly l limits) (w : Surroundings) (index : Nat)
    (i : ConnectionInput) : (r.afterReaction w index i).Orderly l limits := by
  have htold : ∀ (j : Nat) (k : Connection) (d : Diary),
      (r.afterReaction w index i).state.connections[j]? = some k →
      (r.afterReaction w index i).diaries[j]? = some d →
        d.taken ++ k.queue = (r.ordersFor j).map (commandOf l.surface) := by
    intro j k' d' hk hd
    rcases pair_afterReaction hk hd with ⟨hk₀, hd₀⟩ | ⟨v, k, d, fs, hk₀, hd₀, hmove, rfl⟩
    · exact h.told j k' d' hk₀ hd₀
    · rw [Diary.note, List.append_assoc, hmove.queue]
      exact h.told j k d hk₀ hd₀
  cases hk : r.state.connections[index]? with
  | none =>
    rw [afterReaction_none hk]
    exact h
  | some k =>
    obtain ⟨k', fs, -, hconn, hdiaries, hpool, hcarriers⟩ := afterReaction_some hk w i
    exact {
      limits := by rw [hpool]; exact h.limits
      sound := by rw [hpool]; exact h.sound
      balance := by rw [hpool]; exact h.balance
      turns := h.turns
      placed := by rw [hpool]; exact h.placed
      carried := by rw [hpool]; exact h.carried
      carriers := by rw [hpool, hcarriers]; exact h.carriers
      connections := by rw [hpool, hconn, List.length_set]; exact h.connections
      diaries := by rw [hpool, hdiaries, List.length_modify]; exact h.diaries
      indices := by rw [hpool]; exact h.indices
      told := htold }

theorem Orderly.elsewhere (h : r.Orderly l limits) {s : DeskState} (hpool : s.pool = r.state.pool)
    (hcarriers : s.carriers = r.state.carriers) (hconn : s.connections = r.state.connections) :
    ({ r with state := s } : Record).Orderly l limits where
  limits := by rw [hpool]; exact h.limits
  sound := by rw [hpool]; exact h.sound
  balance := by rw [hpool]; exact h.balance
  turns := h.turns
  placed := by rw [hpool]; exact h.placed
  carried := by rw [hpool]; exact h.carried
  carriers := by rw [hpool, hcarriers]; exact h.carriers
  connections := by rw [hpool, hconn]; exact h.connections
  diaries := by rw [hpool]; exact h.diaries
  indices := by rw [hpool]; exact h.indices
  told := by rw [hconn]; exact h.told

/-! ## 5. Runs -/

/-- **Every record of a new pool is in order**, if a connection may carry a symbol at all. -/
theorem Reached.orderly (hroom : 0 < limits.symbols) (h : Reached l limits r) :
    r.Orderly l limits := by
  induction h with
  | start hpool hcarriers hconn => exact orderly_start hpool hcarriers hconn
  | step _ hstep ih =>
    cases hstep with
    | call hends => exact ih.afterCall (PoolCall.effect (ih.limits ▸ hroom) ih.sound hends)
    | reaction index i _ => exact ih.afterReaction _ index i
    | elsewhere hpool hcarriers hconn => exact ih.elsewhere hpool hcarriers hconn

end Record

/-! ## 6. The books -/

/-- **The books of a pool along every run.**  A symbol has a place exactly if it is read exactly
if the host wants something of it; the counts are what the calls of the host say, and a count that
is kept can be lowered; every symbol stands on one connection, and the limits are kept.  The orders
about a symbol ask for its streams and let go of them in turn, and they are what the connections
take: asking comes with the first subscription, letting go with the end of the last.  A call that
fails or is answered with no leaves everything as it is. -/
theorem pool_books {l : Listing} {limits : PoolLimits} (hroom : 0 < limits.symbols) {r : Record}
    (h : Record.Reached l limits r) :
    (∀ x, r.state.pool.placement.contains x = true ↔ r.state.pool.wanted.contains x = true) ∧
    (∀ x, r.state.pool.wanted.contains x = true ↔ ∃ t, 0 < r.state.pool.countOf x t) ∧
    (∀ x t, t ∈ r.state.pool.kinds x ↔ 0 < r.state.pool.countOf x t) ∧
    (∀ x t, r.subscribed l x t = r.state.pool.countOf x t + r.unsubscribed l x t) ∧
    (∀ k n, r.state.pool.counts.get? k = some n → 0 < n) ∧
    (∀ x i, r.state.pool.placement.get? x = some i ↔ x ∈ r.state.pool.carriedBy i) ∧
    r.state.pool.carriers.length = r.state.connections.length ∧
    r.state.connections.length ≤ limits.connections ∧
    (∀ i, (r.state.pool.carriedBy i).Nodup ∧ (r.state.pool.carriedBy i).length ≤ limits.symbols) ∧
    (∀ x, Alternates ((r.ordersAbout x).map PoolOrder.verb)) ∧
    (∀ (i : Nat) (k : Connection) (d : Diary),
      r.state.connections[i]? = some k → r.diaries[i]? = some d →
        d.taken ++ k.queue = (r.ordersFor i).map (commandOf l.surface)) ∧
    (∀ (call : PoolCall) (answer : Outcome Bool) (s : DeskState),
      (call.deed l).Ends r.state answer s →
        (∀ x, (∃ o, call.orders l r.state.pool = [(x, o)] ∧ o.verb = .subscribe) ↔
          ∃ w, call = .subscribe w ∧ l.streamSymbol w = .ok x ∧ answer = .ok true ∧
            ∀ t, r.state.pool.countOf x t = 0) ∧
        (∀ x, (∃ o, call.orders l r.state.pool = [(x, o)] ∧ o.verb = .unsubscribe) ↔
          ∃ w, call = .unsubscribe w ∧ l.streamSymbol w = .ok x ∧ answer = .ok true ∧
            ∀ t, s.pool.countOf x t = 0) ∧
        (call.orders l r.state.pool).length ≤ 1 ∧
        (answer ≠ .ok true →
          s.pool = r.state.pool ∧ s.carriers = r.state.carriers ∧
            s.connections = r.state.connections ∧ call.orders l r.state.pool = [])) := by
  have ho := h.orderly hroom
  have hwanted := fun x => ho.sound.counted.wanted_iff x
  have hnot : ∀ (p : Pool) (x : String), ¬ p.Wants x ↔ ∀ t, p.countOf x t = 0 := by
    intro p x
    simp only [Pool.Wants, not_exists, Nat.not_lt, Nat.le_zero]
  refine ⟨?placed, hwanted, ho.sound.counted.mem_kinds, ho.balance, ho.sound.counted.pos,
    ho.sound.carried.placed_iff, ho.connections.symm, ?few, ?room, ho.turns, ho.told, ?calls⟩
  case placed =>
    intro x
    rw [hwanted, ← ho.sound.placed_iff_wants, Table.contains_iff]
  case few =>
    rw [ho.connections, ← ho.limits]
    exact ho.sound.carried.few
  case room =>
    intro i
    rw [← ho.limits]
    exact ⟨ho.sound.carried.nodup i, ho.sound.carried.room i⟩
  case calls =>
    intro call answer s hends
    have heffect := PoolCall.effect (ho.limits ▸ hroom) ho.sound hends
    refine ⟨?_, ?_, ?_, heffect.unchanged⟩
    · intro x
      rw [heffect.asked_iff ho.sound]
      simp only [hnot]
    · intro x
      rw [heffect.dropped_iff]
      simp only [hnot]
    · rcases heffect.connections ho.sound ho.carriers ho.connections with
        ⟨hos, -⟩ | ⟨o, hos, -⟩ | ⟨o, -, hos, -⟩
      · rw [hos]
        exact Nat.zero_le 1
      · rw [hos]
        exact Nat.le_refl 1
      · rw [hos]
        exact Nat.le_refl 1

/-- The desk after a subscription to the only symbol there is. -/
def soloState : DeskState :=
  ((subscribed (.solo .spot "BTCUSDT") "BTCUSDT" .trade (.start ⟨1, 1⟩ 0)).getD
    (false, .start ⟨1, 1⟩ 0)).2

/-- The run that leads there. -/
def Record.solo : Record :=
  (Record.start (.start ⟨1, 1⟩ 0)).afterCall
    (.subscribe ⟨⟨"BTCUSDT", .crypto, "binance"⟩, .tick, .trade⟩) (.ok true) [("BTCUSDT", .open 0)]
    soloState

theorem Record.reached_solo : Record.Reached (.solo .spot "BTCUSDT") ⟨1, 1⟩ Record.solo :=
  .step (.start rfl rfl rfl) (.call (ends_subscribe rfl rfl))

theorem pool_books_solo :
    ∃ r, 0 < 1 ∧ Record.Reached (.solo .spot "BTCUSDT") ⟨1, 1⟩ r ∧
      r.ordersAbout "BTCUSDT" = [.open 0] ∧ "BTCUSDT" ∈ r.state.pool.carriedBy 0 := by
  have hreached := Record.reached_solo
  have hbooks := pool_books (by decide) hreached
  obtain ⟨-, -, -, -, -, hplaced, -⟩ := hbooks
  exact ⟨_, by decide, hreached, by decide, (hplaced "BTCUSDT" 0).mp (by decide)⟩
end OrderDesk.Feed
