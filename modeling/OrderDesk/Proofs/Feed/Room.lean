import Mathlib.Logic.Relation
import OrderDesk.Proofs.Feed.Charges
import OrderDesk.Proofs.Pool.Choice

/-!
# Room for one more symbol

Connections are never given up before the pool is stopped, and symbols come and go on them, so it is
not obvious that a symbol is turned away only where the pool is really full.  It is so in every run:
the books say that the placed symbols are the ones on the connections, and that no connection has
more of them than it may (`Reached.orderly`), which leaves no place unused once nothing is found.
Every other new symbol has a connection to go to, and just one (`subscription_finds_room`).

Whoever was turned away has nothing to take back.  A count only goes up with a subscription that
succeeds, so that until there is one the end of a subscription is answered with no, however long
afterwards and whatever else happened.
-/

namespace OrderDesk.Feed

variable {l : Listing} {limits : PoolLimits} {r r' : Record} {w : Subscription} {x : String}

namespace Record

/-! ## 1. What stays along a run -/

/-- Whatever follows a record of a run belongs to the same run. -/
theorem Reached.trans (h : Reached l limits r) (hrun : Relation.ReflTransGen (Step l) r r') :
    Reached l limits r' := by
  induction hrun with
  | refl => exact h
  | tail _ hstep ih => exact .step ih hstep

/-- **Every symbol stands in the table of places once.** -/
theorem Reached.keys_nodup (hroom : 0 < limits.symbols) (h : Reached l limits r) :
    r.state.pool.placement.keys.Nodup := by
  induction h with
  | start hpool _ _ =>
    rw [Record.start, hpool]
    exact List.nodup_nil
  | step hbefore hstep ih =>
    have ho := hbefore.orderly hroom
    cases hstep with
    | call hends => exact (PoolCall.effect (ho.limits ▸ hroom) ho.sound hends).keys_nodup ih
    | reaction index i _ =>
      rw [pool_afterReaction]
      exact ih
    | elsewhere hpool _ _ =>
      rw [hpool]
      exact ih

/-- The calls of the host only get more. -/
theorem Step.calls_prefix (h : Step l r r') : r.calls <+: r'.calls := by
  cases h with
  | call _ => exact List.prefix_append ..
  | reaction _ _ _ | elsewhere _ _ _ => exact List.prefix_rfl

theorem unsubscribed_mono (hrun : Relation.ReflTransGen (Step l) r r') (x : String)
    (t : TickKind) : r.unsubscribed l x t ≤ r'.unsubscribed l x t := by
  induction hrun with
  | refl => exact Nat.le_refl _
  | tail _ hstep ih => exact ih.trans (hstep.calls_prefix.sublist.countP_le)

/-- **A count that is zero stays zero as long as no subscription succeeds.** -/
theorem countOf_eq_zero_of_run (hroom : 0 < limits.symbols) (h : Reached l limits r)
    (hrun : Relation.ReflTransGen (Step l) r r') {t : TickKind}
    (hzero : r.state.pool.countOf x t = 0) (hsame : r'.subscribed l x t = r.subscribed l x t) :
    r'.state.pool.countOf x t = 0 := by
  have hbefore := (h.orderly hroom).balance x t
  have hafter := ((h.trans hrun).orderly hroom).balance x t
  have hmono := unsubscribed_mono hrun x t
  omega

/-- A symbol without a place has no count. -/
theorem Reached.countOf_eq_zero (hroom : 0 < limits.symbols) (h : Reached l limits r)
    (hnew : r.state.pool.placement.get? x = none) (t : TickKind) :
    r.state.pool.countOf x t = 0 := by
  by_contra hcount
  obtain ⟨i, hi⟩ := ((h.orderly hroom).sound.placed_iff_wants x).mpr ⟨t, Nat.pos_of_ne_zero hcount⟩
  rw [hnew] at hi
  cases hi

/-- **As many symbols are placed as there can be just where nothing is found for another one.** -/
theorem Reached.size_placement_eq_iff (hroom : 0 < limits.symbols) (h : Reached l limits r) :
    r.state.pool.placement.size = limits.connections * limits.symbols ↔
      r.state.pool.nextCarrier = none := by
  have ho := h.orderly hroom
  rw [← ho.limits]
  exact Pool.size_placement_eq_iff (ho.limits ▸ hroom) ho.sound.carried (h.keys_nodup hroom)

end Record

/-! ## 2. What a subscription ends with -/

/-- A subscription that breaks down has no end, and every other one has just one. -/
theorem ends_subscribe_iff {s s' : DeskState} {answer : Outcome Bool}
    (hx : l.streamSymbol w = .ok x) :
    ((PoolCall.subscribe w).deed l).Ends s answer s' ↔
      ∃ b, answer = .ok b ∧ subscribed l x w.tickKind s = some (b, s') := by
  constructor
  · intro hends
    simp only [PoolCall.deed, Feed.subscribe, hx] at hends
    replace hends := Act.ends_access_iff.mp hends
    cases hsub : subscribed l x w.tickKind s with
    | none =>
      simp only [hsub] at hends
      exact absurd hends Act.not_ends_halt
    | some answered =>
      simp only [hsub, Option.map_some, Option.getD_some] at hends
      obtain ⟨rfl, rfl⟩ := Act.ends_done_iff.mp hends
      exact ⟨_, rfl, rfl⟩
  · rintro ⟨b, rfl, hsub⟩
    exact ends_subscribe hx hsub

/-- **A subscription is answered with no just where the pool has no room for it**, and all that
comes of it is the warning. -/
theorem ends_subscribe_no_iff {s s' : DeskState} (hroom : 0 < s.pool.limits.symbols)
    (hx : l.streamSymbol w = .ok x) :
    ((PoolCall.subscribe w).deed l).Ends s (.ok false) s' ↔
      (s.pool.placement.get? x = none ∧ s.pool.nextCarrier = none) ∧
        s' = s.emit (s.pool.fullWarning x) := by
  rw [ends_subscribe_iff hx, ← Pool.subscribe_eq_full_iff (t := w.tickKind)]
  unfold subscribed
  have hcases := Pool.subscribe_cases hroom x w.tickKind
  rcases hcases with ⟨-, hsub⟩ | ⟨-, _, _, -, hsub⟩ | hsub | hsub <;> simp [hsub, eq_comm]

/-- **A symbol for which a carrier was found goes there**, unless the weight of the carrier leaves
its range. -/
theorem placed_or_outOfRange {p : Pool} {i : Nat} (hroom : 0 < p.limits.symbols)
    (hnew : p.placement.get? x = none) (hnext : p.nextCarrier = some i) (t : TickKind) :
    (∃ q, p.Puts x i q ∧ p.subscribe x t = .placed (q.count x t) (p.putOrder i)) ∨
    (Word.bound64 ≤ p.weightAt i + p.weightOf x ∧ p.subscribe x t = .outOfRange) := by
  rcases Pool.subscribe_cases hroom x t with ⟨⟨j, hj⟩, -⟩ | ⟨-, j, q, hput, hsub⟩ | hfull | hbreaks
  · rw [hnew] at hj
    cases hj
  · obtain rfl : j = i := Option.some.inj ((Pool.nextCarrier_of_placed hsub).symm.trans hnext)
    exact Or.inl ⟨q, hput, hsub⟩
  · obtain ⟨-, hnone⟩ := Pool.subscribe_eq_full_iff.mp hfull
    rw [hnext] at hnone
    cases hnone
  · obtain ⟨-, j, hj, hover⟩ := Pool.subscribe_eq_outOfRange_iff.mp hbreaks
    obtain rfl : j = i := Option.some.inj (hj.symm.trans hnext)
    exact Or.inr ⟨hover, hbreaks⟩

/-- **A new symbol is put on the carrier that was found for it**, and the host is told yes. -/
theorem ends_subscribe_new {s : DeskState} {i : Nat} (hroom : 0 < s.pool.limits.symbols)
    (hx : l.streamSymbol w = .ok x) (hnew : s.pool.placement.get? x = none)
    (hnext : s.pool.nextCarrier = some i) :
    (s.pool.weightAt i + s.pool.weightOf x < Word.bound64 →
      ∃ s', ((PoolCall.subscribe w).deed l).Ends s (.ok true) s') ∧
    ∀ answer s', ((PoolCall.subscribe w).deed l).Ends s answer s' →
      answer = .ok true ∧ s'.pool.placement.get? x = some i ∧
        s'.pool.carriedBy i = s.pool.carriedBy i ++ [x] ∧
        (PoolCall.subscribe w).orders l s.pool = [(x, s.pool.putOrder i)] := by
  rcases placed_or_outOfRange hroom hnew hnext w.tickKind with ⟨q, hput, hsub⟩ | ⟨hover, hsub⟩
  · refine ⟨fun _ => ⟨_, ends_subscribe hx (by rw [subscribed, hsub])⟩, fun answer s' hends => ?_⟩
    obtain ⟨b, rfl, hanswered⟩ := (ends_subscribe_iff hx).mp hends
    rw [subscribed, hsub] at hanswered
    obtain ⟨rfl, rfl⟩ := Prod.mk.inj (Option.some.inj hanswered)
    have hcarried : q.carriedBy i = s.pool.carriedBy i ++ [x] := by
      rw [hput.carriedBy, if_pos rfl]
    rw [PoolCall.Effect.carryOut_pool]
    refine ⟨rfl, ?_, hcarried, by simp only [PoolCall.orders, hx, hsub]⟩
    rw [Pool.count, hput.placement, Table.get?_put_self]
  · refine ⟨fun hfits => absurd hfits (Nat.not_lt.mpr hover), fun answer s' hends => ?_⟩
    obtain ⟨b, -, hanswered⟩ := (ends_subscribe_iff hx).mp hends
    rw [subscribed, hsub] at hanswered
    cases hanswered

/-- Where nothing is counted there is no subscription to end. -/
theorem unsubscribed_of_countOf_eq_zero {s : DeskState} {t : TickKind} (hsound : s.pool.Sound)
    (hzero : s.pool.countOf x t = 0) : unsubscribed l x t s = (false, s) := by
  rcases Pool.unsubscribe_cases hsound x t with ⟨-, hun⟩ | ⟨hpos, -⟩ | ⟨hpos, -⟩
  · rw [unsubscribed, hun]
  · omega
  · omega

/-! ## 3. Room along every run -/

/-- **A symbol is turned away only where the pool is full, and goes to the best connection
otherwise.**  In every run, whatever the order of the calls and whatever happened to the
connections:

* the answer is no just where the symbol has no place and as many symbols are placed as there can
  be;
* then the desk emits one warning and is left as it was, and whenever the host ends such a
  subscription later, without one that succeeded in between, there was none;
* a symbol that has a place is counted;
* any other symbol has just one carrier to go to (`Pool.Takes`), and is put there; it only breaks
  down if the weight of that carrier would leave its range. -/
theorem subscription_finds_room (hroom : 0 < limits.symbols) (h : Record.Reached l limits r)
    (hx : l.streamSymbol w = .ok x) :
    r.state.pool.placement.keys.Nodup ∧
    ((∃ s, ((PoolCall.subscribe w).deed l).Ends r.state (.ok false) s) ↔
      r.state.pool.placement.get? x = none ∧
        r.state.pool.placement.size = limits.connections * limits.symbols) ∧
    (∀ s, ((PoolCall.subscribe w).deed l).Ends r.state (.ok false) s →
      s = r.state.emit (r.state.pool.fullWarning x) ∧
      ∀ r', Relation.ReflTransGen (Record.Step l) (r.afterCall (.subscribe w) (.ok false) [] s) r' →
        r'.subscribed l x w.tickKind = r.subscribed l x w.tickKind →
          ∀ answer s', ((PoolCall.unsubscribe w).deed l).Ends r'.state answer s' ↔
            answer = .ok false ∧ s' = r'.state) ∧
    (∀ i, r.state.pool.placement.get? x = some i →
      ((PoolCall.subscribe w).deed l).Ends r.state (.ok true)
        { r.state with pool := r.state.pool.count x w.tickKind }) ∧
    (r.state.pool.placement.get? x = none →
      r.state.pool.placement.size ≠ limits.connections * limits.symbols →
        ∃ i, (∀ j, r.state.pool.Takes j ↔ j = i) ∧
          (r.state.pool.weightAt i + r.state.pool.weightOf x < Word.bound64 →
            ∃ s, ((PoolCall.subscribe w).deed l).Ends r.state (.ok true) s) ∧
          ∀ answer s, ((PoolCall.subscribe w).deed l).Ends r.state answer s →
            answer = .ok true ∧ s.pool.placement.get? x = some i ∧
              s.pool.carriedBy i = r.state.pool.carriedBy i ++ [x] ∧
              (PoolCall.subscribe w).orders l r.state.pool = [(x, r.state.pool.putOrder i)]) := by
  have ho := h.orderly hroom
  have hsymbols : 0 < r.state.pool.limits.symbols := ho.limits ▸ hroom
  rw [Ne, h.size_placement_eq_iff hroom]
  refine ⟨h.keys_nodup hroom, ?no, ?after, ?placed, ?new⟩
  case no =>
    simp only [ends_subscribe_no_iff hsymbols hx, exists_and_left, exists_eq, and_true]
  case after =>
    intro s hends
    obtain ⟨⟨hnew, -⟩, hs⟩ := (ends_subscribe_no_iff hsymbols hx).mp hends
    refine ⟨hs, fun r' hrun hsame answer s' => ?_⟩
    have horders : (PoolCall.subscribe w).orders l r.state.pool = [] :=
      ((PoolCall.effect hsymbols ho.sound hends).unchanged (by simp)).2.2.2
    have hstep : Record.Step l r (r.afterCall (.subscribe w) (.ok false) [] s) :=
      horders ▸ .call hends
    have hzero := Record.countOf_eq_zero_of_run hroom h (hrun.head hstep)
      (h.countOf_eq_zero hroom hnew w.tickKind) hsame
    have hlater := (h.trans (hrun.head hstep)).orderly hroom
    rw [ends_unsubscribe_iff hx, unsubscribed_of_countOf_eq_zero hlater.sound hzero]
  case placed =>
    intro i hi
    refine ends_subscribe hx ?_
    rw [subscribed, Pool.subscribe, if_pos (Table.contains_iff.mpr ⟨i, hi⟩)]
  case new =>
    intro hnew hnext
    obtain ⟨i, hi⟩ := Option.ne_none_iff_exists'.mp hnext
    refine ⟨i, fun j => ?_, ends_subscribe_new hsymbols hx hnew hi⟩
    rw [Pool.takes_iff hsymbols, hi, Option.some.injEq, eq_comm]

/-- One connection for one symbol, and a second symbol that is turned away. -/
theorem subscription_finds_room_pair :
    ∃ r, 0 < 1 ∧ Record.Reached pairListing ⟨1, 1⟩ r ∧
      pairListing.streamSymbol (tradesOf "ETHUSDT") = .ok "ETHUSDT" ∧
      r.state.pool.placement.size = 1 * 1 ∧
      ∃ s, ((PoolCall.subscribe (tradesOf "ETHUSDT")).deed pairListing).Ends r.state (.ok false) s ∧
        s = r.state.emit (r.state.pool.fullWarning "ETHUSDT") := by
  have hx : pairListing.streamSymbol (tradesOf "ETHUSDT") = .ok "ETHUSDT" := by decide +kernel
  have hrun : (bills? pairListing [.subscribe (tradesOf "BTCUSDT")]
      (.start (.start ⟨1, 1⟩ 0), .blank)).any (fun now =>
        now.1.state.pool.placement.size = 1 &&
          now.1.state.pool.placement.get? "ETHUSDT" = none) = true := by
    decide +kernel
  obtain ⟨⟨r, b⟩, hbills, hend⟩ := (Option.any_eq_true ..).mp hrun
  simp only [Bool.and_eq_true, decide_eq_true_eq] at hend
  obtain ⟨hsize, hnew⟩ := hend
  have hreached := (billed_of_bills? (.start rfl rfl rfl) hbills).reached
  obtain ⟨-, hno, hafter, -⟩ := subscription_finds_room (by decide) hreached hx
  obtain ⟨s, hends⟩ := hno.mpr ⟨hnew, hsize⟩
  exact ⟨r, by decide, hreached, hx, hsize, s, hends, (hafter s hends).1⟩

end OrderDesk.Feed
