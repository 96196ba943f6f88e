import OrderDesk.Proofs.Feed.Record
import OrderDesk.Proofs.Pool.Books

/-!
# What a call of the host can do

A call is refused, or it is about the weights, or it is a subscription that is counted, placed or
turned away, or the end of one.  `PoolCall.Effect` has one case for each of these, with everything
that the case does to the desk, and `PoolCall.effect` says that there is no other.  What a record
keeps is then shown case by case.
-/

namespace OrderDesk.Feed

/-- What comes of a call on the desk `s`: the answer, the orders that the pool gives, and the desk
afterwards. -/
inductive PoolCall.Effect (l : Listing) (s : DeskState) :
    PoolCall → Outcome Bool → List (String × PoolOrder) → DeskState → Prop
  | unknown {w : Subscription} {e : Fault} : l.streamSymbol w = .error e →
      Effect l s (.subscribe w) (.error e) [] s
  | full {w : Subscription} {x : String} : l.streamSymbol w = .ok x →
      Effect l s (.subscribe w) (.ok false) [] (s.emit (s.pool.fullWarning x))
  | again {w : Subscription} {x : String} {i : Nat} : l.streamSymbol w = .ok x →
      s.pool.placement.get? x = some i →
      Effect l s (.subscribe w) (.ok true) [] { s with pool := s.pool.count x w.tickKind }
  | first {w : Subscription} {x : String} {i : Nat} {q : Pool} : l.streamSymbol w = .ok x →
      s.pool.placement.get? x = none → s.pool.Puts x i q →
      Effect l s (.subscribe w) (.ok true) [(x, s.pool.putOrder i)]
        (carryOut l.surface x { s with pool := q.count x w.tickKind } (s.pool.putOrder i))
  | stranger {w : Subscription} {e : Fault} : l.streamSymbol w = .error e →
      Effect l s (.unsubscribe w) (.error e) [] s
  | missing {w : Subscription} {x : String} : l.streamSymbol w = .ok x →
      s.pool.countOf x w.tickKind = 0 →
      Effect l s (.unsubscribe w) (.ok false) [] s
  | fewer {w : Subscription} {x : String} : l.streamSymbol w = .ok x →
      0 < s.pool.countOf x w.tickKind → (s.pool.uncount x w.tickKind).Wants x →
      Effect l s (.unsubscribe w) (.ok true) [] { s with pool := s.pool.uncount x w.tickKind }
  | last {w : Subscription} {x : String} {i : Nat} {q : Pool} : l.streamSymbol w = .ok x →
      0 < s.pool.countOf x w.tickKind → ¬ (s.pool.uncount x w.tickKind).Wants x →
      s.pool.placement.get? x = some i → (s.pool.uncount x w.tickKind).Drops x i q →
      Effect l s (.unsubscribe w) (.ok true) [(x, .drop i)]
        (carryOut l.surface x { s with pool := q } (.drop i))
  | weights (ws : Table String Nat) :
      Effect l s (.setWeights ws) (.ok true) [] { s with pool := s.pool.setWeights ws }

/-- **There is no other effect of a call.** -/
theorem PoolCall.effect {l : Listing} {s s' : DeskState} {call : PoolCall} {answer : Outcome Bool}
    (hroom : 0 < s.pool.limits.symbols) (hsound : s.pool.Sound)
    (h : (call.deed l).Ends s answer s') :
    Effect l s call answer (call.orders l s.pool) s' := by
  cases call with
  | subscribe w =>
    cases hx : l.streamSymbol w with
    | error e =>
      simp only [PoolCall.deed, Feed.subscribe, hx] at h
      obtain ⟨rfl, rfl⟩ := Act.ends_done_iff.mp h
      simpa only [PoolCall.orders, hx] using Effect.unknown hx
    | ok x =>
      simp only [PoolCall.deed, Feed.subscribe, hx] at h
      replace h := Act.ends_access_iff.mp h
      rcases Pool.subscribe_cases hroom x w.tickKind with
        ⟨⟨i, hi⟩, hsub⟩ | ⟨hnone, i, q, hput, hsub⟩ | hsub | hsub
      · simp only [Feed.subscribed, hsub, Option.map_some, Option.getD_some] at h
        obtain ⟨rfl, rfl⟩ := Act.ends_done_iff.mp h
        simpa only [PoolCall.orders, hx, hsub] using Effect.again hx hi
      · simp only [Feed.subscribed, hsub, Option.map_some, Option.getD_some] at h
        obtain ⟨rfl, rfl⟩ := Act.ends_done_iff.mp h
        simpa only [PoolCall.orders, hx, hsub] using Effect.first hx hnone hput
      · simp only [Feed.subscribed, hsub, Option.map_some, Option.getD_some] at h
        obtain ⟨rfl, rfl⟩ := Act.ends_done_iff.mp h
        simpa only [PoolCall.orders, hx, hsub] using Effect.full hx
      · simp only [Feed.subscribed, hsub] at h
        exact absurd h Act.not_ends_halt
  | unsubscribe w =>
    cases hx : l.streamSymbol w with
    | error e =>
      simp only [PoolCall.deed, Feed.unsubscribe, hx] at h
      obtain ⟨rfl, rfl⟩ := Act.ends_done_iff.mp h
      simpa only [PoolCall.orders, hx] using Effect.stranger hx
    | ok x =>
      simp only [PoolCall.deed, Feed.unsubscribe, hx] at h
      replace h := Act.ends_access_iff.mp h
      obtain ⟨rfl, rfl⟩ := Act.ends_done_iff.mp h
      rcases Pool.unsubscribe_cases hsound x w.tickKind with
        ⟨hzero, hun⟩ | ⟨hpos, hwants, hun⟩ | ⟨hpos, hgone, i, q, hi, hdrop, hun⟩
      · simpa only [PoolCall.orders, hx, Feed.unsubscribed, hun, Option.map_none,
          Option.toList_none] using Effect.missing hx hzero
      · simpa only [PoolCall.orders, hx, Feed.unsubscribed, hun, Option.map_none,
          Option.toList_none] using Effect.fewer hx hpos hwants
      · simpa only [PoolCall.orders, hx, Feed.unsubscribed, hun, Option.map_some,
          Option.toList_some] using Effect.last hx hpos hgone hi hdrop
  | setWeights ws =>
    replace h := Act.ends_access_iff.mp h
    obtain ⟨rfl, rfl⟩ := Act.ends_done_iff.mp h
    exact .weights ws

/-- A subscription that can be counted or turned away is answered. -/
theorem ends_subscribe {l : Listing} {w : Subscription} {x : String} {s s' : DeskState} {b : Bool}
    (hx : l.streamSymbol w = .ok x) (h : subscribed l x w.tickKind s = some (b, s')) :
    ((PoolCall.subscribe w).deed l).Ends s (.ok b) s' := by
  simp only [PoolCall.deed, Feed.subscribe, hx]
  refine .access ?_
  simp only [h]
  exact .done _ _

/-- The end of a subscription is always answered, in one way. -/
theorem ends_unsubscribe_iff {l : Listing} {w : Subscription} {x : String} {s s' : DeskState}
    {answer : Outcome Bool} (hx : l.streamSymbol w = .ok x) :
    ((PoolCall.unsubscribe w).deed l).Ends s answer s' ↔
      answer = .ok (unsubscribed l x w.tickKind s).1 ∧ s' = (unsubscribed l x w.tickKind s).2 := by
  simp only [PoolCall.deed, Feed.unsubscribe, hx]
  exact Act.ends_access_iff.trans Act.ends_done_iff

namespace PoolCall.Effect

variable {l : Listing} {s s' : DeskState} {call : PoolCall} {answer : Outcome Bool}
  {os : List (String × PoolOrder)}

/-! ## 1. The books -/

@[simp] theorem carryOut_pool (surface : Surface) (x : String) (t : DeskState) (o : PoolOrder) :
    (carryOut surface x t o).pool = t.pool := by
  cases o with
  | «open» i => rfl
  | add i => simp only [carryOut, command]; split <;> rfl
  | drop i => simp only [carryOut, command]; split <;> rfl

theorem limits (h : Effect l s call answer os s') : s'.pool.limits = s.pool.limits := by
  cases h with
  | unknown _ | full _ | again _ _ | stranger _ | missing _ _ | weights _ => rfl
  | first _ _ hput =>
    rw [carryOut_pool]
    exact hput.limits
  | fewer _ _ _ => exact Pool.uncount_limits ..
  | last _ _ _ _ hdrop =>
    rw [carryOut_pool]
    exact hdrop.limits.trans (Pool.uncount_limits ..)

/-- A symbol stands in the table of places once. -/
theorem keys_nodup (h : Effect l s call answer os s') (hs : s.pool.placement.keys.Nodup) :
    s'.pool.placement.keys.Nodup := by
  cases h with
  | unknown _ | full _ | again _ _ | stranger _ | missing _ _ | weights _ => exact hs
  | first _ _ hput =>
    rw [carryOut_pool, Pool.count, hput.placement]
    exact Table.keys_nodup_put _ _ hs
  | fewer _ _ _ =>
    rw [Pool.uncount_placement]
    exact hs
  | last _ _ _ _ hdrop =>
    rw [carryOut_pool, hdrop.placement, Pool.uncount_placement]
    exact Table.keys_nodup_erase _ hs

/-- **The books of the pool agree after every call.** -/
theorem sound (h : Effect l s call answer os s') (hs : s.pool.Sound) : s'.pool.Sound := by
  cases h with
  | unknown _ | full _ | stranger _ | missing _ _ => exact hs
  | again _ hi => exact hs.count hi _
  | first _ hnew hput =>
    rw [carryOut_pool]
    exact hs.puts hput hnew _
  | fewer _ hpos hwants => exact hs.uncount hwants hpos
  | last _ _ hgone hi hdrop =>
    rw [carryOut_pool]
    exact hs.drops hgone hi hdrop
  | weights ws => exact hs.setWeights ws

theorem begins_subscribe {w : Subscription} {y : String} (hy : l.streamSymbol w = .ok y)
    (x : String) (t : TickKind) :
    begins l x t (.subscribe w, .ok true) = true ↔ x = y ∧ t = w.tickKind := by
  simp only [begins, hy, Except.toOption, Option.some.injEq, Bool.and_eq_true, decide_eq_true_eq]
  exact ⟨fun h => ⟨h.1.symm, h.2.symm⟩, fun h => ⟨h.1.symm, h.2.symm⟩⟩

theorem finishes_unsubscribe {w : Subscription} {y : String} (hy : l.streamSymbol w = .ok y)
    (x : String) (t : TickKind) :
    finishes l x t (.unsubscribe w, .ok true) = true ↔ x = y ∧ t = w.tickKind := by
  simp only [finishes, hy, Except.toOption, Option.some.injEq, Bool.and_eq_true, decide_eq_true_eq]
  exact ⟨fun h => ⟨h.1.symm, h.2.symm⟩, fun h => ⟨h.1.symm, h.2.symm⟩⟩

/-- **A count moves with the calls that succeed, and with nothing else.** -/
theorem countOf (h : Effect l s call answer os s') (x : String) (t : TickKind) :
    s'.pool.countOf x t + (finishes l x t (call, answer)).toNat =
      s.pool.countOf x t + (begins l x t (call, answer)).toNat := by
  cases h with
  | unknown _ | full _ | stranger _ | missing _ _ | weights _ => rfl
  | @again w y i hy hi =>
    rw [Pool.countOf_count]
    by_cases hxt : x = y ∧ t = w.tickKind
    · obtain ⟨rfl, rfl⟩ := hxt
      rw [(begins_subscribe hy _ _).mpr ⟨rfl, rfl⟩, if_pos ⟨rfl, rfl⟩]
      rfl
    · rw [if_neg hxt, Bool.eq_false_iff.mpr (mt (begins_subscribe hy _ _).mp hxt)]
      rfl
  | @first w y i q hy hnew hput =>
    rw [carryOut_pool, Pool.countOf_count, Pool.countOf_congr hput.counts,
      Pool.countOf_congr hput.counts]
    by_cases hxt : x = y ∧ t = w.tickKind
    · obtain ⟨rfl, rfl⟩ := hxt
      rw [(begins_subscribe hy _ _).mpr ⟨rfl, rfl⟩, if_pos ⟨rfl, rfl⟩]
      rfl
    · rw [if_neg hxt, Bool.eq_false_iff.mpr (mt (begins_subscribe hy _ _).mp hxt)]
      rfl
  | @fewer w y hy hpos hwants =>
    rw [Pool.countOf_uncount]
    by_cases hxt : x = y ∧ t = w.tickKind
    · obtain ⟨rfl, rfl⟩ := hxt
      rw [(finishes_unsubscribe hy _ _).mpr ⟨rfl, rfl⟩, if_pos ⟨rfl, rfl⟩]
      exact Nat.sub_add_cancel hpos
    · rw [if_neg hxt, Bool.eq_false_iff.mpr (mt (finishes_unsubscribe hy _ _).mp hxt)]
      rfl
  | @last w y i q hy hpos hgone hi hdrop =>
    rw [carryOut_pool, Pool.countOf_congr hdrop.counts, Pool.countOf_uncount]
    by_cases hxt : x = y ∧ t = w.tickKind
    · obtain ⟨rfl, rfl⟩ := hxt
      rw [(finishes_unsubscribe hy _ _).mpr ⟨rfl, rfl⟩, if_pos ⟨rfl, rfl⟩]
      exact Nat.sub_add_cancel hpos
    · rw [if_neg hxt, Bool.eq_false_iff.mpr (mt (finishes_unsubscribe hy _ _).mp hxt)]
      rfl

/-! ## 2. The orders -/

@[simp] theorem putOrder_verb (p : Pool) (i : Nat) : (p.putOrder i).verb = .subscribe := by
  unfold Pool.putOrder
  split <;> rfl

@[simp] theorem putOrder_index (p : Pool) (i : Nat) : (p.putOrder i).index = i := by
  unfold Pool.putOrder
  split <;> rfl

/-- **The pool gives an order about a symbol exactly when the symbol gets or loses its place.** -/
theorem turn (h : Effect l s call answer os s') (x : String) :
    (os.filter (·.1 = x) = [] ∧
      (s'.pool.placement.get? x).isSome = (s.pool.placement.get? x).isSome) ∨
    (∃ o, os.filter (·.1 = x) = [(x, o)] ∧ o.verb = .subscribe ∧
      (s.pool.placement.get? x).isSome = false ∧ (s'.pool.placement.get? x).isSome = true) ∨
    ∃ o, os.filter (·.1 = x) = [(x, o)] ∧ o.verb = .unsubscribe ∧
      (s.pool.placement.get? x).isSome = true ∧ (s'.pool.placement.get? x).isSome = false := by
  cases h with
  | unknown _ | full _ | again _ _ | stranger _ | missing _ _ | weights _ => exact Or.inl ⟨rfl, rfl⟩
  | fewer _ _ _ => exact Or.inl ⟨rfl, by rw [Pool.uncount_placement]⟩
  | @first w y i q hy hnew hput =>
    have hplacement : (carryOut l.surface y { s with pool := q.count y w.tickKind }
        (s.pool.putOrder i)).pool.placement = s.pool.placement.put y i := by
      rw [carryOut_pool]
      exact hput.placement
    rw [hplacement, Table.get?_put]
    by_cases hx : x = y
    · subst hx
      exact Or.inr (Or.inl ⟨s.pool.putOrder i, by simp, putOrder_verb .., by rw [hnew]; rfl,
        by simp⟩)
    · exact Or.inl ⟨by simp [Ne.symm hx], by rw [if_neg hx]⟩
  | @last w y i q hy hpos hgone hi hdrop =>
    rw [carryOut_pool, hdrop.placement, Pool.uncount_placement, Table.get?_erase]
    by_cases hx : x = y
    · subst hx
      exact Or.inr (Or.inr ⟨.drop i, by simp, rfl, by rw [hi]; rfl, by simp⟩)
    · exact Or.inl ⟨by simp [Ne.symm hx], by rw [if_neg hx]⟩

/-- **A call that fails or is answered with no changes nothing** of the pool and its connections. -/
theorem unchanged (h : Effect l s call answer os s') (hanswer : answer ≠ .ok true) :
    s'.pool = s.pool ∧ s'.carriers = s.carriers ∧ s'.connections = s.connections ∧ os = [] := by
  cases h with
  | unknown _ | full _ | stranger _ | missing _ _ => exact ⟨rfl, rfl, rfl, rfl⟩
  | again _ _ | first _ _ _ | fewer _ _ _ | last _ _ _ _ _ | weights _ => exact absurd rfl hanswer

/-- **Streams are asked for with the first subscription to a symbol**, and only then. -/
theorem asked_iff (h : Effect l s call answer os s') (hs : s.pool.Sound) (x : String) :
    (∃ o, os = [(x, o)] ∧ o.verb = .subscribe) ↔
      ∃ w, call = .subscribe w ∧ l.streamSymbol w = .ok x ∧ answer = .ok true ∧
        ¬ s.pool.Wants x := by
  constructor
  · rintro ⟨o, ho, hverb⟩
    cases h with
    | unknown _ | full _ | again _ _ | stranger _ | missing _ _ | fewer _ _ _ | weights _ =>
      cases ho
    | @first w y i q hy hnew hput =>
      cases ho
      refine ⟨w, rfl, hy, rfl, ?_⟩
      rw [← hs.placed_iff_wants, hnew]
      exact fun h => nomatch h
    | last _ _ _ _ _ =>
      cases ho
      cases hverb
  · rintro ⟨w, rfl, hx, rfl, hnot⟩
    cases h with
    | @again w y i hy hi =>
      obtain rfl : y = x := Except.ok.inj (hy.symm.trans hx)
      exact absurd ((hs.placed_iff_wants y).mp ⟨i, hi⟩) hnot
    | @first w y i q hy hnew hput =>
      obtain rfl : y = x := Except.ok.inj (hy.symm.trans hx)
      exact ⟨_, rfl, putOrder_verb ..⟩

/-- **Streams are let go of with the end of the last subscription to a symbol**, and only then. -/
theorem dropped_iff (h : Effect l s call answer os s') (x : String) :
    (∃ o, os = [(x, o)] ∧ o.verb = .unsubscribe) ↔
      ∃ w, call = .unsubscribe w ∧ l.streamSymbol w = .ok x ∧ answer = .ok true ∧
        ¬ s'.pool.Wants x := by
  constructor
  · rintro ⟨o, ho, hverb⟩
    cases h with
    | unknown _ | full _ | again _ _ | stranger _ | missing _ _ | fewer _ _ _ | weights _ =>
      cases ho
    | first _ _ _ =>
      cases ho
      rw [putOrder_verb] at hverb
      cases hverb
    | @last w y i q hy hpos hgone hi hdrop =>
      cases ho
      refine ⟨w, rfl, hy, rfl, ?_⟩
      rw [carryOut_pool, Pool.wants_congr hdrop.counts]
      exact hgone
  · rintro ⟨w, rfl, hx, rfl, hnot⟩
    cases h with
    | @fewer w y hy hpos hwants =>
      obtain rfl : y = x := Except.ok.inj (hy.symm.trans hx)
      exact absurd hwants hnot
    | @last w y i q hy hpos hgone hi hdrop =>
      obtain rfl : y = x := Except.ok.inj (hy.symm.trans hx)
      exact ⟨_, rfl, rfl⟩

/-- **A carrier has the symbols that the orders for it say.** -/
theorem carriedBy (h : Effect l s call answer os s') (i : Nat) :
    s'.pool.carriedBy i = (os.filter (·.2.index = i)).foldl placeOne (s.pool.carriedBy i) := by
  cases h with
  | unknown _ | full _ | again _ _ | stranger _ | missing _ _ | weights _ => rfl
  | fewer _ _ _ => simp [Pool.carriedBy]
  | @first w y j q hy hnew hput =>
    rw [carryOut_pool]
    show q.carriedBy i = _
    rw [hput.carriedBy]
    by_cases hi : i = j
    · simp [hi, placeOne]
    · simp [hi, Ne.symm hi]
  | @last w y j q hy hpos hgone hj hdrop =>
    rw [carryOut_pool, hdrop.carriedBy]
    by_cases hi : i = j
    · simp [hi, placeOne, PoolOrder.index, PoolOrder.verb, Pool.carriedBy]
    · simp [hi, Ne.symm hi, PoolOrder.index, Pool.carriedBy]

/-! ## 3. The connections -/

/-- An order for an old carrier reaches the connection with its number. -/
theorem command_of_range (t : DeskState) {n i : Nat} (ht : t.carriers = List.range n)
    (hi : i < n) (c : StreamCommand) :
    command t i c = { t with connections := t.connections.modify i fun k => k.enqueue c } := by
  have hplace : t.carriers[i]? = some i := by
    rw [ht, List.getElem?_range hi]
  simp only [command, hplace]

/-- **What a call does to the connections**: nothing, or one of them is told, or a new one is
started with the streams of its first symbol. -/
theorem connections (h : Effect l s call answer os s') (hs : s.pool.Sound)
    (hcarriers : s.carriers = List.range s.pool.carriers.length)
    (hlength : s.connections.length = s.pool.carriers.length) :
    (os = [] ∧ s'.connections = s.connections ∧ s'.carriers = s.carriers ∧
      s'.pool.carriers.length = s.pool.carriers.length) ∨
    (∃ o, os = [o] ∧ o.2.index < s.pool.carriers.length ∧ s'.carriers = s.carriers ∧
      s'.connections =
        s.connections.modify o.2.index (fun k => k.enqueue (commandOf l.surface o)) ∧
      s'.pool.carriers.length = s.pool.carriers.length) ∨
    ∃ o name, os = [o] ∧ o.2.index = s.pool.carriers.length ∧ o.2.verb = .subscribe ∧
      s'.carriers = s.carriers ++ [s.pool.carriers.length] ∧
      s'.connections = s.connections ++ [.start name (symbolStreams l.surface o.1)] ∧
      s'.pool.carriers.length = s.pool.carriers.length + 1 := by
  cases h with
  | unknown _ | full _ | again _ _ | stranger _ | missing _ _ | weights _ =>
    exact Or.inl ⟨rfl, rfl, rfl, rfl⟩
  | fewer _ _ _ => exact Or.inl ⟨rfl, rfl, rfl, by simp⟩
  | @first w x i q hx hnew hput =>
    rcases hput.few with hi | ⟨rfl, -⟩
    · have hlen : q.carriers.length = s.pool.carriers.length := by
        rw [hput.length]
        omega
      simp only [Pool.putOrder, if_pos hi, carryOut]
      rw [command_of_range { s with pool := q.count x w.tickKind } hcarriers hi]
      exact Or.inr (Or.inl ⟨_, rfl, hi, rfl, rfl, hlen⟩)
    · have hlen : q.carriers.length = s.pool.carriers.length + 1 := by
        rw [hput.length]
        omega
      simp only [Pool.putOrder, Nat.lt_irrefl, if_false, carryOut]
      exact Or.inr (Or.inr ⟨_, _, rfl, rfl, rfl, by rw [hlength], rfl, hlen⟩)
  | @last w x i q hx hpos hgone hi hdrop =>
    have hlt : i < s.pool.carriers.length :=
      Pool.lt_of_mem_carriedBy ((hs.carried.placed_iff x i).mp hi)
    simp only [carryOut]
    rw [command_of_range { s with pool := q } hcarriers hlt]
    exact Or.inr (Or.inl ⟨_, rfl, hlt, rfl, rfl, by rw [hdrop.length, Pool.uncount_carriers]⟩)

end PoolCall.Effect
end OrderDesk.Feed
