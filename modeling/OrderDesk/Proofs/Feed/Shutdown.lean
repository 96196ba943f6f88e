import OrderDesk.Proofs.Ensures
import OrderDesk.Proofs.Feed.Ticks

/-!
# How the connections of a stopped pool come to their ends

Whoever stops the pool waits until its connections are over.  A connection notices that it has to
end only where it is live or rests; everywhere else it first needs something else, an answer to its
dialing or the turn of a frame (`ConnectionPhase.awaits`).  Whatever that turns out to be, the
connection is nearer to its end (`Connection.rank_react_lt`), and three of these are enough.

All of this comes by itself, with one exception: a tick may have to wait until there is room at the
host.  A connection that holds one is deaf to everything else.  So whoever stops the pool can go on
without the host just if none of its connections holds a tick (`stop_ends_unread_iff`), and where
the host makes no room any more the end of the pool may never come (`stop_waits_for_host`).  How
many ticks there is room for is up to the host, and nothing is assumed of it here.
-/

namespace OrderDesk

/-! ## 1. What a connection needs to come to its end -/

namespace ConnectionPhase

/-- What brings a connection of a stopped pool on from here. -/
def awaits : ConnectionPhase → ConnectionInput → Prop
  | .dialing, .opened | .dialing, .refused _ => True
  | .replaying, .turn _ | .sending _ _, .turn _ => True
  | .delivering _ _, .taken => True
  | .live _, .cancelled | .resting _, .cancelled => True
  | _, _ => False

/-- How many things are left to come, at most. -/
def rank : ConnectionPhase → Nat
  | .ended => 0
  | .live _ | .resting _ => 1
  | .replaying | .sending _ _ | .delivering _ _ => 2
  | .dialing => 3

/-- Only a connection that holds a tick awaits room at the host. -/
theorem awaits_taken {p : ConnectionPhase} : p.awaits .taken ↔ p.waiting ≠ [] := by
  cases p <;> simp [awaits, waiting]

end ConnectionPhase

namespace Connection

variable {k : Connection} {v : ConnectionView} {i : ConnectionInput}

/-- A connection that is not over awaits something. -/
theorem exists_awaited (h : k.isEnded = false) : ∃ i, k.phase.awaits i := by
  cases hphase : k.phase with
  | dialing => exact ⟨.opened, trivial⟩
  | replaying => exact ⟨.turn true, trivial⟩
  | live _ => exact ⟨.cancelled, trivial⟩
  | sending _ _ => exact ⟨.turn true, trivial⟩
  | delivering _ _ => exact ⟨.taken, trivial⟩
  | resting _ => exact ⟨.cancelled, trivial⟩
  | ended => simp [isEnded, hphase] at h

/-- **Whatever a connection awaits brings it nearer to its end**, and does not make it hold a
tick. -/
theorem rank_react_lt (h : k.phase.awaits i) :
    (k.react v i).1.phase.rank < k.phase.rank ∧ (k.react v i).1.phase.waiting = [] := by
  obtain ⟨name, streams, queue, backoff, number, phase⟩ := k
  cases phase with
  | dialing =>
    cases i with
    | opened =>
      simp only [react, established]
      split <;> simp [ConnectionPhase.rank, ConnectionPhase.waiting]
    | refused cause => simp [react, drop, ConnectionPhase.rank, ConnectionPhase.waiting]
    | _ => exact h.elim
  | replaying | sending _ _ =>
    cases i with
    | turn written =>
      cases written <;> simp [react, drop, ConnectionPhase.rank, ConnectionPhase.waiting]
    | _ => exact h.elim
  | delivering _ _ =>
    cases i with
    | taken => simp [react, ConnectionPhase.rank, ConnectionPhase.waiting]
    | _ => exact h.elim
  | live _ | resting _ =>
    cases i with
    | cancelled => simp [react, ConnectionPhase.rank, ConnectionPhase.waiting]
    | _ => exact h.elim
  | ended => cases i <;> exact h.elim

/-- A connection after some things that happened to it. -/
def after (k : Connection) (v : ConnectionView) (is : List ConnectionInput) : Connection :=
  is.foldl (fun k i => (k.react v i).1) k

/-- **A connection that holds no tick comes to its end without the host**, since nothing that it
awaits is up to the host.  The induction is on the rank. -/
theorem exists_end (v : ConnectionView) (k : Connection) (hk : k.phase.waiting = []) :
    ∃ is, .taken ∉ is ∧ is.length ≤ k.phase.rank ∧ (k.after v is).isEnded = true := by
  induction hrank : k.phase.rank using Nat.strongRecOn generalizing k with
  | ind rank ih =>
    subst hrank
    cases hended : k.isEnded with
    | true => exact ⟨[], List.not_mem_nil, Nat.zero_le _, hended⟩
    | false =>
      obtain ⟨i, hi⟩ := exists_awaited hended
      obtain ⟨hless, hwaiting⟩ := rank_react_lt (v := v) hi
      obtain ⟨is, htaken, hlength, hend⟩ := ih _ hless _ hwaiting rfl
      refine ⟨i :: is, ?_, by rw [List.length_cons]; omega, hend⟩
      rintro (_ | ⟨_, hmem⟩)
      · exact ConnectionPhase.awaits_taken.mp hi hk
      · exact htaken hmem

/-- A connection that holds a tick is deaf to everything else. -/
theorem react_of_waiting (hk : k.phase.waiting ≠ []) (hi : i ≠ .taken) :
    k.react v i = (k, []) := by
  obtain ⟨name, streams, queue, backoff, number, phase⟩ := k
  cases phase with
  | delivering _ _ =>
    cases i with
    | taken => exact absurd rfl hi
    | _ => rfl
  | _ => exact absurd rfl hk

theorem not_isEnded_of_waiting (hk : k.phase.waiting ≠ []) : k.isEnded = false := by
  simp only [isEnded, decide_eq_false_iff_not]
  rintro hended
  rw [hended] at hk
  exact hk rfl

end Connection

/-! ## 2. The desk after its pool was stopped -/

namespace Feed

/-- What may become of a desk as long as there is no room for ticks at the host: connections react,
and anything may happen elsewhere.  A pool that was told to end stays told, and only its connections
notice that they have to end. -/
inductive Unread : DeskState → DeskState → Prop
  | refl (s : DeskState) : Unread s s
  | reaction {s s' : DeskState} (w : Surroundings) (place : Nat) {i : ConnectionInput} :
      i ≠ .taken → (i = .cancelled → s.poolEnds = true) →
      Unread (s.connectionStep w place i).1 s' → Unread s s'
  | elsewhere {s s₁ s' : DeskState} : s₁.connections = s.connections →
      (s.poolEnds = true → s₁.poolEnds = true) → Unread s₁ s' → Unread s s'

variable {s s' : DeskState} {place : Nat} {k : Connection}

theorem Unread.trans {s₁ : DeskState} (h : Unread s s₁) (h' : Unread s₁ s') : Unread s s' := by
  induction h with
  | refl s => exact h'
  | reaction w place hi hends _ ih => exact .reaction w place hi hends (ih h')
  | elsewhere hsame hends _ ih => exact .elsewhere hsame hends (ih h')

theorem connections_connectionStep (hk : s.connections[place]? = some k) (w : Surroundings)
    (i : ConnectionInput) :
    (s.connectionStep w place i).1.connections =
      s.connections.set place (k.react (s.viewFor w.listing w.lifetime) i).1 := by
  simp only [DeskState.connectionStep, hk, DeskState.foldl_afterConnection_eq]

@[simp]
theorem poolEnds_connectionStep (s : DeskState) (w : Surroundings) (place : Nat)
    (i : ConnectionInput) : (s.connectionStep w place i).1.poolEnds = s.poolEnds := by
  unfold DeskState.connectionStep
  split
  · rfl
  · simp only [DeskState.foldl_afterConnection_eq]
    rfl

theorem Unread.poolEnds (h : Unread s s') (hends : s.poolEnds = true) : s'.poolEnds = true := by
  induction h with
  | refl s => exact hends
  | reaction w place _ _ _ ih => exact ih ((poolEnds_connectionStep ..).trans hends)
  | elsewhere _ hstays _ ih => exact ih (hstays hends)

theorem viewFor_connectionStep (s : DeskState) (w : Surroundings) (place : Nat)
    (i : ConnectionInput) :
    (s.connectionStep w place i).1.viewFor w.listing w.lifetime =
      s.viewFor w.listing w.lifetime := by
  unfold DeskState.connectionStep
  split
  · rfl
  · simp only [DeskState.foldl_afterConnection_eq]
    rfl

/-- **A tick that is held stays held** while there is no room for it. -/
theorem Unread.held (h : Unread s s') (hk : s.connections[place]? = some k)
    (hheld : k.phase.waiting ≠ []) : s'.connections[place]? = some k := by
  induction h with
  | refl s => exact hk
  | @reaction s s' w other i hi _ _ ih =>
    refine ih ?_
    cases hother : s.connections[other]? with
    | none => simpa only [DeskState.connectionStep, hother] using hk
    | some k' =>
      rw [connections_connectionStep hother, List.getElem?_set]
      split
      · rename_i hsame
        subst hsame
        obtain rfl := Option.some.inj (hother.symm.trans hk)
        obtain ⟨hlt, -⟩ := List.getElem?_eq_some_iff.mp hk
        rw [if_pos hlt, Connection.react_of_waiting hheld hi]
      · exact hk
  | elsewhere hsame _ _ ih => exact ih (hsame ▸ hk)

/-- What happens to one connection of a pool that was told to end happens to no other. -/
theorem exists_unread_after (w : Surroundings) {is : List ConnectionInput} (his : .taken ∉ is)
    (hends : s.poolEnds = true) (hk : s.connections[place]? = some k) :
    ∃ s', Unread s s' ∧ s'.connections =
      s.connections.set place (k.after (s.viewFor w.listing w.lifetime) is) := by
  induction is generalizing s k with
  | nil =>
    refine ⟨s, .refl s, ?_⟩
    obtain ⟨hlt, rfl⟩ := List.getElem?_eq_some_iff.mp hk
    exact (List.set_getElem_self hlt).symm
  | cons i is ih =>
    have hstep := connections_connectionStep hk w i
    obtain ⟨hlt, -⟩ := List.getElem?_eq_some_iff.mp hk
    obtain ⟨s', hunread, hafter⟩ := ih (s := (s.connectionStep w place i).1)
      (fun hmem => his (List.mem_cons_of_mem i hmem)) ((poolEnds_connectionStep ..).trans hends)
      (by rw [hstep, List.getElem?_set_self hlt])
    have hi : i ≠ .taken := fun he => his (he ▸ List.mem_cons_self)
    refine ⟨s', .reaction w place hi (fun _ => hends) hunread, ?_⟩
    rw [hafter, hstep, List.set_set, viewFor_connectionStep]
    rfl

theorem areEnded_iff {places : List Nat} :
    areEnded s places = true ↔
      ∀ place ∈ places, ∀ k, s.connections[place]? = some k → k.isEnded = true := by
  simp only [areEnded, List.all_eq_true, Option.all_eq_true]

/-- One connection that holds no tick can come to its end, and the others stay as they are. -/
theorem exists_unread_ended (hends : s.poolEnds = true) (place : Nat)
    (h : ∀ k, s.connections[place]? = some k → k.phase.waiting = []) :
    ∃ s', Unread s s' ∧ (∀ k, s'.connections[place]? = some k → k.isEnded = true) ∧
      ∀ other ≠ place, s'.connections[other]? = s.connections[other]? := by
  cases hk : s.connections[place]? with
  | none => exact ⟨s, .refl s, by simp [hk], fun _ _ => rfl⟩
  | some k =>
    let w : Surroundings := .standard ⟨.spot, .empty, .empty⟩
    obtain ⟨is, his, -, hend⟩ :=
      Connection.exists_end (s.viewFor w.listing w.lifetime) k (h k hk)
    obtain ⟨s', hunread, hafter⟩ := exists_unread_after w his hends hk
    obtain ⟨hlt, -⟩ := List.getElem?_eq_some_iff.mp hk
    refine ⟨s', hunread, ?_, ?_⟩
    · intro k' hk'
      rw [hafter, List.getElem?_set_self hlt] at hk'
      exact Option.some.inj hk' ▸ hend
    · intro other hne
      rw [hafter, List.getElem?_set_ne hne.symm]

/-- Connections that hold no tick can all come to their ends.  The induction is on the places: one
connection after the other. -/
theorem exists_areEnded {places : List Nat} (hends : s.poolEnds = true)
    (h : ∀ place ∈ places, ∀ k, s.connections[place]? = some k → k.phase.waiting = []) :
    ∃ s', Unread s s' ∧ areEnded s' places = true ∧
      ∀ other ∉ places, s'.connections[other]? = s.connections[other]? := by
  induction places generalizing s with
  | nil => exact ⟨s, .refl s, rfl, fun _ _ => rfl⟩
  | cons place places ih =>
    obtain ⟨s₁, hunread, hended, hothers⟩ :=
      exists_unread_ended hends place (h place List.mem_cons_self)
    have hwaiting : ∀ q ∈ places, ∀ k, s₁.connections[q]? = some k → k.phase.waiting = [] := by
      intro q hq k hk
      by_cases hsame : q = place
      · subst hsame
        by_contra hheld
        exact Bool.false_ne_true
          ((Connection.not_isEnded_of_waiting hheld).symm.trans (hended k hk))
      · exact h q (List.mem_cons_of_mem place hq) k (hothers q hsame ▸ hk)
    obtain ⟨s', hunread', hended', hothers'⟩ := ih (hunread.poolEnds hends) hwaiting
    refine ⟨s', hunread.trans hunread', areEnded_iff.mpr ?_, ?_⟩
    · intro q hq k hk
      by_cases hlater : q ∈ places
      · exact areEnded_iff.mp hended' q hlater k hk
      · obtain rfl := (List.mem_cons.mp hq).resolve_right hlater
        exact hended k (hothers' q hlater ▸ hk)
    · intro other hother
      obtain ⟨hne, hnot⟩ := not_or.mp (List.mem_cons.not.mp hother)
      rw [hothers' other hnot, hothers other hne]

/-- The connections of a pool that was told to end can all come to their ends without the host just
if none of them holds a tick. -/
theorem exists_areEnded_iff {places : List Nat} (hends : s.poolEnds = true) :
    (∃ s', Unread s s' ∧ areEnded s' places = true) ↔
      ∀ place ∈ places, ∀ k, s.connections[place]? = some k → k.phase.waiting = [] := by
  constructor
  · rintro ⟨s', hunread, hended⟩ place hplace k hk
    by_contra hheld
    have hstays := areEnded_iff.mp hended place hplace k (hunread.held hk hheld)
    exact Bool.false_ne_true ((Connection.not_isEnded_of_waiting hheld).symm.trans hstays)
  · intro h
    obtain ⟨s', hunread, hended, -⟩ := exists_areEnded hends h
    exact ⟨s', hunread, hended⟩

/-- A connection of a pool that was told to end comes nearer to its end without the host, unless it
holds a tick. -/
theorem exists_unread_nearer (hends : s.poolEnds = true) (hk : s.connections[place]? = some k)
    (hnot : k.isEnded = false) (hwaiting : k.phase.waiting = []) :
    ∃ w i, Unread s (s.connectionStep w place i).1 ∧
      ∀ k', (s.connectionStep w place i).1.connections[place]? = some k' →
        k'.phase.rank < k.phase.rank := by
  obtain ⟨i, hi⟩ := Connection.exists_awaited hnot
  let w : Surroundings := .standard ⟨.spot, .empty, .empty⟩
  have htaken : i ≠ .taken := by
    rintro rfl
    exact ConnectionPhase.awaits_taken.mp hi hwaiting
  refine ⟨w, i, .reaction w place htaken (fun _ => hends) (.refl _), fun k' hk' => ?_⟩
  obtain ⟨hlt, -⟩ := List.getElem?_eq_some_iff.mp hk
  rw [connections_connectionStep hk, List.getElem?_set_self hlt] at hk'
  obtain rfl := Option.some.inj hk'
  exact (Connection.rank_react_lt hi).1

/-- Whoever stops a pool tells it to end and then waits until the connections that it had are over;
to go on is to see them so. -/
theorem of_move_stop {s₁ : DeskState} {x : Deed Unit} {t : Act.Trace}
    (h : Act.Move stop s t x s₁) :
    s₁.connections = s.connections ∧ s₁.poolEnds = true ∧
      ∀ s', (∃ t' y s'', Act.Move x s' t' y s'') ↔ areEnded s' s.carriers = true := by
  cases h with
  | access =>
    refine ⟨rfl, rfl, fun s' => ⟨?_, fun hended => ⟨_, _, _, .ready hended⟩⟩⟩
    rintro ⟨t', y, s'', hmove⟩
    cases hmove with
    | ready hended => exact hended

/-- **Whoever stops a pool can go on without the host just if none of its connections holds a
tick**; and of the connections that are not over later, each one that holds none has a step without
the host that brings it nearer to its end. -/
theorem stop_ends_unread_iff {s₁ : DeskState} {x : Deed Unit} {t : Act.Trace}
    (hstop : Act.Move stop s t x s₁) :
    ((∃ s', Unread s₁ s' ∧ ∃ t' y s'', Act.Move x s' t' y s'') ↔
      ∀ place ∈ s.carriers, ∀ k, s.connections[place]? = some k → k.phase.waiting = []) ∧
    ∀ s' place k, Unread s₁ s' → s'.connections[place]? = some k → k.isEnded = false →
      k.phase.waiting = [] → ∃ w i, Unread s' (s'.connectionStep w place i).1 ∧
        ∀ k', (s'.connectionStep w place i).1.connections[place]? = some k' →
          k'.phase.rank < k.phase.rank := by
  obtain ⟨hsame, hends, hmoves⟩ := of_move_stop hstop
  constructor
  · simp only [hmoves, ← hsame]
    exact exists_areEnded_iff hends
  · intro s' place k hunread hk hnot hwaiting
    exact exists_unread_nearer (hunread.poolEnds hends) hk hnot hwaiting

/-- The pool of some run has one connection, which is live. -/
theorem reached_live : ∃ r, Record.Reached bitcoinListing ⟨1, 1⟩ r ∧ r.state.carriers = [0] ∧
    r.waiting 0 = [] ∧ r.state.connections.map Connection.isEnded = [false] := by
  have hfollow : (Record.follow? bitcoinListing 0 (bitcoinHappenings.take 3)
      (.start (.start ⟨1, 1⟩ 0))).any (fun run => run.2.state.carriers = [0] &&
        run.2.waiting 0 = [] &&
        run.2.state.connections.map Connection.isEnded = [false]) = true := by
    decide +kernel
  obtain ⟨⟨j, r⟩, hrun, hend⟩ := (Option.any_eq_true ..).mp hfollow
  simp only [Bool.and_eq_true, decide_eq_true_eq] at hend
  exact ⟨r, (Record.run_of_follow? hrun).reached (.start rfl rfl rfl), hend.1.1, hend.1.2, hend.2⟩

/-- What waits at a connection is what its phase says. -/
theorem waiting_eq_of_getElem? {r : Record} (hk : r.state.connections[place]? = some k) :
    r.waiting place = k.phase.waiting := by
  simp only [Record.waiting, hk, Option.map_some, Option.getD_some]

theorem stop_ends_unread_bitcoin :
    ∃ r, Record.Reached bitcoinListing ⟨1, 1⟩ r ∧
      r.state.connections.map Connection.isEnded = [false] ∧ ∃ x s₁,
      Act.Move stop r.state .changed x s₁ ∧
        ∃ s', Unread s₁ s' ∧ ∃ t y s'', Act.Move x s' t y s'' := by
  obtain ⟨r, hreached, hcarriers, hwaiting, hlive⟩ := reached_live
  refine ⟨r, hreached, hlive, _, _, .access _ _ _, ?_⟩
  refine (stop_ends_unread_iff (.access _ _ _)).1.mpr fun place hplace k hk => ?_
  rw [hcarriers, List.mem_singleton] at hplace
  subst hplace
  exact (waiting_eq_of_getElem? hk).symm.trans hwaiting

/-- **Where a connection holds a tick, the end of the pool waits for a host that makes room.**  A
run leads there: one subscription, one trade.  After that the pool is told to end, and as long as
there is no room there is no moment at which the procedure can go on. -/
theorem stop_waits_for_host :
    ∃ r, Record.Reached bitcoinListing ⟨1, 1⟩ r ∧ ∃ x s₁,
      Act.Move stop r.state .changed x s₁ ∧ s₁.poolStopped = true ∧
      ∀ s', Unread s₁ s' → ∀ t y s'', ¬ Act.Move x s' t y s'' := by
  have hfollow : (Record.follow? bitcoinListing 0 (bitcoinHappenings.dropLast)
      (.start (.start ⟨1, 1⟩ 0))).any (fun run => run.2.waiting 0 = [bitcoinTick] &&
        run.2.state.carriers = [0]) = true := by
    decide +kernel
  obtain ⟨⟨j, r⟩, hrun, hend⟩ := (Option.any_eq_true ..).mp hfollow
  simp only [Bool.and_eq_true, decide_eq_true_eq] at hend
  obtain ⟨hheld, hcarriers⟩ := hend
  have hreached := (Record.run_of_follow? hrun).reached (.start rfl rfl rfl)
  have hstop : Act.Move stop r.state .changed _ _ := .access _ _ _
  obtain ⟨hsame, hends, hmoves⟩ := of_move_stop hstop
  refine ⟨r, hreached, _, _, hstop, rfl, fun s' hunread t y s'' hmove => ?_⟩
  have hended := (hmoves s').mp ⟨t, y, s'', hmove⟩
  have hwaiting := (exists_areEnded_iff hends).mp ⟨s', hunread, hended⟩ 0
    (by rw [hcarriers]; decide)
  cases hk : r.state.connections[0]? with
  | none => simp [Record.waiting, hk] at hheld
  | some k =>
    rw [waiting_eq_of_getElem? hk, hwaiting k (hsame ▸ hk)] at hheld
    exact List.cons_ne_nil _ _ hheld.symm

end Feed
end OrderDesk
