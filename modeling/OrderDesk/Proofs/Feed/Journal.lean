import OrderDesk.Proofs.Feed.Orders

/-!
# What a connection hears and hands over

A `Record` says where a run has come to.  For the ticks it matters what happened on the way, so
here every step of a run has a name (`Happening`), and what one connection had to do with it is
written down: the data frames that it took in, the ticks that it handed to the host, and what it
reported.  A frame is written down with the moment and with the calls that the host had made by
then, which is all that its tick depends on.

A connection takes frames in while it is live.  In every other phase an arrival changes nothing:
the frame stays where it is until the connection is live again or its socket is gone.

The events that were reported are in the way when two runs are compared, since nothing at the desk
ever reads them.  Records that are alike but for these take the same steps (`Run.withEvents`).
-/

namespace OrderDesk

/-- A frame that carries data. -/
def Frame.isData : Frame → Bool
  | .text _ | .binary _ => true
  | .ping _ | .pong _ | .close => false

/-- The tick that waits for room at the host. -/
def ConnectionPhase.waiting : ConnectionPhase → List Tick
  | .delivering _ t => [t]
  | .dialing | .replaying | .live _ | .sending _ _ | .resting _ | .ended => []

/-- The ticks among the effects. -/
def ConnectionEffect.ticks (es : List ConnectionEffect) : List Tick :=
  es.filterMap fun
    | .tick t => some t
    | .write _ | .report _ => none

/-- The events among the effects. -/
def ConnectionEffect.events (es : List ConnectionEffect) : List Event :=
  es.filterMap fun
    | .report e => some e
    | .write _ | .tick _ => none

/-- The data frame that a connection takes in. -/
def Connection.dataFrame? (k : Connection) : ConnectionInput → Option Frame
  | .arrival (.frame f) _ =>
    match k.phase with
    | .live _ => if f.isData then some f else none
    | _ => none
  | _ => none

/-- The same state, but for the events that were reported. -/
def DeskState.withEvents (s : DeskState) (es : List Event) : DeskState := { s with events := es }

/-- **All that a connection does to the desk**: its events are reported and its ticks handed
over, in order. -/
theorem DeskState.foldl_afterConnection_eq (effects : List ConnectionEffect) (s : DeskState) :
    effects.foldl afterConnection s =
      { s with
        events := s.events ++ ConnectionEffect.events effects
        ticks := s.ticks ++ ConnectionEffect.ticks effects } := by
  induction effects generalizing s with
  | nil => simp [ConnectionEffect.events, ConnectionEffect.ticks]
  | cons e effects ih =>
    rw [List.foldl_cons, ih]
    cases e <;>
      simp [afterConnection, emit, hand, ConnectionEffect.events, ConnectionEffect.ticks]

/-- A report that a frame could not be read. -/
def Event.isUnreadable : Event → Bool
  | .message .error "WebSocketDecode" _ => true
  | _ => false

namespace Feed

/-! ## 1. Frames -/

/-- A data frame that was taken in: the connection, the frame, the moment, and the calls that the
host had made by then. -/
structure Heard where
  name : String
  frame : Frame
  clock : Instant
  calls : List (PoolCall × Outcome Bool)

namespace Heard

/-- What the frame says. -/
def content (l : Listing) (h : Heard) : Outcome (Option StreamMessage) :=
  StreamMessage.ofFrame l.surface.isFutures h.frame

/-- Whether the host had a subscription to a kind of ticks of a symbol that was not ended. -/
def isSubscribed (l : Listing) (h : Heard) (symbol : String) (kind : TickKind) : Bool :=
  h.calls.countP (PoolCall.finishes l symbol kind) < h.calls.countP (PoolCall.begins l symbol kind)

/-- **The tick that a frame is**: a trade or best prices of a symbol that the listing knows, if the
host had a subscription to this kind of ticks of the symbol. -/
def tick? (l : Listing) (h : Heard) : Option Tick :=
  match h.content l with
  | .ok (some (.trade t)) =>
    if h.isSubscribed l t.symbol .trade then (t.tick l).toOption else none
  | .ok (some (.quote q)) =>
    if h.isSubscribed l q.symbol .quote then (q.tick l h.clock).toOption else none
  | _ => none

/-- The report that a frame deserves if it cannot be read. -/
def complaint? (l : Listing) (h : Heard) : Option Event :=
  match h.content l with
  | .error (.decoding detail) => some (.error "WebSocketDecode" (h.name ++ ": " ++ detail))
  | .error e => some (.error "WebSocketDecode" (h.name ++ ": " ++ e.message))
  | .ok _ => none

/-- Everything that a frame makes its connection report. -/
def remarks (l : Listing) (h : Heard) : List Event :=
  match h.content l with
  | .ok (some (.serverError text)) => [.warning "WebSocketError" text]
  | _ => (h.complaint? l).toList

end Heard

/-! ## 2. Happenings -/

/-- What may happen to a desk.  For what happens elsewhere the state of the desk is given, up to
the events that were reported. -/
inductive Happening where
  | call (call : PoolCall) (answer : Outcome Bool)
  | reaction (w : Surroundings) (index : Nat) (i : ConnectionInput)
  | elsewhere (s : DeskState)

/-- What one connection had to do with a run. -/
structure Journal where
  heard : List Heard
  handed : List Tick
  reported : List Event

namespace Journal

/-- Nothing. -/
def empty : Journal := ⟨[], [], []⟩

/-- What came after. -/
def append (j j' : Journal) : Journal where
  heard := j.heard ++ j'.heard
  handed := j.handed ++ j'.handed
  reported := j.reported ++ j'.reported

/-- What a connection has to do with an input that it gets. -/
def ofReaction (k : Connection) (v : ConnectionView) (calls : List (PoolCall × Outcome Bool))
    (i : ConnectionInput) : Journal where
  heard := (k.dataFrame? i).toList.map fun f => ⟨k.name, f, v.clock, calls⟩
  handed := ConnectionEffect.ticks (k.react v i).2
  reported := ConnectionEffect.events (k.react v i).2

end Journal

namespace Record

/-- The tick of a connection that waits for room at the host. -/
def waiting (r : Record) (index : Nat) : List Tick :=
  ((r.state.connections[index]?).map (·.phase.waiting)).getD []

/-- What the connection at `index` has to do with something that happens. -/
def entry (r : Record) (index : Nat) : Happening → Journal
  | .reaction w place i =>
    if place = index then
      match r.state.connections[index]? with
      | some k => .ofReaction k (r.state.viewFor w.listing w.lifetime) r.calls i
      | none => .empty
    else .empty
  | .call _ _ | .elsewhere _ => .empty

/-- The same record, but for the events that were reported. -/
def withEvents (r : Record) (es : List Event) : Record :=
  { r with state := r.state.withEvents es }

/-- One step of a run, with what happens in it. -/
inductive Happens (l : Listing) : Record → Happening → Record → Prop
  | call {r : Record} {k : PoolCall} {answer : Outcome Bool} {s : DeskState} :
      (k.deed l).Ends r.state answer s →
        Happens l r (.call k answer) (r.afterCall k answer (k.orders l r.state.pool) s)
  | reaction {r : Record} {w : Surroundings} (index : Nat) (i : ConnectionInput) :
      w.listing = l → Happens l r (.reaction w index i) (r.afterReaction w index i)
  | elsewhere {r : Record} {s : DeskState} (es : List Event) :
      s.pool = r.state.pool → s.carriers = r.state.carriers →
        s.connections = r.state.connections →
        Happens l r (.elsewhere s) { r with state := s.withEvents es }

/-- A run with everything that happens in it, and what the connection at `index` had to do with
it. -/
inductive Run (l : Listing) (index : Nat) : Record → List Happening → Journal → Record → Prop
  | nil (r : Record) : Run l index r [] .empty r
  | cons {r r₁ r₂ : Record} {h : Happening} {hs : List Happening} {j : Journal} :
      Happens l r h r₁ → Run l index r₁ hs j r₂ →
        Run l index r (h :: hs) ((r.entry index h).append j) r₂

variable {l : Listing} {limits : PoolLimits} {index : Nat} {r r' : Record} {h : Happening}
  {hs : List Happening} {j : Journal}

/-- The steps of a record are the things that happen. -/
theorem step_iff_happens : Step l r r' ↔ ∃ h, Happens l r h r' := by
  constructor
  · intro h
    cases h with
    | call hends => exact ⟨_, .call hends⟩
    | reaction index i hw => exact ⟨_, .reaction index i hw⟩
    | @elsewhere s hpool hcarriers hconn =>
      exact ⟨_, .elsewhere s.events hpool hcarriers hconn⟩
  · rintro ⟨h, hhappens⟩
    cases hhappens with
    | call hends => exact .call hends
    | reaction index i hw => exact .reaction index i hw
    | elsewhere es hpool hcarriers hconn => exact .elsewhere hpool hcarriers hconn

theorem Run.reached (hrun : Run l index r hs j r') (h : Reached l limits r) :
    Reached l limits r' := by
  induction hrun with
  | nil r => exact h
  | cons hhappens _ ih => exact ih (h.step (step_iff_happens.mpr ⟨_, hhappens⟩))

/-- Lets something happen, if it can. -/
def next? (l : Listing) (r : Record) : Happening → Option Record
  | .call k answer =>
    match (k.deed l).outcome? r.state with
    | some (answer', s) =>
      if answer' = answer then some (r.afterCall k answer (k.orders l r.state.pool) s) else none
    | none => none
  | .reaction w index i => if w.listing = l then some (r.afterReaction w index i) else none
  | .elsewhere s =>
    if s.pool = r.state.pool ∧ s.carriers = r.state.carriers ∧
        s.connections = r.state.connections then
      some { r with state := s }
    else none

theorem happens_of_next? (hnext : r.next? l h = some r') : Happens l r h r' := by
  cases h with
  | call k answer =>
    simp only [next?] at hnext
    split at hnext
    · rename_i answer' s hends
      split at hnext
      · rename_i he
        subst he
        cases hnext
        exact .call (Act.ends_of_outcome? hends)
      · cases hnext
    · cases hnext
  | reaction w place i =>
    simp only [next?] at hnext
    split at hnext
    · rename_i hw
      cases hnext
      exact .reaction place i hw
    · cases hnext
  | elsewhere s =>
    simp only [next?] at hnext
    split at hnext
    · rename_i hsame
      cases hnext
      exact .elsewhere s.events hsame.1 hsame.2.1 hsame.2.2
    · cases hnext

/-- Carries out a run, with what the connection at `index` has to do with it. -/
def follow? (l : Listing) (index : Nat) : List Happening → Record → Option (Journal × Record)
  | [], r => some (.empty, r)
  | h :: hs, r =>
    (r.next? l h).bind fun r₁ =>
      (follow? l index hs r₁).map fun rest => ((r.entry index h).append rest.1, rest.2)

theorem run_of_follow? (hfollow : follow? l index hs r = some (j, r')) :
    Run l index r hs j r' := by
  induction hs generalizing r j with
  | nil =>
    cases hfollow
    exact .nil _
  | cons h hs ih =>
    simp only [follow?, Option.bind_eq_some_iff, Option.map_eq_some_iff] at hfollow
    obtain ⟨r₁, hnext, ⟨j₁, r₂⟩, hrest, he⟩ := hfollow
    cases he
    exact .cons (happens_of_next? hnext) (ih hrest)

/-- What a reaction does to the desk. -/
theorem state_afterReaction {k : Connection} (hk : r.state.connections[index]? = some k)
    (w : Surroundings) (i : ConnectionInput) :
    (r.afterReaction w index i).state =
      { r.state with
        connections := r.state.connections.set index
          (k.react (r.state.viewFor w.listing w.lifetime) i).1
        events := r.state.events ++ (r.entry index (.reaction w index i)).reported
        ticks := r.state.ticks ++ (r.entry index (.reaction w index i)).handed } := by
  simp only [afterReaction, DeskState.connectionStep, hk, DeskState.foldl_afterConnection_eq,
    entry, if_true, Journal.ofReaction]

/-! ## 3. Records that are alike but for events -/

section Alike

variable {es : List Event}

theorem carryOut_withEvents (surface : Surface) (x : String) (s : DeskState) (o : PoolOrder)
    (es : List Event) :
    carryOut surface x (s.withEvents es) o = (carryOut surface x s o).withEvents es := by
  cases o with
  | «open» i => rfl
  | add i => simp only [carryOut, command, DeskState.withEvents]; split <;> rfl
  | drop i => simp only [carryOut, command, DeskState.withEvents]; split <;> rfl

theorem subscribed_withEvents {x : String} {kind : TickKind} {s t : DeskState} {b : Bool}
    (h : Feed.subscribed l x kind s = some (b, t)) (es : List Event) :
    ∃ es', Feed.subscribed l x kind (s.withEvents es) = some (b, t.withEvents es') := by
  have hpool : (s.withEvents es).pool = s.pool := rfl
  unfold Feed.subscribed at h ⊢
  rw [hpool]
  cases hsub : s.pool.subscribe x kind with
  | full =>
    rw [hsub] at h
    cases h
    exact ⟨es ++ [s.pool.fullWarning x], rfl⟩
  | outOfRange =>
    rw [hsub] at h
    cases h
  | counted p =>
    rw [hsub] at h
    cases h
    exact ⟨es, rfl⟩
  | placed p o =>
    rw [hsub] at h
    cases h
    refine ⟨es, ?_⟩
    rw [← carryOut_withEvents]
    rfl

theorem unsubscribed_withEvents (x : String) (kind : TickKind) (s : DeskState)
    (es : List Event) :
    Feed.unsubscribed l x kind (s.withEvents es) =
      ((Feed.unsubscribed l x kind s).1, (Feed.unsubscribed l x kind s).2.withEvents es) := by
  have hpool : (s.withEvents es).pool = s.pool := rfl
  unfold Feed.unsubscribed
  rw [hpool]
  rcases s.pool.unsubscribe x kind with ⟨there, p, _ | o⟩
  · rfl
  · dsimp only
    rw [← carryOut_withEvents]
    rfl

/-- A call does the same whatever was reported before. -/
theorem ends_withEvents {call : PoolCall} {answer : Outcome Bool} {s t : DeskState}
    (h : (call.deed l).Ends s answer t) (es : List Event) :
    ∃ es', (call.deed l).Ends (s.withEvents es) answer (t.withEvents es') := by
  cases call with
  | subscribe w =>
    cases hx : l.streamSymbol w with
    | error e =>
      simp only [PoolCall.deed, Feed.subscribe, hx] at h ⊢
      obtain ⟨rfl, rfl⟩ := Act.ends_done_iff.mp h
      exact ⟨es, .done _ _⟩
    | ok x =>
      simp only [PoolCall.deed, Feed.subscribe, hx] at h
      replace h := Act.ends_access_iff.mp h
      cases hsub : Feed.subscribed l x w.tickKind s with
      | none =>
        rw [hsub] at h
        exact absurd h Act.not_ends_halt
      | some after =>
        rw [hsub] at h
        obtain ⟨rfl, rfl⟩ := Act.ends_done_iff.mp h
        obtain ⟨es', hes'⟩ := subscribed_withEvents hsub es
        exact ⟨es', ends_subscribe hx hes'⟩
  | unsubscribe w =>
    cases hx : l.streamSymbol w with
    | error e =>
      simp only [PoolCall.deed, Feed.unsubscribe, hx] at h ⊢
      obtain ⟨rfl, rfl⟩ := Act.ends_done_iff.mp h
      exact ⟨es, .done _ _⟩
    | ok x =>
      simp only [PoolCall.deed, Feed.unsubscribe, hx] at h ⊢
      replace h := Act.ends_access_iff.mp h
      obtain ⟨rfl, rfl⟩ := Act.ends_done_iff.mp h
      refine ⟨es, .access (Act.ends_done_iff.mpr ?_)⟩
      rw [unsubscribed_withEvents]
      exact ⟨rfl, rfl⟩
  | setWeights ws =>
    replace h := Act.ends_access_iff.mp h
    obtain ⟨rfl, rfl⟩ := Act.ends_done_iff.mp h
    exact ⟨es, .access (.done _ _)⟩

theorem connectionStep_withEvents (s : DeskState) (w : Surroundings) (index : Nat)
    (i : ConnectionInput) (es : List Event) :
    ∃ es', (s.withEvents es).connectionStep w index i =
      ((s.connectionStep w index i).1.withEvents es', (s.connectionStep w index i).2) := by
  have hconn : (s.withEvents es).connections = s.connections := rfl
  unfold DeskState.connectionStep
  rw [hconn]
  cases s.connections[index]? with
  | none => exact ⟨es, rfl⟩
  | some k =>
    refine ⟨es ++ ConnectionEffect.events (k.react (s.viewFor w.listing w.lifetime) i).2,
      Prod.ext ?_ rfl⟩
    simp only [DeskState.foldl_afterConnection_eq]
    rfl

/-- A connection does the same whatever was reported before. -/
theorem afterReaction_withEvents (r : Record) (w : Surroundings) (index : Nat)
    (i : ConnectionInput) (es : List Event) :
    ∃ es', (r.withEvents es).afterReaction w index i =
      (r.afterReaction w index i).withEvents es' := by
  obtain ⟨es', hstep⟩ := connectionStep_withEvents r.state w index i es
  refine ⟨es', ?_⟩
  simp only [afterReaction, withEvents, hstep]
  rfl

theorem Happens.withEvents (hhappens : Happens l r h r') (es : List Event) :
    ∃ es', Happens l (r.withEvents es) h (r'.withEvents es') := by
  cases hhappens with
  | call hends =>
    obtain ⟨es', hends'⟩ := ends_withEvents hends es
    exact ⟨es', .call (r := r.withEvents es) hends'⟩
  | reaction index i hw =>
    obtain ⟨es', hes'⟩ := afterReaction_withEvents r _ index i es
    exact ⟨es', hes' ▸ .reaction index i hw⟩
  | elsewhere es' hpool hcarriers hconn =>
    exact ⟨es', .elsewhere (r := r.withEvents es) es' hpool hcarriers hconn⟩

/-- **Records that are alike but for events have the same runs**, and in these a connection hears,
hands over and reports the same. -/
theorem Run.withEvents (hrun : Run l index r hs j r') (es : List Event) :
    ∃ es', Run l index (r.withEvents es) hs j (r'.withEvents es') := by
  induction hrun generalizing es with
  | nil r => exact ⟨es, .nil _⟩
  | cons hhappens _ ih =>
    obtain ⟨es₁, hhappens'⟩ := hhappens.withEvents es
    obtain ⟨es', hrun'⟩ := ih es₁
    exact ⟨es', .cons hhappens' hrun'⟩

end Alike

end Record
end Feed
end OrderDesk
