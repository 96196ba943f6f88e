import OrderDesk.Proofs.Feed.Journal
import OrderDesk.Proofs.Listing

/-!
# Ticks

A connection hands a tick to the host for every frame that is one (`Heard.tick?`), and for nothing
else.  This is shown in three steps.  A data frame does one of two things to a live connection: it
becomes the tick that waits for room, or it leaves the connection as it is and is at most remarked
upon (`receive_eq`).  A reaction moves ticks from what was heard to what waits and from there to
what was handed over (`react_exact`), and along a run nothing is lost on this way (`Run.exact`).

A frame that is no tick leaves no trace but in the events, and events are read by nobody.  So a run
can do with it as well as without (`handed_cons_iff`).
-/

namespace OrderDesk

/-! ## 1. What a frame says -/

namespace StreamMessage

theorem read_error {α : Type} {decode : Json → Decoded α} {j : Json} {e : Fault}
    (h : read decode j = .error e) : ∃ detail, e = .decoding detail := by
  unfold read at h
  split at h
  · cases h
  · exact ⟨_, (Except.error.inj h).symm⟩

theorem map_read_error {α β : Type} {decode : Json → Decoded α} {j : Json} {f : α → β} {e : Fault}
    (h : (read decode j).map f = .error e) : ∃ detail, e = .decoding detail := by
  cases hread : read decode j with
  | error e' =>
    rw [hread] at h
    exact read_error (hread.trans (congrArg _ (Except.error.inj h)))
  | ok a =>
    rw [hread] at h
    cases h

theorem ofReport_error {futures : Bool} {j : Json} {e : Fault}
    (h : ofReport futures j = .error e) : ∃ detail, e = .decoding detail := by
  unfold ofReport at h
  split at h
  · exact map_read_error h
  · exact map_read_error h
  · exact map_read_error h
  · exact map_read_error h
  · split at h
    · exact ⟨_, (Except.error.inj h).symm⟩
    · exact map_read_error h
  · cases h
  · cases h
  · split at h
    · exact map_read_error h
    · cases h

/-- **A frame fails in one way only**: it cannot be read. -/
theorem ofFrame_error {futures : Bool} {f : Frame} {e : Fault} (h : ofFrame futures f = .error e) :
    ∃ detail, e = .decoding detail := by
  unfold ofFrame at h
  split at h
  · rename_i e' htext
    obtain rfl := Except.error.inj h
    unfold Frame.dataText at htext
    split at htext
    · cases htext
    · split at htext
      · cases htext
      · exact ⟨_, (Except.error.inj htext).symm⟩
    · cases htext
    · cases htext
    · cases htext
  · cases h
  · split at h
    · unfold ofJson at h
      dsimp only at h
      split at h
      · cases h
      · exact ofReport_error h
    · exact ⟨_, (Except.error.inj h).symm⟩

end StreamMessage

/-! ## 2. What a connection does with a frame -/

namespace Connection

/-- The connection after a frame that is this tick, if it is one. -/
def withTick (k : Connection) (horizon : Nat) : Option Tick → Connection
  | some t => { k with phase := .delivering horizon t }
  | none => k

/-- A message is taken for a tick or not at all, unless the exchange reports an error. -/
theorem deliver_eq (k : Connection) (v : ConnectionView) (horizon : Nat) {m : StreamMessage}
    (hm : ∀ text, m ≠ .serverError text) :
    k.deliver v horizon m = (k.withTick horizon ((tickOf v m).filter (isWanted v)), []) := by
  unfold deliver
  split
  · rename_i text
    exact absurd rfl (hm text)
  · cases htick : tickOf v m with
    | none => rfl
    | some t =>
      cases hwanted : isWanted v t <;> simp [Option.filter, hwanted, withTick]

end Connection

namespace Feed

/-- What a connection sees goes with what the host called for. -/
structure Sees (l : Listing) (calls : List (PoolCall × Outcome Bool)) (v : ConnectionView) :
    Prop where
  listing : v.listing = l
  wanted : ∀ x t, t ∈ v.wanted x ↔
    calls.countP (PoolCall.finishes l x t) < calls.countP (PoolCall.begins l x t)

variable {l : Listing} {v : ConnectionView} {k : Connection} {h : Heard}

theorem Sees.contains_wanted (hsees : Sees l h.calls v) (x : String) (t : TickKind) :
    (v.wanted x).contains t = h.isSubscribed l x t := by
  rw [Bool.eq_iff_iff, List.contains_iff_mem, hsees.wanted, Heard.isSubscribed, decide_eq_true_eq]

/-- A tick of a symbol that is known is wanted if the host subscribed to it. -/
theorem Sees.filter_isWanted (hsees : Sees l h.calls v) (hreturns : l.Returns) (x : String)
    (kind : TickKind) {t : Instrument → Tick} (ht : ∀ i, (t i).instrument = i ∧ (t i).kind = kind) :
    ((l.instrument x).map t).toOption.filter (Connection.isWanted v) =
      if h.isSubscribed l x kind then ((l.instrument x).map t).toOption else none := by
  cases hi : l.instrument x with
  | error e => simp [Except.map, Except.toOption]
  | ok i =>
    have hwanted : Connection.isWanted v (t i) = h.isSubscribed l x kind := by
      unfold Connection.isWanted
      rw [hsees.listing, (ht i).1, (ht i).2, hreturns.wireSymbol_of_instrument hi]
      exact hsees.contains_wanted x kind
    simp only [Except.map, Except.toOption, Option.filter, hwanted]

/-- **What a live connection does with a data frame.**  A tick waits for room at the host; anything
else leaves the connection as it is. -/
theorem receive_eq (hsees : Sees l h.calls v) (hreturns : l.Returns) (hclock : v.clock = h.clock)
    (hname : k.name = h.name) (horizon : Nat) :
    k.receive v horizon h.frame =
      (k.withTick horizon (h.tick? l), (h.remarks l).map ConnectionEffect.report) := by
  unfold Connection.receive Heard.tick? Heard.remarks Heard.complaint? Heard.content
  rw [hsees.listing]
  cases hsays : StreamMessage.ofFrame l.surface.isFutures h.frame with
  | error e =>
    obtain ⟨detail, rfl⟩ := StreamMessage.ofFrame_error hsays
    simp only [hname]
    rfl
  | ok said =>
    cases said with
    | none => rfl
    | some m =>
      cases m with
      | trade t =>
        refine (k.deliver_eq v horizon fun _ => StreamMessage.noConfusion).trans ?_
        rw [Connection.tickOf, hsees.listing, TradeReport.tick,
          hsees.filter_isWanted hreturns t.symbol .trade fun _ => ⟨rfl, rfl⟩]
        rfl
      | quote q =>
        refine (k.deliver_eq v horizon fun _ => StreamMessage.noConfusion).trans ?_
        rw [Connection.tickOf, hsees.listing, hclock, QuoteReport.tick,
          hsees.filter_isWanted hreturns q.symbol .quote fun _ => ⟨rfl, rfl⟩]
        rfl
      | execution e => rfl
      | serverError text => rfl
      | listenKeyExpired => rfl

/-! ## 3. What a reaction does with ticks -/

theorem ticks_map_report (es : List Event) :
    ConnectionEffect.ticks (es.map ConnectionEffect.report) = [] := by
  simp [ConnectionEffect.ticks]

theorem events_map_report (es : List Event) :
    ConnectionEffect.events (es.map ConnectionEffect.report) = es := by
  simp [ConnectionEffect.events, List.filterMap_map]

/-- Only a frame that cannot be read is reported as such. -/
theorem unreadable_remarks (l : Listing) (h : Heard) :
    (h.remarks l).filter Event.isUnreadable = (h.complaint? l).toList := by
  unfold Heard.remarks Heard.complaint?
  cases h.content l with
  | error e => cases e <;> rfl
  | ok said =>
    rcases said with _ | m
    · rfl
    · cases m <;> rfl

/-- A connection hears data frames while it is live, and nothing else. -/
theorem dataFrame?_eq_some {i : ConnectionInput} {f : Frame} (hf : k.dataFrame? i = some f) :
    ∃ horizon written, k.phase = .live horizon ∧ i = .arrival (.frame f) written ∧
      k.hear v horizon (.frame f) written = k.receive v horizon f := by
  unfold Connection.dataFrame? at hf
  split at hf
  · rename_i f' written
    split at hf
    · rename_i horizon hphase
      split at hf
      · rename_i hdata
        obtain rfl := Option.some.inj hf
        refine ⟨horizon, written, hphase, rfl, ?_⟩
        cases f' <;> first | rfl | cases hdata
      · cases hf
    · cases hf
  · cases hf

/-- What arrives and is no data is none of the host's business. -/
theorem hear_deaf {horizon : Nat} {a : Arrival} {written : Bool} (hlive : k.phase = .live horizon)
    (hf : k.dataFrame? (.arrival a written) = none) :
    (k.hear v horizon a written).1.phase.waiting = [] ∧
      ConnectionEffect.ticks (k.hear v horizon a written).2 = [] ∧
      ConnectionEffect.events (k.hear v horizon a written).2 = [] := by
  have hnone : k.phase.waiting = [] := by rw [hlive]; rfl
  cases a with
  | frame f =>
    cases f with
    | text s => simp [Connection.dataFrame?, hlive, Frame.isData] at hf
    | binary bytes => simp [Connection.dataFrame?, hlive, Frame.isData] at hf
    | ping bytes =>
      cases written with
      | true => exact ⟨hnone, rfl, rfl⟩
      | false => exact ⟨rfl, rfl, rfl⟩
    | pong bytes => exact ⟨hnone, rfl, rfl⟩
    | close => exact ⟨rfl, rfl, rfl⟩
  | broken cause => exact ⟨rfl, rfl, rfl⟩
  | ended => exact ⟨rfl, rfl, rfl⟩

/-- **A connection that hears nothing** keeps the tick that waits or hands it over, and has no
complaint. -/
theorem react_deaf {i : ConnectionInput} (hf : k.dataFrame? i = none) :
    k.phase.waiting =
      ConnectionEffect.ticks (k.react v i).2 ++ (k.react v i).1.phase.waiting ∧
    (ConnectionEffect.events (k.react v i).2).filter Event.isUnreadable = [] := by
  unfold Connection.react
  split
  case h_6 horizon a written hphase =>
    obtain ⟨hwaiting, hticks, hevents⟩ := hear_deaf (v := v) hphase hf
    rw [hwaiting, hticks, hevents, hphase]
    exact ⟨rfl, rfl⟩
  case h_1 hphase =>
    rw [hphase]
    simp only [Connection.established]
    split <;> exact ⟨rfl, rfl⟩
  case h_5 horizon hphase =>
    rw [hphase]
    split
    · rw [hphase]
      exact ⟨rfl, rfl⟩
    · exact ⟨rfl, rfl⟩
  case h_9 horizon command written hphase =>
    rw [hphase]
    cases written <;> exact ⟨rfl, rfl⟩
  case h_13 => exact ⟨rfl, rfl⟩
  all_goals
    rename_i hphase
    rw [hphase]
    exact ⟨rfl, rfl⟩

/-- **Through a reaction no tick is lost and none is made up**, and there is one complaint for each
frame that cannot be read. -/
theorem react_exact (hreturns : l.Returns) {calls : List (PoolCall × Outcome Bool)}
    (hsees : Sees l calls v) (i : ConnectionInput) :
    k.phase.waiting ++ (Journal.ofReaction k v calls i).heard.filterMap (Heard.tick? l) =
      (Journal.ofReaction k v calls i).handed ++ (k.react v i).1.phase.waiting ∧
    (Journal.ofReaction k v calls i).reported.filter Event.isUnreadable =
      (Journal.ofReaction k v calls i).heard.filterMap (Heard.complaint? l) := by
  cases hf : k.dataFrame? i with
  | none =>
    simp only [Journal.ofReaction, hf, Option.toList_none, List.map_nil, List.filterMap_nil,
      List.append_nil]
    exact react_deaf hf
  | some f =>
    obtain ⟨horizon, written, hphase, rfl, hhear⟩ := dataFrame?_eq_some (v := v) hf
    have hreact : k.react v (.arrival (.frame f) written) = k.receive v horizon f := by
      rw [← hhear]
      simp only [Connection.react, hphase]
    have heq := receive_eq (h := ⟨k.name, f, v.clock, calls⟩) (k := k) hsees hreturns rfl rfl
      horizon
    simp only [Journal.ofReaction, hf, Option.toList_some, List.map_singleton, hreact, heq,
      ticks_map_report, events_map_report, unreadable_remarks, hphase]
    constructor
    · cases hTick : Heard.tick? l ⟨k.name, f, v.clock, calls⟩ <;>
        simp [hTick, Connection.withTick, ConnectionPhase.waiting, hphase]
    · cases hcomplaint : Heard.complaint? l ⟨k.name, f, v.clock, calls⟩ <;> simp [hcomplaint]

/-! ## 4. Runs -/

namespace Record

variable {limits : PoolLimits} {index : Nat} {r r' : Record}

theorem Orderly.sees (ho : r.Orderly l limits) {w : Surroundings} (hw : w.listing = l) :
    Sees l r.calls (r.state.viewFor w.listing w.lifetime) where
  listing := hw
  wanted := by
    intro x t
    have hbalance := ho.balance x t
    rw [subscribed, unsubscribed] at hbalance
    refine (ho.sound.counted.mem_kinds x t).trans ?_
    omega

theorem waiting_of_connections {s : DeskState} (h : s.connections = r.state.connections) :
    ({ r with state := s } : Record).waiting index = r.waiting index := by
  simp only [waiting, h]

/-- A call leaves the ticks that wait alone; a new connection has none. -/
theorem Orderly.waiting_afterCall (ho : r.Orderly l limits) {call : PoolCall}
    {answer : Outcome Bool} {os : List (String × PoolOrder)} {s : DeskState}
    (heffect : PoolCall.Effect l r.state call answer os s) :
    (r.afterCall call answer os s).waiting index = r.waiting index := by
  show ((s.connections[index]?).map (·.phase.waiting)).getD [] = _
  rcases heffect.connections ho.sound ho.carriers ho.connections with
    ⟨-, hconn, -, -⟩ | ⟨o, -, -, -, hconn, -⟩ | ⟨o, name, -, -, -, -, hconn, -⟩
  · rw [hconn, waiting]
  · rw [hconn, List.getElem?_modify, waiting]
    split <;> cases r.state.connections[index]? <;> rfl
  · rw [hconn, waiting]
    rcases Nat.lt_trichotomy index r.state.connections.length with hlt | rfl | hgt
    · rw [List.getElem?_append_left hlt]
    · rw [List.getElem?_concat_length, List.getElem?_eq_none (Nat.le_refl _)]
      rfl
    · rw [List.getElem?_eq_none (by simpa using hgt), List.getElem?_eq_none (Nat.le_of_lt hgt)]

/-- **In a step no tick is lost and none is made up.** -/
theorem Happens.exact (hreturns : l.Returns) (hroom : 0 < limits.symbols)
    (ho : r.Orderly l limits) {h : Happening} (hhappens : Happens l r h r') :
    r.waiting index ++ (r.entry index h).heard.filterMap (Heard.tick? l) =
      (r.entry index h).handed ++ r'.waiting index ∧
    (r.entry index h).reported.filter Event.isUnreadable =
      (r.entry index h).heard.filterMap (Heard.complaint? l) := by
  cases hhappens with
  | call hends =>
    refine ⟨?_, rfl⟩
    rw [ho.waiting_afterCall (PoolCall.effect (ho.limits ▸ hroom) ho.sound hends)]
    exact List.append_nil _
  | elsewhere es hpool hcarriers hconn =>
    refine ⟨?_, rfl⟩
    rw [waiting_of_connections (r := r) (s := DeskState.withEvents _ es) hconn]
    exact List.append_nil _
  | @reaction w place i hw =>
    cases hk : r.state.connections[place]? with
    | none =>
      rw [afterReaction_none hk]
      by_cases hplace : place = index
      · subst hplace
        simp [entry, hk, Journal.empty]
      · simp [entry, hplace, Journal.empty]
    | some k =>
      obtain ⟨hlt, -⟩ := List.getElem?_eq_some_iff.mp hk
      have hconn := congrArg DeskState.connections (state_afterReaction hk w i)
      by_cases hplace : place = index
      · subst hplace
        have hexact := react_exact hreturns (ho.sees hw) (k := k) i
        simp only [entry, hk, if_true, waiting, hconn, List.getElem?_set_self hlt]
        exact hexact
      · simp [entry, hplace, Journal.empty, waiting, hconn, List.getElem?_set_ne hplace]

/-- **Along a run no tick is lost and none is made up**, and none changes its place.  What waited
at the beginning and what was heard is what was handed over and what waits at the end. -/
theorem Run.exact (hreturns : l.Returns) (hroom : 0 < limits.symbols) {hs : List Happening}
    {j : Journal} (hrun : Run l index r hs j r') (h : Reached l limits r) :
    r.waiting index ++ j.heard.filterMap (Heard.tick? l) = j.handed ++ r'.waiting index ∧
    j.reported.filter Event.isUnreadable = j.heard.filterMap (Heard.complaint? l) := by
  induction hrun with
  | nil r => exact ⟨List.append_nil _, rfl⟩
  | @cons r r₁ r₂ hap hs j hhappens _ ih =>
    obtain ⟨hticks, hunread⟩ := hhappens.exact hreturns hroom (h.orderly hroom)
    obtain ⟨ihticks, ihunread⟩ := ih (h.step (step_iff_happens.mpr ⟨_, hhappens⟩))
    constructor
    · calc r.waiting index ++ ((r.entry index hap).append j).heard.filterMap (Heard.tick? l)
          = (r.waiting index ++ (r.entry index hap).heard.filterMap (Heard.tick? l)) ++
              j.heard.filterMap (Heard.tick? l) := by
            rw [Journal.append, List.filterMap_append, List.append_assoc]
        _ = (r.entry index hap).handed ++
              (r₁.waiting index ++ j.heard.filterMap (Heard.tick? l)) := by
            rw [hticks, List.append_assoc]
        _ = ((r.entry index hap).append j).handed ++ r₂.waiting index := by
            rw [ihticks, Journal.append, List.append_assoc]
    · rw [Journal.append, List.filter_append, List.filterMap_append, hunread, ihunread]

/-! ## 5. Frames that are no ticks -/

/-- A connection that is not live leaves an arrival where it is. -/
theorem react_arrival_of_deaf {f : Frame} {written : Bool} (hdata : f.isData = true)
    (hf : k.dataFrame? (.arrival (.frame f) written) = none) :
    k.react v (.arrival (.frame f) written) = (k, []) := by
  unfold Connection.dataFrame? at hf
  unfold Connection.react
  cases hphase : k.phase with
  | live horizon => simp [hphase, hdata] at hf
  | dialing | replaying | sending _ _ | delivering _ _ | resting _ | ended => rfl

/-- **A frame that is no tick changes nothing of a connection**, and is remarked upon at most. -/
theorem react_overlooked (hreturns : l.Returns) {calls : List (PoolCall × Outcome Bool)}
    (hsees : Sees l calls v) {f : Frame} (hdata : f.isData = true)
    (hnone : Heard.tick? l ⟨k.name, f, v.clock, calls⟩ = none) (written : Bool) :
    ∃ es : List Event,
      k.react v (.arrival (.frame f) written) = (k, es.map ConnectionEffect.report) := by
  cases hf : k.dataFrame? (.arrival (.frame f) written) with
  | none => exact ⟨[], react_arrival_of_deaf hdata hf⟩
  | some f' =>
    obtain ⟨horizon, written', hphase, hi, hhear⟩ := dataFrame?_eq_some (v := v) hf
    cases hi
    refine ⟨Heard.remarks l ⟨k.name, f, v.clock, calls⟩, ?_⟩
    have heq := receive_eq (h := ⟨k.name, f, v.clock, calls⟩) (k := k) hsees hreturns rfl rfl
      horizon
    rw [hnone] at heq
    simp only [Connection.react, hphase]
    rw [hhear]
    exact heq

theorem set_of_getElem? {α : Type} {as : List α} {n : Nat} {a : α} (h : as[n]? = some a) :
    as.set n a = as := by
  obtain ⟨hlt, rfl⟩ := List.getElem?_eq_some_iff.mp h
  exact List.set_getElem_self hlt

/-- A connection that does not change and writes nothing has nothing to note. -/
theorem noted_of_same {i : ConnectionInput} (hi : i ≠ .opened) {s : DeskState}
    (hs : s.connections = r.state.connections) : r.noted index i s [] = r.diaries := by
  unfold noted
  rw [hs]
  cases r.state.connections[index]? with
  | none => rfl
  | some k =>
    have hnote : (fun d : Diary => d.note k k i []) = id := by
      funext d
      simp [Diary.note, hi]
    simp only [hnote, List.modify_id]

/-- **A frame that is no tick leaves no trace but in the events.** -/
theorem Orderly.afterReaction_overlooked (ho : r.Orderly l limits) (hreturns : l.Returns)
    {w : Surroundings} (hw : w.listing = l) (hk : r.state.connections[index]? = some k) {f : Frame}
    (hdata : f.isData = true)
    (hnone : Heard.tick? l ⟨k.name, f, r.state.instant, r.calls⟩ = none) (written : Bool) :
    (∃ es, r.afterReaction w index (.arrival (.frame f) written) = r.withEvents es) ∧
    ∀ other, (r.entry other (.reaction w index (.arrival (.frame f) written))).handed = [] := by
  obtain ⟨es, hreact⟩ := react_overlooked hreturns (ho.sees hw) hdata hnone written
  constructor
  · have hstate : (r.afterReaction w index (.arrival (.frame f) written)).state =
        r.state.withEvents (r.state.events ++ es) := by
      rw [state_afterReaction hk]
      simp only [entry, hk, if_true, Journal.ofReaction, hreact, ticks_map_report,
        events_map_report, set_of_getElem? hk, List.append_nil]
      rfl
    have hframes : (r.state.connectionStep w index (.arrival (.frame f) written)).2 = [] := by
      simp [DeskState.connectionStep, hk, hreact, ConnectionEffect.frames]
    refine ⟨r.state.events ++ es, ?_⟩
    unfold Record.afterReaction at hstate ⊢
    simp only [hframes] at hstate ⊢
    have hi : ConnectionInput.arrival (.frame f) written ≠ .opened := by
      rintro ⟨⟩
    have hdiaries : r.noted index (.arrival (.frame f) written)
        (r.state.withEvents (r.state.events ++ es)) [] = r.diaries := noted_of_same hi rfl
    rw [hstate, hdiaries]
    rfl
  · intro other
    simp only [entry]
    split
    · subst_vars
      rw [hk]
      show ConnectionEffect.ticks (k.react _ _).2 = []
      rw [hreact]
      exact ticks_map_report es
    · rfl

/-- **A run hands over the same ticks with such a frame and without.** -/
theorem handed_cons_iff {w : Surroundings} (hw : w.listing = l) {i : ConnectionInput}
    {es : List Event} (hsame : r.afterReaction w index i = r.withEvents es) {other : Nat}
    (hnone : (r.entry other (.reaction w index i)).handed = []) (hs : List Happening)
    (ts : List Tick) :
    (∃ j r₁, Run l other r hs j r₁ ∧ j.handed = ts) ↔
      ∃ j r₁, Run l other r (.reaction w index i :: hs) j r₁ ∧ j.handed = ts := by
  have happend : ∀ j, ((r.entry other (.reaction w index i)).append j).handed = j.handed := by
    intro j
    rw [Journal.append, hnone, List.nil_append]
  constructor
  · rintro ⟨j, r₁, hrun, rfl⟩
    obtain ⟨es', hrun'⟩ := hrun.withEvents es
    exact ⟨_, _, .cons (.reaction index i hw) (hsame ▸ hrun'), happend j⟩
  · rintro ⟨j, r₁, hrun, rfl⟩
    cases hrun with
    | cons hhappens hrest =>
      cases hhappens
      rw [hsame] at hrest
      obtain ⟨es', hrest'⟩ := hrest.withEvents r.state.events
      exact ⟨_, _, hrest', (happend _).symm⟩

/-- What a connection hands over is what the host gets. -/
theorem ticks_afterReaction (r : Record) (w : Surroundings) (index : Nat) (i : ConnectionInput) :
    (r.afterReaction w index i).state.ticks =
      r.state.ticks ++ (r.entry index (.reaction w index i)).handed := by
  cases hk : r.state.connections[index]? with
  | none =>
    rw [afterReaction_none hk]
    simp [entry, hk, Journal.empty]
  | some k => rw [state_afterReaction hk]

end Record

/-! ## 6. Ticks are exact -/

/-- **Ticks are exact.**  Whatever happens to a desk, what one of its connections hands to the host
are, in order and each once, the frames that it heard and that are ticks the host had subscribed to
at that moment; at most one of them waits for room.  Each frame that cannot be read is reported
once.  A frame that is no tick, whenever it arrives, leaves everything as it is but for the events:
the connection is not even aware of it, and from there on every connection can hand over the same
ticks with the frame and without. -/
theorem ticks_exact {l : Listing} {surface : Surface} {symbols : List ListedSymbol}
    (hl : l = .ofSymbols surface symbols) {limits : PoolLimits} (hroom : 0 < limits.symbols)
    {r r' : Record} (h : Record.Reached l limits r) {index : Nat} {hs : List Happening}
    {j : Journal} (hrun : Record.Run l index r hs j r') :
    r.waiting index ++ j.heard.filterMap (Heard.tick? l) = j.handed ++ r'.waiting index ∧
    j.reported.filter Event.isUnreadable = j.heard.filterMap (Heard.complaint? l) ∧
    (∀ w i, (r'.afterReaction w index i).state.ticks =
      r'.state.ticks ++ (r'.entry index (.reaction w index i)).handed) ∧
    ∀ (w : Surroundings) (k : Connection) (f : Frame) (written : Bool), w.listing = l →
      r'.state.connections[index]? = some k → f.isData = true →
      Heard.tick? l ⟨k.name, f, r'.state.instant, r'.calls⟩ = none →
        (∃ es, r'.afterReaction w index (.arrival (.frame f) written) = r'.withEvents es) ∧
        ∀ (other : Nat) (later : List Happening) (ts : List Tick),
          (∃ j₁ r₁, Record.Run l other r' later j₁ r₁ ∧ j₁.handed = ts) ↔
            ∃ j₁ r₁, Record.Run l other r'
              (.reaction w index (.arrival (.frame f) written) :: later) j₁ r₁ ∧
              j₁.handed = ts := by
  have hreturns : l.Returns := hl ▸ Listing.returns_ofSymbols surface symbols
  obtain ⟨hticks, hunread⟩ := hrun.exact hreturns hroom h
  refine ⟨hticks, hunread, fun w i => r'.ticks_afterReaction w index i, ?_⟩
  intro w k f written hw hk hdata hnone
  have ho := (hrun.reached h).orderly hroom
  obtain ⟨⟨es, hsame⟩, hnothing⟩ :=
    ho.afterReaction_overlooked hreturns hw hk hdata hnone written
  exact ⟨⟨es, hsame⟩, fun other later ts =>
    Record.handed_cons_iff hw hsame (hnothing other) later ts⟩

/-- The listing of one symbol, as the exchange gives it. -/
def bitcoin : ListedSymbol := ⟨"BTCUSDT", "BTC", "USDT", none, none, none⟩

/-- What the desk makes of it. -/
def bitcoinListing : Listing := ⟨.spot, ⟨[("BTCUSDT", bitcoin)]⟩, ⟨[("BTCUSDT", "BTCUSDT")]⟩⟩

theorem ofSymbols_bitcoin : bitcoinListing = .ofSymbols .spot [bitcoin] := by decide +kernel

/-- A trade of the only symbol there is. -/
def bitcoinFrame : Frame :=
  .text "\x7b\"e\":\"trade\",\"s\":\"BTCUSDT\",\"p\":\"100.5\",\"q\":\"2\",\"T\":1700000000000\x7d"

/-- The tick that it is. -/
def bitcoinTick : Tick :=
  .trade ⟨"BTCUSDT", .crypto, "binance"⟩ (Instant.ofMillis 1700000000000)
    ((Decimal.ofParts? 1005 1).getD .zero) ((Decimal.ofInt? 2).getD .zero)

/-- A desk that subscribes to the trades of one symbol hears something that it cannot read, and
then a trade. -/
def bitcoinHappenings : List Happening :=
  [.call (.subscribe ⟨⟨"BTCUSDT", .crypto, "binance"⟩, .tick, .trade⟩) (.ok true),
    .reaction (.standard bitcoinListing) 0 .opened,
    .reaction (.standard bitcoinListing) 0 (.turn true),
    .reaction (.standard bitcoinListing) 0 (.arrival (.frame (.text "?")) true),
    .reaction (.standard bitcoinListing) 0 (.arrival (.frame bitcoinFrame) true),
    .reaction (.standard bitcoinListing) 0 .taken]

theorem run_bitcoin :
    ∃ j r', Record.Run bitcoinListing 0 (.start (.start ⟨1, 1⟩ 0)) bitcoinHappenings j r' ∧
      r'.waiting 0 = [] ∧ j.heard.filterMap (Heard.tick? bitcoinListing) = [bitcoinTick] ∧
      (j.heard.filterMap (Heard.complaint? bitcoinListing)).length = 1 := by
  have hfollow : (Record.follow? bitcoinListing 0 bitcoinHappenings
      (.start (.start ⟨1, 1⟩ 0))).any (fun run => run.2.waiting 0 = [] &&
        run.1.heard.filterMap (Heard.tick? bitcoinListing) = [bitcoinTick] &&
        (run.1.heard.filterMap (Heard.complaint? bitcoinListing)).length = 1) = true := by
    decide +kernel
  obtain ⟨⟨j, r'⟩, hrun, hend⟩ := (Option.any_eq_true ..).mp hfollow
  simp only [Bool.and_eq_true, decide_eq_true_eq] at hend
  exact ⟨j, r', Record.run_of_follow? hrun, hend.1.1, hend.1.2, hend.2⟩

theorem ticks_exact_bitcoin :
    ∃ j r', bitcoinListing = .ofSymbols .spot [bitcoin] ∧ 0 < 1 ∧
      Record.Reached bitcoinListing ⟨1, 1⟩ (.start (.start ⟨1, 1⟩ 0)) ∧
      Record.Run bitcoinListing 0 (.start (.start ⟨1, 1⟩ 0)) bitcoinHappenings j r' ∧
      j.handed = [bitcoinTick] ∧ (j.reported.filter Event.isUnreadable).length = 1 := by
  obtain ⟨j, r', hrun, hwaiting, hheard, hcomplaints⟩ := run_bitcoin
  have hreached : Record.Reached bitcoinListing ⟨1, 1⟩ (.start (.start ⟨1, 1⟩ 0)) :=
    .start rfl rfl rfl
  obtain ⟨hticks, hunread, -⟩ := ticks_exact ofSymbols_bitcoin (by decide) hreached hrun
  rw [hheard, hwaiting, List.append_nil] at hticks
  exact ⟨j, r', ofSymbols_bitcoin, by decide, hreached, hrun, hticks.symm,
    hunread ▸ hcomplaints⟩

end Feed
end OrderDesk
