import OrderDesk.Proofs.Keys.Line
import OrderDesk.Proofs.Sessions

/-!
# Calls about the session

What the host does to the session is seen to in four procedures, one after another: to get a key
(`Sessions.obtainKey`), to start a supervisor under it, to wait for the end of a supervisor, and to
release the key (`closing`).  Only the first and the last have to do with keys, and nobody is at
work then (`Seeks`); so host and supervisor never get into each other's way.

A line is either vacant, with a call that got so far; or manned, and a call that is under way has
not begun or is done; or its supervisor is on the way out, and a call waits for it (`Staffed`).
Each move of a call leads from one of these to another, in order (`Vacant.call`, `Manned.call`,
`Manned.leave`).
-/

namespace OrderDesk.Keys

variable {d : Desk} {l : Line} {k : Known} {b : Bool} {s : DeskState} {i : Nat}

/-! ## 1. Calls -/

/-- Cancels the desk. -/
def withdraw (o : Outcome Unit) : Trial Unit :=
  .access (fun s => { s with cancelled := true }) fun _ => .done o

/-- What a call does after it released the key. -/
def finish : HostCall → Outcome Unit → Trial Unit
  | .dispose, o => Feed.stop.bind fun _ => withdraw o
  | .connect, o | .disconnect, o => .done o

/-- What a call that closes the session does once the session is over. -/
def closing (d : Desk) (c : HostCall) : Trial Unit := d.releaseListenKey.bind (finish c)

theorem deed_eq {c : HostCall} (hc : c ≠ .connect) :
    c.deed d = Desk.endSession.bind fun _ => closing d c := by
  cases c with
  | connect => exact absurd rfl hc
  | disconnect =>
    show Desk.endSession.bind (fun _ => d.releaseListenKey) = _
    congr 1
    funext _
    exact (Act.bind_done _).symm
  | dispose => exact Act.bind_assoc _ _ _

/-- The stored key stays or is forgotten. -/
def Forgets (s s' : DeskState) : Prop := s'.listenKey = s.listenKey ∨ s'.listenKey = none

theorem within_release : d.releaseListenKey.Within Forgets := by
  have hrequests : SparesRequests Forgets := fun _ _ _ => Or.inl rfl
  have hlock : Deed.lockKey.Within Forgets := ⟨fun _ _ => Or.inl rfl, fun _ => trivial⟩
  refine hlock.bind fun _ => Act.Within.bind (fun s => ⟨Or.inr rfl, ?_⟩) fun o s =>
    ⟨Or.inl rfl, trivial⟩
  dsimp only
  split
  · trivial
  · exact (Rest.within_request hrequests ..).andThen fun _ => trivial

theorem within_stop : Feed.stop.Within Forgets :=
  fun _ => ⟨Or.inl rfl, fun _ _ => Or.inl rfl, fun _ => trivial⟩

/-- A key that was obtained is stored, and the desk can sign. -/
def Obtained (d : Desk) (k : Known) (o : Outcome String) : Prop :=
  ∀ key, o = .ok key → d.signer.isSome = true ∧ k.stored = some key ∧ k.ledger.key = some key

theorem keeps_obtainKey (hsigned : d.signer.isSome = true) (hpresent : k.ledger.parted = false)
    (hpaid : k.ledger.owed = none) :
    (Sessions.obtainKey d).Keeps (watch d b) (Obtained d) k := by
  refine Act.Keeps.andThen (keeps_syncClock.mono ?_)
  rintro k' o rfl
  cases o with
  | error e => exact nofun
  | ok offset =>
    exact (keeps_createListenKey hpresent hpaid).mono
      fun k'' o ⟨_, hkey⟩ key ho => ⟨hsigned, hkey key ho⟩

/-- How far a call got while nobody is at work.

* `fresh`: it has not begun;
* `connecting`: it gets a key, and will start a supervisor under it;
* `closing`: it releases the key;
* `disposing`, `disposed`: it has released the key, and cancels the desk. -/
inductive Seeks (d : Desk) (k : Known) (b : Bool) : HostCall × Trial Unit → Prop
  | fresh (c : HostCall) : Seeks d k b (c, c.deed d)
  | connecting {x : Trial String} : x.Keeps (watch d b) (Obtained d) k →
      Seeks d k b (.connect, x.bind Sessions.begin)
  | closing {c : HostCall} {x : Trial Unit} : c ≠ .connect →
      x.Keeps (watch d b) (fun k _ => k.stored = none) k → x.Within Forgets →
      Seeks d k b (c, x.bind (finish c))
  | disposing {x : Deed Unit} (o : Outcome Unit) :
      x.Keeps (watch d b) (fun k _ => k.stored = none) k → x.Within Forgets →
      Seeks d k b (.dispose, x.bind fun _ => withdraw o)
  | disposed (o : Outcome Unit) : k.stored = none → Seeks d k b (.dispose, .done o)

/-- A call about to close the session, where nobody is at work. -/
theorem Seeks.of_closing {c : HostCall} (hc : c ≠ .connect) (hpaid : k.ledger.owed = none)
    (hforgotten : k.ledger.parted = true → k.stored = none) : Seeks d k b (c, Keys.closing d c) :=
  .closing hc ((keeps_releaseListenKey hforgotten (Or.inl hpaid)).mono fun _ _ h => h.1)
    within_release

/-- A call to connect that saw that nobody is at work. -/
theorem Seeks.of_looked (hnobody : s.isConnected = false) (hpresent : k.ledger.parted = false)
    (hpaid : k.ledger.owed = none) : Seeks d k b (.connect, Sessions.looked d s) := by
  unfold Sessions.looked
  rw [if_neg (Bool.eq_false_iff.mp hnobody)]
  cases hsigner : d.signer with
  | none => exact .connecting (x := .fail Desk.keysNeeded) nofun
  | some signer => exact .connecting (keeps_obtainKey (hsigner ▸ rfl) hpresent hpaid)

/-- **How a call comes back** where nobody is at work: it failed to connect, or no key is stored. -/
theorem Seeks.back {c : HostCall} {o : Outcome Unit} (h : Seeks d k b (c, .done o)) :
    c = .connect ∧ (∃ e, o = .error e) ∨ c ≠ .connect ∧ k.stored = none := by
  generalize hx : ((c, Act.done o) : HostCall × Trial Unit) = m at h
  cases h with
  | fresh c => cases c <;> cases hx
  | @connecting x hkeeps =>
    obtain ⟨rfl, hx⟩ := Prod.mk.inj hx
    cases x with
    | done o' =>
      cases o' with
      | ok key => cases hx
      | error e => cases hx; exact Or.inl ⟨rfl, e, rfl⟩
    | _ => cases hx
  | @closing c x hc hkeeps hwithin =>
    obtain ⟨rfl, hx⟩ := Prod.mk.inj hx
    cases x with
    | done o' => exact Or.inr ⟨hc, hkeeps⟩
    | _ => cases hx
  | @disposing x o hkeeps hwithin =>
    obtain ⟨rfl, hx⟩ := Prod.mk.inj hx
    cases x <;> cases hx
  | disposed o hstored =>
    cases hx
    exact Or.inr ⟨nofun, hstored⟩

/-- Nobody is at work, or a supervisor is, or the last one is on its way out; and how far the call
got that is under way.  A call to connect does not begin while there is a supervisor of a desk that
the host disposed of. -/
inductive Staffed (d : Desk) (l : Line) : Prop
  | vacant : Vacant d l → (∀ m, l.caller = some m → Seeks d (l.known d) l.state.cancelled m) →
      Staffed d l
  | manned (i : Nat) : Manned d l i false → (∀ c x, l.caller = some (c, x) →
      x = c.deed d ∧ (c = .connect → (l.known d).ledger.disposed = false) ∨
        c = .connect ∧ x = .done (.ok ())) →
      (l.caller = none → linked l.log = true) → Staffed d l
  | leaving (i : Nat) (c : HostCall) : Manned d l i true → c ≠ .connect →
      l.caller = some (c, (Act.untilReady (Desk.isOver i)).bind fun _ => closing d c) → Staffed d l

/-! ## 2. Moves where nobody is at work -/

theorem Unbound.after (h : Unbound k) (t : Act.Trace) (stored : Option String) :
    Unbound (k.after (d := d) (sightsOf t) stored) := by
  cases t with
  | asked q o =>
    refine ⟨h.socket, ?_⟩
    show k.ledger.owed.filter _ = none
    rw [h.paid]
    rfl
  | changed => exact ⟨h.socket, h.paid⟩
  | silent => exact ⟨h.socket, h.paid⟩

/-- What has to be seen to for nobody to get to work. -/
theorem Vacant.of_log (h : Vacant d l) {es : List Sight} (caller : Option (HostCall × Trial Unit))
    (hsessions : s.sessions = l.state.sessions) (hcurrent : s.current = l.state.current)
    (hunbound : Unbound ((l.known d).after (d := d) es s.listenKey))
    (hunlinked : linked (l.log ++ es) = false)
    (hforgotten : (es.foldl (Ledger.note d) (l.known d).ledger).parted = true →
      s.listenKey = none)
    (hsettled : s.cancelled = true →
      (es.foldl (Ledger.note d) (l.known d).ledger).disposed = true ∨
        ∃ o, caller = some (.dispose, .done o)) :
    Vacant d ⟨s, caller, l.errands, l.log ++ es⟩ where
  current := hcurrent.trans h.current
  retired j := by
    unfold Desk.isOver
    rw [hsessions]
    exact h.retired j
  free := h.free
  unbound := by
    rw [known_of_log (l := l) rfl]
    exact hunbound
  unlinked := hunlinked
  forgotten hparted := by
    rw [known_of_log (l := l) rfl] at hparted
    exact hforgotten hparted
  settled hcancelled := by
    rw [known_of_log (l := l) rfl]
    exact hsettled hcancelled

/-- A move of a call where nobody is at work, and nobody gets to. -/
theorem Vacant.move (h : Vacant d l) (t : Act.Trace) (caller : Option (HostCall × Trial Unit))
    (hsessions : s.sessions = l.state.sessions) (hcurrent : s.current = l.state.current)
    (hforgotten : (l.known d).ledger.parted = true → s.listenKey = none)
    (hsettled : s.cancelled = true →
      (l.known d).ledger.disposed = true ∨ ∃ o, caller = some (.dispose, .done o)) :
    Vacant d ⟨s, caller, l.errands, l.log ++ sightsOf t⟩ := by
  obtain ⟨hparted, hdisposed⟩ := host_foldl (d := d) (isCall_sightsOf t) (l.known d).ledger
  refine h.of_log caller hsessions hcurrent (h.unbound.after t _)
    ((linked_append (isCall_sightsOf t)).trans h.unlinked) ?_ ?_
  · rw [hparted]
    exact hforgotten
  · rw [hdisposed]
    exact hsettled

variable {c : HostCall} {x x' : Trial Unit} {t : Act.Trace}

/-- Whoever makes a move on a desk that is cancelled does so after the host disposed of it. -/
theorem Vacant.gone {s₀ : DeskState} (h : Vacant d l) (hcaller : l.caller = some (c, x))
    (hmove : Act.Move x s₀ t x' s) :
    l.state.cancelled = true → (l.known d).ledger.disposed = true := by
  intro hcancelled
  rcases h.settled hcancelled with hgone | ⟨o, hdone⟩
  · exact hgone
  · obtain ⟨rfl, rfl⟩ := Prod.mk.inj (Option.some.inj (hcaller.symm.trans hdone))
    cases hmove

/-- The move of a procedure that keeps to the watch, where nobody is at work. -/
theorem Vacant.keeps {α : Type} {y y' : Deed α} {post : Known → α → Prop} (h : Vacant d l)
    (hkeeps : y.Keeps (watch d l.state.cancelled) post (l.known d))
    (hmove : Act.Move y { l.state with actor := 0 } t y' s)
    (hgone : l.state.cancelled = true → (l.known d).ledger.disposed = true)
    (hforgotten : (l.known d).ledger.parted = true → s.listenKey = none)
    (caller : Option (HostCall × Trial Unit)) :
    Vacant d ⟨s, caller, l.errands, l.log ++ sightsOf t⟩ ∧
      Orderly d (l.known d).ledger (sightsOf t) ∧ s.cancelled = l.state.cancelled ∧
      y'.Keeps (watch d l.state.cancelled) post
        (Line.known d ⟨s, caller, l.errands, l.log ++ sightsOf t⟩) := by
  have hmeets : (watch d l.state.cancelled).meets (l.known d) { l.state with actor := 0 } :=
    ⟨rfl, rfl⟩
  obtain ⟨k', hkeeps', hfollows⟩ := hkeeps.move hmeets hmove fun _ _ _ => trivial
  obtain ⟨rfl, horderly, hsessions, hcurrent, hcancelled⟩ := known_of_follows hfollows hmeets
  refine ⟨h.move t caller hsessions hcurrent hforgotten fun hc => Or.inl ?_, horderly, hcancelled,
    ?_⟩
  · exact hgone (hcancelled.symm.trans hc)
  rw [known_of_log (l := l) rfl]
  exact hkeeps'

/-- What stays within forgetting stores no key where none was. -/
theorem forgotten_of_within {α : Type} {y y' : Deed α} (h : Vacant d l) (hwithin : y.Within Forgets)
    (hmove : Act.Move y { l.state with actor := 0 } t y' s) :
    (l.known d).ledger.parted = true → s.listenKey = none := by
  intro hparted
  rcases (hwithin.move hmove).2 with rfl | hsame | hnone
  · exact h.forgotten hparted
  · exact hsame.trans (h.forgotten hparted)
  · exact hnone

/-- A supervisor that was just started is the one at work. -/
theorem manned_of_supervise (h : Vacant d l) {key : String}
    (hobtained : Obtained d (l.known d) (.ok key)) (hpresent : (l.known d).ledger.parted = false)
    (hgone : l.state.cancelled = true → (l.known d).ledger.disposed = true)
    (caller : Option (HostCall × Trial Unit)) :
    Manned d ⟨Desk.supervise key { l.state with actor := 0 }, caller, l.errands,
      l.log ++ sightsOf .changed⟩ l.state.sessions.length false := by
  obtain ⟨hsigned, hstored, hlatest⟩ := hobtained key rfl
  have hlog : l.log ++ sightsOf .changed = l.log := List.append_nil _
  rw [hlog]
  refine ⟨rfl, fun j hj => ?_, fun j _ => h.free j,
    ⟨.start key, List.getElem?_concat_length, ?_, nofun⟩, hpresent, nofun, hgone, hsigned⟩
  · unfold Desk.isOver Desk.supervise
    dsimp only
    -- the places before the new one are retired, and there are none after it
    rcases Nat.lt_or_gt_of_ne hj with hlt | hgt
    · rw [List.getElem?_append_left hlt]
      exact h.retired j
    · rw [List.getElem?_eq_none (by rw [List.length_append, List.length_singleton]; omega)]
      rfl
  · dsimp only
    rw [h.free]
    exact .waiting ⟨hlatest, hstored, h.unbound.socket, h.unbound.paid⟩

theorem Vacant.isConnected (h : Vacant d l) : l.state.isConnected = false := by
  unfold DeskState.isConnected
  rw [h.current]
  rfl

/-- A call to connect looks whether there is a supervisor. -/
theorem move_connect {s₀ : DeskState} (hmove : Act.Move (HostCall.connect.deed d) s₀ t x' s) :
    t = .changed ∧ s = s₀ ∧ x' = Sessions.looked d s₀ := by
  have hdeed : HostCall.connect.deed d = .access id (Sessions.looked d) := Sessions.connect_eq d
  rw [hdeed] at hmove
  cases hmove with
  | access => exact ⟨rfl, rfl, rfl⟩

/-- Any other call closes the session at once, or tells the supervisor to end and waits for it. -/
theorem move_leave {s₀ : DeskState} (hc : c ≠ .connect) (hmove : Act.Move (c.deed d) s₀ t x' s) :
    t = .changed ∧
      match s₀.current with
      | none => s = s₀ ∧ x' = closing d c
      | some i => s = { Desk.stopSession i s₀ with current := none } ∧
          x' = (Act.untilReady (Desk.isOver i)).bind fun _ => closing d c := by
  rw [deed_eq hc] at hmove
  cases hmove with
  | access =>
    refine ⟨rfl, ?_⟩
    dsimp only
    split
    · rename_i hcurrent
      rw [hcurrent]
      refine ⟨?_, rfl⟩
      show { s₀ with current := none } = s₀
      rw [← hcurrent]
    · rename_i i hcurrent
      rw [hcurrent]
      exact ⟨rfl, rfl⟩

theorem Staffed.of_seeks {errands : Nat → Option (Deed SupervisorInput)} {log : List Sight}
    {m : HostCall × Trial Unit} (h : Vacant d ⟨s, some m, errands, log⟩)
    (hseeks : Seeks d (Line.known d ⟨s, some m, errands, log⟩) s.cancelled m) :
    Staffed d ⟨s, some m, errands, log⟩ := by
  refine .vacant h ?_
  rintro _ ⟨⟩
  exact hseeks

/-- The first move of a call: it goes for a key, or releases the one that is stored. -/
theorem Vacant.begin (h : Vacant d l) (hpresent : c = .connect → (l.known d).ledger.parted = false)
    (hgone : l.state.cancelled = true → (l.known d).ledger.disposed = true)
    (hmove : Act.Move (c.deed d) { l.state with actor := 0 } t x' s) :
    Orderly d (l.known d).ledger (sightsOf t) ∧
      Staffed d ⟨s, some (c, x'), l.errands, l.log ++ sightsOf t⟩ := by
  by_cases hc : c = .connect
  · subst hc
    obtain ⟨rfl, rfl, rfl⟩ := move_connect hmove
    have hvacant := h.move .changed (some (.connect, Sessions.looked d { l.state with actor := 0 }))
      (s := { l.state with actor := 0 }) rfl rfl h.forgotten fun hc => Or.inl (hgone hc)
    refine ⟨trivial, .of_seeks hvacant (.of_looked h.isConnected ?_ hvacant.unbound.paid)⟩
    rw [known_of_log (l := l) rfl]
    exact hpresent rfl
  · obtain ⟨rfl, hleave⟩ := move_leave hc hmove
    have hnobody : ({ l.state with actor := 0 } : DeskState).current = none := h.current
    rw [hnobody] at hleave
    obtain ⟨rfl, rfl⟩ := hleave
    have hvacant := h.move .changed (some (c, closing d c)) (s := { l.state with actor := 0 }) rfl
      rfl h.forgotten fun hc => Or.inl (hgone hc)
    exact ⟨trivial, .of_seeks hvacant (.of_closing hc hvacant.unbound.paid hvacant.forgotten)⟩

/-- A move after the key was released: what is left ends with the desk cancelled. -/
theorem Vacant.dispose (h : Vacant d l) {y : Deed Unit} {o : Outcome Unit}
    (hkeeps : y.Keeps (watch d l.state.cancelled) (fun k _ => k.stored = none) (l.known d))
    (hwithin : y.Within Forgets)
    (hgone : l.state.cancelled = true → (l.known d).ledger.disposed = true)
    (hmove : Act.Move (y.bind fun _ => withdraw o) { l.state with actor := 0 } t x' s) :
    Orderly d (l.known d).ledger (sightsOf t) ∧
      Staffed d ⟨s, some (.dispose, x'), l.errands, l.log ++ sightsOf t⟩ := by
  rcases Act.move_bind hmove with ⟨_, rfl, hlast⟩ | ⟨y', hstop, rfl⟩
  · cases hlast with
    | access =>
      have hstored : l.state.listenKey = none := hkeeps
      have hvacant := h.move .changed (some (.dispose, .done o))
        (s := { l.state with actor := 0, cancelled := true }) rfl rfl (fun _ => hstored)
        fun _ => Or.inr ⟨o, rfl⟩
      exact ⟨trivial, .of_seeks hvacant (.disposed o hstored)⟩
  · obtain ⟨hvacant, horderly, hcancelled, hkeeps'⟩ :=
      h.keeps hkeeps hstop hgone (forgotten_of_within h hwithin hstop) _
    rw [← hcancelled] at hkeeps'
    exact ⟨horderly, .of_seeks hvacant (.disposing o hkeeps' (hwithin.move hstop).1)⟩

/-- **The move of a call where nobody is at work.** -/
theorem Vacant.call (h : Vacant d l) (hcaller : l.caller = some (c, x))
    (hseeks : Seeks d (l.known d) l.state.cancelled (c, x))
    (hpresent : c = .connect → (l.known d).ledger.parted = false)
    (hmove : Act.Move x { l.state with actor := 0 } t x' s) :
    Orderly d (l.known d).ledger (sightsOf t) ∧
      Staffed d ⟨s, some (c, x'), l.errands, l.log ++ sightsOf t⟩ := by
  have hgone := h.gone hcaller hmove
  cases hseeks with
  | fresh => exact h.begin hpresent hgone hmove
  | @connecting y hkeeps =>
    rcases Act.move_bind hmove with ⟨o, rfl, hbegin⟩ | ⟨y', hobtain, rfl⟩
    · cases o with
      | error e => cases hbegin
      | ok key =>
        cases hbegin with
        | access =>
          refine ⟨trivial, .manned _ (manned_of_supervise h hkeeps (hpresent rfl) hgone _) ?_ nofun⟩
          rintro _ _ ⟨⟩
          exact Or.inr ⟨rfl, rfl⟩
    · have hnever : (l.known d).ledger.parted = true → s.listenKey = none :=
        fun hparted => nomatch (hpresent rfl).symm.trans hparted
      obtain ⟨hvacant, horderly, hcancelled, hkeeps'⟩ := h.keeps hkeeps hobtain hgone hnever _
      rw [← hcancelled] at hkeeps'
      exact ⟨horderly, .of_seeks hvacant (.connecting hkeeps')⟩
  | @closing _ y hc hkeeps hwithin =>
    rcases Act.move_bind hmove with ⟨o, rfl, hlast⟩ | ⟨y', hrelease, rfl⟩
    · cases c with
      | connect => exact absurd rfl hc
      | disconnect => cases hlast
      | dispose =>
        refine h.dispose (keeps_stop.mono fun k' _ hsame => ?_) within_stop hgone hlast
        rw [hsame]
        exact hkeeps
    · obtain ⟨hvacant, horderly, hcancelled, hkeeps'⟩ :=
        h.keeps hkeeps hrelease hgone (forgotten_of_within h hwithin hrelease) _
      rw [← hcancelled] at hkeeps'
      exact ⟨horderly, .of_seeks hvacant (.closing hc hkeeps' (hwithin.move hrelease).1)⟩
  | disposing o hkeeps hwithin => exact h.dispose hkeeps hwithin hgone hmove
  | disposed o hstored => cases hmove

/-! ## 3. Moves while a supervisor is at work -/

theorem Manned.uncancelled {stopped : Bool} (h : Manned d l i stopped)
    (hdisposed : (l.known d).ledger.disposed = false) : l.state.cancelled = false :=
  Bool.eq_false_iff.mpr fun hc => Bool.false_ne_true (hdisposed.symm.trans (h.disposed hc))

theorem Manned.isConnected (h : Manned d l i false)
    (hdisposed : (l.known d).ledger.disposed = false) : l.state.isConnected = true := by
  have hcancelled := h.uncancelled hdisposed
  obtain ⟨sup, hsession, -⟩ := h.serves
  have hcurrent : l.state.current = some i := h.current
  simp only [DeskState.isConnected, hcurrent, Option.bind_some, hsession, DeskState.sessionEnds,
    hcancelled, Bool.or_self, Bool.not_false]

/-- **The move of a call that begins while a supervisor is at work**: it sees that the desk is
connected, or it tells the supervisor to end. -/
theorem Manned.call (h : Manned d l i false)
    (hdisposed : c = .connect → (l.known d).ledger.disposed = false)
    (hunlinked : c ≠ .connect → linked l.log = false)
    (hmove : Act.Move (c.deed d) { l.state with actor := 0 } t x' s) :
    Orderly d (l.known d).ledger (sightsOf t) ∧
      Staffed d ⟨s, some (c, x'), l.errands, l.log ++ sightsOf t⟩ := by
  obtain ⟨sup, hsession, herrand, hlog⟩ := h.serves
  by_cases hc : c = .connect
  · subst hc
    obtain ⟨rfl, rfl, rfl⟩ := move_connect hmove
    have hlooked : Sessions.looked d { l.state with actor := 0 } = .done (.ok ()) :=
      if_pos (h.isConnected (hdisposed rfl))
    refine ⟨trivial, .manned i ?_ ?_ nofun⟩
    · show Manned d ⟨_, _, _, l.log ++ []⟩ i false
      rw [List.append_nil]
      exact ⟨h.current, h.retired, h.free, h.serves, h.present, h.unlinked, h.disposed, h.signed⟩
    · rintro _ _ ⟨⟩
      exact Or.inr ⟨rfl, hlooked⟩
  · obtain ⟨rfl, hleave⟩ := move_leave hc hmove
    have hcurrent : ({ l.state with actor := 0 } : DeskState).current = some i := h.current
    rw [hcurrent] at hleave
    obtain ⟨rfl, rfl⟩ := hleave
    refine ⟨trivial, .leaving i c ?_ hc rfl⟩
    show Manned d ⟨_, _, _, l.log ++ []⟩ i true
    rw [List.append_nil]
    refine ⟨rfl, fun j hj => ?_, h.free, ⟨sup, ?_, herrand.tell, fun _ => Or.inl rfl⟩, h.present,
      fun _ => hunlinked hc, h.disposed, h.signed⟩
    · unfold Desk.isOver Desk.stopSession
      dsimp only
      rw [List.getElem?_modify_ne _ _ (Ne.symm hj)]
      exact h.retired j hj
    · simp [Desk.stopSession, hsession]

/-- **A call that waited for the end of the supervisor goes on** when nobody is at work. -/
theorem Manned.leave (h : Manned d l i true) (hc : c ≠ .connect)
    (hmove : Act.Move ((Act.untilReady (Desk.isOver i)).bind fun _ => closing d c)
      { l.state with actor := 0 } t x' s) :
    Orderly d (l.known d).ledger (sightsOf t) ∧
      Staffed d ⟨s, some (c, x'), l.errands, l.log ++ sightsOf t⟩ := by
  obtain ⟨sup, hsession, herrand, -⟩ := h.serves
  cases hmove with
  | ready hover =>
    have hover : Desk.isOver i l.state = true := hover
    -- the one supervisor that was left is over, and so is its errand
    have hphase : sup.phase = .ended := phase_of_isOver hover hsession
    rw [hphase] at herrand
    obtain ⟨hfree, hunbound⟩ := herrand.ended
    have hforgotten : (l.known d).ledger.parted = true → l.state.listenKey = none :=
      fun hparted => nomatch h.present.symm.trans hparted
    refine ⟨trivial, ?_⟩
    show Staffed d ⟨_, _, _, l.log ++ []⟩
    rw [List.append_nil]
    refine .vacant ⟨h.current, fun j => ?_, fun j => ?_, hunbound, h.unlinked rfl, hforgotten,
      fun hc => Or.inl (h.disposed hc)⟩ ?_
    · by_cases hj : j = i
      · subst hj
        exact hover
      · exact h.retired j hj
    · by_cases hj : j = i
      · subst hj
        exact hfree
      · exact h.free j hj
    · rintro _ ⟨⟩
      exact .of_closing hc hunbound.paid hforgotten

end OrderDesk.Keys
