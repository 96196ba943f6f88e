import Mathlib.Logic.Function.Basic
import OrderDesk.Proofs.Keys.Supervision

/-!
# The line between a desk and its account

A host makes one call after another; meanwhile supervisors react to their sockets, and their errands
go on move by move.  A `Line` is all of this with the log of what can be seen, and its steps are
those of the host (`HostStep`) and those of everybody else (`DeskStep`).

Either nobody is at work (`Vacant`), or one supervisor is, with its errand, and all others are over
(`Manned`).  What the others do leaves that as it is, and it is in order (`Vacant.work`,
`Manned.work`).

A procedure that halts is given up: the locks are free, and if it was the errand of a supervisor
then that is over.  A request of a desk that is cancelled may be answered all the same; so a host
may connect after it disposed of the desk, and the supervisor that is started then was told to end
from the beginning.
-/

namespace OrderDesk.Keys

variable {d : Desk}

/-! ## 1. Lines -/

/-- A desk with the call that is under way, the errands of its supervisors, and the log. -/
structure Line where
  state : DeskState
  caller : Option (HostCall × Trial Unit)
  errands : Nat → Option (Deed SupervisorInput)
  log : List Sight

/-- What is known of the keys on a line. -/
def Line.known (d : Desk) (l : Line) : Known := ⟨.ofLog d l.log, l.state.listenKey⟩

/-- What can be seen of the supervisor at a place between two states. -/
def sightsAt (d : Desk) (i : Nat) (s s' : DeskState) : List Sight :=
  match s.sessions[i]?, s'.sessions[i]? with
  | some session, some session' => sights d session.supervisor.phase session'.supervisor.phase
  | _, _ => []

/-- The line after something happened to a supervisor. -/
def Line.react (d : Desk) (l : Line) (i : Nat) (input : SupervisorInput)
    (errands : Nat → Option (Deed SupervisorInput)) : Line :=
  let s := (l.state.supervisorStep d.surroundings i input).1
  ⟨s, l.caller, errands, l.log ++ sightsAt d i l.state s⟩

/-- The locks of somebody who halted are free. -/
def leaveLocks (actor : Nat) (s : DeskState) : DeskState :=
  { s with
    keyLock := s.keyLock.filter (· ≠ actor)
    orderLock := s.orderLock.filter (· ≠ actor) }

/-- A supervisor whose errand halted is over. -/
def fall (i : Nat) (s : DeskState) : DeskState :=
  { leaveLocks (i + 1) s with
    sessions := s.sessions.modify i fun session =>
      { session with supervisor := { session.supervisor with phase := .ended } } }

/-- One step of supervisors and their errands, or anything elsewhere that has nothing to do with the
session. -/
inductive DeskStep (d : Desk) : Line → Line → Prop
  | outside {l : Line} {i : Nat} {input : SupervisorInput} :
      Outside (Desk.wasStopped i l.state) input → DeskStep d l (l.react d i input l.errands)
  | begin {l : Line} {i : Nat} {session : Session} {x : Deed SupervisorInput} :
      l.state.sessions[i]? = some session → l.errands i = none →
      d.errand i session.supervisor.phase = some x →
      DeskStep d l { l with errands := Function.update l.errands i (some x) }
  | move {l : Line} {i : Nat} {x x' : Deed SupervisorInput} {t : Act.Trace} {s : DeskState} :
      l.errands i = some x → Act.Move x { l.state with actor := i + 1 } t x' s →
      DeskStep d l ⟨s, l.caller, Function.update l.errands i (some x'), l.log ++ sightsOf t⟩
  | report {l : Line} {i : Nat} {input : SupervisorInput} : l.errands i = some (.done input) →
      DeskStep d l (l.react d i input (Function.update l.errands i none))
  | crash {l : Line} {i : Nat} {cause : Overflow} : l.errands i = some (.halt cause) →
      DeskStep d l ⟨fall i l.state, l.caller, Function.update l.errands i none,
        l.log ++ [.crashed i]⟩
  | elsewhere {l : Line} {s : DeskState} : s.sessions = l.state.sessions →
      s.current = l.state.current → s.listenKey = l.state.listenKey →
      s.cancelled = l.state.cancelled → DeskStep d l { l with state := s }

/-- One step of the host: a call begins, makes a move, comes back, or halts. -/
inductive HostStep (d : Desk) : Line → Line → Prop
  | call {l : Line} (c : HostCall) : l.caller = none →
      HostStep d l { l with caller := some (c, c.deed d), log := l.log ++ [.called c] }
  | move {l : Line} {c : HostCall} {x x' : Trial Unit} {t : Act.Trace} {s : DeskState} :
      l.caller = some (c, x) → Act.Move x { l.state with actor := 0 } t x' s →
      HostStep d l ⟨s, some (c, x'), l.errands, l.log ++ sightsOf t⟩
  | back {l : Line} {c : HostCall} {o : Outcome Unit} : l.caller = some (c, .done o) →
      HostStep d l { l with caller := none, log := l.log ++ [.returned c o] }
  | collapse {l : Line} {c : HostCall} {cause : Overflow} : l.caller = some (c, .halt cause) →
      HostStep d l ⟨leaveLocks 0 l.state, none, l.errands, l.log ++ [.collapsed c]⟩

/-- The lines of all runs. -/
inductive Reached (d : Desk) : Line → Prop
  | start {s : DeskState} : s.sessions = [] → s.current = none → s.listenKey = none →
      s.cancelled = false → Reached d ⟨s, none, fun _ => none, []⟩
  | work {l l' : Line} : Reached d l → DeskStep d l l' → Reached d l'
  | host {l l' : Line} : Reached d l → HostStep d l l' → Reached d l'

/-! ## 2. Logs that go on -/

/-- Something that the host does. -/
def Sight.isCall : Sight → Bool
  | .called _ | .returned _ _ => true
  | _ => false

/-- Where there is no call, the host neither comes nor goes. -/
theorem host_foldl {es : List Sight} (h : ∀ e ∈ es, e.isCall = false) (t : Ledger) :
    (es.foldl (Ledger.note d) t).parted = t.parted ∧
      (es.foldl (Ledger.note d) t).disposed = t.disposed := by
  induction es generalizing t with
  | nil => exact ⟨rfl, rfl⟩
  | cons e es ih =>
    obtain ⟨he, hes⟩ := List.forall_mem_cons.mp h
    have hsame : (t.note d e).parted = t.parted ∧ (t.note d e).disposed = t.disposed := by
      cases e with
      | called c => cases he
      | returned c o => cases he
      | _ => exact ⟨rfl, rfl⟩
    obtain ⟨hparted, hdisposed⟩ := ih hes (t.note d e)
    exact ⟨hparted.trans hsame.1, hdisposed.trans hsame.2⟩

/-- Whether the host is connected after this, if it was `b` before. -/
def link (b : Bool) : Sight → Bool
  | .called .disconnect | .called .dispose => false
  | .returned .connect (.ok ()) => true
  | _ => b

/-- Whether a call to connect succeeded, and the host has not thought of leaving since. -/
def linked (log : List Sight) : Bool := log.foldl link false

/-- Once the host has disposed of the desk, it does not connect again while a call to connect
stands. -/
def Considerate (d : Desk) (log : List Sight) : Prop :=
  ∀ pre post, log = pre ++ .called .connect :: post →
    (Ledger.ofLog d pre).disposed = true → linked pre = false

theorem Considerate.earlier {log log' : List Sight} (h : Considerate d log')
    (hgrows : log <+: log') : Considerate d log := by
  obtain ⟨es, rfl⟩ := hgrows
  rintro pre post rfl
  exact h pre (post ++ es) (List.append_assoc _ _ _)

theorem disposed_foldl (es : List Sight) {t : Ledger} (h : t.disposed = true) :
    (es.foldl (Ledger.note d) t).disposed = true := by
  induction es generalizing t with
  | nil => exact h
  | cons e es ih =>
    refine ih ?_
    cases e with
    | called c => cases c <;> exact h
    | returned c o => cases c <;> first | rfl | exact h
    | _ => exact h

/-- A host that has not disposed of the desk is considerate. -/
theorem considerate_of_not_disposed {log : List Sight}
    (h : (Ledger.ofLog d log).disposed = false) : Considerate d log := by
  rintro pre post rfl hdisposed
  rw [Ledger.ofLog_append, disposed_foldl _ hdisposed] at h
  cases h

theorem linked_append {log es : List Sight} (h : ∀ e ∈ es, e.isCall = false) :
    linked (log ++ es) = linked log := by
  have hsame : ∀ b, es.foldl link b = b := by
    induction es with
    | nil => exact fun b => rfl
    | cons e es ih =>
      obtain ⟨he, hes⟩ := List.forall_mem_cons.mp h
      intro b
      refine (ih hes _).trans ?_
      cases e with
      | called c => cases he
      | returned c o => cases he
      | _ => rfl
  unfold linked
  rw [List.foldl_append]
  exact hsame _

/-- From one line to another, the log goes on in order, without a call. -/
def Proceeds (d : Desk) (l l' : Line) : Prop :=
  ∃ es, l'.log = l.log ++ es ∧ Orderly d (l.known d).ledger es ∧ ∀ e ∈ es, e.isCall = false

variable {l l' : Line}

theorem known_of_log {es : List Sight} (h : l'.log = l.log ++ es) :
    l'.known d = (l.known d).after (d := d) es l'.state.listenKey := by
  unfold Line.known Known.after
  rw [h, Ledger.ofLog_append]

theorem known_elsewhere {s : DeskState} (h : s.listenKey = l.state.listenKey) :
    Line.known d { l with state := s } = l.known d := by
  unfold Line.known
  rw [h]

theorem Proceeds.of_same (h : l'.log = l.log) : Proceeds d l l' :=
  ⟨[], h.trans (List.append_nil _).symm, trivial, nofun⟩

theorem Proceeds.parted (h : Proceeds d l l') :
    (l'.known d).ledger.parted = (l.known d).ledger.parted := by
  obtain ⟨es, hlog, -, hcalls⟩ := h
  rw [known_of_log hlog]
  exact (host_foldl hcalls _).1

theorem Proceeds.disposed (h : Proceeds d l l') :
    (l'.known d).ledger.disposed = (l.known d).ledger.disposed := by
  obtain ⟨es, hlog, -, hcalls⟩ := h
  rw [known_of_log hlog]
  exact (host_foldl hcalls _).2

theorem Proceeds.orderly (h : Proceeds d l l') (horderly : Orderly d .blank l.log) :
    Orderly d .blank l'.log := by
  obtain ⟨es, hlog, hes, -⟩ := h
  rw [hlog]
  exact orderly_append.mpr ⟨horderly, hes⟩

theorem Proceeds.linked (h : Proceeds d l l') : linked l'.log = linked l.log := by
  obtain ⟨es, hlog, -, hcalls⟩ := h
  rw [hlog]
  exact linked_append hcalls

theorem isCall_sightsOf (t : Act.Trace) : ∀ e ∈ sightsOf t, e.isCall = false := by
  cases t <;> simp [sightsOf, Sight.isCall]

theorem isCall_sights (p p' : SupervisorPhase) : ∀ e ∈ sights d p p', e.isCall = false := by
  unfold sights
  split <;> simp [Sight.isCall]

/-! ## 3. Supervisors on a line -/

theorem sightsAt_same (i : Nat) (s : DeskState) : sightsAt d i s s = [] := by
  unfold sightsAt
  split
  · rename_i session session' hsession hsession'
    obtain rfl := Option.some.inj (hsession.symm.trans hsession')
    exact sights_same _
  · rfl

variable {s : DeskState} {i j : Nat} {session : Session} {input : SupervisorInput}

theorem phase_of_isOver (h : Desk.isOver i s = true) (hsession : s.sessions[i]? = some session) :
    session.supervisor.phase = .ended := by
  unfold Desk.isOver at h
  rw [hsession] at h
  exact of_decide_eq_true h

/-- A supervisor that is over reacts to nothing. -/
theorem supervisorStep_over (h : Desk.isOver i s = true) (w : Surroundings) :
    (s.supervisorStep w i input).1 = s := by
  unfold DeskState.supervisorStep
  cases hsession : s.sessions[i]? with
  | none => rfl
  | some session =>
    have hphase := phase_of_isOver h hsession
    have hreact : session.supervisor.react w.timings w.listing.surface.isFutures s.now input =
        (session.supervisor, []) := by
      unfold Supervisor.react
      rw [hphase]
    obtain ⟨hlt, hget⟩ := List.getElem?_eq_some_iff.mp hsession
    have hset : s.sessions.set i session = s.sessions := by
      rw [← hget]
      exact List.set_getElem_self hlt
    simp only [hreact, List.foldl_nil, hset]

theorem react_over (h : Desk.isOver i l.state = true) : l.react d i input l.errands = l := by
  unfold Line.react
  simp only [supervisorStep_over h, sightsAt_same, List.append_nil]

/-- Where a supervisor gets. -/
def reaction (d : Desk) (s : DeskState) (input : SupervisorInput) (sup : Supervisor) : Supervisor :=
  (sup.react d.surroundings.timings d.surroundings.listing.surface.isFutures s.now input).1

/-- Besides the supervisor itself, a reaction changes what was reported. -/
theorem supervisorStep_eq (d : Desk) (input : SupervisorInput)
    (hsession : s.sessions[i]? = some session) :
    ∃ events, (s.supervisorStep d.surroundings i input).1 = { s with
      sessions := s.sessions.set i ⟨reaction d s input session.supervisor, session.stopped⟩
      events } := by
  have hreports : ∀ (es : List SupervisorEffect) (s : DeskState), ∃ events,
      es.foldl DeskState.afterSupervisor s = { s with events } := by
    intro es
    induction es with
    | nil => exact fun s => ⟨s.events, rfl⟩
    | cons e es ih =>
      intro s
      obtain ⟨events, hes⟩ := ih (s.afterSupervisor e)
      refine ⟨events, hes.trans ?_⟩
      cases e <;> rfl
  unfold DeskState.supervisorStep
  rw [hsession]
  exact hreports _ _

theorem getElem?_supervisorStep (d : Desk) (input : SupervisorInput)
    (hsession : s.sessions[i]? = some session) :
    ((s.supervisorStep d.surroundings i input).1.sessions)[i]? =
      some ⟨reaction d s input session.supervisor, session.stopped⟩ := by
  obtain ⟨events, hstate⟩ := supervisorStep_eq d input hsession
  obtain ⟨hlt, -⟩ := List.getElem?_eq_some_iff.mp hsession
  rw [hstate]
  exact List.getElem?_set_self hlt

theorem sightsAt_supervisorStep (d : Desk) (input : SupervisorInput)
    (hsession : s.sessions[i]? = some session) :
    sightsAt d i s (s.supervisorStep d.surroundings i input).1 =
      sights d session.supervisor.phase (reaction d s input session.supervisor).phase := by
  unfold sightsAt
  rw [hsession, getElem?_supervisorStep d input hsession]

/-- Nobody is at work. -/
structure Vacant (d : Desk) (l : Line) : Prop where
  current : l.state.current = none
  retired : ∀ j, Desk.isOver j l.state = true
  free : ∀ j, l.errands j = none
  unbound : Unbound (l.known d)
  unlinked : linked l.log = false
  forgotten : (l.known d).ledger.parted = true → l.state.listenKey = none
  settled : l.state.cancelled = true →
    (l.known d).ledger.disposed = true ∨ ∃ o, l.caller = some (.dispose, .done o)

/-- The supervisor at a place is at work, and it is the desk's own until it is told to end.  It ends
only because it or the desk was told to, unless its errand halts. -/
structure Manned (d : Desk) (l : Line) (i : Nat) (stopped : Bool) : Prop where
  current : l.state.current = if stopped then none else some i
  retired : ∀ j ≠ i, Desk.isOver j l.state = true
  free : ∀ j ≠ i, l.errands j = none
  serves : ∃ supervisor, l.state.sessions[i]? = some ⟨supervisor, stopped⟩ ∧
    Errand d l.state.cancelled i (stopped || l.state.cancelled) (l.known d) supervisor.phase
      (l.errands i) ∧
    (supervisor.phase = .ended →
      (stopped || l.state.cancelled) = true ∨ Sight.crashed i ∈ l.log)
  present : (l.known d).ledger.parted = false
  unlinked : stopped = true → linked l.log = false
  disposed : l.state.cancelled = true → (l.known d).ledger.disposed = true
  signed : d.signer.isSome = true

/-- **Nobody comes to work of himself.** -/
theorem Vacant.work (h : Vacant d l) (hwork : DeskStep d l l') :
    Vacant d l' ∧ Proceeds d l l' ∧ l'.caller = l.caller ∧ l'.known d = l.known d ∧
      l'.state.cancelled = l.state.cancelled := by
  cases hwork with
  | @outside i input houtside =>
    rw [react_over (h.retired i)]
    exact ⟨h, .of_same rfl, rfl, rfl, rfl⟩
  | begin hsession hfree herrand =>
    rw [phase_of_isOver (h.retired _) hsession] at herrand
    cases herrand
  | move herrand hmove => cases (h.free _).symm.trans herrand
  | report herrand => cases (h.free _).symm.trans herrand
  | crash herrand => cases (h.free _).symm.trans herrand
  | @elsewhere s hsessions hcurrent hkey hcancelled =>
    have hknown := known_elsewhere (d := d) hkey
    refine ⟨⟨hcurrent.trans h.current, fun j => ?_, h.free, ?_, h.unlinked, ?_, ?_⟩, .of_same rfl,
      rfl, hknown, hcancelled⟩
    · unfold Desk.isOver
      rw [hsessions]
      exact h.retired j
    · rw [hknown]
      exact h.unbound
    · rw [hknown]
      exact fun hparted => hkey.trans (h.forgotten hparted)
    · rw [hknown]
      exact fun hc => h.settled (hcancelled.symm.trans hc)

variable {stopped : Bool}

/-- What has to be seen to for a supervisor to stay at work. -/
theorem Manned.of_serves (h : Manned d l i stopped) (hproceeds : Proceeds d l l')
    (hcurrent : l'.state.current = l.state.current)
    (hcancelled : l'.state.cancelled = l.state.cancelled)
    (hothers : ∀ j ≠ i, l'.state.sessions[j]? = l.state.sessions[j]?)
    (hfree : ∀ j ≠ i, l'.errands j = l.errands j)
    (hserves : ∃ supervisor, l'.state.sessions[i]? = some ⟨supervisor, stopped⟩ ∧
      Errand d l.state.cancelled i (stopped || l.state.cancelled) (l'.known d) supervisor.phase
        (l'.errands i) ∧
      (supervisor.phase = .ended →
        (stopped || l.state.cancelled) = true ∨ Sight.crashed i ∈ l'.log)) :
    Manned d l' i stopped where
  current := hcurrent.trans h.current
  retired j hj := by
    unfold Desk.isOver
    rw [hothers j hj]
    exact h.retired j hj
  free j hj := (hfree j hj).trans (h.free j hj)
  serves := by
    rw [hcancelled]
    exact hserves
  present := hproceeds.parted.trans h.present
  unlinked hstopped := hproceeds.linked.trans (h.unlinked hstopped)
  disposed hc := hproceeds.disposed.trans (h.disposed (hcancelled.symm.trans hc))
  signed := h.signed

/-- The errand on a line is the one of the supervisor at work. -/
theorem Manned.eq_of_errand {x : Deed SupervisorInput} (h : Manned d l i stopped)
    (herrand : l.errands j = some x) : j = i := by
  by_contra hj
  cases (h.free j hj).symm.trans herrand

theorem update_of_ne {x : Option (Deed SupervisorInput)} :
    ∀ j ≠ i, Function.update l.errands i x j = l.errands j :=
  fun _ hj => Function.update_of_ne hj x l.errands

/-- A reaction of the supervisor at work. -/
theorem Manned.react (h : Manned d l i stopped) {sup : Supervisor}
    {errands : Nat → Option (Deed SupervisorInput)}
    (hsession : l.state.sessions[i]? = some ⟨sup, stopped⟩)
    (hlog : sup.phase = .ended →
      (stopped || l.state.cancelled) = true ∨ Sight.crashed i ∈ l.log)
    (hfree : ∀ j ≠ i, errands j = l.errands j) {p' : SupervisorPhase}
    (hphase : (reaction d l.state input sup).phase = p')
    (horderly : Orderly d (l.known d).ledger (sights d sup.phase p'))
    (herrand : Errand d l.state.cancelled i (stopped || l.state.cancelled)
      ((l.known d).after (d := d) (sights d sup.phase p') l.state.listenKey) p' (errands i))
    (hended : p' = .ended → sup.phase = .ended ∨ (stopped || l.state.cancelled) = true) :
    Manned d (l.react d i input errands) i stopped ∧ Proceeds d l (l.react d i input errands) := by
  subst hphase
  obtain ⟨events, hstate⟩ := supervisorStep_eq d input hsession
  have hlog' : (l.react d i input errands).log =
      l.log ++ sights d sup.phase (reaction d l.state input sup).phase :=
    congrArg (l.log ++ ·) (sightsAt_supervisorStep d input hsession)
  have hkey : (l.react d i input errands).state.listenKey = l.state.listenKey :=
    (congrArg DeskState.listenKey hstate).trans rfl
  have hproceeds : Proceeds d l (l.react d i input errands) :=
    ⟨_, hlog', horderly, isCall_sights _ _⟩
  refine ⟨h.of_serves hproceeds ((congrArg DeskState.current hstate).trans rfl)
    ((congrArg DeskState.cancelled hstate).trans rfl) (fun j hj => ?_) hfree
    ⟨_, getElem?_supervisorStep d input hsession, ?_, fun hend => ?_⟩, hproceeds⟩
  · show (l.state.supervisorStep d.surroundings i input).1.sessions[j]? = _
    rw [hstate]
    exact List.getElem?_set_ne (Ne.symm hj)
  · rw [known_of_log hlog', hkey]
    exact herrand
  · rcases hended hend with hphase | hstopped
    · rw [hlog']
      exact (hlog hphase).imp_right (List.mem_append_left _)
    · exact Or.inl hstopped

theorem Manned.wasStopped (h : Manned d l i stopped) :
    Desk.wasStopped i l.state = (stopped || l.state.cancelled) := by
  obtain ⟨sup, hsession, -⟩ := h.serves
  unfold Desk.wasStopped DeskState.sessionEnds
  rw [hsession]
  rfl

/-- What happens outside concerns the supervisor at work only. -/
theorem Manned.outside (h : Manned d l i stopped)
    (houtside : Outside (Desk.wasStopped j l.state) input) :
    Manned d (l.react d j input l.errands) i stopped ∧
      Proceeds d l (l.react d j input l.errands) := by
  by_cases hj : j = i
  · subst hj
    obtain ⟨sup, hsession, herrand, hlog⟩ := h.serves
    rw [h.wasStopped] at houtside
    obtain ⟨horderly, herrand', hended⟩ := herrand.outside
      (leads_of_outside houtside d.surroundings.timings
        d.surroundings.listing.surface.isFutures l.state.now) h.present
    exact h.react hsession hlog (fun _ _ => rfl) rfl horderly herrand' hended
  · rw [react_over (h.retired j hj)]
    exact ⟨h, .of_same rfl⟩

/-- The supervisor at work begins an errand. -/
theorem Manned.begin (h : Manned d l i stopped) {x : Deed SupervisorInput}
    (hsession : l.state.sessions[j]? = some session) (hfree : l.errands j = none)
    (hbegin : d.errand j session.supervisor.phase = some x) :
    Manned d { l with errands := Function.update l.errands j (some x) } i stopped ∧
      Proceeds d l { l with errands := Function.update l.errands j (some x) } := by
  by_cases hj : j = i
  · subst hj
    obtain ⟨sup, hsession', herrand, hlog⟩ := h.serves
    obtain rfl := Option.some.inj (hsession.symm.trans hsession')
    rw [hfree] at herrand
    have hproceeds : Proceeds d l
        { l with errands := Function.update l.errands j (some x) } := .of_same rfl
    refine ⟨h.of_serves hproceeds rfl rfl (fun _ _ => rfl) update_of_ne
      ⟨sup, hsession, ?_, hlog⟩, hproceeds⟩
    dsimp only
    rw [Function.update_self]
    exact errand_of_stands hbegin herrand.stands h.present h.signed h.disposed
  · rw [phase_of_isOver (h.retired j hj) hsession] at hbegin
    cases hbegin

/-- The errand makes a move. -/
theorem Manned.move (h : Manned d l i stopped) {x x' : Deed SupervisorInput} {t : Act.Trace}
    (hx : l.errands j = some x) (hmove : Act.Move x { l.state with actor := j + 1 } t x' s) :
    Manned d ⟨s, l.caller, Function.update l.errands j (some x'), l.log ++ sightsOf t⟩ i stopped ∧
      Proceeds d l ⟨s, l.caller, Function.update l.errands j (some x'), l.log ++ sightsOf t⟩ := by
  obtain rfl := h.eq_of_errand hx
  obtain ⟨sup, hsession, herrand, hlog⟩ := h.serves
  rw [hx] at herrand
  have hmeets : (watch d l.state.cancelled).meets (l.known d) { l.state with actor := j + 1 } :=
    ⟨rfl, rfl⟩
  obtain ⟨k', herrand', hfollows⟩ :=
    herrand.move hmeets hmove fun hstop => h.wasStopped.symm.trans hstop
  obtain ⟨rfl, horderly, hsessions, hcurrent, hcancelled⟩ := known_of_follows hfollows hmeets
  have hproceeds : Proceeds d l
      ⟨s, l.caller, Function.update l.errands j (some x'), l.log ++ sightsOf t⟩ :=
    ⟨_, rfl, horderly, isCall_sightsOf t⟩
  refine ⟨h.of_serves hproceeds hcurrent hcancelled (fun j _ => ?_) update_of_ne
    ⟨sup, ?_, ?_, fun hend => ?_⟩, hproceeds⟩
  · dsimp only
    rw [hsessions]
  · dsimp only
    rw [hsessions]
    exact hsession
  · rw [known_of_log (l := l) rfl]
    dsimp only
    rw [Function.update_self]
    exact herrand'
  · exact (hlog hend).imp_right (List.mem_append_left _)

/-- The errand comes back. -/
theorem Manned.report (h : Manned d l i stopped) (hx : l.errands j = some (.done input)) :
    Manned d (l.react d j input (Function.update l.errands j none)) i stopped ∧
      Proceeds d l (l.react d j input (Function.update l.errands j none)) := by
  obtain rfl := h.eq_of_errand hx
  obtain ⟨sup, hsession, herrand, hlog⟩ := h.serves
  rw [hx] at herrand
  obtain ⟨horderly, hstands, hended⟩ := herrand.comes.sound d.surroundings.timings
    d.surroundings.listing.surface.isFutures l.state.now
  refine h.react hsession hlog update_of_ne rfl horderly ?_ hended
  rw [Function.update_self]
  exact .waiting hstands

/-- The errand halts, and the supervisor is over. -/
theorem Manned.crash (h : Manned d l i stopped) {cause : Overflow}
    (hx : l.errands j = some (.halt cause)) :
    Manned d ⟨fall j l.state, l.caller, Function.update l.errands j none, l.log ++ [.crashed j]⟩ i
        stopped ∧
      Proceeds d l ⟨fall j l.state, l.caller, Function.update l.errands j none,
        l.log ++ [.crashed j]⟩ := by
  obtain rfl := h.eq_of_errand hx
  obtain ⟨sup, hsession, -⟩ := h.serves
  have hproceeds : Proceeds d l ⟨fall j l.state, l.caller, Function.update l.errands j none,
      l.log ++ [.crashed j]⟩ := ⟨_, rfl, ⟨trivial, trivial⟩, by simp [Sight.isCall]⟩
  refine ⟨h.of_serves hproceeds rfl rfl (fun i hi => ?_) update_of_ne
    ⟨{ sup with phase := .ended }, ?_, ?_, fun _ => Or.inr ?_⟩, hproceeds⟩
  · exact List.getElem?_modify_ne _ _ (Ne.symm hi)
  · simp [fall, hsession]
  · rw [known_of_log (l := l) rfl]
    dsimp only
    rw [Function.update_self]
    exact .waiting ⟨rfl, rfl⟩
  · exact List.mem_append_right _ List.mem_cons_self

/-- What has nothing to do with the session leaves the supervisor at work. -/
theorem Manned.elsewhere (h : Manned d l i stopped) (hsessions : s.sessions = l.state.sessions)
    (hcurrent : s.current = l.state.current) (hkey : s.listenKey = l.state.listenKey)
    (hcancelled : s.cancelled = l.state.cancelled) : Manned d { l with state := s } i stopped := by
  obtain ⟨sup, hsession, herrand, hlog⟩ := h.serves
  refine h.of_serves (.of_same rfl) hcurrent hcancelled (fun j _ => ?_) (fun _ _ => rfl)
    ⟨sup, ?_, ?_, hlog⟩
  · dsimp only
    rw [hsessions]
  · dsimp only
    rw [hsessions]
    exact hsession
  · rw [known_elsewhere hkey]
    exact herrand

/-- **Whatever happens to a supervisor at work, or to its errand**, is in order, and it stays at
work or is over. -/
theorem Manned.work (h : Manned d l i stopped) (hwork : DeskStep d l l') :
    Manned d l' i stopped ∧ Proceeds d l l' ∧ l'.caller = l.caller := by
  rw [← and_assoc]
  cases hwork with
  | outside houtside => exact ⟨h.outside houtside, rfl⟩
  | begin hsession hfree hbegin => exact ⟨h.begin hsession hfree hbegin, rfl⟩
  | move hx hmove => exact ⟨h.move hx hmove, rfl⟩
  | report hx => exact ⟨h.report hx, rfl⟩
  | crash hx => exact ⟨h.crash hx, rfl⟩
  | elsewhere hsessions hcurrent hkey hcancelled =>
    exact ⟨⟨h.elsewhere hsessions hcurrent hkey hcancelled, .of_same rfl⟩, rfl⟩

end OrderDesk.Keys
