import Mathlib.Algebra.Order.Group.Nat
import OrderDesk.Account.Supervisor
import OrderDesk.Proofs.Feed.Ticks

/-!
# The pace of attempts to connect

A connection of the pool and the supervisor of the account both keep a socket open: they try to
open it, try again when it was lost, and replace it when its time has come.  What can be told of
that is a log of `Mark`s: when an attempt began, what became of it, and from when until when there
was a rest.

What happens to a socket is read off the inputs (`fate`), what its keeper does about it off the
phases that it goes through (`Stance.changes`).  A log is `Paced` if it begins with an attempt and
each further mark `Follows` the one before: a loss is followed by a rest of `pause j`, where `j`
counts the losses since the socket was opened last, the present one included; a rest, by an attempt
that does not begin before its end; a replacement, by an attempt without any rest.

Both keepers have the same `Tempo`, and what is said of logs is proved for the tempo alone.  Each
keeper adds one lemma, that whatever it does is a step of the tempo.
-/

namespace OrderDesk

namespace Pacing

/-! ## 1. Pauses -/

/-- The pause after as many losses in a row, in nanoseconds: one second, and twice as long after
each further one, up to a minute. -/
def pause (losses : Nat) : Nat := min (2 ^ (losses - 1)) 60 * 1000000000

/-- **What doubles and is capped each time is the capped power.** -/
theorem nanos_iterate (n : Nat) : (Backoff.next^[n] .start).nanos = pause (n + 1) := by
  have hseconds : (Backoff.next^[n] .start).seconds = min (2 ^ n) 60 := by
    induction n with
    | zero => rfl
    | succ n ih =>
      rw [Function.iterate_succ_apply', Backoff.next, ih, Backoff.longest, pow_succ]
      dsimp only
      omega
  rw [Backoff.nanos, hseconds, pause, Nat.add_sub_cancel]

theorem pause_le (losses : Nat) : pause losses ≤ 60 * 1000000000 :=
  Nat.mul_le_mul_right _ (Nat.min_le_right _ _)

theorem pause_mono {few many : Nat} (h : few ≤ many) : pause few ≤ pause many := by
  have hpower : 2 ^ (few - 1) ≤ 2 ^ (many - 1) :=
    Nat.pow_le_pow_right Nat.two_pos (Nat.sub_le_sub_right h 1)
  unfold pause
  omega

example : (List.range' 1 8).map (pause · / 1000000000) = [1, 2, 4, 8, 16, 32, 60, 60] := by decide

/-! ## 2. Logs -/

/-- Something that can be told of whoever keeps a socket open. -/
inductive Mark where
  | attempt (time : Nat)
  | connected (time : Nat)
  | lost (time : Nat)
  | recycled (time : Nat)
  | rest (time wakeAt : Nat)
deriving DecidableEq

namespace Mark

/-- The socket was opened. -/
def isConnected : Mark → Bool
  | connected _ => true
  | attempt _ | lost _ | recycled _ | rest _ _ => false

/-- The socket was lost, or could not be opened. -/
def isLost : Mark → Bool
  | lost _ => true
  | attempt _ | connected _ | recycled _ | rest _ _ => false

end Mark

/-- How often the socket was lost since it was opened last. -/
def losses (log : List Mark) : Nat :=
  (log.reverse.takeWhile fun m => !m.isConnected).countP Mark.isLost

theorem losses_append {log more : List Mark} (h : ∀ m ∈ more, m.isConnected = false) :
    losses (log ++ more) = losses log + more.countP Mark.isLost := by
  have hmore : ∀ m ∈ more.reverse, (!m.isConnected) = true := by
    intro m hm
    rw [h m (List.mem_reverse.mp hm)]
    rfl
  rw [losses, List.reverse_append, List.takeWhile_append_of_pos hmore, List.countP_append,
    List.countP_reverse, Nat.add_comm]
  rfl

theorem losses_connected (log : List Mark) (time : Nat) :
    losses (log ++ [.connected time]) = 0 := by
  simp [losses, Mark.isConnected]

/-- What may stand next to each other in a log that began like this. -/
inductive Follows (before : List Mark) : Mark → Mark → Prop
  | connected (time time' : Nat) : Follows before (.attempt time) (.connected time')
  | failed (time time' : Nat) : Follows before (.attempt time) (.lost time')
  | dropped (time time' : Nat) : Follows before (.connected time) (.lost time')
  | recycled (time time' : Nat) : Follows before (.connected time) (.recycled time')
  | rest (time : Nat) :
      Follows before (.lost time) (.rest time (time + pause (losses before + 1)))
  | woken (time : Nat) {wakeAt time' : Nat} : wakeAt ≤ time' →
      Follows before (.rest time wakeAt) (.attempt time')
  | again (time time' : Nat) : Follows before (.recycled time) (.attempt time')

/-- Every mark follows the one before. -/
def Linked (log : List Mark) : Prop :=
  ∀ before m m' after, log = before ++ m :: m' :: after → Follows before m m'

theorem Linked.snoc {before : List Mark} {m m' : Mark} (h : Linked (before ++ [m]))
    (hm : Follows before m m') : Linked (before ++ [m] ++ [m']) := by
  intro before' x y after hlog
  rcases List.eq_nil_or_concat after with rfl | ⟨after, z, rfl⟩
  · rw [List.append_assoc] at hlog
    obtain ⟨rfl, hpair⟩ := List.append_inj' hlog rfl
    cases hpair
    exact hm
  · rw [List.concat_eq_append, ← List.cons_append, ← List.cons_append, ← List.append_assoc] at hlog
    exact h _ _ _ _ (List.append_inj' hlog rfl).1

/-- A log that begins with an attempt, in which every mark follows the one before, and which does
not break off between a loss and the rest after it. -/
structure Paced (log : List Mark) : Prop where
  begins : ∃ time more, log = .attempt time :: more
  linked : Linked log
  rests : ∀ before time, log ≠ before ++ [.lost time]

theorem Paced.append {log more : List Mark} {m : Mark} (h : Paced log)
    (hlinked : Linked (log ++ more ++ [m])) (hm : m.isLost = false) :
    Paced (log ++ more ++ [m]) where
  begins := by
    obtain ⟨time, rest, rfl⟩ := h.begins
    exact ⟨time, rest ++ more ++ [m], rfl⟩
  linked := hlinked
  rests := by
    intro before time hlog
    cases (List.append_inj' hlog rfl).2
    cases hm

/-- In a paced log every rest comes after a loss and lasts as long as the losses say. -/
theorem Paced.rest_eq {log before after : List Mark} {time wakeAt : Nat} (h : Paced log)
    (hlog : log = before ++ .rest time wakeAt :: after) :
    wakeAt = time + pause (losses before) := by
  rcases List.eq_nil_or_concat before with rfl | ⟨before, m, rfl⟩
  · obtain ⟨time', more, hbegins⟩ := h.begins
    rw [hbegins] at hlog
    cases hlog
  · rw [List.concat_eq_append] at hlog ⊢
    rw [List.append_assoc] at hlog
    cases h.linked _ _ _ _ hlog with
    | rest =>
      rw [losses_append (by simp [Mark.isConnected])]
      rfl

/-- What the pauses of a log amount to.

* `bounded`: none is longer than a minute;
* `growing`: between two of them, the second is not the shorter one unless the socket was opened in
  between;
* `restarting`: the first one after the socket was opened lasts a second. -/
structure Gentle (log : List Mark) : Prop where
  bounded : ∀ time wakeAt, .rest time wakeAt ∈ log → wakeAt - time ≤ 60 * 1000000000
  growing : ∀ before between after time wakeAt time' wakeAt',
    log = before ++ .rest time wakeAt :: (between ++ .rest time' wakeAt' :: after) →
      (∀ m ∈ between, m.isConnected = false) → wakeAt - time ≤ wakeAt' - time'
  restarting : ∀ before between after start time wakeAt,
    log = before ++ .connected start :: (between ++ .rest time wakeAt :: after) →
      (∀ m ∈ between, m.isConnected = false) → between.countP Mark.isLost = 1 →
        wakeAt - time = 1000000000

/-- **A paced log is gentle.** -/
theorem Paced.gentle {log : List Mark} (h : Paced log) : Gentle log where
  bounded := by
    intro time wakeAt hmem
    obtain ⟨before, after, hlog⟩ := List.append_of_mem hmem
    rw [h.rest_eq hlog, Nat.add_sub_cancel_left]
    exact pause_le _
  growing := by
    intro before between after time wakeAt time' wakeAt' hlog hbetween
    have hfirst := h.rest_eq hlog
    have hlater :
        log = (before ++ .rest time wakeAt :: between) ++ .rest time' wakeAt' :: after := by
      rw [hlog, List.append_assoc, List.cons_append]
    have hsecond := h.rest_eq hlater
    have hnone : ∀ m ∈ .rest time wakeAt :: between, m.isConnected = false := by
      simpa [Mark.isConnected] using hbetween
    rw [losses_append hnone] at hsecond
    have hpause : pause (losses before) ≤
        pause (losses before + (Mark.rest time wakeAt :: between).countP Mark.isLost) :=
      pause_mono (Nat.le_add_right _ _)
    omega
  restarting := by
    intro before between after start time wakeAt hlog hbetween hone
    have hlater :
        log = (before ++ [.connected start] ++ between) ++ .rest time wakeAt :: after := by
      rw [hlog, List.append_assoc, List.append_assoc]
      rfl
    have hrest := h.rest_eq hlater
    rw [losses_append hbetween, losses_connected, hone, Nat.zero_add] at hrest
    rw [hrest, Nat.add_sub_cancel_left]
    rfl

/-! ## 3. The tempo -/

/-- Where the keeper of a socket stands: it tries to open the socket, has it open, is about to
replace it, rests, or is over. -/
inductive Stance where
  | trying
  | up
  | renewing
  | resting (wakeAt : Nat)
  | ended
deriving DecidableEq

namespace Stance

/-- What a keeper does that gets from one stance to another: it begins an attempt, or a rest. -/
def changes (now : Nat) : Stance → Stance → List Mark
  | trying, trying => []
  | _, trying => [.attempt now]
  | resting _, resting _ => []
  | _, resting wakeAt => [.rest now wakeAt]
  | _, _ => []

/-- A rest may end now. -/
def IsDue (now : Nat) : Stance → Prop
  | resting wakeAt => wakeAt ≤ now
  | trying | up | renewing | ended => True

/-- The last mark of a log goes with a stance. -/
inductive Matches : Stance → Mark → Prop
  | trying (time : Nat) : Matches .trying (.attempt time)
  | up (time : Nat) : Matches .up (.connected time)
  | renewing (time : Nat) : Matches .renewing (.recycled time)
  | resting (time wakeAt : Nat) : Matches (.resting wakeAt) (.rest time wakeAt)
  | ended (m : Mark) : Matches .ended m

end Stance

/-- The stance of a keeper and the length of its next rest. -/
structure Tempo where
  stance : Stance
  backoff : Backoff

namespace Tempo

/-- What a keeper may do at a time, with what can be told of it. -/
inductive Step (now : Nat) : Tempo → List Mark → Tempo → Prop
  | still (p : Tempo) : Step now p [] p
  | ended (s : Stance) (b : Backoff) : Step now ⟨s, b⟩ [] ⟨.ended, b⟩
  | connected (b : Backoff) : Step now ⟨.trying, b⟩ [.connected now] ⟨.up, .start⟩
  | failed (b : Backoff) : Step now ⟨.trying, b⟩ [.lost now, .rest now (now + b.nanos)]
      ⟨.resting (now + b.nanos), b.next⟩
  | dropped (b : Backoff) : Step now ⟨.up, b⟩ [.lost now, .rest now (now + b.nanos)]
      ⟨.resting (now + b.nanos), b.next⟩
  | replaced (b : Backoff) : Step now ⟨.up, b⟩ [.recycled now, .attempt now] ⟨.trying, b⟩
  | recycled (b : Backoff) : Step now ⟨.up, b⟩ [.recycled now] ⟨.renewing, b⟩
  | again (b : Backoff) : Step now ⟨.renewing, b⟩ [.attempt now] ⟨.trying, b⟩
  | woken {wakeAt : Nat} (b : Backoff) : wakeAt ≤ now →
      Step now ⟨.resting wakeAt, b⟩ [.attempt now] ⟨.trying, b⟩

/-- What is known of a keeper with such a log: the last mark goes with its stance, and the next rest
is the one that the losses call for. -/
structure Keeps (p : Tempo) (log : List Mark) : Prop where
  paced : Paced log
  last : ∃ before m, log = before ++ [m] ∧ p.stance.Matches m
  backoff : p.backoff = Backoff.next^[losses log] .start

variable {now : Nat} {p p' : Tempo} {s s' : Stance} {b b' : Backoff} {log es : List Mark}

theorem keeps_start (time : Nat) : Keeps ⟨.trying, .start⟩ [.attempt time] where
  paced := by
    refine ⟨⟨time, [], rfl⟩, ?_, ?_⟩
    · intro before m m' after hlog
      cases before with
      | nil => cases hlog
      | cons x before => cases before <;> cases hlog
    · intro before time' hlog
      have hlog : [] ++ [Mark.attempt time] = before ++ [.lost time'] := hlog
      cases (List.append_inj' hlog rfl).2
  last := ⟨[], _, rfl, .trying time⟩
  backoff := rfl

/-- One further mark. -/
theorem Keeps.snoc {m' : Mark} (h : Keeps ⟨s, b⟩ log)
    (hfollows : ∀ before m, s.Matches m → Follows before m m') (hlost : m'.isLost = false)
    (hmatches : s'.Matches m') (hbackoff : b' = if m'.isConnected then .start else b) :
    Keeps ⟨s', b'⟩ (log ++ [m']) := by
  obtain ⟨before, m, rfl, hm⟩ := h.last
  refine ⟨?_, ⟨_, m', rfl, hmatches⟩, ?_⟩
  · have hlinked := h.paced.linked.snoc (hfollows before m hm)
    rw [← List.append_nil (before ++ [m])] at hlinked ⊢
    exact h.paced.append hlinked hlost
  · cases m' with
    | connected time =>
      rw [losses_connected]
      exact hbackoff
    | lost time => cases hlost
    | attempt time | recycled time | rest time wakeAt =>
      rw [losses_append (by simp [Mark.isConnected])]
      exact hbackoff.trans h.backoff

/-- **A loss is followed by the rest that the losses call for**, whether the socket was open or
not. -/
theorem Keeps.loss (h : Keeps ⟨s, b⟩ log)
    (hfollows : ∀ before m, s.Matches m → Follows before m (.lost now)) :
    Keeps ⟨.resting (now + b.nanos), b.next⟩ (log ++ [.lost now, .rest now (now + b.nanos)]) := by
  have hbackoff : b = Backoff.next^[losses log] .start := h.backoff
  have hlosses : losses (log ++ [.lost now, .rest now (now + b.nanos)]) = losses log + 1 :=
    losses_append (by simp [Mark.isConnected])
  obtain ⟨before, m, hlog, hm⟩ := h.last
  have hlinked : Linked (log ++ [.lost now] ++ [.rest now (now + b.nanos)]) := by
    refine Linked.snoc (hlog ▸ (hlog ▸ h.paced.linked).snoc (hfollows before m hm)) ?_
    rw [hbackoff, nanos_iterate]
    exact .rest now
  refine ⟨?_, ⟨log ++ [.lost now], _, List.append_cons _ _ _, .resting now _⟩, ?_⟩
  · rw [List.append_cons]
    exact h.paced.append hlinked rfl
  · rw [hlosses, Function.iterate_succ_apply', ← hbackoff]

/-- **What is known of a keeper is known after each of its steps.** -/
theorem Keeps.step (h : Keeps p log) (hstep : Step now p es p') : Keeps p' (log ++ es) := by
  cases hstep with
  | still =>
    rw [List.append_nil]
    exact h
  | ended s b =>
    obtain ⟨before, m, hlog, -⟩ := h.last
    rw [List.append_nil]
    exact ⟨h.paced, ⟨before, m, hlog, .ended m⟩, h.backoff⟩
  | connected b =>
    exact h.snoc (fun _ _ hm => by cases hm; exact .connected _ now) rfl (.up now) rfl
  | failed b => exact h.loss fun _ _ hm => by cases hm; exact .failed _ now
  | dropped b => exact h.loss fun _ _ hm => by cases hm; exact .dropped _ now
  | replaced b =>
    have hrecycled : Keeps ⟨.renewing, b⟩ (log ++ [.recycled now]) :=
      h.snoc (fun _ _ hm => by cases hm; exact .recycled _ now) rfl (.renewing now) rfl
    rw [List.append_cons]
    exact hrecycled.snoc (fun _ _ hm => by cases hm; exact .again _ now) rfl (.trying now) rfl
  | recycled b =>
    exact h.snoc (fun _ _ hm => by cases hm; exact .recycled _ now) rfl (.renewing now) rfl
  | again b => exact h.snoc (fun _ _ hm => by cases hm; exact .again _ now) rfl (.trying now) rfl
  | woken b hdue =>
    exact h.snoc (fun _ _ hm => by cases hm; exact .woken _ hdue) rfl (.trying now) rfl

end Tempo

end Pacing

open Pacing

/-! ## 4. What becomes of a socket -/

/-- The socket is lost with what arrives: it was closed or broke, or a ping could not be
answered. -/
def Arrival.isLoss (written : Bool) : Arrival → Bool
  | .frame (.ping _) => !written
  | .frame .close | .broken _ | .ended => true
  | .frame (.pong _) | .frame (.text _) | .frame (.binary _) => false

/-- The exchange says in this frame that the listen key has expired. -/
def Frame.tellsExpiry (futures : Bool) (f : Frame) : Bool :=
  match StreamMessage.ofFrame futures f with
  | .ok (some .listenKeyExpired) => true
  | _ => false

/-- The listen key has expired. -/
def Arrival.isExpiry (futures : Bool) : Arrival → Bool
  | .frame f => f.tellsExpiry futures
  | .broken _ | .ended => false

/-! ## 5. Connections of the pool -/

/-- Where a connection stands with its socket. -/
def ConnectionPhase.stance : ConnectionPhase → Stance
  | dialing => .trying
  | replaying | live _ | sending _ _ | delivering _ _ => .up
  | resting wakeAt => .resting wakeAt
  | ended => .ended

/-- What becomes of the socket of a connection by what happens. -/
def ConnectionPhase.fate (now : Nat) : ConnectionPhase → ConnectionInput → List Mark
  | dialing, .opened => [.connected now]
  | dialing, .refused _ => [.lost now]
  | replaying, .turn false | sending _ _, .turn false => [.lost now]
  | live _, .arrival a written => if a.isLoss written then [.lost now] else []
  | live _, .horizon => [.recycled now]
  | _, _ => []

namespace Connection

/-- The tempo of a connection. -/
def tempo (c : Connection) : Tempo := ⟨c.phase.stance, c.backoff⟩

/-- What can be told of a reaction: what became of the socket, and what the connection does. -/
def marks (c : Connection) (v : ConnectionView) (i : ConnectionInput) : List Mark :=
  c.phase.fate v.now i ++ c.tempo.stance.changes v.now (c.react v i).1.tempo.stance

/-- The connections of all runs, with their logs: they are given commands, and react to anything
that may happen to them.  No rest ends before its time. -/
inductive Course : Connection → List Mark → Prop
  | start (name : String) (streams : List String) (time : Nat) :
      Course (.start name streams) [.attempt time]
  | told {c : Connection} {log : List Mark} (command : StreamCommand) : Course c log →
      Course (c.enqueue command) log
  | reacts {c : Connection} {log : List Mark} (v : ConnectionView) (i : ConnectionInput) :
      Course c log → (i = .woken → c.phase.stance.IsDue v.now) →
      Course (c.react v i).1 (log ++ c.marks v i)

variable {c : Connection} {v : ConnectionView} {log : List Mark}

theorem tempo_receive {horizon : Nat} (hlive : c.phase = .live horizon) (f : Frame) :
    (c.receive v horizon f).1.tempo = c.tempo := by
  unfold receive
  split
  · rfl
  · rename_i m _
    unfold deliver
    split
    · rfl
    · split
      · rfl
      · split
        · rw [tempo, tempo, hlive]
          rfl
        · rfl
  · rfl
  · rename_i e hnot hfails
    obtain ⟨detail, rfl⟩ := StreamMessage.ofFrame_error hfails
    exact absurd rfl (hnot detail)

/-- **What arrives costs the socket, or the tempo stays.** -/
theorem tempo_hear {horizon : Nat} (hlive : c.phase = .live horizon) (a : Arrival)
    (written : Bool) :
    (c.hear v horizon a written).1.tempo =
      if a.isLoss written then (c.drop v.now).tempo else c.tempo := by
  cases a with
  | broken cause => rfl
  | ended => rfl
  | frame f =>
    cases f with
    | ping bytes => cases written <;> rfl
    | pong bytes => rfl
    | close => rfl
    | text s => exact tempo_receive hlive _
    | binary bytes => exact tempo_receive hlive _

theorem step_arrival {horizon : Nat} (hlive : c.phase = .live horizon) (a : Arrival)
    (written : Bool) :
    Tempo.Step v.now c.tempo (c.marks v (.arrival a written))
      (c.react v (.arrival a written)).1.tempo := by
  have hup : c.tempo = ⟨.up, c.backoff⟩ := by rw [tempo, hlive]; rfl
  have hhear : c.react v (.arrival a written) = c.hear v horizon a written := by
    simp only [react, hlive]
  rw [marks, hhear, tempo_hear hlive, hlive, ConnectionPhase.fate]
  cases a.isLoss written with
  | true => exact hup ▸ .dropped c.backoff
  | false => exact hup ▸ .still _

/-- **A reaction is a step of the tempo.** -/
theorem step_react (c : Connection) (v : ConnectionView) (i : ConnectionInput)
    (hdue : i = .woken → c.phase.stance.IsDue v.now) :
    Tempo.Step v.now c.tempo (c.marks v i) (c.react v i).1.tempo := by
  obtain ⟨name, streams, queue, backoff, number, phase⟩ := c
  cases phase with
  | dialing =>
    cases i with
    | opened =>
      have hup : (if streams.isEmpty then ConnectionPhase.live (v.now + v.lifetime)
          else .replaying).stance = .up := by
        split <;> rfl
      simp only [marks, tempo, react, established, hup]
      exact .connected backoff
    | refused cause => exact .failed backoff
    | _ => exact .still _
  | replaying | sending _ _ =>
    cases i with
    | turn written =>
      cases written with
      | true => exact .still _
      | false => exact .dropped backoff
    | _ => exact .still _
  | live horizon =>
    cases i with
    | command => cases queue <;> exact .still _
    | arrival a written => exact step_arrival rfl a written
    | horizon => exact .replaced backoff
    | cancelled => exact .ended _ backoff
    | _ => exact .still _
  | delivering horizon t => cases i <;> exact .still _
  | resting wakeAt =>
    cases i with
    | woken => exact .woken backoff (hdue rfl)
    | cancelled => exact .ended _ backoff
    | _ => exact .still _
  | ended => cases i <;> exact .still _

theorem Course.keeps (h : Course c log) : c.tempo.Keeps log := by
  induction h with
  | start name streams time => exact Tempo.keeps_start time
  | told command _ ih => exact ih
  | reacts v i _ hdue ih => exact ih.step (step_react _ v i hdue)

/-- A connection does not give up: a rest that is over leads to an attempt, and so does a socket
that has reached its time, at once. -/
structure Persists (c : Connection) : Prop where
  woken : ∀ wakeAt, c.phase = .resting wakeAt → ∀ v, c.marks v .woken = [.attempt v.now]
  replaced : ∀ horizon, c.phase = .live horizon →
    ∀ v, c.marks v .horizon = [.recycled v.now, .attempt v.now]

theorem persists (c : Connection) : c.Persists where
  woken := by
    intro wakeAt hphase v
    simp only [marks, tempo, react, hphase]
    rfl
  replaced := by
    intro horizon hphase v
    simp only [marks, tempo, react, hphase]
    rfl

end Connection

/-! ## 6. Supervisors -/

/-- Where a supervisor stands with its socket. -/
def SupervisorPhase.stance : SupervisorPhase → Stance
  | creating | dialing _ => .trying
  | live _ _ | extending _ _ | matching _ _ _ => .up
  | releasing => .renewing
  | resting wakeAt => .resting wakeAt
  | ended => .ended

/-- What becomes of the socket of a supervisor by what happens: without a key it cannot be opened,
and with an expired one it is lost. -/
def SupervisorPhase.fate (futures : Bool) (now : Nat) :
    SupervisorPhase → SupervisorInput → List Mark
  | creating, .created (.error _) => [.lost now]
  | dialing _, .opened => [.connected now]
  | dialing _, .refused _ => [.lost now]
  | live _ _, .arrival a written =>
    if a.isLoss written || a.isExpiry futures then [.lost now] else []
  | live _ _, .horizon => [.recycled now]
  | _, _ => []

namespace Supervisor

/-- The tempo of a supervisor. -/
def tempo (s : Supervisor) : Tempo := ⟨s.phase.stance, s.backoff⟩

/-- What can be told of a reaction: what became of the socket, and what the supervisor does. -/
def marks (s : Supervisor) (timings : SessionTimings) (futures : Bool) (now : Nat)
    (i : SupervisorInput) : List Mark :=
  s.phase.fate futures now i ++
    s.tempo.stance.changes now (s.react timings futures now i).1.tempo.stance

/-- The supervisors of all runs, with their logs: they react to anything that may happen to them.
No rest ends before its time. -/
inductive Course (timings : SessionTimings) (futures : Bool) : Supervisor → List Mark → Prop
  | start (key : String) (time : Nat) : Course timings futures (.start key) [.attempt time]
  | reacts {s : Supervisor} {log : List Mark} (now : Nat) (i : SupervisorInput) :
      Course timings futures s log → (i = .woken → s.phase.stance.IsDue now) →
      Course timings futures (s.react timings futures now i).1
        (log ++ s.marks timings futures now i)

variable {s : Supervisor} {timings : SessionTimings} {futures : Bool} {now : Nat}
  {log : List Mark}

theorem tempo_receive {key : String} {times : SessionTimes} (hlive : s.phase = .live key times)
    (f : Frame) :
    (s.receive now futures key times f).1.tempo =
      if f.tellsExpiry futures then (s.drop now).tempo else s.tempo := by
  unfold receive Frame.tellsExpiry
  cases hmessage : StreamMessage.ofFrame futures f with
  | error e =>
    obtain ⟨detail, rfl⟩ := StreamMessage.ofFrame_error hmessage
    rfl
  | ok m =>
    cases m with
    | none => rfl
    | some m =>
      cases m with
      | execution e =>
        show tempo { s with phase := .matching key times e } = s.tempo
        rw [tempo, tempo, hlive]
        rfl
      | listenKeyExpired => rfl
      | serverError text => rfl
      | trade t => rfl
      | quote q => rfl

/-- **What arrives costs the socket, or the tempo stays.** -/
theorem tempo_hear {key : String} {times : SessionTimes} (hlive : s.phase = .live key times)
    (a : Arrival) (written : Bool) :
    (s.hear now futures key times a written).1.tempo =
      if a.isLoss written || a.isExpiry futures then (s.drop now).tempo else s.tempo := by
  cases a with
  | broken cause => rfl
  | ended => rfl
  | frame f =>
    cases f with
    | ping bytes => cases written <;> rfl
    | pong bytes => rfl
    | close => rfl
    | text s => exact tempo_receive hlive _
    | binary bytes => exact tempo_receive hlive _

theorem step_arrival {key : String} {times : SessionTimes} (hlive : s.phase = .live key times)
    (a : Arrival) (written : Bool) :
    Tempo.Step now s.tempo (s.marks timings futures now (.arrival a written))
      (s.react timings futures now (.arrival a written)).1.tempo := by
  have hup : s.tempo = ⟨.up, s.backoff⟩ := by rw [tempo, hlive]; rfl
  have hhear : s.react timings futures now (.arrival a written) =
      s.hear now futures key times a written := by
    simp only [react, hlive]
  rw [marks, hhear, tempo_hear hlive, hlive, SupervisorPhase.fate]
  cases a.isLoss written || a.isExpiry futures with
  | true => exact hup ▸ .dropped s.backoff
  | false => exact hup ▸ .still _

/-- **A reaction is a step of the tempo.** -/
theorem step_react (s : Supervisor) (timings : SessionTimings) (futures : Bool) (now : Nat)
    (i : SupervisorInput) (hdue : i = .woken → s.phase.stance.IsDue now) :
    Tempo.Step now s.tempo (s.marks timings futures now i)
      (s.react timings futures now i).1.tempo := by
  obtain ⟨backoff, phase⟩ := s
  cases phase with
  | creating =>
    cases i with
    | created outcome =>
      cases outcome with
      | ok key => exact .still _
      | error e => exact .failed backoff
    | _ => exact .still _
  | dialing key =>
    cases i with
    | opened => exact .connected backoff
    | refused cause => exact .failed backoff
    | _ => exact .still _
  | live key times =>
    cases i with
    | arrival a written => exact step_arrival rfl a written
    | horizon => exact .recycled backoff
    | cancelled => exact .ended _ backoff
    | _ => exact .still _
  | extending key times =>
    cases i with
    | extended outcome => cases outcome <;> exact .still _
    | _ => exact .still _
  | matching key times e => cases i <;> exact .still _
  | releasing =>
    cases i with
    | released outcome stopped =>
      cases stopped with
      | true => cases outcome <;> exact .ended _ backoff
      | false => cases outcome <;> exact .again backoff
    | _ => exact .still _
  | resting wakeAt =>
    cases i with
    | woken => exact .woken backoff (hdue rfl)
    | cancelled => exact .ended _ backoff
    | _ => exact .still _
  | ended => cases i <;> exact .still _

theorem Course.keeps (h : Course timings futures s log) : s.tempo.Keeps log := by
  induction h with
  | start key time => exact Tempo.keeps_start time
  | reacts now i _ hdue ih => exact ih.step (step_react _ timings futures now i hdue)

/-- A supervisor does not give up: a rest that is over leads to an attempt, and so does a socket
that has reached its time, as soon as its key was released. -/
structure Persists (timings : SessionTimings) (futures : Bool) (s : Supervisor) : Prop where
  woken : ∀ wakeAt, s.phase = .resting wakeAt →
    ∀ now, s.marks timings futures now .woken = [.attempt now]
  replaced : ∀ key times, s.phase = .live key times →
    ∀ now, s.marks timings futures now .horizon = [.recycled now]
  released : s.phase = .releasing →
    ∀ now outcome, s.marks timings futures now (.released outcome false) = [.attempt now]

theorem persists (timings : SessionTimings) (futures : Bool) (s : Supervisor) :
    s.Persists timings futures where
  woken := by
    intro wakeAt hphase now
    simp only [marks, tempo, react, hphase]
    rfl
  replaced := by
    intro key times hphase now
    simp only [marks, tempo, react, hphase]
    rfl
  released := by
    intro hphase now outcome
    simp only [marks, tempo, react, hphase]
    cases outcome <;> rfl

end Supervisor

/-! ## 7. The pace of both -/

/-- **Whoever keeps a socket open tries again at the same pace.**  After a loss there is a rest,
whose length goes by the number of losses since the socket was opened last; it doubles up to a
minute and starts over with a second.  There is no rest where a socket was replaced. -/
theorem attempts_paced :
    (∀ c log, Connection.Course c log → Paced log ∧ Gentle log ∧ c.Persists) ∧
    ∀ timings futures s log, Supervisor.Course timings futures s log →
      Paced log ∧ Gentle log ∧ s.Persists timings futures := by
  constructor
  · intro c log hcourse
    have hpaced : Paced log := hcourse.keeps.paced
    exact ⟨hpaced, hpaced.gentle, c.persists⟩
  · intro timings futures s log hcourse
    have hpaced : Paced log := hcourse.keeps.paced
    exact ⟨hpaced, hpaced.gentle, s.persists timings futures⟩

/-- A socket that cannot be opened twice, is replaced once it was, and cannot be opened again. -/
def flakyLog : List Mark :=
  [.attempt 0,
    .lost 5, .rest 5 1000000005, .attempt 1000000005,
    .lost 1000000009, .rest 1000000009 3000000009, .attempt 3000000010,
    .connected 3000000020, .recycled 3000000030, .attempt 3000000030,
    .lost 3000000040, .rest 3000000040 4000000040]

/-- What a connection sees of a desk on which nothing else happens. -/
def calmView (now : Nat) : ConnectionView where
  now := now
  clock := .ofMillis 0
  listing := ⟨.spot, .empty, .empty⟩
  wanted := fun _ => []
  lifetime := 10

/-- Both keepers have been through this. -/
theorem attempts_paced_flaky :
    (∃ c, Connection.Course c flakyLog ∧ Paced flakyLog ∧ Gentle flakyLog ∧ c.Persists) ∧
    ∃ s, Supervisor.Course .standard false s flakyLog ∧ Paced flakyLog ∧ Gentle flakyLog ∧
      s.Persists .standard false := by
  have connection : ∃ c, Connection.Course c flakyLog := by
    have hstart := Connection.Course.start "binance-spot#0" [] 0
    have hfailed := hstart.reacts (calmView 5) (.refused .notConnected) nofun
    have hagain := hfailed.reacts (calmView 1000000005) .woken fun _ => Nat.le_refl _
    have hfailed := hagain.reacts (calmView 1000000009) (.refused .notConnected) nofun
    have hagain := hfailed.reacts (calmView 3000000010) .woken fun _ => Nat.le_succ _
    have hopened := hagain.reacts (calmView 3000000020) .opened nofun
    have hreplaced := hopened.reacts (calmView 3000000030) .horizon nofun
    exact ⟨_, hreplaced.reacts (calmView 3000000040) (.refused .notConnected) nofun⟩
  have supervisor : ∃ s, Supervisor.Course .standard false s flakyLog := by
    have hstart : Supervisor.Course .standard false (.start "key") [.attempt 0] := .start "key" 0
    have hfailed := hstart.reacts 5 (.refused .notConnected) nofun
    have hagain := hfailed.reacts 1000000005 .woken fun _ => Nat.le_refl _
    have hkeyless := hagain.reacts 1000000009 (.created (.error .notConnected)) nofun
    have hagain := hkeyless.reacts 3000000010 .woken fun _ => Nat.le_succ _
    have hkey := hagain.reacts 3000000015 (.created (.ok "key")) nofun
    have hopened := hkey.reacts 3000000020 .opened nofun
    have hreplaced := hopened.reacts 3000000030 .horizon nofun
    have hreleased := hreplaced.reacts 3000000030 (.released (.ok ()) false) nofun
    exact ⟨_, hreleased.reacts 3000000040 (.created (.error .notConnected)) nofun⟩
  obtain ⟨c, hc⟩ := connection
  obtain ⟨s, hs⟩ := supervisor
  exact ⟨⟨c, hc, attempts_paced.1 c _ hc⟩, s, hs, attempts_paced.2 _ _ s _ hs⟩

end OrderDesk
