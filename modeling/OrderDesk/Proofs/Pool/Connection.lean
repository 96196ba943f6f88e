import OrderDesk.Desk.Workers

/-!
# What a connection can do

A connection reacts to some twenty combinations of a phase and an input, but what happens to its
streams, its queue and its socket falls into a few cases: nothing, a change of the phase alone, a
new socket, the replay, a command taken, a command sent, a command that could not be sent.
`Connection.Move` lists them, and `Connection.move` says that every reaction is one of them.

The streams only change when a command is sent or could not be sent; the queue only when a
command is taken.
-/

namespace OrderDesk

/-! ## 1. Moves -/

namespace ConnectionPhase

/-- The streams were asked for on the present socket. -/
def isUp : ConnectionPhase → Bool
  | live _ | sending _ _ | delivering _ _ => true
  | dialing | replaying | resting _ | ended => false

/-- The command that was taken and waits for its turn. -/
def pending : ConnectionPhase → List StreamCommand
  | sending _ c => [c]
  | _ => []

end ConnectionPhase

/-- A frame that only keeps the connection alive. -/
def Frame.isPong : Frame → Bool
  | .pong _ => true
  | _ => false

namespace Connection

/-- From the connection `k` to another one, with the frames that are written meanwhile. -/
inductive Move (v : ConnectionView) (k : Connection) :
    ConnectionInput → Connection → List Frame → Prop
  | still {i : ConnectionInput} {fs : List Frame} : ¬ (k.phase = .dialing ∧ i = .opened) →
      (∀ f ∈ fs, f.isPong = true) → (k.phase = .replaying → fs = []) → Move v k i k fs
  | turned {i : ConnectionInput} {p : ConnectionPhase} {b : Backoff} :
      ¬ (k.phase = .dialing ∧ i = .opened) → k.phase.pending = [] → p.pending = [] →
      p ≠ .replaying → (p.isUp = true → k.phase.isUp = true) →
      Move v k i { k with phase := p, backoff := b } []
  | opened : k.phase = .dialing → Move v k .opened (k.established v) []
  | replayed : k.phase = .replaying →
      Move v k (.turn true)
        { k with phase := .live (v.now + v.lifetime), nextNumber := k.nextNumber + 1 }
        [k.frameOf ⟨.subscribe, k.streams⟩]
  | took {horizon : Nat} {c : StreamCommand} {rest : List StreamCommand} :
      k.phase = .live horizon → k.queue = c :: rest →
      Move v k .command { k with queue := rest, phase := .sending horizon c } []
  | sent {horizon : Nat} {c : StreamCommand} : k.phase = .sending horizon c →
      Move v k (.turn true)
        { k with
          streams := streamsAfter k.streams c
          phase := .live horizon
          nextNumber := k.nextNumber + 1 }
        [k.frameOf c]
  | unsent {horizon : Nat} {c : StreamCommand} {p : ConnectionPhase} {b : Backoff} :
      k.phase = .sending horizon c → p.pending = [] → p ≠ .replaying → p.isUp = false →
      Move v k (.turn false)
        { k with streams := streamsAfter k.streams c, phase := p, backoff := b } []

variable {v : ConnectionView} {k : Connection}

/-- Losing the socket is a change of the phase alone. -/
theorem move_drop {i : ConnectionInput} (hi : ¬ (k.phase = .dialing ∧ i = .opened))
    (hp : k.phase.pending = []) : Move v k i (k.drop v.now) [] :=
  .turned hi hp rfl nofun nofun

theorem move_receive {h : Nat} (hlive : k.phase = .live h) (i : ConnectionInput) (f : Frame) :
    Move v k i (k.receive v h f).1 (ConnectionEffect.frames (k.receive v h f).2) := by
  have hi : ¬ (k.phase = .dialing ∧ i = .opened) := by
    rw [hlive]
    exact fun h => nomatch h.1
  have hp : k.phase.pending = [] := by rw [hlive]; rfl
  have hstill : Move v k i k [] := .still hi nofun fun _ => rfl
  unfold receive
  split
  · exact hstill
  · rename_i m _
    unfold deliver
    split
    · exact hstill
    · split
      · exact hstill
      · split
        · exact .turned hi hp rfl nofun fun _ => by rw [hlive]; rfl
        · exact hstill
  · exact hstill
  · exact move_drop hi hp

theorem move_hear {h : Nat} (hlive : k.phase = .live h) (i : ConnectionInput) (a : Arrival)
    (written : Bool) :
    Move v k i (k.hear v h a written).1 (ConnectionEffect.frames (k.hear v h a written).2) := by
  have hi : ¬ (k.phase = .dialing ∧ i = .opened) := by
    rw [hlive]
    exact fun h => nomatch h.1
  have hp : k.phase.pending = [] := by rw [hlive]; rfl
  unfold hear
  split
  · rename_i bytes
    split
    · refine .still hi ?_ ?_
      · intro f hf
        obtain rfl := List.mem_singleton.mp hf
        rfl
      · rw [hlive]
        exact nofun
    · exact move_drop hi hp
  · exact .still hi nofun fun _ => rfl
  · exact move_drop hi hp
  · exact move_drop hi hp
  · exact move_drop hi hp
  · exact move_receive hlive i _

/-- **Every reaction is a move.** -/
theorem move (v : ConnectionView) (k : Connection) (i : ConnectionInput) :
    Move v k i (k.react v i).1 (ConnectionEffect.frames (k.react v i).2) := by
  unfold react
  split
  · rename_i hphase
    exact .opened hphase
  · rename_i cause hphase
    exact move_drop (fun h => nomatch h.2) (by rw [hphase]; rfl)
  · rename_i hphase
    exact .replayed hphase
  · rename_i hphase
    exact move_drop (fun h => nomatch h.2) (by rw [hphase]; rfl)
  · rename_i horizon hphase
    split
    · exact .still (fun h => nomatch h.2) nofun fun _ => rfl
    · rename_i command rest hqueue
      exact .took hphase hqueue
  · rename_i horizon a written hphase
    exact move_hear hphase _ a written
  · rename_i horizon hphase
    exact .turned (fun h => nomatch h.2) (by rw [hphase]; rfl) rfl nofun nofun
  · rename_i horizon hphase
    exact .turned (fun h => nomatch h.2) (by rw [hphase]; rfl) rfl nofun nofun
  · rename_i horizon command written hphase
    cases written with
    | true => exact .sent hphase
    | false => exact .unsent hphase rfl nofun rfl
  · rename_i horizon t hphase
    exact .turned (fun h => nomatch h.2) (by rw [hphase]; rfl) rfl nofun
      fun _ => by rw [hphase]; rfl
  · rename_i wakeAt hphase
    exact .turned (fun h => nomatch h.2) (by rw [hphase]; rfl) rfl nofun nofun
  · rename_i wakeAt hphase
    exact .turned (fun h => nomatch h.2) (by rw [hphase]; rfl) rfl nofun nofun
  · rename_i hopened _ _ _ _ _ _ _ _ _ _ _
    exact .still (fun h => hopened h.1 h.2) nofun fun _ => rfl

/-- What leaves the queue leaves it at the front. -/
theorem Move.queue {i : ConnectionInput} {k' : Connection} {fs : List Frame}
    (h : Move v k i k' fs) :
    k.queue.take (k.queue.length - k'.queue.length) ++ k'.queue = k.queue := by
  cases h with
  | still _ _ _ | turned _ _ _ _ _ | opened _ | replayed _ | sent _ | unsent _ _ _ _ =>
    show k.queue.take (k.queue.length - k.queue.length) ++ k.queue = k.queue
    rw [Nat.sub_self]
    rfl
  | @took horizon c rest hphase hqueue => simp [hqueue]

end Connection

/-! ## 2. Reactions and the desk -/

namespace DeskState

/-- What a connection does changes nothing that the pool or another connection works with. -/
theorem foldl_afterConnection (es : List ConnectionEffect) (s : DeskState) :
    (es.foldl afterConnection s).pool = s.pool ∧
      (es.foldl afterConnection s).carriers = s.carriers ∧
      (es.foldl afterConnection s).connections = s.connections := by
  induction es generalizing s with
  | nil => exact ⟨rfl, rfl, rfl⟩
  | cons e es ih =>
    obtain ⟨hpool, hcarriers, hconnections⟩ := ih (s.afterConnection e)
    cases e <;> exact ⟨hpool, hcarriers, hconnections⟩

theorem connectionStep_none {s : DeskState} {index : Nat} (h : s.connections[index]? = none)
    (w : Surroundings) (i : ConnectionInput) : s.connectionStep w index i = (s, []) := by
  simp only [connectionStep, h]

/-- **A reaction concerns one connection.** -/
theorem connectionStep_some {s : DeskState} {index : Nat} {k : Connection}
    (h : s.connections[index]? = some k) (w : Surroundings) (i : ConnectionInput) :
    ∃ k', Connection.Move (s.viewFor w.listing w.lifetime) k i k' (s.connectionStep w index i).2 ∧
      (s.connectionStep w index i).1.connections = s.connections.set index k' ∧
      (s.connectionStep w index i).1.pool = s.pool ∧
      (s.connectionStep w index i).1.carriers = s.carriers := by
  refine ⟨(k.react (s.viewFor w.listing w.lifetime) i).1, ?_, ?_⟩
  · simp only [connectionStep, h]
    exact Connection.move _ k i
  · obtain ⟨hpool, hcarriers, hconnections⟩ := foldl_afterConnection
      (k.react (s.viewFor w.listing w.lifetime) i).2
      { s with connections :=
          s.connections.set index (k.react (s.viewFor w.listing w.lifetime) i).1 }
    simp only [connectionStep, h]
    exact ⟨hconnections, hpool, hcarriers⟩

end DeskState
end OrderDesk
