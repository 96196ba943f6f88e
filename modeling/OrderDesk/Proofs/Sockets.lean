import OrderDesk.Stream.Socket
import Mathlib.Data.List.Basic
import Mathlib.Data.List.Induction

/-!
# What happens on a socket

A host calls a socket as it likes: it opens it, sends, asks for streams, reads the next message,
closes it, in any order and as often as it likes.  The network below does what it likes, too: what
arrives, which frames can be written, and when it all ends.  This module says what comes of the
calls, for every sequence of them and every network (`socket_contract`).

* A socket that takes itself to be connected has both of its halves.
* The results of reading are what the arrivals tell, one after another, each once.  An arrival that
  tells nothing has no result, one that cannot be read has a failure for its result, and neither
  ends the connection.  If reading fails, that is the last result.
* Each ping is answered in the call that reads it, as long as frames can be written.
* The connection ends with a close frame, a failed read, the end of the arrivals, a frame that could
  not be written, or a call to close; and with nothing else.  From then on the calls are silent:
  none reads anything, and none but the goodbye of a further call to close writes anything.

Nothing is said about a call that is abandoned halfway: every call here runs to its end, or waits
for arrivals that never come.
-/

namespace OrderDesk

/-! ## 1. What arrivals tell -/

/-- The result that a data frame has, if it has one. -/
def Frame.telling (futures : Bool) (f : Frame) : Option (Outcome StreamMessage) :=
  match StreamMessage.ofFrame futures f with
  | .ok none => none
  | .ok (some m) => some (.ok m)
  | .error e => some (.error e)

namespace Arrival

/-- Nothing is read after this. -/
def isLast : Arrival → Bool
  | .frame .close | .broken _ | .ended => true
  | .frame _ => false

/-- The result that an arrival has, if it has one. -/
def telling (futures : Bool) : Arrival → Option (Outcome StreamMessage)
  | .frame f => f.telling futures
  | .broken cause => some (.error (.network ("WebSocket error: " ++ cause)))
  | .ended => none

/-- The answer to a ping. -/
def pong? : Arrival → Option Frame
  | .frame (.ping bytes) => some (.pong bytes)
  | _ => none

end Arrival

/-- The results of arrivals, in their order. -/
abbrev tellings (futures : Bool) (heard : List Arrival) : List (Outcome StreamMessage) :=
  heard.filterMap (Arrival.telling futures)

theorem tellings_singleton (futures : Bool) (a : Arrival) :
    tellings futures [a] = (a.telling futures).toList := by
  cases h : a.telling futures <;> simp [tellings, h]

theorem tellings_append (futures : Bool) (heard heard' : List Arrival) :
    tellings futures (heard ++ heard') = tellings futures heard ++ tellings futures heard' :=
  List.filterMap_append

/-- The answers to pings, in their order. -/
abbrev pongs (heard : List Arrival) : List Frame := heard.filterMap Arrival.pong?

theorem pongs_append (heard heard' : List Arrival) :
    pongs (heard ++ heard') = pongs heard ++ pongs heard' :=
  List.filterMap_append

/-! ## 2. Calls -/

namespace Socket

/-- A call.  An attempt to connect comes with the network that it leads to. -/
inductive SocketCall where
  | connect (outcome : Outcome Wire)
  | send (f : Frame)
  | control (verb : StreamVerb) (streams : List String) (number : Nat)
  | next
  | close
deriving DecidableEq

/-- What a call comes to. -/
inductive Reply where
  | opened (outcome : Outcome Unit)
  | sent (outcome : Outcome Unit)
  | read (r : Reading StreamMessage)
  | closed
deriving DecidableEq

/-- The frame that a call asks to be written. -/
def SocketCall.frame? : SocketCall → Option Frame
  | .send f => some f
  | .control verb streams number =>
    if streams.isEmpty then none else some (.text (controlText verb streams number))
  | .connect _ | .next | .close => none

/-- Carries out a call. -/
def perform (futures : Bool) (s : Socket) (w : Wire) : SocketCall → Reply × Socket × Wire
  | .connect (.ok w) => (.opened (.ok ()), s.connect (.ok ()), w)
  | .connect (.error e) => (.opened (.error e), s.connect (.error e), w)
  | .send f =>
    let (outcome, s, w) := s.send w f
    (.sent outcome, s, w)
  | .control verb streams number =>
    let (outcome, s, w) := s.control w verb streams number
    (.sent outcome, s, w)
  | .next =>
    let (r, s, w) := s.nextMessage futures w
    (.read r, s, w)
  | .close => (.closed, s.close w)

/-- A call with what came of it: the reply, what was heard, what was written, and why frames could
not be written. -/
structure Dealing where
  call : SocketCall
  reply : Reply
  heard : List Arrival
  written : List Frame
  lost : List String
deriving DecidableEq

namespace Dealing

/-- A call that led from one state of the network to another. -/
def between (c : SocketCall) (r : Reply) (w w' : Wire) : Dealing where
  call := c
  reply := r
  heard := w.arrivals.take (w.arrivals.length - w'.arrivals.length)
  written := w'.written.drop w.written.length
  lost := (w.failures.take (w.failures.length - w'.failures.length)).filterMap id

/-- The result of a call that reads. -/
def result (d : Dealing) : Option (Outcome StreamMessage) :=
  match d.reply with
  | .read (.got m) => some (.ok m)
  | .read (.failed e) => some (.error e)
  | _ => none

/-- The connection ends here. -/
def Ends (d : Dealing) : Prop := d.call = .close ∨ d.lost ≠ [] ∨ ∃ a ∈ d.heard, a.isLast = true

/-- Nothing is read, and nothing is written unless it is a goodbye. -/
structure IsSilent (d : Dealing) : Prop where
  heard : d.heard = []
  written : d.call ≠ .close → d.written = []
  next : d.call = .next → d.reply = .read .closed
  sent : ∀ f, d.call.frame? = some f → d.reply = .sent (.error .notConnected)

/-- A call that reads answers the pings that it hears, and only the last of them may go without an
answer; no other call hears anything. -/
def Answers (d : Dealing) : Prop :=
  if d.call = .next then
    (d.lost = [] → d.written = pongs d.heard) ∧
      (d.lost ≠ [] → ∃ bytes, pongs d.heard = d.written ++ [.pong bytes])
  else d.heard = []

/-- A call that asks for a frame to be written reports what became of it: it was written, there is
no connection, or it could not be written. -/
inductive Reports (d : Dealing) (f : Frame) : Prop
  | written : d.reply = .sent (.ok ()) → d.written = [f] → d.lost = [] → Reports d f
  | unconnected : d.reply = .sent (.error .notConnected) → d.written = [] → d.lost = [] →
      Reports d f
  | lost {cause : String} :
      d.reply = .sent (.error (.network ("Failed to send WebSocket message: " ++ cause))) →
      d.written = [] → d.lost = [cause] → Reports d f

end Dealing

/-- A socket in use: the network as it was when the present connection was opened, if there was one
yet, and the calls since. -/
structure Dialogue where
  origin : Option Wire
  log : List Dealing
  socket : Socket
  wire : Wire

namespace Dialogue

/-- Before the first call. -/
def start : Dialogue := ⟨none, [], .closed, .quiet⟩

/-- After a call.  A connection that was opened is a new one. -/
def after (futures : Bool) (x : Dialogue) (c : SocketCall) : Dialogue :=
  let (reply, s, w) := x.socket.perform futures x.wire c
  match c with
  | .connect (.ok _) => ⟨some w, [], s, w⟩
  | _ => ⟨x.origin, x.log ++ [.between c reply x.wire w], s, w⟩

/-- After these calls. -/
def run (futures : Bool) (calls : List SocketCall) : Dialogue := calls.foldl (after futures) start

/-- The network at the beginning of the present connection. -/
def beginning (x : Dialogue) : Wire := x.origin.getD .quiet

end Dialogue

/-! ## 3. From one arrival to the next message -/

/-- A socket that lost its connection. -/
def broken : Socket := ⟨true, true, false⟩

end Socket

/-- From one state of the network to another: what was taken in, what was written, and why frames
could not be written. -/
structure Wire.Passes (w w' : Wire) (heard : List Arrival) (written : List Frame)
    (lost : List String) : Prop where
  heard : w.arrivals = heard ++ w'.arrivals
  written : w'.written = w.written ++ written
  tries : ∃ tries, w.failures = tries ++ w'.failures ∧ tries.filterMap id = lost

namespace Wire

variable {w w' w'' : Wire} {heard heard' : List Arrival} {written written' : List Frame}
  {lost lost' : List String}

theorem Passes.refl (w : Wire) : w.Passes w [] [] [] :=
  ⟨rfl, (List.append_nil _).symm, [], rfl, rfl⟩

theorem Passes.trans (h : w.Passes w' heard written lost)
    (h' : w'.Passes w'' heard' written' lost') :
    w.Passes w'' (heard ++ heard') (written ++ written') (lost ++ lost') where
  heard := by rw [h.heard, h'.heard, List.append_assoc]
  written := by rw [h'.written, h.written, List.append_assoc]
  tries := by
    obtain ⟨tries, htries, rfl⟩ := h.tries
    obtain ⟨tries', htries', rfl⟩ := h'.tries
    exact ⟨tries ++ tries', by rw [htries, htries', List.append_assoc], List.filterMap_append⟩

/-- Arrivals may be taken meanwhile. -/
theorem Passes.take (h : w.Passes w' [] written lost) (heard rest : List Arrival) :
    Passes { w with arrivals := heard ++ rest } { w' with arrivals := rest } heard written lost :=
  ⟨rfl, h.written, h.tries⟩

/-- What happened between two states of the network can be read off them. -/
theorem Passes.between_eq (h : w.Passes w' heard written lost) (c : Socket.SocketCall)
    (r : Socket.Reply) : Socket.Dealing.between c r w w' = ⟨c, r, heard, written, lost⟩ := by
  obtain ⟨tries, htries, rfl⟩ := h.tries
  simp [Socket.Dealing.between, h.heard, h.written, htries]

/-- **A frame is written, or it is lost.** -/
theorem put_cases (w : Wire) (f : Frame) :
    (∃ w', w.put f = (.ok (), w') ∧ w.Passes w' [] [f] []) ∨
      ∃ cause w', w.put f = (.error cause, w') ∧ w.Passes w' [] [] [cause] := by
  unfold put
  split
  · exact Or.inl ⟨_, rfl, rfl, rfl, [], by simp⟩
  · rename_i rest hfailures
    exact Or.inl ⟨_, rfl, rfl, rfl, [none], hfailures, rfl⟩
  · rename_i cause rest hfailures
    exact Or.inr ⟨_, _, rfl, rfl, (List.append_nil _).symm, [some cause], hfailures, rfl⟩

end Wire

namespace Socket

/-- Listening on a connected socket ends in one of three ways: the connection goes on, the last
arrival ended it, or a ping could not be answered. -/
inductive Listened (w w' : Wire) :
    (heard : List Arrival) → (written : List Frame) → (lost : List String) → Socket → Prop
  | goesOn {heard : List Arrival} : (∀ a ∈ heard, a.isLast = false) →
      w.Passes w' heard (pongs heard) [] → Listened w w' heard (pongs heard) [] opened
  | ended {heard : List Arrival} {last : Arrival} : (∀ a ∈ heard, a.isLast = false) →
      last.isLast = true → w.Passes w' (heard ++ [last]) (pongs heard) [] →
      Listened w w' (heard ++ [last]) (pongs heard) [] broken
  | unanswered {heard : List Arrival} {bytes : List UInt8} {cause : String} :
      (∀ a ∈ heard, a.isLast = false) →
      w.Passes w' (heard ++ [.frame (.ping bytes)]) (pongs heard) [cause] →
      Listened w w' (heard ++ [.frame (.ping bytes)]) (pongs heard) [cause] broken

section Listening

variable {w w' w'' : Wire} {heard heard' : List Arrival} {written : List Frame}
  {lost : List String} {s : Socket}

theorem Listened.refl (w : Wire) : Listened w w [] [] [] opened :=
  .goesOn (List.forall_mem_nil _) (.refl w)

/-- Listening goes on where the connection does. -/
theorem Listened.trans (hlast : ∀ a ∈ heard, a.isLast = false)
    (hpasses : w.Passes w' heard (pongs heard) [])
    (h : Listened w' w'' heard' written lost s) :
    Listened w w'' (heard ++ heard') (pongs heard ++ written) lost s := by
  cases h with
  | goesOn hlast' hpasses' =>
    rw [← pongs_append]
    refine .goesOn (List.forall_mem_append.mpr ⟨hlast, hlast'⟩) ?_
    rw [pongs_append]
    exact hpasses.trans hpasses'
  | ended hlast' hend hpasses' =>
    rw [← pongs_append, ← List.append_assoc]
    refine .ended (List.forall_mem_append.mpr ⟨hlast, hlast'⟩) hend ?_
    rw [pongs_append, List.append_assoc]
    exact hpasses.trans hpasses'
  | unanswered hlast' hpasses' =>
    rw [← pongs_append, ← List.append_assoc]
    refine .unanswered (List.forall_mem_append.mpr ⟨hlast, hlast'⟩) ?_
    rw [pongs_append, List.append_assoc]
    exact hpasses.trans hpasses'

theorem Listened.passes (h : Listened w w' heard written lost s) :
    w.Passes w' heard written lost := by
  cases h with
  | goesOn _ hpasses | ended _ _ hpasses | unanswered _ hpasses => exact hpasses

/-- Listening leaves the socket connected just if nothing ended the connection. -/
theorem Listened.connected_iff (h : Listened w w' heard written lost s) :
    s.connected = true ↔ lost = [] ∧ ∀ a ∈ heard, a.isLast = false := by
  cases h with
  | goesOn hlast _ => exact ⟨fun _ => ⟨rfl, hlast⟩, fun _ => rfl⟩
  | ended _ hend _ =>
    refine ⟨nofun, fun h => ?_⟩
    exact absurd (hend.symm.trans (h.2 _ List.mem_concat_self)) Bool.noConfusion
  | unanswered _ _ => exact ⟨nofun, nofun⟩

theorem Listened.eq_opened (h : Listened w w' heard written lost s) (hs : s.connected = true) :
    s = opened := by
  cases h with
  | goesOn _ _ => rfl
  | ended _ _ _ | unanswered _ _ => cases hs

/-- Where the connection goes on, no arrival was the last and all pings were answered. -/
theorem Listened.of_connected (h : Listened w w' heard written lost s) (hs : s.connected = true) :
    (∀ a ∈ heard, a.isLast = false) ∧ w.Passes w' heard (pongs heard) [] := by
  cases h with
  | goesOn hlast hpasses => exact ⟨hlast, hpasses⟩
  | ended _ _ _ | unanswered _ _ => cases hs

end Listening

/-- What is read, against what the arrivals tell that were heard for it. -/
def Reads {α : Type} (futures : Bool) (told : α → Option (Outcome StreamMessage)) (r : Reading α)
    (heard : List Arrival) (s : Socket) (w : Wire) : Prop :=
  match r with
  | .got a => tellings futures heard = (told a).toList ∧ s = opened ∧ heard ≠ []
  | .failed e => tellings futures heard = [.error e]
  | .closed => tellings futures heard = [] ∧ s = broken
  | .waiting => tellings futures heard = [] ∧ s = opened ∧ w.arrivals = []

/-- Listening came to a reading. -/
def ListensFor {α : Type} (futures : Bool) (told : α → Option (Outcome StreamMessage)) (w : Wire)
    (x : Reading α × Socket × Wire) : Prop :=
  ∃ heard written lost, Listened w x.2.2 heard written lost x.2.1 ∧
    Reads futures told x.1 heard x.2.1 x.2.2

section Reading

variable {α : Type} {futures : Bool} {told : α → Option (Outcome StreamMessage)} {w w' : Wire}
  {x : Reading α × Socket × Wire}

/-- What tells nothing may be heard before. -/
theorem ListensFor.skip (heard : List Arrival) (hlast : ∀ a ∈ heard, a.isLast = false)
    (htold : tellings futures heard = []) (hpasses : w.Passes w' heard (pongs heard) [])
    (h : ListensFor futures told w' x) : ListensFor futures told w x := by
  obtain ⟨later, written, lost, hlistened, hreads⟩ := h
  refine ⟨_, _, _, hlistened.trans hlast hpasses, ?_⟩
  have hsame : tellings futures (heard ++ later) = tellings futures later := by
    rw [tellings_append, htold, List.nil_append]
  obtain ⟨r, s, w⟩ := x
  cases r with
  | got a =>
    obtain ⟨hreads, hopen, hsome⟩ := hreads
    exact ⟨hsame.trans hreads, hopen, by simp [hsome]⟩
  | failed e => exact hsame.trans hreads
  | closed => exact ⟨hsame.trans hreads.1, hreads.2⟩
  | waiting => exact ⟨hsame.trans hreads.1, hreads.2⟩

/-- Without a connection nothing is read. -/
theorem readFrom_of_not_connected {s : Socket} (h : s.connected = false) (w : Wire)
    (arrivals : List Arrival) : s.readFrom w arrivals = (.closed, s, { w with arrivals }) := by
  cases arrivals <;> simp [readFrom, h]

/-- **Reading a frame passes over what tells nothing and stops at the first that tells something**,
or where the connection ends. -/
theorem listensFor_readFrom (futures : Bool) (w : Wire) (arrivals : List Arrival) :
    ListensFor futures (Frame.telling futures) { w with arrivals }
      (opened.readFrom w arrivals) := by
  induction arrivals generalizing w with
  | nil => exact ⟨[], [], [], .refl _, rfl, rfl, rfl⟩
  | cons a rest ih =>
    have htake :
        Wire.Passes { w with arrivals := a :: rest } { w with arrivals := rest } [a] [] [] :=
      (Wire.Passes.refl w).take [a] rest
    have hstop : a.isLast = true →
        Listened { w with arrivals := a :: rest } { w with arrivals := rest } [a] [] [] broken :=
      fun hlast => .ended (List.forall_mem_nil _) hlast htake
    have hdata : ∀ f, a = .frame f → a.isLast = false → a.pong? = none →
        opened.readFrom w (a :: rest) = (.got f, opened, { w with arrivals := rest }) →
        ListensFor futures (Frame.telling futures) { w with arrivals := a :: rest }
          (opened.readFrom w (a :: rest)) := by
      rintro f rfl hlast hpong hread
      rw [hread]
      have hon : Listened { w with arrivals := .frame f :: rest } { w with arrivals := rest }
          [.frame f] (pongs [.frame f]) [] opened :=
        .goesOn (List.forall_mem_singleton.mpr hlast) (by simpa [pongs, hpong] using htake)
      exact ⟨_, _, _, hon, tellings_singleton .., rfl, nofun⟩
    cases a with
    | ended => exact ⟨[.ended], [], [], hstop rfl, rfl, rfl⟩
    | broken cause => exact ⟨[.broken cause], [], [], hstop rfl, rfl⟩
    | frame f =>
      cases f with
      | close => exact ⟨[.frame .close], [], [], hstop rfl, rfl, rfl⟩
      | text t => exact hdata _ rfl rfl rfl rfl
      | binary bytes => exact hdata _ rfl rfl rfl rfl
      | pong bytes =>
        exact (ih w).skip [.frame (.pong bytes)] (List.forall_mem_singleton.mpr rfl) rfl
          htake
      | ping bytes =>
        rcases w.put_cases (.pong bytes) with ⟨w', hput, hpasses⟩ | ⟨cause, w', hput, hpasses⟩
        · have hread : opened.readFrom w (.frame (.ping bytes) :: rest) =
              opened.readFrom w' rest := by
            simp [readFrom, hear, send, opened, hput]
          rw [hread]
          exact (ih w').skip [.frame (.ping bytes)] (List.forall_mem_singleton.mpr rfl) rfl
            (hpasses.take [_] rest)
        · have hread : opened.readFrom w (.frame (.ping bytes) :: rest) =
              (.closed, broken, { w' with arrivals := rest }) := by
            rw [← readFrom_of_not_connected (s := broken) rfl w' rest]
            simp [readFrom, hear, send, opened, broken, hput]
          have hnone : ∀ a ∈ ([] : List Arrival), a.isLast = false := List.forall_mem_nil _
          rw [hread]
          exact ⟨[.frame (.ping bytes)], [], [cause],
            .unanswered hnone (hpasses.take [_] rest), rfl, rfl⟩

/-- **Reading a message passes over frames without one.**  The induction is on the fuel, of which
there is enough: every frame was an arrival. -/
theorem listensFor_messageFrom (futures : Bool) {fuel : Nat} {w : Wire}
    (hfuel : w.arrivals.length < fuel) :
    ListensFor futures (fun m => some (.ok m)) w (messageFrom futures fuel opened w) := by
  induction fuel generalizing w with
  | zero => exact absurd hfuel (Nat.not_lt_zero _)
  | succ fuel ih =>
    obtain ⟨heard, written, lost, hlistened, hreads⟩ := listensFor_readFrom futures w w.arrivals
    rw [messageFrom, nextFrame]
    rcases hread : opened.readFrom w w.arrivals with ⟨r, s, w'⟩
    rw [hread] at hlistened hreads
    dsimp only at hlistened hreads
    cases r with
    | closed => exact ⟨heard, written, lost, hlistened, hreads⟩
    | waiting => exact ⟨heard, written, lost, hlistened, hreads⟩
    | failed e => exact ⟨heard, written, lost, hlistened, hreads⟩
    | got f =>
      obtain ⟨htold, rfl, hsome⟩ := hreads
      obtain ⟨hlast, hpasses⟩ := hlistened.of_connected rfl
      unfold Frame.telling at htold
      dsimp only [decode]
      cases hframe : StreamMessage.ofFrame futures f with
      | error e =>
        rw [hframe] at htold
        exact ⟨heard, written, lost, hlistened, htold⟩
      | ok message =>
        rw [hframe] at htold
        cases message with
        | some m => exact ⟨heard, written, lost, hlistened, htold, rfl, hsome⟩
        | none =>
          have hfewer : w'.arrivals.length < fuel := by
            have hlength : w.arrivals.length = _ := congrArg List.length hpasses.heard
            rw [List.length_append] at hlength
            have := List.length_pos_iff.mpr hsome
            omega
          exact (ih hfewer).skip _ hlast htold hpasses

end Reading

/-! ## 4. One call -/

/-- A call on the present connection.

* `passes`, `results`: what was heard, written and lost, and the result that this has;
* `halves`, `connected_iff`: the socket afterwards;
* `silent`: without a connection the call is silent;
* `waits`, `closes`: reading waits where nothing will arrive, and says so where the connection is
  over;
* `answers`, `reports`: what became of pings and of the frame to be written. -/
structure Turn (futures : Bool) (s : Socket) (w : Wire) (d : Dealing) (s' : Socket) (w' : Wire) :
    Prop where
  passes : w.Passes w' d.heard d.written d.lost
  results : d.result.toList = tellings futures d.heard
  halves : s'.connected = true → s' = opened
  connected_iff : s'.connected = true ↔ s.connected = true ∧ ¬ d.Ends
  silent : s.connected = false → d.IsSilent
  waits : d.reply = .read .waiting → w'.arrivals = []
  closes : d.reply = .read .closed → s'.connected = false
  answers : d.Answers
  reports : ∀ f, d.call.frame? = some f → d.Reports f

section Turns

variable {futures : Bool} {s : Socket} {w : Wire} {c : SocketCall} {f : Frame}

theorem SocketCall.ne_next_of_frame? (h : c.frame? = some f) : c ≠ .next := by
  rintro rfl
  cases h

theorem SocketCall.ne_close_of_frame? (h : c.frame? = some f) : c ≠ .close := by
  rintro rfl
  cases h

theorem Dealing.answers_of_ne {d : Dealing} (hcall : d.call ≠ .next) (hheard : d.heard = []) :
    d.Answers := by
  unfold Answers
  rwa [if_neg hcall]

/-- A call that hears nothing and loses nothing ends no connection, unless it is to close it. -/
theorem Dealing.not_ends {d : Dealing} (hcall : d.call ≠ .close) (hheard : d.heard = [])
    (hlost : d.lost = []) : ¬ d.Ends := by
  rintro (hclose | hsome | ⟨a, ha, -⟩)
  · exact hcall hclose
  · exact hsome hlost
  · rw [hheard] at ha
    cases ha

/-- A call that leaves the network alone: either there is no connection, or the call is about
neither frames nor messages. -/
theorem turn_still {r : Reply} (hs : s.connected = true → s = opened) (hc : c ≠ .close)
    (hread : r = .read .closed ∧ s.connected = false ∨ ∀ x, r ≠ .read x)
    (hnext : c = .next → r = .read .closed)
    (hsent : ∀ f, c.frame? = some f → r = .sent (.error .notConnected)) :
    Turn futures s w (.between c r w w) s w := by
  rw [(Wire.Passes.refl w).between_eq]
  have hends : ¬ Dealing.Ends ⟨c, r, [], [], []⟩ := Dealing.not_ends hc rfl rfl
  refine {
    passes := .refl w
    results := ?_
    halves := hs
    connected_iff := (and_iff_left hends).symm
    silent := fun _ => ⟨rfl, fun _ => rfl, hnext, hsent⟩
    waits := ?_
    closes := ?_
    answers := ?_
    reports := fun f hf => .unconnected (hsent f hf) rfl rfl }
  · rcases hread with ⟨rfl, -⟩ | hother
    · rfl
    · unfold Dealing.result
      split
      · exact absurd ‹_› (hother _)
      · exact absurd ‹_› (hother _)
      · rfl
  · rcases hread with ⟨rfl, -⟩ | hother
    · exact nofun
    · exact fun hwaits => absurd hwaits (hother _)
  · rcases hread with ⟨-, hlost⟩ | hother
    · exact fun _ => hlost
    · exact fun hcloses => absurd hcloses (hother _)
  · unfold Dealing.Answers
    split
    · exact ⟨fun _ => rfl, fun hlost => absurd rfl hlost⟩
    · rfl

/-- **A frame is written if there is a connection**, and the connection goes on if it was. -/
theorem turn_send (hs : s.connected = true → s = opened) (hc : c.frame? = some f) :
    Turn futures s w (.between c (.sent (s.send w f).1) w (s.send w f).2.2) (s.send w f).2.1
      (s.send w f).2.2 := by
  cases hconnected : s.connected with
  | false =>
    have hsend : s.send w f = (.error .notConnected, s, w) := by simp [send, hconnected]
    rw [hsend]
    refine turn_still hs (SocketCall.ne_close_of_frame? hc) (Or.inr nofun) ?_ fun _ _ => rfl
    exact fun hnext => absurd hnext (SocketCall.ne_next_of_frame? hc)
  | true =>
    obtain rfl := hs hconnected
    rcases w.put_cases f with ⟨w', hput, hpasses⟩ | ⟨cause, w', hput, hpasses⟩
    · have hsend : opened.send w f = (.ok (), opened, w') := by simp [send, opened, hput]
      rw [hsend, hpasses.between_eq]
      have hends : ¬ Dealing.Ends ⟨c, .sent (.ok ()), [], [f], []⟩ :=
        Dealing.not_ends (SocketCall.ne_close_of_frame? hc) rfl rfl
      refine {
        passes := hpasses
        results := rfl
        halves := fun _ => rfl
        connected_iff := (and_iff_left hends).symm
        silent := nofun
        waits := nofun
        closes := nofun
        answers := Dealing.answers_of_ne (SocketCall.ne_next_of_frame? hc) rfl
        reports := fun f' hf' => ?_ }
      obtain rfl := Option.some.inj (hc.symm.trans hf')
      exact .written rfl rfl rfl
    · have hsend : opened.send w f =
          (.error (.network ("Failed to send WebSocket message: " ++ cause)), broken, w') := by
        simp [send, opened, broken, hput]
      rw [hsend, hpasses.between_eq]
      exact {
        passes := hpasses
        results := rfl
        halves := nofun
        connected_iff := ⟨nofun, fun h => absurd (Or.inr (Or.inl (List.cons_ne_nil _ _))) h.2⟩
        silent := nofun
        waits := nofun
        closes := nofun
        answers := Dealing.answers_of_ne (SocketCall.ne_next_of_frame? hc) rfl
        reports := fun _ _ => .lost rfl rfl rfl }

/-- A call that listens answers what it should. -/
theorem Listened.answers {heard : List Arrival} {written : List Frame} {lost : List String}
    {w' : Wire} (h : Listened w w' heard written lost s) (r : Reply) :
    Dealing.Answers ⟨.next, r, heard, written, lost⟩ := by
  unfold Dealing.Answers
  rw [if_pos rfl]
  cases h with
  | goesOn _ _ => exact ⟨fun _ => rfl, fun hlost => absurd rfl hlost⟩
  | @ended earlier last _ hend _ =>
    have hpong : last.pong? = none := by
      rcases last with (_ | _ | _ | _ | _) | _ | _ <;> first | rfl | cases hend
    refine ⟨fun _ => ?_, fun hlost => absurd rfl hlost⟩
    simp [hpong]
  | @unanswered earlier bytes cause _ _ =>
    refine ⟨nofun, fun _ => ⟨bytes, ?_⟩⟩
    rw [pongs_append]
    rfl

/-- **Reading listens if there is a connection.** -/
theorem turn_next (hs : s.connected = true → s = opened) (w : Wire) :
    Turn futures s w
      (.between .next (.read (s.nextMessage futures w).1) w (s.nextMessage futures w).2.2)
      (s.nextMessage futures w).2.1 (s.nextMessage futures w).2.2 := by
  cases hconnected : s.connected with
  | false =>
    have hnext : s.nextMessage futures w = (.closed, s, w) := by
      rw [nextMessage, messageFrom, nextFrame, readFrom_of_not_connected hconnected]
    rw [hnext]
    exact turn_still hs nofun (Or.inl ⟨rfl, hconnected⟩) (fun _ => rfl) nofun
  | true =>
    obtain rfl := hs hconnected
    obtain ⟨heard, written, lost, hlistened, hreads⟩ :=
      listensFor_messageFrom futures (Nat.lt_succ_self w.arrivals.length)
    rw [nextMessage]
    rcases hread : messageFrom futures (w.arrivals.length + 1) opened w with ⟨r, s', w'⟩
    rw [Nat.succ_eq_add_one, hread] at hlistened hreads
    dsimp only at hlistened hreads ⊢
    rw [hlistened.passes.between_eq]
    refine {
      passes := hlistened.passes
      results := ?_
      halves := hlistened.eq_opened
      connected_iff := ?_
      silent := nofun
      waits := ?_
      closes := ?_
      answers := hlistened.answers _
      reports := nofun }
    · cases r with
      | got m => exact hreads.1.symm
      | failed e => exact hreads.symm
      | closed => exact hreads.1.symm
      | waiting => exact hreads.1.symm
    · rw [hlistened.connected_iff]
      simp [Dealing.Ends, opened]
    · rintro ⟨⟩
      exact hreads.2.2
    · rintro ⟨⟩
      exact congrArg connected hreads.2

/-- **Closing ends the connection**, whether or not the goodbye gets through. -/
theorem turn_close (w : Wire) :
    Turn futures s w (.between .close .closed w (s.close w).2) (s.close w).1 (s.close w).2 := by
  have hpasses : ∃ written lost, w.Passes (s.close w).2 [] written lost := by
    unfold close
    dsimp only
    split
    · rcases w.put_cases .close with ⟨w', hput, hpasses⟩ | ⟨cause, w', hput, hpasses⟩
      · exact ⟨_, _, by rw [hput]; exact hpasses⟩
      · exact ⟨_, _, by rw [hput]; exact hpasses⟩
    · exact ⟨_, _, .refl w⟩
  obtain ⟨written, lost, hpasses⟩ := hpasses
  rw [hpasses.between_eq]
  exact {
    passes := hpasses
    results := rfl
    halves := nofun
    connected_iff := ⟨nofun, fun h => absurd (Or.inl rfl) h.2⟩
    silent := fun _ => ⟨rfl, fun h => absurd rfl h, nofun, nofun⟩
    waits := nofun
    closes := nofun
    answers := rfl
    reports := nofun }

/-- **Every call on the present connection is such a turn.** -/
theorem turn (hs : s.connected = true → s = opened) (hc : ∀ w, c ≠ .connect (.ok w)) :
    Turn futures s w (.between c (s.perform futures w c).1 w (s.perform futures w c).2.2)
      (s.perform futures w c).2.1 (s.perform futures w c).2.2 := by
  cases c with
  | connect outcome =>
    cases outcome with
    | ok w' => exact absurd rfl (hc w')
    | error e => exact turn_still hs nofun (Or.inr nofun) nofun nofun
  | send f => exact turn_send hs rfl
  | control verb streams number =>
    dsimp only [perform, control]
    split
    · rename_i hempty
      refine turn_still hs nofun (Or.inr nofun) nofun fun f hf => ?_
      simp [SocketCall.frame?, hempty] at hf
    · rename_i hsome
      exact turn_send hs (if_neg hsome)
  | next => exact turn_next hs w
  | close => exact turn_close w

end Turns

/-! ## 5. Any number of calls -/

/-- What is true of a socket in use, after any number of calls.

* `halves`: a connected socket has both of its halves;
* `connected_iff`: it is connected just if the last attempt to connect that succeeded was followed
  by nothing that ends a connection;
* `silent`: what follows such an end is silent, and so is what comes before the first connection;
* `heard`, `results`: what arrived was heard in its order, and the results of reading are what that
  tells;
* `waits`, `closes`: a call to read has no result only where nothing more will arrive or where the
  connection is over;
* `answers`, `reports`: what became of pings, and of frames to be written;
* `written`, `pongs`: all that was written, and what was written by calls that read. -/
structure Contract (futures : Bool) (x : Dialogue) : Prop where
  halves : x.socket.connected = true → x.socket.writer = true ∧ x.socket.reader = true
  connected_iff : x.socket.connected = true ↔ x.origin.isSome = true ∧ ∀ d ∈ x.log, ¬ d.Ends
  silent : ∀ before after, x.log = before ++ after →
    (x.origin = none ∨ ∃ d ∈ before, d.Ends) → ∀ d ∈ after, d.IsSilent
  heard : x.beginning.arrivals = x.log.flatMap (·.heard) ++ x.wire.arrivals
  results : x.log.filterMap (·.result) = tellings futures (x.log.flatMap (·.heard))
  waits : ∀ d ∈ x.log, d.reply = .read .waiting → x.wire.arrivals = []
  closes : ∀ d ∈ x.log, d.reply = .read .closed → x.socket.connected = false
  answers : ∀ d ∈ x.log, d.Answers
  reports : ∀ d ∈ x.log, ∀ f, d.call.frame? = some f → d.Reports f
  written : x.wire.written = x.beginning.written ++ x.log.flatMap (·.written)
  pongs : (∀ d ∈ x.log, d.lost = []) →
    (x.log.filter (·.call = .next)).flatMap (·.written) = pongs (x.log.flatMap (·.heard))

variable {futures : Bool} {x : Dialogue}

/-- Where nothing was called yet there is nothing to keep but the state of the socket. -/
theorem contract_fresh (origin : Option Wire) {s : Socket} (hs : s.connected = true → s = opened)
    (hconnected : s.connected = origin.isSome) :
    Contract futures ⟨origin, [], s, origin.getD .quiet⟩ where
  halves h := by
    rw [hs h]
    exact ⟨rfl, rfl⟩
  connected_iff := by simp [hconnected]
  silent := by
    rintro before after hsplit -
    obtain ⟨-, rfl⟩ := List.append_eq_nil_iff.mp hsplit.symm
    exact List.forall_mem_nil _
  heard := rfl
  results := rfl
  waits := List.forall_mem_nil _
  closes := List.forall_mem_nil _
  answers := List.forall_mem_nil _
  reports := List.forall_mem_nil _
  written := (List.append_nil _).symm
  pongs _ := rfl

/-- Pings are answered one call after another. -/
theorem pongs_of_answers {log : List Dealing} (hanswers : ∀ d ∈ log, d.Answers)
    (hlost : ∀ d ∈ log, d.lost = []) :
    (log.filter (·.call = .next)).flatMap (·.written) = pongs (log.flatMap (·.heard)) := by
  induction log with
  | nil => rfl
  | cons d log ih =>
    obtain ⟨hown, hlater⟩ := List.forall_mem_cons.mp hanswers
    obtain ⟨hkept, hkept'⟩ := List.forall_mem_cons.mp hlost
    have hrest := ih hlater hkept'
    unfold Dealing.Answers at hown
    rw [List.flatMap_cons, pongs_append, List.filter_cons, ← hrest]
    by_cases hnext : d.call = .next
    · rw [if_pos hnext] at hown
      rw [if_pos (decide_eq_true hnext), List.flatMap_cons, hown.1 hkept]
    · rw [if_neg hnext] at hown
      rw [if_neg (by simpa using hnext), hown]
      rfl

theorem Contract.eq_opened (h : Contract futures x) (hconnected : x.socket.connected = true) :
    x.socket = opened := by
  obtain ⟨hwriter, hreader⟩ := h.halves hconnected
  rcases hsocket : x.socket with ⟨writer, reader, connected⟩
  rw [hsocket] at hconnected hwriter hreader
  cases hconnected
  cases hwriter
  cases hreader
  rfl

/-- **One more call on the present connection.** -/
theorem Contract.turn {d : Dealing} {s : Socket} {w : Wire} (h : Contract futures x)
    (hturn : Turn futures x.socket x.wire d s w) :
    Contract futures ⟨x.origin, x.log ++ [d], s, w⟩ := by
  have hall : ∀ {P : Dealing → Prop}, (∀ d' ∈ x.log, P d') → P d → ∀ d' ∈ x.log ++ [d], P d' :=
    fun hlog hd => List.forall_mem_append.mpr ⟨hlog, List.forall_mem_singleton.mpr hd⟩
  have hanswers := hall h.answers hturn.answers
  refine {
    halves := fun hs => ?_
    connected_iff := ?_
    silent := ?_
    heard := ?_
    results := ?_
    waits := hall (fun d' hd' hwaits => ?_) hturn.waits
    closes := hall (fun d' hd' hcloses => ?_) hturn.closes
    answers := hanswers
    reports := hall h.reports hturn.reports
    written := ?_
    pongs := pongs_of_answers hanswers }
  · rw [hturn.halves hs]
    exact ⟨rfl, rfl⟩
  · rw [hturn.connected_iff, h.connected_iff, List.forall_mem_append, List.forall_mem_singleton,
      and_assoc]
  · intro before after hsplit hover
    rcases List.eq_nil_or_concat after with rfl | ⟨after, last, rfl⟩
    · exact List.forall_mem_nil _
    · rw [List.concat_eq_append, ← List.append_assoc] at hsplit
      obtain ⟨hlog, hlast⟩ := List.append_inj' hsplit rfl
      cases hlast
      have hlost : x.socket.connected = false := by
        rw [← Bool.not_eq_true, h.connected_iff]
        rintro ⟨horigin, hgoes⟩
        rcases hover with hnone | ⟨d', hd', hends⟩
        · rw [hnone] at horigin
          cases horigin
        · exact hgoes d' (hlog ▸ List.mem_append_left _ hd') hends
      rw [List.concat_eq_append]
      exact List.forall_mem_append.mpr
        ⟨h.silent before after hlog hover, List.forall_mem_singleton.mpr (hturn.silent hlost)⟩
  · have hheard : x.beginning.arrivals = _ := h.heard
    rw [List.flatMap_append, List.flatMap_singleton, List.append_assoc, ← hturn.passes.heard]
    exact hheard
  · rw [List.filterMap_append, List.flatMap_append, List.flatMap_singleton, tellings_append,
      h.results, ← hturn.results]
    cases hresult : d.result <;> simp [hresult]
  · have hnone := h.waits d' hd' hwaits
    rw [hturn.passes.heard] at hnone
    exact (List.append_eq_nil_iff.mp hnone).2
  · rw [← Bool.not_eq_true, hturn.connected_iff, h.closes d' hd' hcloses]
    exact fun hs => nomatch hs.1
  · rw [List.flatMap_append, List.flatMap_singleton, ← List.append_assoc, hturn.passes.written,
      h.written]
    rfl

/-- **Whatever the call, the contract is kept.** -/
theorem Contract.after (h : Contract futures x) (c : SocketCall) :
    Contract futures (x.after futures c) := by
  by_cases hc : ∃ w, c = .connect (.ok w)
  · obtain ⟨w, rfl⟩ := hc
    exact contract_fresh (some w) (fun _ => rfl) rfl
  · have hother : ∀ w, c ≠ .connect (.ok w) := fun w hw => hc ⟨w, hw⟩
    have hafter : x.after futures c = ⟨x.origin, x.log ++ [.between c
        (x.socket.perform futures x.wire c).1 x.wire (x.socket.perform futures x.wire c).2.2],
        (x.socket.perform futures x.wire c).2.1, (x.socket.perform futures x.wire c).2.2⟩ := by
      cases c with
      | connect outcome =>
        cases outcome with
        | ok w => exact absurd rfl (hother w)
        | error e => rfl
      | send f | control verb streams number | next | close => rfl
    rw [hafter]
    exact h.turn (Socket.turn h.eq_opened hother)

/-- **A socket keeps its contract**, whatever is called and whatever the network does. -/
theorem socket_contract (futures : Bool) (calls : List SocketCall) :
    Contract futures (.run futures calls) := by
  induction calls using List.reverseRecOn with
  | nil => exact contract_fresh none nofun rfl
  | append_singleton calls c ih =>
    rw [Dialogue.run, List.foldl_append]
    exact ih.after c

/-- A ping is answered, and what is sent after the end is not written. -/
example : ((Dialogue.run false [.connect (.ok ⟨[.frame (.ping [1]), .ended], [], []⟩), .next,
    .send (.text "late")]).log.map fun d => (d.reply, d.written)) =
      [(.read .closed, [.pong [1]]), (.sent (.error .notConnected), [])] := by
  decide

end Socket
end OrderDesk
