import OrderDesk.Proofs.Feed.Orders
import OrderDesk.Proofs.Pool.Connection
import Mathlib.Data.List.Induction
import Mathlib.Data.List.Nodup

/-!
# The streams of a connection

A connection works off the commands of the pool one by one, long after they were given and on
sockets that come and go.  Two things are shown of its list of streams.

* It is what the commands that it took come to (`Diary.Follows`), and so is what was asked for on
  the present socket, once the replay is through.  This is about one connection, whatever the
  commands are.
* What the commands come to are the streams of the symbols that the orders have placed
  (`foldl_commandOf`), as long as no two symbols share a stream.
-/

namespace OrderDesk

/-! ## 1. One connection and its diary -/

namespace Feed

/-- The frames that ask for commands, numbered from `n` on. -/
def controlFrames : (n : Nat) → List StreamCommand → List Frame
  | _, [] => []
  | n, c :: cs => .text (controlText c.verb c.streams n) :: controlFrames (n + 1) cs

theorem controlFrames_snoc (n : Nat) (cs : List StreamCommand) (c : StreamCommand) :
    controlFrames n (cs ++ [c]) =
      controlFrames n cs ++ [.text (controlText c.verb c.streams (n + cs.length))] := by
  induction cs generalizing n with
  | nil => rfl
  | cons c' cs ih =>
    rw [List.cons_append, controlFrames, ih, controlFrames, List.cons_append, List.length_cons]
    congr 5
    omega

namespace Diary

/-- The control frames that were written on the present socket. -/
def controls (d : Diary) : List Frame := d.frames.filter fun f => !f.isPong

/-- A connection and its diary agree: the streams are what the commands come to that were taken
and had their turn, and on a socket that is up the same was asked for. -/
structure Follows (d : Diary) (k : Connection) : Prop where
  streams : ∃ applied, d.taken = applied ++ k.phase.pending ∧
    k.streams = applied.foldl Connection.streamsAfter []
  socket : k.phase.isUp = true → ∃ cs, d.controls = controlFrames 1 cs ∧
    k.streams = cs.foldl Connection.streamsAfter [] ∧ k.nextNumber = 1 + cs.length
  replay : k.phase = .replaying → d.controls = [] ∧ k.nextNumber = 1

theorem follows_begin (name : String) (streams : List String) :
    (begin (.start name streams)).Follows (.start name streams) where
  streams := ⟨[⟨.subscribe, streams⟩], rfl, rfl⟩
  socket := nofun
  replay := nofun

theorem Follows.enqueue {d : Diary} {k : Connection} (h : d.Follows k) (c : StreamCommand) :
    d.Follows (k.enqueue c) :=
  ⟨h.streams, h.socket, h.replay⟩

variable {v : ConnectionView} {k k' : Connection} {i : ConnectionInput} {fs : List Frame}

/-- A connection that keeps its queue takes no command. -/
theorem taken_note {d : Diary} (h : k'.queue = k.queue) :
    (d.note k k' i fs).taken = d.taken := by
  simp only [note, h, Nat.sub_self, List.take_zero, List.append_nil]

theorem controls_note {d : Diary} (h : ¬ (k.phase = .dialing ∧ i = .opened)) :
    (d.note k k' i fs).controls = d.controls ++ fs.filter fun f => !f.isPong := by
  simp only [note, controls, if_neg h, List.filter_append]

theorem controls_note_nil {d : Diary} (h : ¬ (k.phase = .dialing ∧ i = .opened)) :
    (d.note k k' i []).controls = d.controls := by
  rw [controls_note h, List.filter_nil, List.append_nil]

/-- **A connection and its diary agree after every move.** -/
theorem Follows.move {d : Diary} (h : d.Follows k) (hmove : Connection.Move v k i k' fs) :
    (d.note k k' i fs).Follows k' := by
  obtain ⟨applied, htaken, hstreams⟩ := h.streams
  cases hmove with
  | still hi hpong hreplay =>
    have hcontrols : (d.note k k i fs).controls = d.controls := by
      rw [controls_note hi, List.filter_eq_nil_iff.mpr, List.append_nil]
      intro f hf
      simp [hpong f hf]
    refine ⟨⟨applied, ?_, hstreams⟩, ?_, ?_⟩
    · exact (taken_note (by rfl)).trans htaken
    · rw [hcontrols]
      exact h.socket
    · rw [hcontrols]
      exact h.replay
  | @turned i p b hi hk hp hne hup =>
    refine ⟨⟨applied, ?_, hstreams⟩, ?_, fun hreplay => absurd hreplay hne⟩
    · refine (taken_note (by rfl)).trans ?_
      rw [htaken, hk]
      exact congrArg (applied ++ ·) hp.symm
    · intro hlive
      rw [controls_note_nil hi]
      exact h.socket (hup hlive)
  | opened hphase =>
    have hcontrols : (d.note k (k.established v) .opened []).controls = [] := by
      simp only [note, controls, hphase, and_self, if_true, List.filter_nil]
    have hpending : (k.established v).phase.pending = [] := by
      simp only [Connection.established]
      split <;> rfl
    refine ⟨⟨applied, ?_, hstreams⟩, ?_, fun _ => ⟨hcontrols, rfl⟩⟩
    · refine (taken_note (by rfl)).trans ?_
      rw [hpending, htaken, hphase]
      rfl
    · intro hlive
      refine ⟨[], hcontrols, ?_, rfl⟩
      by_cases hnil : k.streams = []
      · exact hnil
      · have : ¬ (k.streams.isEmpty = true) := fun he => hnil (List.isEmpty_iff.mp he)
        simp only [Connection.established, if_neg this] at hlive
        cases hlive
  | replayed hphase =>
    have hi : ¬ (k.phase = .dialing ∧ ConnectionInput.turn true = .opened) := by
      rintro ⟨-, hopened⟩
      cases hopened
    obtain ⟨hcontrols, hnumber⟩ := h.replay hphase
    refine ⟨⟨applied, ?_, hstreams⟩, fun _ => ⟨[⟨.subscribe, k.streams⟩], ?_, rfl, ?_⟩, ?_⟩
    · refine (taken_note (by rfl)).trans ?_
      rw [htaken, hphase]
      rfl
    · rw [controls_note hi, hcontrols, Connection.frameOf, hnumber]
      rfl
    · show k.nextNumber + 1 = 2
      rw [hnumber]
    · intro hreplay
      cases hreplay
  | @took horizon c rest hphase hqueue =>
    have hi : ¬ (k.phase = .dialing ∧ ConnectionInput.command = .opened) := by
      rintro ⟨-, hopened⟩
      cases hopened
    rw [hphase] at htaken
    refine ⟨⟨applied, ?_, hstreams⟩, ?_, ?_⟩
    · simp only [note, hqueue, htaken]
      simp [ConnectionPhase.pending]
    · intro _
      rw [controls_note_nil hi]
      exact h.socket (by rw [hphase]; rfl)
    · intro hreplay
      cases hreplay
  | @sent horizon c hphase =>
    have hi : ¬ (k.phase = .dialing ∧ ConnectionInput.turn true = .opened) := by
      rintro ⟨-, hopened⟩
      cases hopened
    obtain ⟨cs, hcontrols, hfold, hnumber⟩ := h.socket (by rw [hphase]; rfl)
    rw [hphase] at htaken
    refine ⟨⟨applied ++ [c], ?_, ?_⟩, fun _ => ⟨cs ++ [c], ?_, ?_, ?_⟩, ?_⟩
    · refine (taken_note (by rfl)).trans ?_
      rw [htaken]
      exact (List.append_nil _).symm
    · show Connection.streamsAfter k.streams c = _
      rw [List.foldl_append, ← hstreams]
      rfl
    · rw [controls_note hi, hcontrols, controlFrames_snoc, Connection.frameOf, hnumber]
      rfl
    · show Connection.streamsAfter k.streams c = _
      rw [List.foldl_append, ← hfold]
      rfl
    · show k.nextNumber + 1 = _
      rw [hnumber, List.length_append]
      rfl
    · intro hreplay
      cases hreplay
  | @unsent horizon c p b hphase hp hne hdown =>
    rw [hphase] at htaken
    refine ⟨⟨applied ++ [c], ?_, ?_⟩, ?_, fun hreplay => absurd hreplay hne⟩
    · refine (taken_note (by rfl)).trans ?_
      rw [htaken]
      show applied ++ [c] = applied ++ [c] ++ p.pending
      rw [hp, List.append_nil]
    · show Connection.streamsAfter k.streams c = _
      rw [List.foldl_append, ← hstreams]
      rfl
    · intro hlive
      rw [show p.isUp = true from hlive] at hdown
      cases hdown

end Diary

/-! ## 2. The streams of symbols -/

theorem streamName_toList (x c : String) :
    (streamName x c).toList = (Text.lower x).toList ++ '@' :: c.toList := by
  simp [streamName, String.toList_append]

/-- The name of a stream shows its channel. -/
theorem last_streamName {x c : String} (h : c.toList ≠ []) :
    (streamName x c).toList.getLast? = c.toList.getLast? := by
  rw [streamName_toList, List.getLast?_append_of_ne_nil, List.getLast?_cons]
  · cases hc : c.toList.getLast? with
    | none => exact absurd (List.getLast?_eq_none_iff.mp hc) h
    | some a => rfl
  · exact List.cons_ne_nil _ _

theorem streamName_injective {x y c : String} (h : streamName x c = streamName y c) :
    Text.lower x = Text.lower y := by
  have hlist := congrArg String.toList h
  rw [streamName_toList, streamName_toList] at hlist
  exact String.toList_inj.mp (List.append_cancel_right hlist)

theorem trade_ne_quote (s : Surface) (x y : String) :
    streamName x s.tradeChannel ≠ streamName y "bookTicker" := by
  intro h
  have hlast := congrArg (fun n => n.toList.getLast?) h
  rw [last_streamName (by cases s <;> decide), last_streamName (by decide)] at hlast
  revert hlast
  cases s <;> decide

/-- Symbols that differ in small letters have no stream in common. -/
theorem symbolStreams_disjoint (s : Surface) {x y : String} (h : Text.lower x ≠ Text.lower y) :
    List.Disjoint (symbolStreams s x) (symbolStreams s y) := by
  intro n hx hy
  simp only [symbolStreams, List.mem_cons, List.not_mem_nil, or_false] at hx hy
  rcases hx with rfl | rfl <;> rcases hy with hn | hn
  · exact h (streamName_injective hn)
  · exact trade_ne_quote s x y hn
  · exact trade_ne_quote s y x hn.symm
  · exact h (streamName_injective hn)

theorem symbolStreams_nodup (s : Surface) (x : String) : (symbolStreams s x).Nodup := by
  rw [symbolStreams, List.nodup_cons]
  refine ⟨?_, List.nodup_singleton _⟩
  rw [List.mem_singleton]
  exact trade_ne_quote s x x
/-- The streams of some symbols. -/
def streamsOf (s : Surface) (symbols : List String) : List String :=
  symbols.flatMap (symbolStreams s)

theorem length_streamsOf (s : Surface) (symbols : List String) :
    (streamsOf s symbols).length = 2 * symbols.length := by
  induction symbols with
  | nil => rfl
  | cons x xs ih =>
    rw [streamsOf, List.flatMap_cons, List.length_append, ← streamsOf, ih, List.length_cons]
    show 2 + 2 * xs.length = 2 * (xs.length + 1)
    omega

/-- Without the streams of a symbol there are those of the others. -/
theorem streamsOf_filter (s : Surface) (x : String) {symbols : List String}
    (h : ∀ y ∈ symbols, Text.lower y = Text.lower x → y = x) :
    (streamsOf s symbols).filter (fun n => !(symbolStreams s x).contains n) =
      streamsOf s (symbols.filter (· ≠ x)) := by
  induction symbols with
  | nil => rfl
  | cons y ys ih =>
    have ih := ih fun z hz => h z (List.mem_cons_of_mem y hz)
    rw [streamsOf, List.flatMap_cons, List.filter_append, ← streamsOf, ih]
    by_cases hy : y = x
    · subst hy
      have hnone : (symbolStreams s y).filter (fun n => !(symbolStreams s y).contains n) = [] := by
        refine List.filter_eq_nil_iff.mpr ?_
        intro n hn
        simp [hn]
      rw [hnone, List.nil_append, List.filter_cons_of_neg (by simp)]
    · have hall : (symbolStreams s y).filter (fun n => !(symbolStreams s x).contains n) =
          symbolStreams s y := by
        refine List.filter_eq_self.mpr ?_
        intro n hn
        have hlower : Text.lower y ≠ Text.lower x := fun he => hy (h y List.mem_cons_self he)
        simpa using symbolStreams_disjoint s hlower hn
      rw [hall, List.filter_cons_of_pos (by simpa using hy)]
      rfl

theorem streamsOf_nodup (s : Surface) {symbols : List String} (hnodup : symbols.Nodup)
    (h : ∀ x ∈ symbols, ∀ y ∈ symbols, Text.lower x = Text.lower y → x = y) :
    (streamsOf s symbols).Nodup := by
  refine List.nodup_flatMap.mpr ⟨fun x _ => symbolStreams_nodup s x, ?_⟩
  refine hnodup.imp_of_mem ?_
  intro x y hx hy hne
  exact symbolStreams_disjoint s fun he => hne (h x hx y hy he)

theorem placedAfter_snoc (os : List (String × PoolOrder)) (o : String × PoolOrder) :
    placedAfter (os ++ [o]) = placeOne (placedAfter os) o := by
  rw [placedAfter, List.foldl_append]
  rfl

/-- Only symbols of orders are placed. -/
theorem mem_of_mem_placedAfter {os : List (String × PoolOrder)} {x : String}
    (h : x ∈ placedAfter os) : ∃ o ∈ os, o.1 = x := by
  induction os using List.reverseRecOn with
  | nil => cases h
  | append_singleton os o ih =>
    have hbefore : x ∈ placedAfter os ∨ o.1 = x := by
      rw [placedAfter_snoc, placeOne] at h
      split at h
      · rcases List.mem_append.mp h with hx | hx
        · exact Or.inl hx
        · exact Or.inr (List.mem_singleton.mp hx).symm
      · exact Or.inl (List.mem_of_mem_filter h)
    rcases hbefore with hx | hx
    · obtain ⟨o', ho', he⟩ := ih hx
      exact ⟨o', List.mem_append_left _ ho', he⟩
    · exact ⟨o, List.mem_append_right _ List.mem_cons_self, hx⟩

/-- **The commands of some orders come to the streams of the symbols that the orders place**, if
the symbols can be told apart. -/
theorem foldl_commandOf (s : Surface) {os : List (String × PoolOrder)}
    (h : ∀ o ∈ os, ∀ o' ∈ os, Text.lower o.1 = Text.lower o'.1 → o.1 = o'.1) :
    (os.map (commandOf s)).foldl Connection.streamsAfter [] = streamsOf s (placedAfter os) := by
  induction os using List.reverseRecOn with
  | nil => rfl
  | append_singleton os o ih =>
    have ih := ih fun a ha b hb => h a (List.mem_append_left _ ha) b (List.mem_append_left _ hb)
    rw [List.map_append, List.foldl_append, ih, placedAfter_snoc]
    show Connection.streamsAfter (streamsOf s (placedAfter os)) (commandOf s o) = _
    rw [Connection.streamsAfter, placeOne, commandOf]
    cases o.2.verb with
    | subscribe =>
      dsimp only
      rw [streamsOf, streamsOf, List.flatMap_append, List.flatMap_singleton]
    | unsubscribe =>
      refine streamsOf_filter s o.1 ?_
      intro y hy he
      obtain ⟨o', ho', rfl⟩ := mem_of_mem_placedAfter hy
      exact h o' (List.mem_append_left _ ho') o (List.mem_append_right _ List.mem_cons_self) he

end Feed
end OrderDesk
