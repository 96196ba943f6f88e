import Mathlib.Logic.Relation
import OrderDesk.Desk.Session
import OrderDesk.Proofs.Alone
import OrderDesk.Proofs.Within

/-!
# Supervisors and those who start them

To connect is to see that no supervisor is live, to ask the exchange for the time and for a key, and
then to start a supervisor and to take it for the desk's own.  Nothing keeps others out meanwhile.

As long as no two calls to connect overlap, whatever the calls to disconnect do in between, no
supervisor is live but the desk's own, and none is from the moment a disconnect takes it until
somebody connects again (`Reached.only_own_live`).  Where two overlap, both may find that there is
none, and the second takes the place of the first, which stays live (`two_supervisors`).  Such an
orphan is out of reach: no call ends it, in any run (`orphan_outlives`).
-/

namespace OrderDesk

/-! ## 1. Supervisors -/

namespace DeskState

/-- Neither the supervisor at a place nor the desk was told to end. -/
def Live (s : DeskState) (i : Nat) : Prop :=
  ∃ session, s.sessions[i]? = some session ∧ s.sessionEnds session = false

/-- No supervisor is live but the desk's own. -/
def Single (s : DeskState) : Prop := ∀ i, s.Live i → s.current = some i

/-- A supervisor is live and not the desk's own. -/
def Orphan (s : DeskState) (i : Nat) : Prop := s.Live i ∧ s.current ≠ some i

variable {s : DeskState} {i : Nat}

theorem isConnected_of_live (h : s.Live i) (hcurrent : s.current = some i) :
    s.isConnected = true := by
  obtain ⟨session, hsession, hends⟩ := h
  simp only [isConnected, hcurrent, Option.bind_some, hsession, hends, Bool.not_false]

theorem Single.not_live (h : s.Single) (hnot : s.isConnected = false) : ¬ s.Live i := by
  intro hlive
  exact Bool.false_ne_true (hnot.symm.trans (isConnected_of_live hlive (h i hlive)))

end DeskState

namespace Desk

variable {s : DeskState} {i index : Nat} {key : String}

/-- A supervisor that was just started is live, and the desk's own; all others are as before. -/
theorem live_supervise (h : (supervise key s).Live i) :
    s.Live i ∨ (supervise key s).current = some i := by
  obtain ⟨session, hsession, hends⟩ := h
  rcases Nat.lt_or_ge i s.sessions.length with hlt | hge
  · have hold : s.sessions[i]? = some session := by
      rw [← hsession]
      exact (List.getElem?_append_left hlt).symm
    exact Or.inl ⟨session, hold, hends⟩
  · have hnew : [(⟨.start key, false⟩ : Session)][i - s.sessions.length]? = some session := by
      rw [← hsession]
      exact (List.getElem?_append_right hge).symm
    obtain ⟨hlt, -⟩ := List.getElem?_eq_some_iff.mp hnew
    have hi : s.sessions.length = i := by
      rw [List.length_singleton] at hlt
      omega
    exact Or.inr (congrArg some hi)

theorem supervise_orphan (h : s.Orphan i) : (supervise key s).Orphan i := by
  obtain ⟨⟨session, hsession, hends⟩, -⟩ := h
  obtain ⟨hlt, -⟩ := List.getElem?_eq_some_iff.mp hsession
  refine ⟨⟨session, ?_, hends⟩, ?_⟩
  · rw [← hsession]
    exact List.getElem?_append_left hlt
  · intro hcurrent
    have hi : s.sessions.length = i := Option.some.inj hcurrent
    omega

/-- To end the desk's own supervisor leaves all others as they are. -/
theorem live_stopSession : (stopSession index s).Live i ↔ s.Live i ∧ i ≠ index := by
  have hget : (stopSession index s).sessions[i]? = (s.sessions[i]?).map fun session =>
      if index = i then { session with stopped := true } else session := by
    rw [stopSession, List.getElem?_modify]
    rfl
  unfold DeskState.Live
  rw [hget]
  by_cases hi : index = i
  · subst hi
    simp only [if_true]
    constructor
    · rintro ⟨session, hsession, hends⟩
      obtain ⟨old, -, rfl⟩ := Option.map_eq_some_iff.mp hsession
      cases hends
    · rintro ⟨-, hne⟩
      exact absurd rfl hne
  · simp only [if_neg hi, Option.map_id', and_iff_left (Ne.symm hi)]
    rfl

end Desk

/-! ## 2. What a call may change -/

namespace Sessions

open DeskState

/-- Where no supervisor was live but the desk's own, this is still so, and none has become live. -/
def Lets (s s' : DeskState) : Prop :=
  s.Single → s'.Single ∧ ∀ i, s'.Live i → s.Live i

/-- Every orphan stays one. -/
def Leaves (s s' : DeskState) : Prop := ∀ i, s.Orphan i → s'.Orphan i

theorem sparesKeys_lets : SparesKeys Lets where
  requests := fun _ _ _ h => ⟨h, fun _ hi => hi⟩
  key := fun _ _ _ h => ⟨h, fun _ hi => hi⟩

theorem sparesKeys_leaves : SparesKeys Leaves where
  requests := fun _ _ _ _ h => h
  key := fun _ _ _ _ h => h

/-- What ends the session of a desk changes whatever its first step changes. -/
theorem within_disconnect {R : DeskState → DeskState → Prop} (hR : SparesKeys R) (d : Desk)
    (hfirst : ∀ s, R s { s.current.elim s fun index => Desk.stopSession index s with
      current := none }) : d.disconnect.Within R := by
  refine Act.Within.bind (fun s => ⟨hfirst s, ?_⟩) fun _ =>
    Client.within_releaseListenKey hR d.toClient
  dsimp only
  cases s.current with
  | none => trivial
  | some index => exact ⟨fun s _ => hR.requests s s.gate s.nonce, fun _ => trivial⟩

/-- No supervisor is live once the desk's own was told to end. -/
theorem not_live_of_taken {s : DeskState} (hsingle : s.Single) (i : Nat) :
    ¬ ({ s.current.elim s fun index => Desk.stopSession index s with
      current := none } : DeskState).Live i := by
  intro hlive
  cases hcurrent : s.current with
  | none =>
    rw [hcurrent] at hlive
    have hown := hsingle i hlive
    rw [hcurrent] at hown
    cases hown
  | some index =>
    rw [hcurrent] at hlive
    obtain ⟨hlive, hne⟩ := Desk.live_stopSession.mp hlive
    have hown := hsingle i hlive
    rw [hcurrent] at hown
    exact hne (Option.some.inj hown).symm

theorem disconnect_lets (d : Desk) : d.disconnect.Within Lets := by
  refine within_disconnect sparesKeys_lets d fun s hsingle => ?_
  have hnone := not_live_of_taken hsingle
  exact ⟨fun i hi => absurd hi (hnone i), fun i hi => absurd hi (hnone i)⟩

/-- Where no supervisor is live but the desk's own, none is after the first move of what ends the
session. -/
theorem not_live_of_disconnect {d : Desk} {s s' : DeskState} {t : Act.Trace} {rest : Trial Unit}
    (hsingle : s.Single) (hmove : Act.Move d.disconnect s t rest s') (i : Nat) : ¬ s'.Live i := by
  rcases Act.move_bind hmove with ⟨a, hdone, -⟩ | ⟨x, hend, -⟩
  · cases hdone
  · cases hend with
    | access => exact not_live_of_taken hsingle i

theorem disconnect_leaves (d : Desk) : d.disconnect.Within Leaves := by
  refine within_disconnect sparesKeys_leaves d fun s i horphan => ⟨?_, nofun⟩
  obtain ⟨hlive, hother⟩ := horphan
  cases hcurrent : s.current with
  | none => exact hlive
  | some index =>
    refine Desk.live_stopSession.mpr ⟨hlive, ?_⟩
    rintro rfl
    exact hother hcurrent

/-- What a call to connect asks for. -/
def obtainKey (d : Desk) : Trial String := d.syncClock.andThen fun _ => d.createListenKey

/-- What a call to connect does with the key. -/
def begin (o : Outcome String) : Trial Unit :=
  match o with
  | .ok key => .lift (.modify (Desk.supervise key))
  | .error e => .done (.error e)

/-- What a call to connect does once it looked whether there is a supervisor. -/
def looked (d : Desk) (s : DeskState) : Trial Unit :=
  if s.isConnected then .ok ()
  else if d.signer.isNone then .fail Desk.keysNeeded
  else (obtainKey d).bind begin

theorem connect_eq (d : Desk) : d.connect = .access id (looked d) := by
  have hkey : (d.syncClock.andThen fun _ => d.createListenKey.andThen fun key =>
      .lift (.modify (Desk.supervise key))) = (obtainKey d).bind begin := by
    unfold obtainKey Act.andThen
    rw [Act.bind_assoc]
    congr 1
    funext time
    cases time with
    | error e => rfl
    | ok offset =>
      show d.createListenKey.bind _ = d.createListenKey.bind begin
      congr 1
      funext key
      cases key <;> rfl
  unfold Desk.connect looked
  rw [hkey]

theorem within_obtainKey {R : DeskState → DeskState → Prop} (hR : SparesKeys R) (d : Desk) :
    (obtainKey d).Within R :=
  (Client.within_syncClock hR.requests d.toClient).andThen fun _ =>
    Client.within_createListenKey hR d.toClient

theorem connect_leaves (d : Desk) : d.connect.Within Leaves := by
  rw [connect_eq]
  refine fun s => ⟨fun _ h => h, ?_⟩
  unfold looked
  split
  · trivial
  · split
    · trivial
    · refine (within_obtainKey sparesKeys_leaves d).bind fun o => ?_
      cases o with
      | ok key => exact fun s => ⟨fun i => Desk.supervise_orphan, trivial⟩
      | error e => trivial

/-! ## 3. Runs -/

/-- What is asked of a desk about its session. -/
inductive SessionCall where
  | connect
  | disconnect
deriving DecidableEq

/-- The procedure of a call. -/
def SessionCall.deed (d : Desk) : SessionCall → Trial Unit
  | connect => d.connect
  | disconnect => d.disconnect

/-- A desk and everybody who opens or closes its session, each with the rest of a procedure. -/
structure Office where
  state : DeskState
  members : List (SessionCall × Trial Unit)

/-- Whether a procedure came to its end. -/
def isThrough : Trial Unit → Bool
  | .done _ | .halt _ => true
  | _ => false

/-- One step: a new call, one move of one member, or anything elsewhere that neither starts a
supervisor nor touches what the desk takes for its own. -/
inductive Step (d : Desk) : Office → Office → Prop
  | join {o : Office} (call : SessionCall) :
      Step d o { o with members := o.members ++ [(call, call.deed d)] }
  | move {o : Office} {i : Nat} {call : SessionCall} {x rest : Trial Unit} {t : Act.Trace}
      {s : DeskState} : o.members[i]? = some (call, x) →
      Act.Move x { o.state with actor := i } t rest s →
      Step d o ⟨s, o.members.set i (call, rest)⟩
  | elsewhere {o : Office} {s : DeskState} : s.current = o.state.current →
      (∀ i, s.Live i → o.state.Live i) → Step d o { o with state := s }

/-- The offices of the runs in which something holds all the time. -/
inductive Reached (d : Desk) (always : Office → Prop) : Office → Prop
  | start {s : DeskState} : s.sessions = [] → Reached d always ⟨s, []⟩
  | step {o o' : Office} : Reached d always o → Step d o o' → always o' → Reached d always o'

/-- No two calls to connect are under way. -/
def InTurn (o : Office) : Prop :=
  ∀ (i j : Nat) (x y : Trial Unit), o.members[i]? = some (SessionCall.connect, x) →
    o.members[j]? = some (SessionCall.connect, y) → isThrough x = false → isThrough y = false →
    i = j

theorem Reached.inTurn {d : Desk} {o : Office} (h : Reached d InTurn o) : InTurn o := by
  cases h with
  | start hsessions => nofun
  | step _ _ halways => exact halways

/-- No call to connect is under way. -/
def Unsought (o : Office) : Prop :=
  ∀ (i : Nat) (x : Trial Unit), o.members[i]? = some (SessionCall.connect, x) → isThrough x = true

theorem Unsought.inTurn {o : Office} (h : Unsought o) : InTurn o := by
  intro i j x y hi hj hunder
  exact absurd (h i x hi) (Bool.eq_false_iff.mp hunder)

/-- What may become of an office until somebody connects. -/
def Later (d : Desk) : Office → Office → Prop :=
  Relation.ReflTransGen fun o o' => Step d o o' ∧ Unsought o'

/-! ## 4. Calls that are left alone -/

section Alone

/-- A procedure that is left alone, while requests are answered like this: its value, what it asked,
and the state that it leaves.  It takes the last of several ways. -/
abbrev alone {α : Type} (answer : HttpRequest → Outcome HttpResponse) (member : Nat) (x : Deed α)
    (s : DeskState) : Option (α × List (HttpRequest × Outcome HttpResponse) × DeskState) :=
  Deed.alone? (· - 1) answer member x s

variable {d : Desk} {always : Office → Prop} {calls : List SessionCall} {o : Office} {i : Nat}
  {s : DeskState} {call : SessionCall} {x : Trial Unit} {a : Outcome Unit}
  {asked : List (HttpRequest × Outcome HttpResponse)}

/-- A member that goes on with its call makes the same call. -/
theorem map_set_members (hmember : o.members[i]? = some (call, x)) (rest : Trial Unit) :
    (o.members.set i (call, rest)).map (·.1) = o.members.map (·.1) := by
  have hcall : (o.members.map (·.1))[i]? = some call := by
    rw [List.getElem?_map, hmember]
    rfl
  obtain ⟨hlt, hget⟩ := List.getElem?_eq_some_iff.mp hcall
  rw [List.map_set, ← hget]
  exact List.set_getElem_self hlt

/-- **A call that is left alone comes to its end** in some run.  What has to hold all the time
depends on who made which call only. -/
theorem Reached.through
    (hkeeps : ∀ o' : Office, o'.members.map (·.1) = calls → always o') (h : Reached d always o)
    (hcalls : o.members.map (·.1) = calls) (hmember : o.members[i]? = some (call, x))
    (halone : Deed.Alone i x o.state a asked s) :
    Reached d always ⟨s, o.members.set i (call, .done a)⟩ := by
  obtain ⟨hlt, hget⟩ := List.getElem?_eq_some_iff.mp hmember
  generalize hs : o.state = s₀ at halone
  induction halone generalizing o with
  | done a s =>
    subst hs
    rw [← hget, List.set_getElem_self]
    exact h
  | @move _ rest _ _ _ _ _ _ hmove _ ih =>
    subst hs
    have hcalls' := (map_set_members hmember rest).trans hcalls
    have hset := List.getElem?_set_self (a := (call, rest)) hlt
    obtain ⟨hlt', hget'⟩ := List.getElem?_eq_some_iff.mp hset
    have hrest := ih (h.step (.move hmember hmove) (hkeeps _ hcalls')) hcalls' hset hlt' hget' rfl
    rwa [List.set_set] at hrest

end Alone

/-- A desk with keys on the spot market. -/
def keyedDesk : Desk :=
  ⟨⟨⟨"binance-spot", some ⟨"key", "secret", none⟩, .standard⟩, ⟨.spot, .empty, ⟨[]⟩⟩⟩,
    .readOnly .binance, .standard⟩

/-- The exchange says what time it is, and hands out this key. -/
def keyedAnswer (key : String) (q : HttpRequest) : Outcome HttpResponse :=
  if q.method = "GET" then .ok ⟨200, "\x7b\"serverTime\":0\x7d"⟩
  else .ok ⟨200, "\x7b\"listenKey\":\"" ++ key ++ "\"\x7d"⟩

/-- A call left alone: what it comes to, what it asked, and the state that it leaves. -/
abbrev Passed : Type := Outcome Unit × List (HttpRequest × Outcome HttpResponse) × DeskState

/-- A supervisor is live if neither its own flag nor that of the desk is set. -/
theorem live_of_flags {s : DeskState} {flags : List Bool}
    (hflags : s.sessions.map (·.stopped) = flags) (hcancelled : s.cancelled = false) {i : Nat}
    (hi : flags[i]? = some false) : s.Live i := by
  rw [← hflags, List.getElem?_map] at hi
  obtain ⟨session, hsession, hstopped⟩ := Option.map_eq_some_iff.mp hi
  exact ⟨session, hsession, by rw [DeskState.sessionEnds, hstopped, hcancelled, Bool.or_false]⟩

/-! ## 5. Calls that do not overlap -/

/-- How far a member got.

* `waiting`: it did not look yet whether there is a supervisor;
* `due`: there was none, there still is none, and it may be about to start one;
* `calm`: it starts none. -/
inductive Progress (d : Desk) (s : DeskState) : SessionCall × Trial Unit → Prop
  | waiting : Progress d s (.connect, d.connect)
  | due {x : Trial String} : x.Within Lets → (∀ i, ¬ s.Live i) →
      Progress d s (.connect, x.bind begin)
  | calm {call : SessionCall} {x : Trial Unit} : x.Within Lets → Progress d s (call, x)

/-- No supervisor is live but the desk's own, and no member is up to anything else. -/
structure Attended (d : Desk) (o : Office) : Prop where
  single : o.state.Single
  progress : ∀ m ∈ o.members, Progress d o.state m

variable {d : Desk} {o o' : Office} {s s' : DeskState}

theorem Progress.of_lets {m : SessionCall × Trial Unit} (h : Progress d s m)
    (hlive : ∀ i, s'.Live i → s.Live i) : Progress d s' m := by
  cases h with
  | waiting => exact .waiting
  | due hx hnone => exact .due hx fun i hi => hnone i (hlive i hi)
  | calm hx => exact .calm hx

/-- A member that is through is calm, in whatever state. -/
theorem progress_of_isThrough {call : SessionCall} {x : Trial Unit} (h : isThrough x = true) :
    Progress d s (call, x) := by
  cases x with
  | done a => exact .calm trivial
  | halt c => exact .calm trivial
  | _ => cases h

/-- **What the move of a member does**: no supervisor becomes live, or a call to connect starts the
only one. -/
theorem Progress.move {call : SessionCall} {x rest : Trial Unit} {t : Act.Trace}
    (h : Progress d s (call, x)) (hsingle : s.Single) (hmove : Act.Move x s t rest s') :
    Progress d s' (call, rest) ∧ s'.Single ∧ (call = .connect ∨ ∀ i, s'.Live i → s.Live i) ∧
      ((∀ i, s'.Live i → s.Live i) ∨ isThrough rest = true) := by
  have hlets : ∀ {s₁ : DeskState}, s₁ = s ∨ Lets s s₁ →
      s₁.Single ∧ ∀ i, s₁.Live i → s.Live i := by
    rintro s₁ (rfl | hlets)
    · exact ⟨hsingle, fun _ hi => hi⟩
    · exact hlets hsingle
  cases h with
  | waiting =>
    rw [connect_eq] at hmove
    cases hmove with
    | access =>
      refine ⟨?_, hsingle, Or.inl rfl, Or.inl fun _ hi => hi⟩
      unfold looked
      split
      · exact .calm trivial
      · rename_i hnot
        split
        · exact .calm trivial
        · exact .due (within_obtainKey sparesKeys_lets d) fun i =>
            hsingle.not_live (Bool.eq_false_iff.mpr hnot)
  | @due x hx hnone =>
    rcases Act.move_bind hmove with ⟨key, rfl, hbegin⟩ | ⟨x', hobtain, rfl⟩
    · cases key with
      | error e => cases hbegin
      | ok key =>
        cases hbegin with
        | access =>
          refine ⟨.calm trivial, fun i hi => ?_, Or.inl rfl, Or.inr rfl⟩
          exact (Desk.live_supervise hi).resolve_left (hnone i)
    · obtain ⟨hx', hstate⟩ := hx.move hobtain
      obtain ⟨hsingle', hlive⟩ := hlets hstate
      exact ⟨.due hx' fun i hi => hnone i (hlive i hi), hsingle', Or.inl rfl, Or.inl hlive⟩
  | calm hx =>
    obtain ⟨hrest, hstate⟩ := hx.move hmove
    obtain ⟨hsingle', hlive⟩ := hlets hstate
    exact ⟨.calm hrest, hsingle', Or.inr hlive, Or.inl hlive⟩

theorem isThrough_of_move {x rest : Trial Unit} {t : Act.Trace}
    (h : Act.Move x s t rest s') : isThrough x = false := by
  cases h <;> rfl

/-- How far the member that is at work got. -/
theorem Attended.at_work (h : Attended d o) {i : Nat} {call : SessionCall} {x : Trial Unit}
    (hmember : o.members[i]? = some (call, x)) :
    Progress d { o.state with actor := i } (call, x) :=
  (h.progress _ (List.mem_of_getElem? hmember)).of_lets fun _ hi => hi

theorem Attended.move (h : Attended d o) (hturn : InTurn o) {i : Nat} {call : SessionCall}
    {x rest : Trial Unit} {t : Act.Trace} (hmember : o.members[i]? = some (call, x))
    (hmove : Act.Move x { o.state with actor := i } t rest s) :
    Attended d ⟨s, o.members.set i (call, rest)⟩ := by
  obtain ⟨hrest, hsingle, hcall, hlive⟩ := (h.at_work hmember).move h.single hmove
  refine ⟨hsingle, fun m hm => ?_⟩
  obtain ⟨j, hm⟩ := List.mem_iff_getElem?.mp hm
  by_cases hj : i = j
  · subst hj
    obtain ⟨hlt, -⟩ := List.getElem?_eq_some_iff.mp hmember
    have hset : (o.members.set i (call, rest))[i]? = some (call, rest) := List.getElem?_set_self hlt
    obtain rfl := Option.some.inj (hset.symm.trans hm)
    exact hrest
  · have hold : o.members[j]? = some m := (List.getElem?_set_ne hj).symm.trans hm
    have hother := h.progress m (List.mem_of_getElem? hold)
    rcases hlive with hlive | hthrough
    · exact hother.of_lets hlive
    · -- the member may have started a supervisor; nobody else was about to
      obtain ⟨call', x'⟩ := m
      cases call' with
      | disconnect =>
        cases hother with
        | calm hx => exact .calm hx
      | connect =>
        rcases hcall with rfl | hlive
        · refine progress_of_isThrough ?_
          rw [← Bool.not_eq_false]
          exact fun hunder => hj (hturn i j x x' hmember hold (isThrough_of_move hmove) hunder)
        · exact hother.of_lets hlive

theorem Attended.step (h : Attended d o) (hturn : InTurn o) (hstep : Step d o o') :
    Attended d o' := by
  cases hstep with
  | join call =>
    refine ⟨h.single, fun m hm => ?_⟩
    rcases List.mem_append.mp hm with hm | hm
    · exact h.progress m hm
    · obtain rfl := List.mem_singleton.mp hm
      cases call with
      | connect => exact .waiting
      | disconnect => exact .calm (disconnect_lets d)
  | move hmember hmove => exact h.move hturn hmember hmove
  | elsewhere hcurrent hlive =>
    refine ⟨fun i hi => hcurrent.trans (h.single i (hlive i hi)), fun m hm => ?_⟩
    exact (h.progress m hm).of_lets hlive

theorem Reached.attended (h : Reached d InTurn o) : Attended d o := by
  induction h with
  | @start s hsessions =>
    refine ⟨?_, nofun⟩
    rintro i ⟨session, hsession, -⟩
    rw [hsessions] at hsession
    cases hsession
  | step hreached hstep _ ih => exact ih.step hreached.inTurn hstep

/-- Only a call to connect starts a supervisor. -/
theorem Attended.live_of_step (h : Attended d o) (hunsought : Unsought o) (hstep : Step d o o')
    {i : Nat} (hi : o'.state.Live i) : o.state.Live i := by
  cases hstep with
  | join call => exact hi
  | move hmember hmove =>
    obtain ⟨-, -, rfl | hlive, -⟩ := (h.at_work hmember).move h.single hmove
    · exact absurd (hunsought _ _ hmember) (Bool.eq_false_iff.mp (isThrough_of_move hmove))
    · exact hlive i hi
  | elsewhere _ hlive => exact hlive i hi

/-- Where no supervisor is live, none is until somebody connects.  The run goes on from an office
that was reached, so that its members are up to nothing else. -/
theorem Reached.not_live_later (h : Reached d InTurn o) (hunsought : Unsought o)
    (hnone : ∀ i, ¬ o.state.Live i) (hlater : Later d o o') (i : Nat) : ¬ o'.state.Live i := by
  have hkept : Reached d InTurn o' ∧ Unsought o' ∧ ∀ i, ¬ o'.state.Live i := by
    induction hlater with
    | refl => exact ⟨h, hunsought, hnone⟩
    | tail _ hstep ih =>
      obtain ⟨hreached, hbefore, hnone⟩ := ih
      refine ⟨hreached.step hstep.1 hstep.2.inTurn, hstep.2, fun i hi => ?_⟩
      exact hnone i (hreached.attended.live_of_step hbefore hstep.1 hi)
  exact hkept.2.2 i

/-- **At most one supervisor is live, and it is the desk's own**, at every moment of a run in which
calls to connect do not overlap; and after a call to disconnect took it, with no call to connect
under way, none is live until somebody connects. -/
theorem Reached.only_own_live (h : Reached d InTurn o) :
    (∀ i, o.state.Live i → o.state.current = some i) ∧
    (∀ i j, o.state.Live i → o.state.Live j → i = j) ∧
    ∀ (i : Nat) (t : Act.Trace) (rest : Trial Unit) (s : DeskState) (o' : Office),
      o.members[i]? = some (.disconnect, d.disconnect) →
      Act.Move d.disconnect { o.state with actor := i } t rest s → Unsought o →
      Later d ⟨s, o.members.set i (.disconnect, rest)⟩ o' → ∀ j, ¬ o'.state.Live j := by
  have hsingle : o.state.Single := h.attended.single
  refine ⟨hsingle, fun i j hi hj => ?_, ?_⟩
  · exact Option.some.inj ((hsingle i hi).symm.trans (hsingle j hj))
  · intro i t rest s o' hmember hmove hunsought hlater
    have hunsought' : Unsought ⟨s, o.members.set i (.disconnect, rest)⟩ := by
      intro j x hj
      by_cases hij : i = j
      · subst hij
        obtain ⟨hlt, -⟩ := List.getElem?_eq_some_iff.mp hmember
        cases (List.getElem?_set_self hlt).symm.trans hj
      · exact hunsought j x ((List.getElem?_set_ne hij).symm.trans hj)
    exact (h.step (.move hmember hmove) hunsought'.inTurn).not_live_later hunsought'
      (not_live_of_disconnect (s := { o.state with actor := i }) hsingle hmove) hlater

/-- A desk that was alone with one caller, who connected. -/
def attendedDesk : Option Passed :=
  alone (keyedAnswer "first") 0 keyedDesk.connect (DeskState.start ⟨1, 100⟩ 0)

theorem attendedDesk_eq : (attendedDesk.map fun r =>
    (r.2.2.sessions.map (·.stopped), r.2.2.cancelled, r.2.2.current)) =
    some ([false], false, some 0) := by decide +kernel

/-- Where only the first call is one to connect, no two are under way. -/
theorem inTurn_of_calls {calls : List SessionCall} (hnone : .connect ∉ calls)
    (hcalls : o.members.map (·.1) = .connect :: calls) : InTurn o := by
  have hfirst : ∀ (i : Nat) (x : Trial Unit), o.members[i]? = some (.connect, x) → i = 0 := by
    intro i x hi
    have hcall : (SessionCall.connect :: calls)[i]? = some .connect := by
      rw [← hcalls, List.getElem?_map, hi]
      rfl
    cases i with
    | zero => rfl
    | succ i =>
      have hlater : calls[i]? = some .connect := hcall
      exact absurd (List.mem_of_getElem? hlater) hnone
  intro i j x y hi hj _ _
  rw [hfirst i x hi, hfirst j y hj]

/-- Nothing keeps a call to disconnect from its first move. -/
theorem exists_move_disconnect (d : Desk) (s : DeskState) :
    ∃ t rest s', Act.Move d.disconnect s t rest s' :=
  ⟨_, _, _, .access _ _ s⟩

theorem only_own_live_taken :
    ∃ o o', Reached keyedDesk InTurn o ∧ o.state.Live 0 ∧ o.state.current = some 0 ∧
      o.members.map (·.1) = [.connect, .disconnect] ∧ Unsought o ∧ Step keyedDesk o o' ∧
      ∀ i, ¬ o'.state.Live i := by
  obtain ⟨⟨first, asked, s⟩, hpassed, hkept⟩ := Option.map_eq_some_iff.mp attendedDesk_eq
  simp only [Prod.mk.injEq] at hkept
  obtain ⟨hflags, hcancelled, -⟩ := hkept
  have hcalled : Reached keyedDesk InTurn ⟨DeskState.start ⟨1, 100⟩ 0,
      [(.connect, keyedDesk.connect)]⟩ :=
    (Reached.start rfl).step (.join .connect) (inTurn_of_calls List.not_mem_nil rfl)
  have hconnected : Reached keyedDesk InTurn ⟨s, [(.connect, .done first)]⟩ :=
    hcalled.through (i := 0) (fun _ => inTurn_of_calls List.not_mem_nil) rfl rfl
      (Deed.alone_of_alone? hpassed)
  have hboth : Reached keyedDesk InTurn
      ⟨s, [(.connect, .done first), (.disconnect, keyedDesk.disconnect)]⟩ :=
    hconnected.step (.join .disconnect) (inTurn_of_calls (by decide) rfl)
  have hunsought :
      Unsought ⟨s, [(.connect, .done first), (.disconnect, keyedDesk.disconnect)]⟩ := by
    intro i x hi
    match i, hi with
    | 0, hi => cases hi; rfl
    | 1, hi => cases hi
  have hlive : s.Live 0 := live_of_flags hflags hcancelled rfl
  obtain ⟨hown, -, hgone⟩ := hboth.only_own_live
  obtain ⟨t, rest, s', hmove⟩ := exists_move_disconnect keyedDesk { s with actor := 1 }
  exact ⟨_, _, hboth, hlive, hown 0 hlive, rfl, hunsought, .move (i := 1) rfl hmove,
    hgone 1 _ _ _ _ rfl hmove hunsought .refl⟩

/-! ## 6. Calls that overlap -/

/-- What is left of any call leaves orphans alone. -/
theorem Reached.leaves {always : Office → Prop} (h : Reached d always o) :
    ∀ m ∈ o.members, m.2.Within Leaves := by
  induction h with
  | start hsessions => nofun
  | step hreached hstep _ ih =>
    cases hstep with
    | join call =>
      intro m hm
      rcases List.mem_append.mp hm with hm | hm
      · exact ih m hm
      · obtain rfl := List.mem_singleton.mp hm
        cases call with
        | connect => exact connect_leaves d
        | disconnect => exact disconnect_leaves d
    | move hmember hmove =>
      intro m hm
      rcases List.mem_or_eq_of_mem_set hm with hm | rfl
      · exact ih m hm
      · exact ((ih _ (List.mem_of_getElem? hmember)).move hmove).1
    | elsewhere hcurrent hlive => exact ih

/-- **No call ends an orphan**, in any run. -/
theorem orphan_outlives {always : Office → Prop} (h : Reached d always o) {i j : Nat}
    (horphan : o.state.Orphan i) {call : SessionCall} {x rest : Trial Unit} {t : Act.Trace}
    (hmember : o.members[j]? = some (call, x))
    (hmove : Act.Move x { o.state with actor := j } t rest s) : s.Orphan i := by
  rcases ((h.leaves _ (List.mem_of_getElem? hmember)).move hmove).2 with rfl | hleaves
  · exact horphan
  · exact hleaves i horphan

/-- A desk at its start, where the first of two callers looked whether there is a supervisor. -/
def firstLooked : DeskState := { DeskState.start ⟨1, 100⟩ 0 with actor := 0 }

/-- The second caller comes to its end, and then the first. -/
def overlap : Option (Passed × Passed) :=
  (alone (keyedAnswer "first") 1 keyedDesk.connect firstLooked).bind fun second =>
    (alone (keyedAnswer "second") 0 (looked keyedDesk firstLooked) second.2.2).map
      fun first => (second, first)

theorem overlap_eq : (overlap.map fun r =>
    (r.2.2.2.sessions.map (·.stopped), r.2.2.2.cancelled, r.2.2.2.current)) =
    some ([false, false], false, some 1) := by decide +kernel

/-- The runs of calls that may overlap. -/
abbrev Overlapping (d : Desk) : Office → Prop := Reached d fun _ => True

/-- **Two calls to connect that overlap** may each start a supervisor: in some run both came to
their end, both supervisors are live, and the desk knows of one only. -/
theorem two_supervisors :
    ∃ o, Overlapping keyedDesk o ∧ o.members.map (·.1) = [.connect, .connect] ∧
      (∀ m ∈ o.members, isThrough m.2 = true) ∧ o.state.Orphan 0 ∧ o.state.Live 1 ∧
      o.state.current = some 1 := by
  obtain ⟨⟨⟨second, asked₂, s₂⟩, first, asked₁, s₁⟩, hoverlap, hkept⟩ :=
    Option.map_eq_some_iff.mp overlap_eq
  obtain ⟨_, hsecond, hrest⟩ := Option.bind_eq_some_iff.mp hoverlap
  obtain ⟨_, hfirst, hboth⟩ := Option.map_eq_some_iff.mp hrest
  cases hboth
  have hcalled : Overlapping keyedDesk ⟨DeskState.start ⟨1, 100⟩ 0,
      [(.connect, keyedDesk.connect), (.connect, keyedDesk.connect)]⟩ :=
    ((Reached.start rfl).step (.join .connect) trivial).step (.join .connect) trivial
  have hlook : Act.Move keyedDesk.connect firstLooked .changed (looked keyedDesk firstLooked)
      firstLooked := by
    rw [connect_eq]
    exact .access id (looked keyedDesk) firstLooked
  have hlooked : Overlapping keyedDesk ⟨firstLooked,
      [(.connect, looked keyedDesk firstLooked), (.connect, keyedDesk.connect)]⟩ :=
    hcalled.step (.move (i := 0) rfl hlook) trivial
  have hdone : Overlapping keyedDesk ⟨s₁, [(.connect, .done first), (.connect, .done second)]⟩ :=
    (hlooked.through (i := 1) (fun _ _ => trivial) rfl rfl (Deed.alone_of_alone? hsecond)).through
      (i := 0) (fun _ _ => trivial) rfl rfl (Deed.alone_of_alone? hfirst)
  simp only [Prod.mk.injEq] at hkept
  obtain ⟨hflags, hcancelled, hcurrent⟩ := hkept
  refine ⟨_, hdone, rfl, ?_, ⟨live_of_flags hflags hcancelled rfl, ?_⟩,
    live_of_flags hflags hcancelled rfl, hcurrent⟩
  · simp only [List.mem_cons, List.not_mem_nil, or_false]
    rintro m (rfl | rfl) <;> rfl
  · exact fun h => nomatch hcurrent.symm.trans h

end Sessions
end OrderDesk
