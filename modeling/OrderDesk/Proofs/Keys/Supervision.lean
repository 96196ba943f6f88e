import OrderDesk.Desk.Workers
import OrderDesk.Proofs.Keys.Ledger

/-!
# Supervisors and their keys

A supervisor goes from phase to phase, by what comes from outside (`Leads`) or because its errand is
done.  In each phase something is known of the keys (`Stands`): while it dials, the key that was
handed out last is its own and stored; while its socket is open, that is the socket under this key;
before it releases a key, that key is owed, unless the host had disposed of the desk before; and
otherwise there is no socket and no debt.

Each step out of a phase shows what can be seen of it (`sights`), which is in order, and leads to
what is known in the next phase (`Leads.sound`).  An errand knows from its beginning to its end with
what it will come back (`Errand.move`), and that leads on in order, too (`Comes.sound`).  A
supervisor ends only if it was told to.
-/

namespace OrderDesk.Keys

variable {d : Desk}

/-! ## 1. Logs in order -/

/-- From here on, whatever is seen is in order. -/
def Orderly (d : Desk) : Ledger → List Sight → Prop
  | _, [] => True
  | t, e :: es => t.Fits d e ∧ Orderly d (t.note d e) es

theorem orderly_append {t : Ledger} {es es' : List Sight} :
    Orderly d t (es ++ es') ↔ Orderly d t es ∧ Orderly d (es.foldl (Ledger.note d) t) es' := by
  induction es generalizing t with
  | nil => simp [Orderly]
  | cons e es ih => simp only [List.cons_append, Orderly, List.foldl_cons, ih, and_assoc]

/-- Every entry of an orderly log fits what was seen before it. -/
theorem Orderly.fits {t : Ledger} {pre post : List Sight} {e : Sight}
    (h : Orderly d t (pre ++ e :: post)) : (pre.foldl (Ledger.note d) t).Fits d e :=
  (orderly_append.mp h).2.1

/-- What a move of a procedure shows. -/
def sightsOf : Act.Trace → List Sight
  | .asked q o => [.asked q o]
  | .changed | .silent => []

/-- What is known after some sights, with this key stored. -/
def Known.after (k : Known) (es : List Sight) (stored : Option String) : Known :=
  ⟨es.foldl (Ledger.note d) k.ledger, stored⟩

/-- **A move of a procedure that keeps to the watch** is in order, and leaves alone who is at
work. -/
theorem known_of_follows {b : Bool} {k k' : Known} {s s' : DeskState} {t : Act.Trace}
    (h : Act.Follows (watch d b) k s s' t k') (hmeets : (watch d b).meets k s) :
    k' = k.after (d := d) (sightsOf t) s'.listenKey ∧ Orderly d k.ledger (sightsOf t) ∧
      (watch d b).allows s s' := by
  cases h with
  | changed hallows => exact ⟨rfl, trivial, hallows⟩
  | asked q o hsame hsends =>
    subst hsame
    refine ⟨?_, ⟨hsends, trivial⟩, rfl, rfl, rfl⟩
    rw [hmeets.1]
    rfl
  | silent nanos hsame =>
    subst hsame
    refine ⟨?_, trivial, rfl, rfl, rfl⟩
    rw [hmeets.1]
    rfl

/-! ## 2. Phases -/

/-- The stored key was handed out last, and this is the state of its socket. -/
structure Bound (k : Known) (key : String) (socket : Option String) : Prop where
  latest : k.ledger.key = some key
  stored : k.stored = some key
  socket : k.ledger.socket = socket
  paid : k.ledger.owed = none

/-- There is no socket, and no key is owed. -/
structure Unbound (k : Known) : Prop where
  socket : k.ledger.socket = none
  paid : k.ledger.owed = none

/-- The stored key is owed; after the host has disposed of the desk, none is. -/
structure Indebted (k : Known) : Prop where
  socket : k.ledger.socket = none
  owed : k.ledger.owed = if k.ledger.disposed then none else k.stored

/-- What is known of the keys while a supervisor is in a phase. -/
def Stands (d : Desk) (k : Known) : SupervisorPhase → Prop
  | .dialing key => Bound k key none
  | .live key _ | .extending key _ | .matching key _ _ => Bound k key (some (d.accountAddress key))
  | .releasing => Indebted k
  | .creating | .resting _ | .ended => Unbound k

theorem Bound.unbound {k : Known} {key : String} (h : Bound k key none) : Unbound k :=
  ⟨h.socket, h.paid⟩

/-- What happens to a supervisor from outside, according to whether it was told to end. -/
def Outside (told : Bool) : SupervisorInput → Prop
  | .opened | .refused _ | .arrival _ _ | .horizon | .keepAlive => True
  | .woken => told = false
  | .cancelled => told = true
  | .created _ | .extended _ | .matched | .released _ _ => False

/-- Where a supervisor gets from a phase by what happens outside. -/
inductive Leads (told : Bool) : SupervisorPhase → SupervisorPhase → Prop
  | same (p : SupervisorPhase) : Leads told p p
  | opened (key : String) (times : SessionTimes) : Leads told (.dialing key) (.live key times)
  | refused (key : String) (wakeAt : Nat) : Leads told (.dialing key) (.resting wakeAt)
  | lost (key : String) (times : SessionTimes) (wakeAt : Nat) :
      Leads told (.live key times) (.resting wakeAt)
  | recycled (key : String) (times : SessionTimes) : Leads told (.live key times) .releasing
  | due (key : String) (times times' : SessionTimes) :
      Leads told (.live key times) (.extending key times')
  | executed (key : String) (times : SessionTimes) (e : Execution) :
      Leads told (.live key times) (.matching key times e)
  | woken (wakeAt : Nat) : Leads told (.resting wakeAt) .creating
  | stopped (key : String) (times : SessionTimes) : told = true →
      Leads told (.live key times) .ended
  | stoppedResting (wakeAt : Nat) : told = true → Leads told (.resting wakeAt) .ended

variable {told : Bool} {sup : Supervisor} {input : SupervisorInput}

/-- Whatever arrives over the socket, it is lost, or an execution is at hand, or nothing changes. -/
theorem leads_hear {key : String} {times : SessionTimes} (hphase : sup.phase = .live key times)
    (now : Nat) (futures : Bool) (a : Arrival) (written : Bool) :
    Leads told (.live key times) (sup.hear now futures key times a written).1.phase := by
  have hsame : Leads told (.live key times) sup.phase := hphase ▸ .same _
  have hdrop : Leads told (.live key times) (sup.drop now).phase := .lost key times _
  have hreceive : ∀ f,
      Leads told (.live key times) (sup.receive now futures key times f).1.phase := by
    intro f
    unfold Supervisor.receive
    cases StreamMessage.ofFrame futures f with
    | error cause =>
      cases cause with
      | decoding detail => exact hsame
      | _ => exact hdrop
    | ok m =>
      cases m with
      | none => exact hsame
      | some m =>
        cases m with
        | execution e => exact .executed key times e
        | listenKeyExpired => exact hdrop
        | serverError text => exact hsame
        | trade _ => exact hsame
        | quote _ => exact hsame
  cases a with
  | broken cause => exact hdrop
  | ended => exact hdrop
  | frame f =>
    cases f with
    | ping bytes =>
      cases written with
      | true => exact hsame
      | false => exact hdrop
    | pong bytes => exact hsame
    | close => exact hdrop
    | text s => exact hreceive _
    | binary bytes => exact hreceive _

/-- **What happens outside leads on as listed.** -/
theorem leads_of_outside (houtside : Outside told input) (timings : SessionTimings) (futures : Bool)
    (now : Nat) : Leads told sup.phase (sup.react timings futures now input).1.phase := by
  obtain ⟨backoff, phase⟩ := sup
  cases phase with
  | dialing key =>
    cases input with
    | opened => exact .opened key _
    | refused cause => exact .refused key _
    | _ => exact .same _
  | live key times =>
    cases input with
    | cancelled => exact .stopped key times houtside
    | horizon => exact .recycled key times
    | keepAlive => exact .due key times _
    | arrival a written => exact leads_hear rfl now futures a written
    | _ => exact .same _
  | resting wakeAt =>
    cases input with
    | woken => exact .woken wakeAt
    | cancelled => exact .stoppedResting wakeAt houtside
    | _ => exact .same _
  | creating | extending _ _ | matching _ _ _ | releasing | ended =>
    cases input with
    | created o => exact houtside.elim
    | extended o => exact houtside.elim
    | matched => exact houtside.elim
    | released o stopped => exact houtside.elim
    | _ => exact .same _

/-- What can be seen of a step from one phase to another. -/
def sights (d : Desk) : SupervisorPhase → SupervisorPhase → List Sight
  | .dialing key, .live _ _ => [.opened (d.accountAddress key)]
  | .dialing key, .resting _ => [.refused (d.accountAddress key)]
  | .live key _, .releasing => [.closed, .recycled key]
  | .live _ _, .resting _ | .live _ _, .ended => [.closed]
  | _, _ => []

theorem sights_same (p : SupervisorPhase) : sights d p p = [] := by
  cases p <;> rfl

/-- A step of a supervisor is in order, what has to be known in the next phase is known after it,
and it is the last one only for a supervisor that was told to end. -/
structure Sound (d : Desk) (told : Bool) (k : Known) (p p' : SupervisorPhase) : Prop where
  orderly : Orderly d k.ledger (sights d p p')
  stands : Stands d (k.after (d := d) (sights d p p') k.stored) p'
  ended : p' = .ended → p = .ended ∨ told = true

/-- **A step from outside is in order.** -/
theorem Leads.sound {p p' : SupervisorPhase} (h : Leads told p p') {k : Known}
    (hstands : Stands d k p) (hpresent : k.ledger.parted = false) : Sound d told k p p' := by
  cases h with
  | same =>
    refine ⟨?_, ?_, Or.inl⟩ <;> rw [sights_same]
    · trivial
    · exact hstands
  | opened key times =>
    refine ⟨⟨⟨hpresent, key, hstands.latest, rfl⟩, trivial⟩, ?_, nofun⟩
    exact ⟨hstands.latest, hstands.stored, rfl, hstands.paid⟩
  | refused key wakeAt =>
    exact ⟨⟨⟨hpresent, key, hstands.latest, rfl⟩, trivial⟩, hstands.unbound, nofun⟩
  | lost key times wakeAt => exact ⟨⟨trivial, trivial⟩, ⟨rfl, hstands.paid⟩, nofun⟩
  | recycled key times =>
    refine ⟨⟨trivial, trivial, trivial⟩, ⟨rfl, ?_⟩, nofun⟩
    show (if k.ledger.disposed then none else some key) =
      if k.ledger.disposed then none else k.stored
    rw [hstands.stored]
  | due key times times' => exact ⟨trivial, hstands, nofun⟩
  | executed key times e => exact ⟨trivial, hstands, nofun⟩
  | woken wakeAt => exact ⟨trivial, hstands, nofun⟩
  | stopped key times htold =>
    exact ⟨⟨trivial, trivial⟩, ⟨rfl, hstands.paid⟩, fun _ => Or.inr htold⟩
  | stoppedResting wakeAt htold => exact ⟨trivial, hstands, fun _ => Or.inr htold⟩

/-! ## 3. Errands -/

variable {k k' : Known} {p p' : SupervisorPhase} {b : Bool} {i : Nat}
  {x x' : Deed SupervisorInput}

/-- What comes back from an errand, and what is known by then. -/
inductive Comes (d : Desk) (told : Bool) (k : Known) : SupervisorPhase → SupervisorInput → Prop
  | created (key : String) : Bound k key none → Comes d told k .creating (.created (.ok key))
  | failed (e : Fault) : Unbound k → Comes d told k .creating (.created (.error e))
  | extended (key : String) (times : SessionTimes) (o : Outcome Unit) :
      Bound k key (some (d.accountAddress key)) →
      Comes d told k (.extending key times) (.extended o)
  | matched (key : String) (times : SessionTimes) (e : Execution) :
      Bound k key (some (d.accountAddress key)) → Comes d told k (.matching key times e) .matched
  | released (o : Outcome Unit) (stopped : Bool) : Unbound k → (stopped = true → told = true) →
      Comes d told k .releasing (.released o stopped)

/-- **What comes back from an errand leads on in order.**  Neither a key that could not be extended
nor one that could not be released is the end. -/
theorem Comes.sound (h : Comes d told k sup.phase input) (timings : SessionTimings) (futures : Bool)
    (now : Nat) : Sound d told k sup.phase (sup.react timings futures now input).1.phase := by
  obtain ⟨backoff, phase⟩ := sup
  cases h with
  | created key hbound => exact ⟨trivial, hbound, nofun⟩
  | failed e hunbound => exact ⟨trivial, hunbound, nofun⟩
  | extended key times o hbound => cases o <;> exact ⟨trivial, hbound, nofun⟩
  | matched key times e hbound => exact ⟨trivial, hbound, nofun⟩
  | released o stopped hunbound htold =>
    cases stopped with
    | false => cases o <;> exact ⟨trivial, hunbound, nofun⟩
    | true => cases o <;> exact ⟨trivial, hunbound, fun _ => Or.inr (htold rfl)⟩

/-- After a key was released, the supervisor looks whether it was told to end. -/
def reading (i : Nat) (o : Outcome Unit) : Deed SupervisorInput :=
  .access id fun s => .done (.released o (Desk.wasStopped i s))

/-- How far an errand got, for a supervisor in this phase, on a desk that is cancelled or not.

* `waiting`: there is none, and the supervisor waits for what happens outside;
* `working`: it will come back in order, whatever happens until then;
* `releasing`, `released`: before and after the supervisor looks whether it was told to end. -/
inductive Errand (d : Desk) (b : Bool) (i : Nat) (told : Bool) (k : Known) :
    SupervisorPhase → Option (Deed SupervisorInput) → Prop
  | waiting {p : SupervisorPhase} : Stands d k p → Errand d b i told k p none
  | working {p : SupervisorPhase} {x : Deed SupervisorInput} : (d.errand i p).isSome = true →
      x.Keeps (watch d b) (fun k input => Comes d false k p input) k →
      Errand d b i told k p (some x)
  | releasing {y : Trial Unit} : y.Keeps (watch d b) (fun k _ => Unbound k) k →
      Errand d b i told k .releasing (some (y.bind (reading i)))
  | released (o : Outcome Unit) (stopped : Bool) : Unbound k → (stopped = true → told = true) →
      Errand d b i told k .releasing (some (.done (.released o stopped)))

/-- **An errand begins** with what stands in its phase. -/
theorem errand_of_stands (herrand : d.errand i p = some x) (hstands : Stands d k p)
    (hpresent : k.ledger.parted = false) (hsigned : d.signer.isSome = true)
    (hdisposed : b = true → k.ledger.disposed = true) : Errand d b i told k p (some x) := by
  have hsome : (d.errand i p).isSome = true := Option.isSome_of_mem herrand
  cases p with
  | creating =>
    cases herrand
    refine .working hsome ((Act.keeps_bind _ _).mpr
      ((keeps_createListenKey hpresent hstands.paid).mono fun k' o ⟨hledger, hkey⟩ => ?_))
    have hsocket : k'.ledger.socket = none := by rw [hledger]; exact hstands.socket
    have hpaid : k'.ledger.owed = none := by rw [hledger]; exact hstands.paid
    cases o with
    | error e => exact .failed e ⟨hsocket, hpaid⟩
    | ok key =>
      obtain ⟨hstored, hlatest⟩ := hkey key rfl
      exact .created key ⟨hlatest, hstored, hsocket, hpaid⟩
  | extending key times =>
    cases herrand
    refine .working hsome ((Act.keeps_bind _ _).mpr
      ((keeps_extendListenKey hpresent hstands.stored hstands.socket).mono fun k' o hsame => ?_))
    exact .extended key times o (hsame ▸ hstands)
  | matching key times e =>
    cases herrand
    refine .working hsome ((Act.keeps_bind _ _).mpr ((keeps_fill e).mono fun k' _ hsame => ?_))
    exact .matched key times e (hsame ▸ hstands)
  | releasing =>
    cases herrand
    have howed : k.ledger.owed = none ∨
        b = false ∧ d.signer.isSome = true ∧ k.ledger.owed = k.stored := by
      have howed := hstands.owed
      cases hgone : k.ledger.disposed with
      | true =>
        rw [if_pos hgone] at howed
        exact Or.inl howed
      | false =>
        rw [if_neg (Bool.eq_false_iff.mp hgone)] at howed
        refine Or.inr ⟨Bool.eq_false_iff.mpr fun hb => ?_, hsigned, howed⟩
        exact Bool.false_ne_true (hgone.symm.trans (hdisposed hb))
    refine .releasing ((keeps_releaseListenKey (fun hparted => ?_) howed).mono
      fun k' o ⟨_, hledger⟩ => ?_)
    · cases hpresent.symm.trans hparted
    · exact ⟨by rw [hledger]; exact hstands.socket, by rw [hledger]⟩
  | dialing key | live key times | resting wakeAt | ended => cases herrand

/-- **A move of an errand leads to one that is as far.** -/
theorem Errand.move {s s' : DeskState} {t : Act.Trace} (h : Errand d b i told k p (some x))
    (hmeets : (watch d b).meets k s) (hmove : Act.Move x s t x' s')
    (htold : Desk.wasStopped i s = true → told = true) :
    ∃ k', Errand d b i told k' p (some x') ∧ Act.Follows (watch d b) k s s' t k' := by
  cases h with
  | working hsome hkeeps =>
    obtain ⟨k', hkeeps', hfollows⟩ := hkeeps.move hmeets hmove fun _ _ _ => trivial
    exact ⟨k', .working hsome hkeeps', hfollows⟩
  | releasing hkeeps =>
    rcases Act.move_bind hmove with ⟨o, rfl, hread⟩ | ⟨y', hrelease, rfl⟩
    · -- the key is released, and this move looks whether the supervisor was told to end
      cases hread with
      | access =>
        refine ⟨_, .released o _ ?_ htold, .changed ⟨rfl, rfl, rfl⟩⟩
        exact of_stored (P := Unbound) hmeets rfl hkeeps
    · obtain ⟨k', hkeeps', hfollows⟩ := hkeeps.move hmeets hrelease fun _ _ _ => trivial
      exact ⟨k', .releasing hkeeps', hfollows⟩
  | released o stopped hunbound htold => cases hmove

/-- Without an errand, what has to be known in a phase is known. -/
theorem Errand.stands (h : Errand d b i told k p none) : Stands d k p := by
  cases h with
  | waiting hstands => exact hstands

/-- A supervisor that is over has no errand. -/
theorem Errand.ended {x : Option (Deed SupervisorInput)} (h : Errand d b i told k .ended x) :
    x = none ∧ Unbound k := by
  cases h with
  | waiting hstands => exact ⟨rfl, hstands⟩
  | working hsome hkeeps => cases hsome

/-- A supervisor that is told to end goes on with its errand. -/
theorem Errand.tell {x : Option (Deed SupervisorInput)} (h : Errand d b i told k p x) :
    Errand d b i true k p x := by
  cases h with
  | waiting hstands => exact .waiting hstands
  | working hsome hkeeps => exact .working hsome hkeeps
  | releasing hkeeps => exact .releasing hkeeps
  | released o stopped hunbound _ => exact .released o stopped hunbound fun _ => rfl

/-- **What an errand brings back** is known to come back in its phase. -/
theorem Errand.comes (h : Errand d b i told k p (some (.done input))) :
    Comes d told k p input := by
  generalize hx : (Act.done input : Deed SupervisorInput) = x at h
  cases h with
  | working hsome hkeeps =>
    subst hx
    cases (show Comes d false k p input from hkeeps) with
    | created key hbound => exact .created key hbound
    | failed e hunbound => exact .failed e hunbound
    | extended key times o hbound => exact .extended key times o hbound
    | matched key times e hbound => exact .matched key times e hbound
    | released o stopped hunbound htold =>
      exact .released o stopped hunbound fun h => nomatch htold h
  | @releasing y hkeeps => cases y <;> cases hx
  | released o stopped hunbound htold =>
    cases hx
    exact .released o stopped hunbound htold

/-- **What happens outside is in order**, and during an errand it changes nothing. -/
theorem Errand.outside {x : Option (Deed SupervisorInput)} (h : Errand d b i told k p x)
    (hleads : Leads told p p') (hpresent : k.ledger.parted = false) :
    Orderly d k.ledger (sights d p p') ∧
      Errand d b i told (k.after (d := d) (sights d p p') k.stored) p' x ∧
      (p' = .ended → p = .ended ∨ told = true) := by
  -- whoever waits for an errand is deaf to everything else
  have hdeaf : (d.errand i p).isSome = true → p' = p := by
    intro hsome
    cases hleads with
    | same => rfl
    | _ => cases hsome
  have hsame : p' = p → Orderly d k.ledger (sights d p p') ∧
      Errand d b i told (k.after (d := d) (sights d p p') k.stored) p' x ∧
      (p' = .ended → p = .ended ∨ told = true) := by
    rintro rfl
    rw [sights_same]
    exact ⟨trivial, h, Or.inl⟩
  cases h with
  | waiting hstands =>
    obtain ⟨horderly, hstands', hended⟩ := hleads.sound hstands hpresent
    exact ⟨horderly, .waiting hstands', hended⟩
  | working hsome hkeeps => exact hsame (hdeaf hsome)
  | releasing hkeeps => exact hsame (hdeaf rfl)
  | released o stopped hunbound htold => exact hsame (hdeaf rfl)

end OrderDesk.Keys
