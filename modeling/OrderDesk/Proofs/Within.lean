import OrderDesk.Client.ListenKey
import OrderDesk.Proofs.Ensures

/-!
# What a procedure may change

A procedure stays within a relation if every change that it makes to the state, whatever state it
meets, is in that relation (`Act.Within`).  Nothing is said about answers, nor about how long it
waits or whether it ends, so that the relation survives every move of the procedure
(`Within.move`).

A request changes the gate and the stamps; what has to do with the listen key changes the key and
its lock as well.  A relation that leaves these alone is one that all such procedures stay within.
-/

namespace OrderDesk

namespace Act

variable {σ α β : Type} {R : σ → σ → Prop}

/-- Every change of the state is in the relation. -/
def Within (R : σ → σ → Prop) : Act σ α → Prop
  | done _ => True
  | halt _ => True
  | access set next => ∀ s, R s (set s) ∧ Within R (next s)
  | ask _ next => ∀ o, Within R (next o)
  | wait _ goal set next => (∀ s, goal s = true → R s (set s)) ∧ ∀ b, Within R (next b)
  | choose _ next => ∀ i, Within R (next i)

theorem Within.bind {f : α → Act σ β} {x : Act σ α} (hx : x.Within R)
    (hf : ∀ a, (f a).Within R) : (x.bind f).Within R := by
  induction x with
  | done a => exact hf a
  | halt c => trivial
  | access set next ih => exact fun s => ⟨(hx s).1, ih s (hx s).2⟩
  | ask r next ih => exact fun o => ih o (hx o)
  | wait limit goal set next ih => exact ⟨hx.1, fun b => ih b (hx.2 b)⟩
  | choose ways next ih => exact fun i => ih i (hx i)

theorem Within.andThen {f : α → Act σ (Outcome β)} {x : Act σ (Outcome α)} (hx : x.Within R)
    (hf : ∀ a, (f a).Within R) : (x.andThen f).Within R := by
  refine hx.bind fun o => ?_
  cases o with
  | ok a => exact hf a
  | error e => trivial

/-- **A move stays within the relation**, and so does what is left of the procedure. -/
theorem Within.move {x x' : Act σ α} {s s' : σ} {t : Trace} (h : x.Within R)
    (hmove : Move x s t x' s') : x'.Within R ∧ (s' = s ∨ R s s') := by
  cases hmove with
  | access set next s => exact ⟨(h s).2, Or.inr (h s).1⟩
  | ask r next o s => exact ⟨h o, Or.inl rfl⟩
  | ready hgoal => exact ⟨h.2 true, Or.inr (h.1 s hgoal)⟩
  | late s => exact ⟨h.2 false, Or.inl rfl⟩
  | way s hi => exact ⟨h _, Or.inl rfl⟩

end Act

/-! ## 1. Requests -/

variable {R : DeskState → DeskState → Prop} {α : Type}

/-- A relation that does not mind what a request changes. -/
def SparesRequests (R : DeskState → DeskState → Prop) : Prop :=
  ∀ s gate nonce, R s { s with gate, nonce }

namespace Rest

theorem within_orCancelled (hR : SparesRequests R) {next : Trial α} (h : next.Within R) :
    (orCancelled next).Within R := by
  refine fun s => ⟨hR s s.gate s.nonce, ?_⟩
  dsimp only
  split
  · intro i
    dsimp only
    split
    · trivial
    · exact h
  · exact h

theorem within_pause (hR : SparesRequests R) (nanos : Nat) {next : Trial α} (h : next.Within R) :
    (pause nanos next).Within R := by
  refine ⟨fun s _ => hR s s.gate s.nonce, fun b => ?_⟩
  cases b with
  | true => trivial
  | false => exact h

theorem within_passGate (hR : SparesRequests R) {next : Trial α} (h : next.Within R) :
    (passGate next).Within R := by
  refine fun s => ⟨hR s (s.gate.pass s.now) s.nonce, ?_⟩
  have hnext : (if s.gate.fits s.now then next else .halt .sum).Within R := by
    split
    · exact h
    · trivial
  dsimp only
  split
  · exact hnext
  · exact within_pause hR _ hnext

theorem within_attempt (hR : SparesRequests R) (r : Rest) (method path payload : String)
    (access : Access) : (r.attempt method path payload access).Within R := by
  refine within_orCancelled hR (within_passGate hR (Act.Within.andThen ?_ ?_))
  · unfold prepare
    split
    · refine fun s => ⟨hR s s.gate (s.nonce.next s.clock), ?_⟩
      dsimp only
      split <;> trivial
    · trivial
  · exact fun q answer => within_orCancelled hR trivial

theorem within_attempts (hR : SparesRequests R) (r : Rest) (method path payload : String)
    (access : Access) (left number : Nat) :
    (r.attempts method path payload access left number).Within R := by
  induction left generalizing number with
  | zero => exact within_attempt hR r method path payload access
  | succ left ih =>
    refine (within_attempt hR r method path payload access).andThen fun answer => ?_
    split
    · exact within_pause hR _ (ih _)
    · trivial

/-- **A request stays within what requests may change.** -/
theorem within_request (hR : SparesRequests R) (r : Rest) (method path : String) (ps : Parameters)
    (access : Access) (decode : Json → Decoded α) :
    (r.request method path ps access decode).Within R := by
  refine Act.Within.andThen ?_ fun answer => trivial
  unfold execute
  split
  · exact within_attempts hR r method path _ access _ _
  · trivial

end Rest

/-! ## 2. The listen key -/

/-- A relation that does not mind what becomes of the listen key either. -/
structure SparesKeys (R : DeskState → DeskState → Prop) : Prop where
  requests : SparesRequests R
  key : ∀ s keyLock listenKey, R s { s with keyLock, listenKey }

namespace Client

theorem within_withKey (hR : SparesKeys R) {x : Deed α} (h : x.Within R) :
    (Deed.withKey x).Within R := by
  have hlock : Deed.lockKey.Within R :=
    ⟨fun s _ => hR.key s (some s.actor) s.listenKey, fun _ => trivial⟩
  refine hlock.bind fun _ => h.bind fun a => ?_
  exact fun s => ⟨hR.key s none s.listenKey, trivial⟩

theorem within_createListenKey (hR : SparesKeys R) (c : Client) :
    c.createListenKey.Within R := by
  refine within_withKey hR (Act.Within.andThen (Rest.within_request hR.requests ..) ?_)
  exact fun key s => ⟨hR.key s s.keyLock (some key), trivial⟩

theorem within_releaseListenKey (hR : SparesKeys R) (c : Client) :
    c.releaseListenKey.Within R := by
  refine within_withKey hR fun s => ⟨hR.key s s.keyLock none, ?_⟩
  dsimp only
  split
  · trivial
  · exact (Rest.within_request hR.requests ..).andThen fun _ => trivial

/-- Measuring the clock changes no more than a request does. -/
theorem within_syncClock (hR : SparesRequests R) (c : Client) : c.syncClock.Within R := by
  refine (Rest.within_request hR ..).andThen fun time s => ⟨hR s s.gate s.nonce, ?_⟩
  dsimp only
  split
  · trivial
  · exact fun s => ⟨hR s s.gate _, trivial⟩

end Client
end OrderDesk
