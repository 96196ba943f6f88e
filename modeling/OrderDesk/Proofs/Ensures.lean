import OrderDesk.Proofs.Act

/-!
# What a procedure ensures in company

Between two steps of a procedure others take theirs, and what comes back for a request is not in
its hands.  A `Company` says what can be relied on: which states may be met, given what the
procedure knows by then, and which answers may come; and what has to be respected: which changes
of the state are allowed, and what has to hold should everything end halfway.

`Act.Ensures` says that a procedure, whatever happens within these limits, respects its company and
comes to an end at which a condition holds.  It is a recursion over the tree of the procedure, so
that nothing is left out: every answer, every state, both ends of a wait and every way of a choice
are followed.  A wait without a limit may last for ever and ensures nothing.

`Act.Move` is one step of a procedure as it happens.  A move leads from a procedure that ensures
something to one that still does (`Ensures.move`).
-/

namespace OrderDesk

/-- What a procedure may rely on and has to respect.  `κ` is what it knows.

* `meets`: the states that may be met;
* `answers`: the answers that may come;
* `allows`: the changes of the state that are allowed;
* `changed` and `heard`: what is known after a change and after an answer;
* `halfway`: what has to be known where everything ends. -/
structure Company (σ κ : Type) where
  meets : κ → σ → Prop
  answers : HttpRequest → Outcome HttpResponse → Prop
  allows : σ → σ → Prop
  changed : κ → σ → σ → κ
  heard : κ → HttpRequest → Outcome HttpResponse → κ
  halfway : κ → Prop

/-- The same company, but for what has to be known where everything ends halfway. -/
def Company.ending {σ κ : Type} (C : Company σ κ) (halfway : κ → Prop) : Company σ κ :=
  { C with halfway }

namespace Act

variable {σ κ α β : Type} {C : Company σ κ}

/-! ## 1. The condition -/

/-- Whatever happens, the procedure respects its company and ends with `post`. -/
def Ensures (C : Company σ κ) (post : κ → α → Prop) : Act σ α → κ → Prop
  | done a, k => post k a
  | halt _, k => C.halfway k
  | access set next, k => ∀ s, C.meets k s →
      C.allows s (set s) ∧ Ensures C post (next s) (C.changed k s (set s))
  | ask r next, k => ∀ o, C.answers r o → Ensures C post (next o) (C.heard k r o)
  | wait limit goal set next, k => limit.isSome ∧ Ensures C post (next false) k ∧
      ∀ s, C.meets k s → goal s = true →
        C.allows s (set s) ∧ Ensures C post (next true) (C.changed k s (set s))
  | choose ways next, k => ∀ i < ways, Ensures C post (next i) k

theorem Ensures.mono {post post' : κ → α → Prop} (himp : ∀ k a, post k a → post' k a)
    {x : Act σ α} {k : κ} (h : x.Ensures C post k) : x.Ensures C post' k := by
  induction x generalizing k with
  | done a => exact himp k a h
  | halt c => exact h
  | access set next ih =>
    intro s hs
    obtain ⟨hallows, hnext⟩ := h s hs
    exact ⟨hallows, ih s hnext⟩
  | ask r next ih =>
    intro o ho
    exact ih o (h o ho)
  | wait limit goal set next ih =>
    obtain ⟨hlimit, hlate, hready⟩ := h
    refine ⟨hlimit, ih false hlate, ?_⟩
    intro s hs hgoal
    obtain ⟨hallows, hnext⟩ := hready s hs hgoal
    exact ⟨hallows, ih true hnext⟩
  | choose ways next ih =>
    intro i hi
    exact ih i (h i hi)

/-- **One procedure after another** ensures what the second ensures from where the first ends. -/
theorem ensures_bind {post : κ → β → Prop} {f : α → Act σ β} (x : Act σ α) (k : κ) :
    (x.bind f).Ensures C post k ↔ x.Ensures C (fun k a => (f a).Ensures C post k) k := by
  induction x generalizing k with
  | done a => rfl
  | halt c => rfl
  | access set next ih => simp only [access_bind, Ensures, ih]
  | ask r next ih => simp only [ask_bind, Ensures, ih]
  | wait limit goal set next ih => simp only [wait_bind, Ensures, ih]
  | choose ways next ih => simp only [choose_bind, Ensures, ih]

/-- The same for procedures that may fail. -/
theorem Ensures.andThen {post : κ → Outcome β → Prop} {x : Act σ (Outcome α)}
    {f : α → Act σ (Outcome β)} {k : κ}
    (h : x.Ensures C (fun k o =>
      match o with
      | .ok a => (f a).Ensures C post k
      | .error e => post k (.error e)) k) :
    (x.andThen f).Ensures C post k := by
  refine (ensures_bind x k).mpr (h.mono ?_)
  intro k o ho
  cases o with
  | ok a => exact ho
  | error e => exact ho

/-- Less may be known where everything ends halfway. -/
theorem Ensures.ending {post : κ → α → Prop} {halfway : κ → Prop}
    (himp : ∀ k, C.halfway k → halfway k) {x : Act σ α} {k : κ} (h : x.Ensures C post k) :
    x.Ensures (C.ending halfway) post k := by
  induction x generalizing k with
  | done a => exact h
  | halt c => exact himp k h
  | access set next ih =>
    intro s hs
    obtain ⟨hallows, hnext⟩ := h s hs
    exact ⟨hallows, ih s hnext⟩
  | ask r next ih => exact fun o ho => ih o (h o ho)
  | wait limit goal set next ih =>
    obtain ⟨hlimit, hlate, hready⟩ := h
    refine ⟨hlimit, ih false hlate, ?_⟩
    intro s hs hgoal
    obtain ⟨hallows, hnext⟩ := hready s hs hgoal
    exact ⟨hallows, ih true hnext⟩
  | choose ways next ih => exact fun i hi => ih i (h i hi)

/-! ## 2. Moves -/

/-- What a move was, apart from the states. -/
inductive Trace where
  | changed
  | asked (r : HttpRequest) (o : Outcome HttpResponse)
  | silent

/-- One step of a procedure on a state, and the procedure that is left. -/
inductive Move : Act σ α → σ → Trace → Act σ α → σ → Prop
  | access (set : σ → σ) (next : σ → Act σ α) (s : σ) :
      Move (.access set next) s .changed (next s) (set s)
  | ask (r : HttpRequest) (next : Outcome HttpResponse → Act σ α) (o : Outcome HttpResponse)
      (s : σ) : Move (.ask r next) s (.asked r o) (next o) s
  | ready {limit : Option Nat} {goal : σ → Bool} {set : σ → σ} {next : Bool → Act σ α} {s : σ} :
      goal s = true → Move (.wait limit goal set next) s .changed (next true) (set s)
  | late {nanos : Nat} {goal : σ → Bool} {set : σ → σ} {next : Bool → Act σ α} (s : σ) :
      Move (.wait (some nanos) goal set next) s .silent (next false) s
  | way {ways i : Nat} {next : Nat → Act σ α} (s : σ) : i < ways →
      Move (.choose ways next) s .silent (next i) s

/-- A move of two procedures in a row is a move of the first, unless that is over. -/
theorem move_bind {f : α → Act σ β} {x : Act σ α} {y : Act σ β} {s s' : σ} {t : Trace}
    (h : Move (x.bind f) s t y s') :
    (∃ a, x = .done a ∧ Move (f a) s t y s') ∨ ∃ x', Move x s t x' s' ∧ y = x'.bind f := by
  cases x with
  | done a => exact Or.inl ⟨a, rfl, h⟩
  | halt cause => cases h
  | access set next =>
    cases h with
    | access => exact Or.inr ⟨_, .access set next s, rfl⟩
  | ask r next =>
    cases h with
    | ask => exact Or.inr ⟨_, .ask r next _ s, rfl⟩
  | wait limit goal set next =>
    cases h with
    | ready hgoal => exact Or.inr ⟨_, .ready hgoal, rfl⟩
    | late => exact Or.inr ⟨_, .late s, rfl⟩
  | choose ways next =>
    cases h with
    | way _ hi => exact Or.inr ⟨_, .way s hi, rfl⟩

/-- What is known after a move. -/
def after (C : Company σ κ) (k : κ) (s s' : σ) : Trace → κ
  | .changed => C.changed k s s'
  | .asked r o => C.heard k r o
  | .silent => k

/-- **A move leads to a procedure that still ensures the same**, and it keeps to what is
allowed. -/
theorem Ensures.move {post : κ → α → Prop} {x x' : Act σ α} {k : κ} {s s' : σ} {t : Trace}
    (h : x.Ensures C post k) (hmeets : C.meets k s) (hmove : Move x s t x' s')
    (hanswers : ∀ r o, t = .asked r o → C.answers r o) :
    x'.Ensures C post (after C k s s' t) ∧ (s' = s ∨ t = .changed ∧ C.allows s s') := by
  cases hmove with
  | access set next s =>
    obtain ⟨hallows, hnext⟩ := h s hmeets
    exact ⟨hnext, Or.inr ⟨rfl, hallows⟩⟩
  | ask r next o s => exact ⟨h o (hanswers r o rfl), Or.inl rfl⟩
  | ready hgoal =>
    obtain ⟨-, -, hready⟩ := h
    obtain ⟨hallows, hnext⟩ := hready s hmeets hgoal
    exact ⟨hnext, Or.inr ⟨rfl, hallows⟩⟩
  | late s => exact ⟨h.2.1, Or.inl rfl⟩
  | way s hi => exact ⟨h _ hi, Or.inl rfl⟩

/-! ## 3. One way through -/

/-- What a procedure ends with where it meets this state again and again, requests are answered like
this, waits last for their time, and the first of several ways is taken. -/
def sample (s : σ) (answer : HttpRequest → Outcome HttpResponse) : Act σ α → Option α
  | done a => some a
  | halt _ => none
  | access _ next => (next s).sample s answer
  | ask r next => (next (answer r)).sample s answer
  | wait _ _ _ next => (next false).sample s answer
  | choose ways next => if 0 < ways then (next 0).sample s answer else none

/-- **What a procedure ensures holds on this way, too.** -/
theorem Ensures.of_sample {post : κ → α → Prop} {x : Act σ α} {k : κ} {s : σ}
    {answer : HttpRequest → Outcome HttpResponse} {a : α} (h : x.Ensures C post k)
    (hmeets : ∀ k, C.meets k s) (hanswers : ∀ r, C.answers r (answer r))
    (ha : x.sample s answer = some a) : ∃ k', post k' a := by
  induction x generalizing k with
  | done b =>
    cases ha
    exact ⟨k, h⟩
  | halt cause => cases ha
  | access set next ih => exact ih s (h s (hmeets k)).2 ha
  | ask r next ih => exact ih _ (h _ (hanswers r)) ha
  | wait limit goal set next ih => exact ih false h.2.1 ha
  | choose ways next ih =>
    rw [sample] at ha
    split at ha
    · rename_i hways
      exact ih 0 (h 0 hways) ha
    · cases ha

/-- What a procedure breaks off with on this way. -/
def breakdown (s : σ) (answer : HttpRequest → Outcome HttpResponse) : Act σ α → Option Overflow
  | done _ => none
  | halt cause => some cause
  | access _ next => (next s).breakdown s answer
  | ask r next => (next (answer r)).breakdown s answer
  | wait _ _ _ next => (next false).breakdown s answer
  | choose ways next => if 0 < ways then (next 0).breakdown s answer else none

/-- A procedure breaks off only where enough is known. -/
theorem Ensures.of_breakdown {post : κ → α → Prop} {x : Act σ α} {k : κ} {s : σ}
    {answer : HttpRequest → Outcome HttpResponse} {cause : Overflow} (h : x.Ensures C post k)
    (hmeets : ∀ k, C.meets k s) (hanswers : ∀ r, C.answers r (answer r))
    (hcause : x.breakdown s answer = some cause) : ∃ k', C.halfway k' := by
  induction x generalizing k with
  | done b => cases hcause
  | halt c => exact ⟨k, h⟩
  | access set next ih => exact ih s (h s (hmeets k)).2 hcause
  | ask r next ih => exact ih _ (h _ (hanswers r)) hcause
  | wait limit goal set next ih => exact ih false h.2.1 hcause
  | choose ways next ih =>
    rw [breakdown] at hcause
    split at hcause
    · rename_i hways
      exact ih 0 (h 0 hways) hcause
    · cases hcause

end Act
end OrderDesk
