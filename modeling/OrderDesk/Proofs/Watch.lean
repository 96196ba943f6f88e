import OrderDesk.Proofs.Ensures

/-!
# Procedures under watch

What a procedure ensures in company says nothing about the times that it waits out, nor about what
is known at the moment of a request.  A `Watch` is a company that keeps an eye on both: what is
known takes in every time that was waited out (and every way that was taken), and a request may be
sent only by one who knows enough.

`Act.Upholds` is `Act.Ensures` for a watch, and again a recursion over the tree of the procedure:
whatever happens, the procedure keeps to what is allowed, never gets stuck, and comes to an end at
which a condition holds.  A wait has to have a limit and a choice a way, so that there always is a
next step.
-/

namespace OrderDesk

/-- A company that also knows what went by without a change.

* `passed`: what is known after a time was waited out, or after a way was taken (`none`);
* `sends`: what has to be known for a request to be sent. -/
structure Watch (σ κ : Type) extends Company σ κ where
  passed : κ → Option Nat → κ
  sends : κ → HttpRequest → Prop

namespace Act

variable {σ κ α β : Type} {W : Watch σ κ}

/-! ## 1. The condition -/

/-- Whatever happens, the procedure keeps to its watch, goes on, and ends with `post`. -/
def Upholds (W : Watch σ κ) (post : κ → α → Prop) : Act σ α → κ → Prop
  | done a, k => post k a
  | halt _, k => W.halfway k
  | access set next, k => ∀ s, W.meets k s →
      W.allows s (set s) ∧ Upholds W post (next s) (W.changed k s (set s))
  | ask r next, k => W.sends k r ∧ ∀ o, W.answers r o → Upholds W post (next o) (W.heard k r o)
  | wait limit goal set next, k =>
      (∃ nanos, limit = some nanos ∧ Upholds W post (next false) (W.passed k (some nanos))) ∧
      ∀ s, W.meets k s → goal s = true →
        W.allows s (set s) ∧ Upholds W post (next true) (W.changed k s (set s))
  | choose ways next, k => 0 < ways ∧ ∀ i < ways, Upholds W post (next i) (W.passed k none)

theorem Upholds.mono {post post' : κ → α → Prop} (himp : ∀ k a, post k a → post' k a)
    {x : Act σ α} {k : κ} (h : x.Upholds W post k) : x.Upholds W post' k := by
  induction x generalizing k with
  | done a => exact himp k a h
  | halt c => exact h
  | access set next ih =>
    intro s hs
    obtain ⟨hallows, hnext⟩ := h s hs
    exact ⟨hallows, ih s hnext⟩
  | ask r next ih =>
    obtain ⟨hsends, hnext⟩ := h
    exact ⟨hsends, fun o ho => ih o (hnext o ho)⟩
  | wait limit goal set next ih =>
    obtain ⟨⟨nanos, hlimit, hlate⟩, hready⟩ := h
    refine ⟨⟨nanos, hlimit, ih false hlate⟩, ?_⟩
    intro s hs hgoal
    obtain ⟨hallows, hnext⟩ := hready s hs hgoal
    exact ⟨hallows, ih true hnext⟩
  | choose ways next ih =>
    obtain ⟨hways, hnext⟩ := h
    exact ⟨hways, fun i hi => ih i (hnext i hi)⟩

/-- **One procedure after another** upholds what the second upholds from where the first ends. -/
theorem upholds_bind {post : κ → β → Prop} {f : α → Act σ β} (x : Act σ α) (k : κ) :
    (x.bind f).Upholds W post k ↔ x.Upholds W (fun k a => (f a).Upholds W post k) k := by
  induction x generalizing k with
  | done a => rfl
  | halt c => rfl
  | access set next ih => simp only [access_bind, Upholds, ih]
  | ask r next ih => simp only [ask_bind, Upholds, ih]
  | wait limit goal set next ih => simp only [wait_bind, Upholds, ih]
  | choose ways next ih => simp only [choose_bind, Upholds, ih]

/-- The same for procedures that may fail. -/
theorem Upholds.andThen {post : κ → Outcome β → Prop} {x : Act σ (Outcome α)}
    {f : α → Act σ (Outcome β)} {k : κ}
    (h : x.Upholds W (fun k o =>
      match o with
      | .ok a => (f a).Upholds W post k
      | .error e => post k (.error e)) k) :
    (x.andThen f).Upholds W post k := by
  refine (upholds_bind x k).mpr (h.mono ?_)
  intro k o ho
  cases o with
  | ok a => exact ho
  | error e => exact ho

/-! ## 2. Moves -/

/-- What is known after a move, and that the move was in order. -/
inductive Follows (W : Watch σ κ) (k : κ) (s s' : σ) : Trace → κ → Prop
  | changed : W.allows s s' → Follows W k s s' .changed (W.changed k s s')
  | asked (r : HttpRequest) (o : Outcome HttpResponse) : s' = s → W.sends k r →
      Follows W k s s' (.asked r o) (W.heard k r o)
  | silent (nanos : Option Nat) : s' = s → Follows W k s s' .silent (W.passed k nanos)

/-- **A move leads to a procedure that still upholds the same.** -/
theorem Upholds.move {post : κ → α → Prop} {x x' : Act σ α} {k : κ} {s s' : σ} {t : Trace}
    (h : x.Upholds W post k) (hmeets : W.meets k s) (hmove : Move x s t x' s')
    (hanswers : ∀ r o, t = .asked r o → W.answers r o) :
    ∃ k', x'.Upholds W post k' ∧ Follows W k s s' t k' := by
  cases hmove with
  | access set next s =>
    obtain ⟨hallows, hnext⟩ := h s hmeets
    exact ⟨_, hnext, .changed hallows⟩
  | ask r next o s =>
    obtain ⟨hsends, hnext⟩ := h
    exact ⟨_, hnext o (hanswers r o rfl), .asked r o rfl hsends⟩
  | ready hgoal =>
    obtain ⟨hallows, hnext⟩ := h.2 s hmeets hgoal
    exact ⟨_, hnext, .changed hallows⟩
  | @late nanos goal set next s =>
    obtain ⟨⟨nanos', hlimit, hlate⟩, -⟩ := h
    obtain rfl := Option.some.inj hlimit
    exact ⟨_, hlate, .silent (some nanos) rfl⟩
  | way s hi => exact ⟨_, h.2 _ hi, .silent none rfl⟩

end Act
end OrderDesk
