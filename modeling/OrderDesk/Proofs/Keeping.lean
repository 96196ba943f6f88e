import OrderDesk.Proofs.Watch

/-!
# Procedures that keep to a watch

A procedure that waits for others may wait for ever, and then it upholds nothing; but it may still
be that all it does until then is in order.  `Act.Keeps` is what `Act.Upholds` says less that the
procedure comes to an end: every change is allowed, every request may be sent, and where there is
an end a condition holds at it.

The laws are those of `Act.Upholds`, which is the stronger of the two (`Upholds.keeps`).
-/

namespace OrderDesk.Act

variable {σ κ α β : Type} {W : Watch σ κ}

/-- Whatever happens, the procedure keeps to its watch; if it ends, then with `post`. -/
def Keeps (W : Watch σ κ) (post : κ → α → Prop) : Act σ α → κ → Prop
  | done a, k => post k a
  | halt _, k => W.halfway k
  | access set next, k => ∀ s, W.meets k s →
      W.allows s (set s) ∧ Keeps W post (next s) (W.changed k s (set s))
  | ask r next, k => W.sends k r ∧ ∀ o, W.answers r o → Keeps W post (next o) (W.heard k r o)
  | wait limit goal set next, k =>
      (∀ nanos, limit = some nanos → Keeps W post (next false) (W.passed k (some nanos))) ∧
      ∀ s, W.meets k s → goal s = true →
        W.allows s (set s) ∧ Keeps W post (next true) (W.changed k s (set s))
  | choose ways next, k => ∀ i < ways, Keeps W post (next i) (W.passed k none)

/-- **What upholds something keeps to it.** -/
theorem Upholds.keeps {post : κ → α → Prop} {x : Act σ α} {k : κ} (h : x.Upholds W post k) :
    x.Keeps W post k := by
  induction x generalizing k with
  | done a => exact h
  | halt c => exact h
  | access set next ih => exact fun s hs => ⟨(h s hs).1, ih s (h s hs).2⟩
  | ask r next ih => exact ⟨h.1, fun o ho => ih o (h.2 o ho)⟩
  | wait limit goal set next ih =>
    obtain ⟨⟨nanos, rfl, hlate⟩, hready⟩ := h
    refine ⟨?_, fun s hs hgoal => ⟨(hready s hs hgoal).1, ih true (hready s hs hgoal).2⟩⟩
    rintro _ ⟨⟩
    exact ih false hlate
  | choose ways next ih => exact fun i hi => ih i (h.2 i hi)

theorem Keeps.mono {post post' : κ → α → Prop} (himp : ∀ k a, post k a → post' k a)
    {x : Act σ α} {k : κ} (h : x.Keeps W post k) : x.Keeps W post' k := by
  induction x generalizing k with
  | done a => exact himp k a h
  | halt c => exact h
  | access set next ih => exact fun s hs => ⟨(h s hs).1, ih s (h s hs).2⟩
  | ask r next ih => exact ⟨h.1, fun o ho => ih o (h.2 o ho)⟩
  | wait limit goal set next ih =>
    exact ⟨fun nanos hnanos => ih false (h.1 nanos hnanos),
      fun s hs hgoal => ⟨(h.2 s hs hgoal).1, ih true (h.2 s hs hgoal).2⟩⟩
  | choose ways next ih => exact fun i hi => ih i (h i hi)

/-- **One procedure after another** keeps to what the second keeps to from where the first ends. -/
theorem keeps_bind {post : κ → β → Prop} {f : α → Act σ β} (x : Act σ α) (k : κ) :
    (x.bind f).Keeps W post k ↔ x.Keeps W (fun k a => (f a).Keeps W post k) k := by
  induction x generalizing k with
  | done a => rfl
  | halt c => rfl
  | access set next ih => simp only [access_bind, Keeps, ih]
  | ask r next ih => simp only [ask_bind, Keeps, ih]
  | wait limit goal set next ih => simp only [wait_bind, Keeps, ih]
  | choose ways next ih => simp only [choose_bind, Keeps, ih]

/-- The same for procedures that may fail. -/
theorem Keeps.andThen {post : κ → Outcome β → Prop} {x : Act σ (Outcome α)}
    {f : α → Act σ (Outcome β)} {k : κ}
    (h : x.Keeps W (fun k o =>
      match o with
      | .ok a => (f a).Keeps W post k
      | .error e => post k (.error e)) k) :
    (x.andThen f).Keeps W post k := by
  refine (keeps_bind x k).mpr (h.mono ?_)
  intro k o ho
  cases o with
  | ok a => exact ho
  | error e => exact ho

/-- **A move leads to a procedure that still keeps to the same.** -/
theorem Keeps.move {post : κ → α → Prop} {x x' : Act σ α} {k : κ} {s s' : σ} {t : Trace}
    (h : x.Keeps W post k) (hmeets : W.meets k s) (hmove : Move x s t x' s')
    (hanswers : ∀ r o, t = .asked r o → W.answers r o) :
    ∃ k', x'.Keeps W post k' ∧ Follows W k s s' t k' := by
  cases hmove with
  | access set next s =>
    obtain ⟨hallows, hnext⟩ := h s hmeets
    exact ⟨_, hnext, .changed hallows⟩
  | ask r next o s =>
    obtain ⟨hsends, hnext⟩ := h
    exact ⟨_, hnext o (hanswers r o rfl), .asked r o rfl hsends⟩
  | ready hgoal =>
    obtain ⟨hallows, hnext⟩ := h.2 s hmeets hgoal
    exact ⟨_, hnext, .changed hallows⟩
  | @late nanos goal set next s =>
    exact ⟨_, h.1 nanos rfl, .silent (some nanos) rfl⟩
  | way s hi => exact ⟨_, h _ hi, .silent none rfl⟩

end OrderDesk.Act
