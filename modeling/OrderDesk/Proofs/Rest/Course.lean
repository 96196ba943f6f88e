import OrderDesk.Proofs.Rest.Retry

/-!
# The course of a request

Whatever a watch keeps an eye on, a request takes the same course: it passes the gate, is made
ready, goes out, and is sent again while the exchange asks for patience; and it ends early where the
desk is cancelled.  `Rest.Course` says what a watch has to know along the way, and that is enough for
the whole of the request, whatever others do with the state meanwhile and whatever comes back
(`Course.upholds_execute`).

Other than in `Way` the watch may look at each request as it is sent, and nothing is assumed of the
desk: it may be cancelled at any time, and numbers may leave their ranges.  Where neither happens
(`Calm`) there is little left to know: a request ends with its last answer.
-/

namespace OrderDesk.Rest

variable {κ : Type}

/-- A call, made ready with this stamp; without a signature the stamp does not matter. -/
def Call.prepared (r : Rest) (c : Call) (stamp : Nat) : Outcome HttpRequest :=
  HttpRequest.prepare r.signer c.method c.path (canonicalQuery c.parameters) c.access stamp

/-- A call that is stamped and signed. -/
def Call.isSealed (r : Rest) (c : Call) : Bool := c.access = .signed && r.signer.isSome

/-- What a watch has to know of a request before each attempt (`before`) and at the end (`post`).

* `timeless`: waiting teaches nothing;
* `passing`, `stamping`: the gate and the stamp may be changed at any time before an attempt;
* `jam`, `overrun`, `unfit`: where a number leaves its range everything may end;
* `refused`: a request that cannot be made ready is not sent;
* `sealed`, `plain`: one that is ready may be sent, with a fresh stamp if it is signed;
* `answered`, `again`: any answer may be the last, and after a plea for patience there may be a
  further attempt;
* `cancelled`, `lost`: where the desk is cancelled, the request may end before an attempt, and the
  answer may get lost. -/
structure Course (W : Watch DeskState κ) (r : Rest) (c : Call) (before : κ → Prop)
    (post : κ → Outcome HttpResponse → Prop) : Prop where
  timeless : ∀ k time, W.passed k time = k
  passing : ∀ {k s} gate, before k → W.meets k s →
    W.allows s { s with gate } ∧ before (W.changed k s { s with gate })
  jam : ∀ {k s}, before k → W.meets k s → s.gate.fits s.now = false →
    W.halfway (W.changed k s { s with gate := s.gate.pass s.now })
  stamping : ∀ {k s}, before k → W.meets k s → W.allows s { s with nonce := s.nonce.next s.clock } ∧
    before (W.changed k s { s with nonce := s.nonce.next s.clock })
  overrun : ∀ {k s}, before k → W.meets k s → s.nonce.inRange s.clock = false →
    W.halfway (W.changed k s { s with nonce := s.nonce.next s.clock })
  unfit : ∀ {k}, before k → r.retry.fits = false → W.halfway k
  refused : ∀ {k stamp e}, before k → c.prepared r stamp = .error e → post k (.error e)
  sealed : ∀ {k s q}, before k → W.meets k s → c.isSealed r = true →
    c.prepared r (stampIn s) = .ok q →
    W.sends (W.changed k s { s with nonce := s.nonce.next s.clock }) q
  plain : ∀ {k q}, before k → c.isSealed r = false → c.prepared r 0 = .ok q → W.sends k q
  answered : ∀ {k q o stamp}, before k → c.prepared r stamp = .ok q → W.answers q o →
    post (W.heard k q o) o
  again : ∀ {k q a stamp}, before k → c.prepared r stamp = .ok q → W.answers q (.ok a) →
    a.isThrottled = true → before (W.heard k q (.ok a))
  cancelled : ∀ {k s}, before k → W.meets k s → s.cancelled = true →
    post (W.changed k s s) (.error .cancelled)
  lost : ∀ {k s o}, post k o → W.meets k s → W.allows s s ∧ post (W.changed k s s) o ∧
    (s.cancelled = true → post (W.changed k s s) (.error .cancelled))

namespace Course

variable {W : Watch DeskState κ} {r : Rest} {c : Call} {before : κ → Prop}
  {post : κ → Outcome HttpResponse → Prop} {k : κ}

section Steps

variable {goal : κ → Outcome HttpResponse → Prop} {next : Trial HttpResponse}

theorem upholds_orCancelled (h : Course W r c before post) (hk : before k)
    (hnext : ∀ k, before k → next.Upholds W goal k)
    (hcancelled : ∀ k, post k (.error .cancelled) → goal k (.error .cancelled)) :
    (orCancelled next).Upholds W goal k := by
  intro s hs
  obtain ⟨hallows, hbefore⟩ := h.passing s.gate hk hs
  refine ⟨hallows, ?_⟩
  dsimp only
  split
  · rename_i hcancel
    refine ⟨by decide, fun i _ => ?_⟩
    rw [h.timeless]
    dsimp only
    split
    · exact hcancelled _ (h.cancelled hk hs hcancel)
    · exact hnext _ hbefore
  · exact hnext _ hbefore

theorem upholds_pause (h : Course W r c before post) (hk : before k) (nanos : Nat)
    (hnext : ∀ k, before k → next.Upholds W goal k)
    (hcancelled : ∀ k, post k (.error .cancelled) → goal k (.error .cancelled)) :
    (pause nanos next).Upholds W goal k := by
  refine ⟨⟨nanos, rfl, ?_⟩, fun s hs hcancel => ?_⟩
  · rw [h.timeless]
    exact hnext k hk
  · exact ⟨(h.passing s.gate hk hs).1, hcancelled _ (h.cancelled hk hs hcancel)⟩

theorem upholds_passGate (h : Course W r c before post) (hk : before k)
    (hnext : ∀ k, before k → next.Upholds W goal k)
    (hcancelled : ∀ k, post k (.error .cancelled) → goal k (.error .cancelled)) :
    (passGate next).Upholds W goal k := by
  intro s hs
  obtain ⟨hallows, hbefore⟩ := h.passing (s.gate.pass s.now) hk hs
  refine ⟨hallows, ?_⟩
  dsimp only
  by_cases hfits : s.gate.fits s.now = true
  · rw [if_pos hfits]
    split
    · exact hnext _ hbefore
    · exact h.upholds_pause hbefore _ hnext hcancelled
  · have hjam := h.jam hk hs (Bool.eq_false_iff.mpr hfits)
    rw [if_neg hfits]
    split
    · exact hjam
    · refine ⟨⟨_, rfl, ?_⟩, fun s' hs' hcancel => ?_⟩
      · rw [h.timeless]
        exact hjam
      · exact ⟨(h.passing s'.gate hbefore hs').1, hcancelled _ (h.cancelled hbefore hs' hcancel)⟩

end Steps

/-- What is known after an attempt: what came of it, and that there may be another one if that is
a plea for patience. -/
def Tried (before : κ → Prop) (post : κ → Outcome HttpResponse → Prop) (k : κ)
    (o : Outcome HttpResponse) : Prop :=
  post k o ∧ ∀ a, o = .ok a → a.isThrottled = true → before k

/-- A request that is ready is sent, and its answer counts unless it gets lost. -/
theorem upholds_send (h : Course W r c before post) (hk : before k) {o : Outcome HttpRequest}
    {stamp : Nat} (ho : c.prepared r stamp = o) (hsends : ∀ q, o = .ok q → W.sends k q) :
    ((Act.ofOutcome o).andThen fun q =>
      Act.ask q fun answer => orCancelled (.ofOutcome answer)).Upholds W (Tried before post) k := by
  cases o with
  | error e => exact ⟨h.refused hk ho, nofun⟩
  | ok q =>
    refine ⟨hsends q rfl, fun answer hanswer s hs => ?_⟩
    have hagain : ∀ a, answer = .ok a → a.isThrottled = true → before (W.heard k q answer) := by
      rintro a rfl hasks
      exact h.again hk ho hanswer hasks
    obtain ⟨hallows, hpost, hlost⟩ := h.lost (h.answered hk ho hanswer) hs
    have htried : Tried before post (W.changed (W.heard k q answer) s s) answer :=
      ⟨hpost, fun a ha hasks => (h.passing s.gate (hagain a ha hasks) hs).2⟩
    refine ⟨hallows, ?_⟩
    dsimp only
    split
    · rename_i hcancel
      refine ⟨by decide, fun i _ => ?_⟩
      rw [h.timeless]
      dsimp only
      split
      · exact ⟨hlost hcancel, nofun⟩
      · exact htried
    · exact htried

theorem upholds_attempt (h : Course W r c before post) (hk : before k) :
    (r.attempt c.method c.path (canonicalQuery c.parameters) c.access).Upholds W
      (Tried before post) k := by
  have hcancelled : ∀ k, post k (.error .cancelled) →
      Tried before post k (.error .cancelled) := fun k hpost => ⟨hpost, nofun⟩
  refine h.upholds_orCancelled hk (fun k hk => ?_) hcancelled
  refine h.upholds_passGate hk (fun k hk => ?_) hcancelled
  unfold prepare
  cases hsealed : c.isSealed r with
  | true =>
    rw [if_pos (show (decide (c.access = .signed) && r.signer.isSome) = true from hsealed)]
    intro s hs
    obtain ⟨hallows, hbefore⟩ := h.stamping hk hs
    refine ⟨hallows, ?_⟩
    dsimp only
    unfold Nonce.stamp?
    by_cases hrange : s.nonce.inRange s.clock = true
    · rw [if_pos hrange]
      exact h.upholds_send hbefore rfl fun q hq => h.sealed hk hs hsealed hq
    · rw [if_neg hrange]
      exact h.overrun hk hs (Bool.eq_false_iff.mpr hrange)
  | false =>
    rw [if_neg (show ¬ (decide (c.access = .signed) && r.signer.isSome) = true from
      Bool.eq_false_iff.mp hsealed)]
    exact h.upholds_send hk rfl fun q hq => h.plain hk hsealed hq

/-- **Attempts take their course.**  The induction is on the number of those that are left. -/
theorem upholds_attempts (h : Course W r c before post) (hk : before k) (left number : Nat) :
    (r.attempts c.method c.path (canonicalQuery c.parameters) c.access left number).Upholds W
      post k := by
  induction left generalizing number k with
  | zero => exact (h.upholds_attempt hk).mono fun _ _ => And.left
  | succ left ih =>
    refine Act.Upholds.andThen ((h.upholds_attempt hk).mono ?_)
    rintro k o ⟨hpost, hagain⟩
    cases o with
    | error e => exact hpost
    | ok a =>
      dsimp only
      split
      · rename_i hasks
        exact h.upholds_pause (hagain a rfl hasks) _ (fun k hk => ih hk _) fun _ => id
      · exact hpost

/-- **A request takes its course.** -/
theorem upholds_execute (h : Course W r c before post) (hk : before k) :
    (c.deed r).Upholds W post k := by
  unfold Call.deed execute
  split
  · exact h.upholds_attempts hk _ _
  · rename_i hunfit
    exact h.unfit hk (Bool.eq_false_iff.mpr hunfit)

end Course

/-! ## Calls that nothing stands in the way of -/

/-- A watch over a desk that nobody cancels and whose numbers stay within their ranges; only answers
teach anything. -/
structure Calm (W : Watch DeskState κ) : Prop where
  meets : ∀ {k s}, W.meets k s → s.cancelled = false ∧ s.InRange
  allows : ∀ s s', W.allows s s'
  changed : ∀ k s s', W.changed k s s' = k
  timeless : ∀ k time, W.passed k time = k

section Calm

variable {W : Watch DeskState κ} {r : Rest} {c : Call} {post : κ → Outcome HttpResponse → Prop}

/-- A call that can be prepared is never refused. -/
theorem not_refused (h : c.Preparable r) {stamp : Nat} {e : Fault} :
    c.prepared r stamp ≠ .error e := by
  intro hrefused
  obtain ⟨q, hq, -⟩ := exists_prepared h stamp
  cases hrefused.symm.trans hq

/-- **A call that nothing stands in the way of ends with its last answer.** -/
theorem Calm.upholds_execute (hcalm : Calm W) (h : c.Preparable r) (hfits : r.retry.fits = true)
    (hsends : ∀ {k stamp q}, c.prepared r stamp = .ok q → W.sends k q)
    (hanswered : ∀ {k stamp q o}, c.prepared r stamp = .ok q → W.answers q o →
      post (W.heard k q o) o) (k : κ) :
    (c.deed r).Upholds W post k := by
  have hlive : ∀ {p : Prop} {k s}, W.meets k s → s.cancelled = true → p := fun hs hcancelled =>
    absurd ((hcalm.meets hs).1.symm.trans hcancelled) Bool.false_ne_true
  have hcourse : Course W r c (fun _ => True) post := {
    timeless := hcalm.timeless
    passing := fun _ _ _ => ⟨hcalm.allows _ _, trivial⟩
    jam := fun _ hs hjam => absurd (hjam.symm.trans (hcalm.meets hs).2.1) Bool.false_ne_true
    stamping := fun _ _ => ⟨hcalm.allows _ _, trivial⟩
    overrun := fun _ hs hout => absurd (hout.symm.trans (hcalm.meets hs).2.2) Bool.false_ne_true
    unfit := fun _ hunfit => absurd (hunfit.symm.trans hfits) Bool.false_ne_true
    refused := fun _ hrefused => absurd hrefused (not_refused h)
    sealed := fun _ _ _ hq => hsends hq
    plain := fun _ _ hq => hsends hq
    answered := fun _ hq ho => hanswered hq ho
    again := fun _ _ _ _ => trivial
    cancelled := fun _ hs hcancelled => hlive hs hcancelled
    lost := fun hpost hs => by
      rw [hcalm.changed]
      exact ⟨hcalm.allows _ _, hpost, fun hcancelled => hlive hs hcancelled⟩ }
  exact hcourse.upholds_execute trivial

end Calm
end OrderDesk.Rest
