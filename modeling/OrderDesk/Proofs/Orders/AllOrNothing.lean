import OrderDesk.Proofs.Keeping
import OrderDesk.Proofs.Orders.Acceptance
import OrderDesk.Proofs.Table

/-!
# Orders, all or nothing

A call that places or cancels an order has three ends.  The exchange agreed: then the host hears of
it, and what the desk keeps is brought up to date.  The exchange turned the request down, that is,
its last answer has a status between 400 and 499 other than 429 (`TurnsDown`): then the host hears
of that, and nothing else changes.  In every other case the call fails, and it is as if there had
been no call, as far as the host and the desk are concerned (`Ended`).

There is nothing in between, whatever comes back for the requests, whatever the host knows, and
whatever others do meanwhile.  One answer may get lost on the way: if the desk is cancelled in the
very moment in which it arrives, the call may fail although the request was turned down
(`mayCancel`).

What is known at the end of an attempt is put together for any verb (`way_deciding`), since an order
is placed and cancelled in the same way.  The lock comes last: who waits for it sends nothing and
tells nothing, and who has it is alone with the orders (`Act.Ensures.keeps_withOrders`).
-/

namespace OrderDesk

/-- The request itself was turned down; 429 only asks for patience. -/
def HttpResponse.TurnsDown (a : HttpResponse) : Prop :=
  400 ≤ a.status ∧ a.status < 500 ∧ a.status ≠ 429

theorem HttpResponse.not_turnsDown_of_isThrottled {a : HttpResponse} (h : a.isThrottled = true) :
    ¬ a.TurnsDown :=
  fun hdown => hdown.2.2 (beq_iff_eq.mp h)

theorem HttpResponse.not_turnsDown_of_isSuccess {a : HttpResponse} (h : a.isSuccess = true) :
    ¬ a.TurnsDown := by
  rintro ⟨hlower, -, -⟩
  simp only [HttpResponse.isSuccess, Bool.and_eq_true, decide_eq_true_eq] at h
  omega

/-- **What was turned down is rejected**, and nothing else is. -/
theorem Client.verdict_eq_rejected_iff {attempts : Nat} {a : HttpResponse} {cause : Fault} :
    Client.verdict attempts a = .ok (.rejected cause) ↔
      a.TurnsDown ∧ cause = .answer a.status a.body := by
  unfold Client.verdict HttpResponse.TurnsDown HttpResponse.isSuccess HttpResponse.isThrottled
  constructor
  · intro h
    split at h
    · cases h
    · dsimp only at h
      split at h
      · split at h
        · rename_i hrejects
          cases hrejects
        · cases h
      · split at h
        · rename_i hrejects
          simp only [Fault.isRejection, Bool.and_eq_true, decide_eq_true_eq, bne_iff_ne] at hrejects
          cases h
          exact ⟨⟨hrejects.1.1, hrejects.1.2, hrejects.2⟩, rfl⟩
        · cases h
  · rintro ⟨⟨hlower, hupper, hpatience⟩, rfl⟩
    have hsuccess : (decide (200 ≤ a.status) && decide (a.status < 300)) = false := by
      simp only [Bool.and_eq_false_iff, decide_eq_false_iff_not]
      omega
    have hthrottled : (a.status == 429) = false := beq_eq_false_iff_ne.mpr hpatience
    simp [hsuccess, hthrottled, Fault.isRejection, hlower, hupper, hpatience]

/-- An order is kept under this id, and everything else as before. -/
structure Fills.Adds (f f' : Fills) (id : String) (o : Order) : Prop where
  own : f'.placed.get? id = some { o with brokerIds := [id] }
  others : ∀ id', id' ≠ id → f'.placed.get? id' = f.placed.get? id'

/-- To note an order is to do no more than that. -/
theorem Fills.adds_track (f : Fills) (id : String) (o : Order) : f.Adds (f.track id o) id o where
  own := Table.get?_put_self ..
  others := fun _ hne => Table.get?_put_of_ne hne ..

namespace Orders

variable {mayCancel : Bool} {method : String} {f : Fills} {k : Section}

/-! ## 1. The last answer -/

/-- What came back last for a request with this verb. -/
def lastAnswer (method : String) (asked : List (HttpRequest × Outcome HttpResponse)) :
    Option (Outcome HttpResponse) :=
  (asked.reverse.find? fun x => x.1.method = method).map (·.2)

section LastAnswer

variable (asked : List (HttpRequest × Outcome HttpResponse)) {q : HttpRequest}
  (answer : Outcome HttpResponse)

theorem lastAnswer_snoc_self (h : q.method = method) :
    lastAnswer method (asked ++ [(q, answer)]) = some answer := by
  simp [lastAnswer, h]

theorem lastAnswer_snoc_of_ne (h : q.method ≠ method) :
    lastAnswer method (asked ++ [(q, answer)]) = lastAnswer method asked := by
  simp [lastAnswer, h]

end LastAnswer

theorem exists_of_lastAnswer {method : String} {asked : List (HttpRequest × Outcome HttpResponse)}
    {answer : Outcome HttpResponse} (h : lastAnswer method asked = some answer) :
    ∃ q, (q, answer) ∈ asked := by
  obtain ⟨⟨q, o⟩, hfound, rfl⟩ := Option.map_eq_some_iff.mp h
  exact ⟨q, List.mem_reverse.mp (List.mem_of_find?_eq_some hfound)⟩

/-- The last answer to a request with this verb turned it down. -/
def TurnedDown (method : String) (k : Section) : Prop :=
  ∃ a, lastAnswer method k.asked = some (.ok a) ∧ a.TurnsDown

theorem not_turnedDown_of_last {answer : Outcome HttpResponse}
    (hlast : lastAnswer method k.asked = some answer)
    (hnot : ∀ a, answer = .ok a → ¬ a.TurnsDown) : ¬ TurnedDown method k := by
  rintro ⟨a, ha, hdown⟩
  exact hnot a (Option.some.inj (hlast.symm.trans ha)) hdown

/-! ## 2. From the first request to the verdict -/

/-- The company of a member with the lock, where the desk is cancelled only if that may be, and
where nothing may have been told or changed if everything ends. -/
def whole (mayCancel : Bool) (f : Fills) : Company DeskState Section :=
  { underLock f with
    meets := fun k s => s.fills = k.fills ∧ (s.cancelled = true → mayCancel = true)
    halfway := fun k => k.told = [] ∧ k.fills = f }

theorem lenient_whole (mayCancel : Bool) (f : Fills) : (whole mayCancel f).Lenient where
  allows := fun _ _ _ => ⟨rfl, rfl, List.prefix_refl _⟩
  changed := by
    rintro k s ⟨hkept, -⟩ gate nonce
    simp only [whole, underLock, List.drop_length, List.append_nil, hkept]

/-- Nothing was told, and no orders were noted or forgotten. -/
structure Untouched (f : Fills) (k : Section) : Prop where
  told : k.told = []
  fills : k.fills = f

/-- Nothing happened yet, and no answer so far was the last. -/
structure Undecided (method : String) (f : Fills) (k : Section) : Prop where
  untouched : Untouched f k
  pending : ¬ TurnedDown method k

/-- A request came to its end: either the last answer is known, or there is none, or it got
lost. -/
structure Decided (mayCancel : Bool) (method : String) (f : Fills) (k : Section)
    (o : Outcome HttpResponse) : Prop where
  untouched : Untouched f k
  answer : ∀ a, o = .ok a → lastAnswer method k.asked = some (.ok a)
  failure : ∀ e, o = .error e →
    ¬ TurnedDown method k ∨ mayCancel = true ∧ e = .cancelled

/-- A request with another verb decides nothing. -/
theorem way_asking {other : String} (hne : other ≠ method) :
    Rest.Way (whole mayCancel f) other (Undecided method f) fun k _ => Undecided method f k := by
  have hother : ∀ {k q} {answer : Outcome HttpResponse}, Undecided method f k →
      q.method = other → Undecided method f ((whole mayCancel f).heard k q answer) := by
    intro k q answer hk hq
    refine ⟨⟨hk.untouched.told, hk.untouched.fills⟩, ?_⟩
    have hsame := lastAnswer_snoc_of_ne k.asked answer (hq.trans_ne hne)
    rintro ⟨a, ha, hdown⟩
    exact hk.pending ⟨a, hsame.symm.trans ha, hdown⟩
  exact {
    lenient := lenient_whole mayCancel f
    halfway := fun hk => ⟨hk.untouched.told, hk.untouched.fills⟩
    failed := fun hk _ => hk
    again := fun hk hq _ _ => hother hk hq
    answered := fun hk hq _ => hother hk hq
    cancelled := fun hk hq _ _ _ => hother hk hq }

/-- **A request is sent until it is decided.** -/
theorem way_deciding :
    Rest.Way (whole mayCancel f) method (Undecided method f) (Decided mayCancel method f) where
  lenient := lenient_whole mayCancel f
  halfway := fun hk => ⟨hk.untouched.told, hk.untouched.fills⟩
  failed := fun hk _ => ⟨hk.untouched, nofun, fun _ _ => Or.inl hk.pending⟩
  again := by
    rintro k q a hk hq - hasks
    refine ⟨⟨hk.untouched.told, hk.untouched.fills⟩, ?_⟩
    refine not_turnedDown_of_last (lastAnswer_snoc_self _ _ hq) ?_
    rintro _ ⟨⟩
    exact HttpResponse.not_turnsDown_of_isThrottled hasks
  answered := by
    rintro k q o hk hq -
    have hlast := lastAnswer_snoc_self k.asked o hq
    refine ⟨⟨hk.untouched.told, hk.untouched.fills⟩, ?_, ?_⟩
    · rintro a rfl
      exact hlast
    · rintro e rfl
      exact Or.inl (not_turnedDown_of_last hlast nofun)
  cancelled := by
    rintro k q o s hk hq - ⟨-, hmay⟩ hcancelled
    refine ⟨⟨hk.untouched.told, hk.untouched.fills⟩, nofun, ?_⟩
    rintro _ ⟨⟩
    exact Or.inr ⟨hmay hcancelled, rfl⟩

/-! ## 3. The three ends of a call -/

/-- What a call has to do with its last answer, what it told, and what it left.  `agreed` says what
follows where the exchange agreed, and `declined` is what the host is told of a cause for which it
did not. -/
inductive Ended (mayCancel : Bool) (method : String) (f : Fills)
    (agreed : HttpResponse → Section → Prop) (declined : Fault → Instant → List Event)
    (k : Section) : Outcome Bool → Prop
  | agreed {a : HttpResponse} : lastAnswer method k.asked = some (.ok a) → a.isSuccess = true →
      agreed a k → Ended mayCancel method f agreed declined k (.ok true)
  | declined {a : HttpResponse} (time : Instant) :
      lastAnswer method k.asked = some (.ok a) → a.TurnsDown →
      k.told = declined (.answer a.status a.body) time → k.fills = f →
      Ended mayCancel method f agreed declined k (.ok false)
  | failed {e : Fault} : Untouched f k →
      (¬ TurnedDown method k ∨ mayCancel = true ∧ e = .cancelled) →
      Ended mayCancel method f agreed declined k (.error e)

variable {agreed : HttpResponse → Section → Prop} {declined : Fault → Instant → List Event}
  {result : Outcome Bool}

/-- **A call says no just where the exchange did**, unless the answer got lost. -/
theorem Ended.eq_false_iff (h : Ended mayCancel method f agreed declined k result) :
    result = .ok false ↔
      TurnedDown method k ∧ ¬ (mayCancel = true ∧ result = .error .cancelled) := by
  cases h with
  | agreed hlast hsuccess _ =>
    refine ⟨nofun, fun hdown => absurd hdown.1 (not_turnedDown_of_last hlast ?_)⟩
    rintro _ ⟨⟩
    exact HttpResponse.not_turnsDown_of_isSuccess hsuccess
  | declined _ hlast hdown _ _ => exact ⟨fun _ => ⟨⟨_, hlast, hdown⟩, nofun⟩, fun _ => rfl⟩
  | @failed e _ hcause =>
    refine ⟨nofun, fun hdown => ?_⟩
    rcases hcause with hnot | ⟨hmay, rfl⟩
    · exact absurd hdown.1 hnot
    · exact absurd ⟨hmay, rfl⟩ hdown.2

/-- A call that says yes has done everything, one that says no has told the host and nothing else,
and one that fails has done nothing. -/
structure AllOrNothing (mayCancel : Bool) (method : String) (f : Fills)
    (agreed : HttpResponse → Section → Prop) (declined : Fault → Instant → List Event)
    (k : Section) (result : Outcome Bool) : Prop where
  yes : result = .ok true → ∃ a, lastAnswer method k.asked = some (.ok a) ∧
    a.isSuccess = true ∧ agreed a k
  no_iff : result = .ok false ↔
    TurnedDown method k ∧ ¬ (mayCancel = true ∧ result = .error .cancelled)
  no : result = .ok false → k.fills = f ∧ ∃ a time, lastAnswer method k.asked = some (.ok a) ∧
    k.told = declined (.answer a.status a.body) time
  failure : ∀ e, result = .error e → k.told = [] ∧ k.fills = f

theorem Ended.allOrNothing (h : Ended mayCancel method f agreed declined k result) :
    AllOrNothing mayCancel method f agreed declined k result where
  yes := by
    rintro rfl
    cases h with
    | agreed hlast hsuccess hagreed => exact ⟨_, hlast, hsuccess, hagreed⟩
  no_iff := h.eq_false_iff
  no := by
    rintro rfl
    cases h with
    | declined _ hlast _ htold hfills => exact ⟨hfills, _, _, hlast, htold⟩
  failure := by
    rintro e rfl
    cases h with
    | failed huntouched _ => exact ⟨huntouched.told, huntouched.fills⟩

/-- Where a request is decided and there is no verdict, the call fails. -/
theorem Decided.ended {attempts : Nat} {answer : Outcome HttpResponse} {e : Fault}
    (h : Decided mayCancel method f k answer)
    (hverdict : answer.bind (Client.verdict attempts) = .error e) :
    Ended mayCancel method f agreed declined k (.error e) := by
  cases answer with
  | error e' =>
    cases hverdict
    exact .failed h.untouched (h.failure e rfl)
  | ok a =>
    refine .failed h.untouched (Or.inl (not_turnedDown_of_last (h.answer a rfl) ?_))
    rintro _ ⟨⟩ hdown
    have hrejected : Client.verdict attempts a = .ok (.rejected (.answer a.status a.body)) :=
      Client.verdict_eq_rejected_iff.mpr ⟨hdown, rfl⟩
    cases hverdict.symm.trans hrejected

/-! ## 4. Placing -/

/-- What a call to place an order left where the exchange agreed: the order is kept under the id in
the answer, and the host was told the id and that the order was submitted. -/
def PlacedAs (f : Fills) (o : Order) (a : HttpResponse) (k : Section) : Prop :=
  ∃ w time, Client.acknowledged a.body = .ok w ∧
    k.told = [.orderIds o.id [w.id], .order (.ofStatus o .submitted "" time)] ∧
    k.fills = f.track w.id o ∧ f.Adds k.fills w.id o

/-- What the host is told of an order that was turned down. -/
def placementDeclined (o : Order) (cause : Fault) (time : Instant) : List Event :=
  let text := "Order " ++ Text.ofNat o.id ++ " rejected: " ++ cause.message
  [.order (.ofStatus o .invalid text time), .warning "OrderRejected" text]

/-- An order was placed, or not. -/
def Placed (mayCancel : Bool) (f : Fills) (o : Order) : Section → Outcome Bool → Prop :=
  AllOrNothing mayCancel "POST" f (PlacedAs f o) (placementDeclined o)

/-- What is known after something was told. -/
theorem told_after {s : DeskState} {more : List Event} (htold : k.told = []) :
    k.told ++ (s.events ++ more).drop s.events.length = more := by
  rw [htold, List.drop_left, List.nil_append]

theorem ensures_placing (d : Desk) (o : Order) (f : Fills) :
    (d.placing o).Ensures (whole mayCancel f) (Placed mayCancel f o) ⟨[], [], f⟩ := by
  suffices h : (d.placing o).Ensures (whole mayCancel f)
      (Ended mayCancel "POST" f (PlacedAs f o) (placementDeclined o)) ⟨[], [], f⟩ from
    h.mono fun _ _ => Ended.allOrNothing
  have hstart : Undecided "POST" f ⟨[], [], f⟩ := ⟨⟨rfl, rfl⟩, by rintro ⟨a, ha, -⟩; cases ha⟩
  refine (lenient_whole mayCancel f).access (fun s => ⟨s.gate, s.nonce, rfl⟩) ?_
  intro s _
  refine Act.Ensures.andThen (ensures_placeOrder_of (way_asking (by decide)) way_deciding o _ hstart
    (fun k e hk => .failed hk.untouched (Or.inl hk.pending)) ?_)
  intro k answer hdecided
  obtain ⟨htold, hfills⟩ := hdecided.untouched
  cases hverdict : answer.bind (Client.verdict d.toClient.retry.attempts) with
  | error e => exact hdecided.ended hverdict
  | ok verdict =>
  cases answer with
  | error e => cases hverdict
  | ok a =>
  have hlast := hdecided.answer a rfl
  cases verdict with
  | rejected cause =>
    obtain ⟨hdown, rfl⟩ := Client.verdict_eq_rejected_iff.mp hverdict
    rintro t ⟨hkept, -⟩
    refine ⟨⟨rfl, rfl, ⟨_, (List.append_assoc ..).symm⟩⟩, ?_⟩
    refine .declined t.instant hlast hdown ?_ (hkept.trans hfills)
    show k.told ++ (t.events ++ _ ++ _).drop t.events.length = _
    rw [List.append_assoc, told_after htold]
    rfl
  | accepted body =>
  obtain ⟨hsuccess, rfl⟩ := isSuccess_of_verdict hverdict
  dsimp only [settle]
  cases hplaced : Client.acknowledged a.body with
  | error e =>
    refine .failed hdecided.untouched (Or.inl (not_turnedDown_of_last hlast ?_))
    rintro _ ⟨⟩
    exact HttpResponse.not_turnsDown_of_isSuccess hsuccess
  | ok placed =>
  rw [Act.ofOutcome_ok_andThen]
  -- the host is told, and then the order is noted: nothing can fail between the two
  rintro t ⟨hkept, -⟩
  refine ⟨⟨rfl, rfl, ⟨_, (List.append_assoc ..).symm⟩⟩, ?_⟩
  rintro u ⟨hkept', -⟩
  have hfills' : u.fills = f := hkept'.trans (hkept.trans hfills)
  have hadds : f.Adds (Fills.track u.fills placed.id o) placed.id o := by
    rw [hfills']
    exact Fills.adds_track f placed.id o
  refine ⟨⟨rfl, rfl, List.prefix_refl _⟩, .agreed hlast hsuccess ?_⟩
  refine ⟨placed, t.instant, hplaced, ?_, by rw [← hfills']; rfl, hadds⟩
  show k.told ++ (t.events ++ _ ++ _).drop t.events.length ++ u.events.drop u.events.length = _
  rw [List.append_assoc t.events, told_after htold, List.drop_length, List.append_nil]
  rfl

/-! ## 5. Cancelling -/

/-- What a call to cancel an order left where the exchange agreed: its ids are forgotten, and the
host was told. -/
def CanceledAs (f : Fills) (o : Order) (_ : HttpResponse) (k : Section) : Prop :=
  (∃ time, k.told = [.order (.ofStatus o .canceled "Canceled by host" time)]) ∧
    k.fills = f.forget o.brokerIds

/-- What the host is told of an order that was not cancelled. -/
def cancellationDeclined (o : Order) (cause : Fault) (_ : Instant) : List Event :=
  [.warning "CancelRejected"
    ("Order " ++ Text.ofNat o.id ++ " could not be canceled: " ++ cause.message)]

/-- An order was cancelled, or not. -/
def Canceled (mayCancel : Bool) (f : Fills) (o : Order) : Section → Outcome Bool → Prop :=
  AllOrNothing mayCancel "DELETE" f (CanceledAs f o) (cancellationDeclined o)

theorem ensures_canceling (d : Desk) (o : Order) (f : Fills) :
    (d.canceling o).Ensures (whole mayCancel f) (Canceled mayCancel f o) ⟨[], [], f⟩ := by
  suffices h : (d.canceling o).Ensures (whole mayCancel f)
      (Ended mayCancel "DELETE" f (CanceledAs f o) (cancellationDeclined o)) ⟨[], [], f⟩ from
    h.mono fun _ _ => Ended.allOrNothing
  have hstart : Undecided "DELETE" f ⟨[], [], f⟩ := ⟨⟨rfl, rfl⟩, by rintro ⟨a, ha, -⟩; cases ha⟩
  refine Act.Ensures.andThen ?_
  unfold Client.cancelOrder
  cases d.toClient.cancellation o with
  | error e => exact .failed hstart.untouched (Or.inl hstart.pending)
  | ok target =>
  rw [Act.ofOutcome_ok_andThen]
  refine Act.Ensures.andThen (ensures_submit_of way_deciding _ _ hstart ?_)
  intro k answer hdecided
  obtain ⟨htold, hfills⟩ := hdecided.untouched
  cases hverdict : answer.bind (Client.verdict d.toClient.retry.attempts) with
  | error e => exact hdecided.ended hverdict
  | ok verdict =>
  cases answer with
  | error e => cases hverdict
  | ok a =>
  have hlast := hdecided.answer a rfl
  cases verdict with
  | rejected cause =>
    obtain ⟨hdown, rfl⟩ := Client.verdict_eq_rejected_iff.mp hverdict
    rintro t ⟨hkept, -⟩
    refine ⟨⟨rfl, rfl, ⟨_, rfl⟩⟩, ?_⟩
    exact .declined t.instant hlast hdown (told_after htold) (hkept.trans hfills)
  | accepted body =>
    obtain ⟨hsuccess, rfl⟩ := isSuccess_of_verdict hverdict
    rintro t ⟨hkept, -⟩
    refine ⟨⟨rfl, rfl, ⟨_, rfl⟩⟩, ?_⟩
    rintro u ⟨hkept', -⟩
    have hfills' : u.fills = f := hkept'.trans (hkept.trans hfills)
    refine ⟨⟨rfl, rfl, List.prefix_refl _⟩, .agreed hlast hsuccess ⟨⟨t.instant, ?_⟩, ?_⟩⟩
    · show k.told ++ (t.events ++ _).drop t.events.length ++ u.events.drop u.events.length = _
      rw [told_after htold, List.drop_length, List.append_nil]
    · show Fills.forget u.fills o.brokerIds = _
      rw [hfills']

/-! ## 6. Before the lock and after it -/

/-- Where a call is: it waits for the lock, has it, or gave it back; `f` are the orders that were
kept when it took the lock. -/
inductive Visit where
  | outside
  | inside (f : Fills) (k : Section)
  | left (f : Fills) (k : Section)

/-- The watch over a call that works under the lock: whatever it tells the host stays told, and it
sends nothing without the lock. -/
def visiting (mayCancel : Bool) : Watch DeskState Visit where
  meets
    | .inside f k, s => (whole mayCancel f).meets k s ∧ s.orderLock.isSome = true
    | .outside, _ | .left _ _, _ => True
  answers _ _ := True
  allows s s' := s.events <+: s'.events
  changed
    | .outside, s, s' => .inside s.fills ⟨[], s'.events.drop s.events.length, s'.fills⟩
    | .inside f k, s, s' =>
      let k' := (whole mayCancel f).changed k s s'
      if s'.orderLock.isSome then .inside f k' else .left f k'
    | .left f k, _, _ => .left f k
  heard
    | .inside f k, q, o => .inside f ((whole mayCancel f).heard k q o)
    | v, _, _ => v
  halfway
    | .inside f k => (whole mayCancel f).halfway k
    | .outside | .left _ _ => True
  passed v _ := v
  sends
    | .inside _ _, _ => True
    | .outside, _ | .left _ _, _ => False

/-- A call gave the lock back, and this holds of what it knew by then. -/
def Visit.Left (post : Fills → Section → Prop) (v : Visit) : Prop :=
  ∃ f k, v = .left f k ∧ post f k

variable {α : Type} {post : Fills → Section → α → Prop} {x : Deed α}

/-- Who has the lock keeps it until the work is done. -/
theorem keeps_inside {post : Section → α → Prop} (h : x.Ensures (whole mayCancel f) post k) :
    x.Keeps (visiting mayCancel) (fun v a => ∃ k', v = .inside f k' ∧ post k' a)
      (.inside f k) := by
  have hstays : ∀ {k : Section} {s s' : DeskState}, s.orderLock.isSome = true →
      (whole mayCancel f).allows s s' → (visiting mayCancel).changed (.inside f k) s s' =
        .inside f ((whole mayCancel f).changed k s s') := by
    rintro k s s' hlock ⟨hsame, -, -⟩
    exact if_pos (hsame ▸ hlock)
  induction x generalizing k with
  | done a => exact ⟨k, rfl, h⟩
  | halt cause => exact h
  | access set next ih =>
    rintro s ⟨hmeets, hlock⟩
    obtain ⟨hallows, hnext⟩ := h s hmeets
    refine ⟨hallows.2.2, ?_⟩
    rw [hstays hlock hallows]
    exact ih s hnext
  | ask r next ih => exact ⟨trivial, fun o _ => ih o (h o trivial)⟩
  | wait limit goal set next ih =>
    obtain ⟨-, hlate, hready⟩ := h
    refine ⟨fun _ _ => ih false hlate, ?_⟩
    rintro s ⟨hmeets, hlock⟩ hgoal
    obtain ⟨hallows, hnext⟩ := hready s hmeets hgoal
    refine ⟨hallows.2.2, ?_⟩
    rw [hstays hlock hallows]
    exact ih true hnext
  | choose ways next ih => exact fun i hi => ih i (h i hi)

/-- **Work under the lock ends with what it ensures once it has the lock**, and it is the same when
the lock was given back. -/
theorem keeps_withOrders
    (h : ∀ f, x.Ensures (whole mayCancel f) (post f) ⟨[], [], f⟩) :
    (Deed.withOrders x).Keeps (visiting mayCancel)
      (fun v a => v.Left fun f k => post f k a) .outside := by
  refine (Act.keeps_bind _ _).mpr ⟨nofun, ?_⟩
  rintro s - -
  refine ⟨List.prefix_refl _, ?_⟩
  have htaken : (visiting mayCancel).changed .outside s { s with orderLock := some s.actor } =
      .inside s.fills ⟨[], [], s.fills⟩ := by
    simp only [visiting, List.drop_length]
  rw [htaken]
  refine (Act.keeps_bind _ _).mpr ((keeps_inside (h s.fills)).mono ?_)
  rintro _ a ⟨k, rfl, hpost⟩
  rintro t ⟨⟨hkept, -⟩, -⟩
  refine ⟨List.prefix_refl _, s.fills, k, ?_, hpost⟩
  simp [visiting, whole, underLock, hkept]

/-! ## 7. The calls of the host -/

/-- **Orders are placed and cancelled all or nothing**, for every order, listing, price of the host
and course of requests: under the lock, where each call comes to its end whatever others do
meanwhile, and from the host's call on. -/
theorem orders_all_or_nothing (d : Desk) (o : Order) (mayCancel : Bool) :
    (∀ f, (d.placing o).Ensures (whole mayCancel f) (Placed mayCancel f o) ⟨[], [], f⟩) ∧
    (∀ f, (d.canceling o).Ensures (whole mayCancel f) (Canceled mayCancel f o) ⟨[], [], f⟩) ∧
    (d.place o).Keeps (visiting mayCancel)
      (fun v result => v.Left fun f k => Placed mayCancel f o k result) .outside ∧
    (d.cancel o).Keeps (visiting mayCancel)
      (fun v result => v.Left fun f k => Canceled mayCancel f o k result) .outside :=
  ⟨ensures_placing d o, ensures_canceling d o, keeps_withOrders (ensures_placing d o),
    keeps_withOrders (ensures_canceling d o)⟩

end Orders
end OrderDesk
