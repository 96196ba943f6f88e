import OrderDesk.Proofs.Rest.Reports

/-!
# All requests of a client

Many calls are under way at the same time, and all of them take their stamps from the same place.
A `Traffic` is a client with every call that was made of it, each with the rest of its procedure,
and with every attempt in the order in which it was made ready (`Issue`).  One step is a new call,
one move of one call, or anything elsewhere that takes no stamp back.

A stamp is taken in the very step that makes an attempt ready.  So the stamps grow from attempt to
attempt, whatever the order of the calls (`Reached.orderly`).
-/

namespace OrderDesk.Rest

/-! ## 1. Traffic -/

/-- An attempt at a call, made ready with this stamp. -/
structure Issue where
  call : Call
  stamp : Nat
  request : HttpRequest

/-- The request that a procedure is about to send. -/
def upNext {α : Type} : Trial α → Option HttpRequest
  | .ask q _ => some q
  | _ => none

/-- A client with its calls under way and all attempts so far. -/
structure Traffic where
  state : DeskState
  calls : List (Call × Trial HttpResponse)
  issued : List Issue

namespace Traffic

/-- The traffic after a move of a call that led to `rest` and `s`. -/
def afterMove (t : Traffic) (i : Nat) (c : Call) (rest : Trial HttpResponse) (s : DeskState) :
    Traffic where
  state := s
  calls := t.calls.set i (c, rest)
  issued := t.issued ++ (upNext rest).toList.map fun q => ⟨c, s.nonce.last, q⟩

/-- One step, as long as nobody cancels the desk. -/
inductive Step (r : Rest) : Traffic → Traffic → Prop
  | call {t : Traffic} {c : Call} : c.Preparable r →
      Step r t { t with calls := t.calls ++ [(c, c.deed r)] }
  | move {t : Traffic} {i : Nat} {c : Call} {x rest : Trial HttpResponse} {trace : Act.Trace}
      {s : DeskState} : t.calls[i]? = some (c, x) → t.state.cancelled = false →
      Act.Move x t.state trace rest s → Step r t (t.afterMove i c rest s)
  | elsewhere {t : Traffic} {s : DeskState} : t.state.nonce.last ≤ s.nonce.last →
      Step r t { t with state := s }

/-- The traffic of the runs that start like this. -/
inductive Reached (r : Rest) : Traffic → Prop
  | start (s : DeskState) : Reached r ⟨s, [], []⟩
  | step {t t' : Traffic} : Reached r t → Step r t t' → Reached r t'

/-- The stamps of the signed attempts. -/
def stamps (t : Traffic) : List Nat :=
  (t.issued.filter fun i => i.call.access = .signed).map Issue.stamp

/-! ## 2. What a run preserves -/

/-- What has to be known to send an attempt: it carries the last stamp, which was just taken if one
is needed. -/
def fresh (r : Rest) (c : Call) (k : Chronicle) (q : HttpRequest) : Prop :=
  r.Carries c k.last q ∧ (c.access = .signed → k.before < k.last)

/-- Every call under way sends attempts at itself only, and fresh ones; every attempt carries its
stamp, and the stamps grow up to the last one. -/
structure Orderly (r : Rest) (t : Traffic) : Prop where
  calls : ∀ m ∈ t.calls, ∃ k, m.2.Upholds (watched (fresh r m.1)) (fun _ _ => True) k ∧
    k.last ≤ t.state.nonce.last
  carries : ∀ i ∈ t.issued, r.Carries i.call i.stamp i.request
  below : ∀ i ∈ t.issued, i.stamp ≤ t.state.nonce.last
  growing : t.stamps.Pairwise (· < ·)

variable {r : Rest} {t t' : Traffic} {c : Call} {sends : Chronicle → HttpRequest → Prop}
  {k k' : Chronicle} {s s' : DeskState} {trace : Act.Trace}

/-- No move takes a stamp back. -/
theorem last_le_of_follows (h : Act.Follows (watched sends) k s s' trace k')
    (hlast : k.last ≤ s.nonce.last) :
    s.nonce.last ≤ s'.nonce.last ∧ k'.last ≤ s'.nonce.last := by
  cases h with
  | changed hallows => exact ⟨hallows.2, Nat.le_refl _⟩
  | asked q o hsame =>
    subst hsame
    exact ⟨Nat.le_refl _, hlast⟩
  | silent nanos hsame =>
    subst hsame
    exact ⟨Nat.le_refl _, hlast⟩

/-- A stamp that was just taken is greater than all before. -/
theorem stamp_of_follows (h : Act.Follows (watched sends) k s s' trace k')
    (hfresh : k'.before < k'.last) : k'.last = s'.nonce.last ∧ s.nonce.last < s'.nonce.last := by
  cases h with
  | changed hallows => exact ⟨rfl, hfresh⟩
  | asked q o hsame => exact absurd hfresh (Nat.lt_irrefl _)
  | silent nanos hsame => exact absurd hfresh (Nat.lt_irrefl _)

/-- An attempt that a move makes ready carries the last stamp, a fresh one if it is signed. -/
theorem issue_of_follows {rest : Trial HttpResponse} {q : HttpRequest}
    {post : Chronicle → Outcome HttpResponse → Prop}
    (h : Act.Follows (watched (fresh r c)) k s s' trace k')
    (hrest : rest.Upholds (watched (fresh r c)) post k') (hnext : upNext rest = some q) :
    r.Carries c s'.nonce.last q ∧ (c.access = .signed → s.nonce.last < s'.nonce.last) := by
  cases rest with
  | ask q' next =>
    obtain rfl := Option.some.inj hnext
    obtain ⟨⟨hcarries, hfresh⟩, -⟩ := hrest
    by_cases hsigned : c.access = .signed
    · obtain ⟨hlast, hless⟩ := stamp_of_follows h (hfresh hsigned)
      exact ⟨hlast ▸ hcarries, fun _ => hless⟩
    · exact ⟨hcarries.of_ne_signed hsigned, fun hsigned' => absurd hsigned' hsigned⟩
  | _ => cases hnext

/-- **One step keeps everything in order.** -/
theorem Orderly.step (hfits : r.retry.fits = true) (hattempts : 1 ≤ r.retry.attempts)
    (h : Orderly r t) (hstep : Step r t t') : Orderly r t' := by
  cases hstep with
  | @call c hprepare =>
    refine ⟨List.forall_mem_append.mpr ⟨h.calls, List.forall_mem_singleton.mpr ?_⟩, h.carries,
      h.below, h.growing⟩
    let k : Chronicle := .settled t.state.nonce.last []
    have hdeed : (c.deed r).Upholds (watched (fresh r c)) (Answered r c r.retry.attempts 1 k) k :=
      upholds_execute hprepare hfits hattempts
        (fun k q hcarries hfresh => ⟨hcarries, hfresh⟩) k
    exact ⟨k, hdeed.mono fun _ _ _ => trivial, Nat.le_refl _⟩
  | @move i c x rest trace s hi hcalm hmove =>
    obtain ⟨k, hx, hlast⟩ := h.calls (c, x) (List.mem_of_getElem? hi)
    obtain ⟨k', hrest, hfollows⟩ := hx.move ⟨hcalm, hlast⟩ hmove fun _ _ _ => trivial
    obtain ⟨hle, hlast'⟩ := last_le_of_follows hfollows hlast
    have hbelow : ∀ i ∈ t.issued, i.stamp ≤ s.nonce.last := fun i hi =>
      Nat.le_trans (h.below i hi) hle
    have hcalls : ∀ m ∈ t.calls.set i (c, rest),
        ∃ k, m.2.Upholds (watched (fresh r m.1)) (fun _ _ => True) k ∧ k.last ≤ s.nonce.last := by
      intro m hm
      obtain hm | rfl := List.mem_or_eq_of_mem_set hm
      · obtain ⟨k, hk, hkl⟩ := h.calls m hm
        exact ⟨k, hk, Nat.le_trans hkl hle⟩
      · exact ⟨k', hrest, hlast'⟩
    cases hnext : upNext rest with
    | none =>
      have hissued : (t.afterMove i c rest s).issued = t.issued := by
        simp [afterMove, hnext]
      exact ⟨hcalls, hissued ▸ h.carries, hissued ▸ hbelow, by
        rw [stamps, hissued]
        exact h.growing⟩
    | some q =>
      obtain ⟨hcarries, hfresh⟩ := issue_of_follows hfollows hrest hnext
      have hissued : (t.afterMove i c rest s).issued = t.issued ++ [⟨c, s.nonce.last, q⟩] := by
        simp [afterMove, hnext]
      refine ⟨hcalls, ?_, ?_, ?_⟩
      · rw [hissued]
        exact List.forall_mem_append.mpr ⟨h.carries, List.forall_mem_singleton.mpr hcarries⟩
      · rw [hissued]
        exact List.forall_mem_append.mpr ⟨hbelow, List.forall_mem_singleton.mpr (Nat.le_refl _)⟩
      · rw [stamps, hissued, List.filter_append, List.map_append]
        refine List.pairwise_append.mpr ⟨h.growing, ?_, ?_⟩
        · by_cases hsigned : c.access = .signed <;> simp [hsigned]
        · intro n hn n' hn'
          obtain ⟨i, hi, rfl⟩ := List.mem_map.mp hn
          obtain ⟨j, hj, rfl⟩ := List.mem_map.mp hn'
          obtain ⟨hj, hsigned⟩ := List.mem_filter.mp hj
          obtain rfl := List.mem_singleton.mp hj
          exact Nat.lt_of_le_of_lt (h.below i (List.mem_of_mem_filter hi))
            (hfresh (of_decide_eq_true hsigned))
  | elsewhere hle =>
    refine ⟨fun m hm => ?_, h.carries, fun i hi => Nat.le_trans (h.below i hi) hle, h.growing⟩
    obtain ⟨k, hk, hlast⟩ := h.calls m hm
    exact ⟨k, hk, Nat.le_trans hlast hle⟩

/-- **Every run keeps everything in order.** -/
theorem Reached.orderly (hfits : r.retry.fits = true) (hattempts : 1 ≤ r.retry.attempts)
    (h : Reached r t) : Orderly r t := by
  induction h with
  | start s => exact ⟨nofun, nofun, nofun, .nil⟩
  | step _ hstep ih => exact ih.step hfits hattempts hstep

end Traffic

/-! ## 3. The contract -/

/-- What can be said of the requests of a client while nobody cancels the desk.

* `executes`: a call is attempted until the exchange does not ask for patience or the attempts are
  used up, with the prescribed pauses and nothing else in between, and ends with the last answer;
* `reads`: the same where a value is read from that answer, and the end of patience is reported as
  it is;
* `places`: what is posted for an order is posted again only after a plea for patience;
* `stamps`: whichever calls are under way, each signed attempt has a stamp greater than all before
  it, and every attempt carries its own. -/
structure RetryContract (r : Rest) : Prop where
  executes : ∀ (c : Call) (k : Chronicle), c.Preparable r →
    (c.deed r).Upholds (watched fun _ _ => True) (Answered r c r.retry.attempts 1 k) k
  reads : ∀ (α : Type) (decode : Json → Decoded α) (c : Call) (k : Chronicle), c.Preparable r →
    (c.read r decode).Upholds (watched fun _ _ => True) (Reported r c decode k) k
  places : ∀ (c : Client) (o : Order) (known : Option Decimal) (k : Chronicle), c.toRest = r →
    r.signer.isSome = true →
    (c.placeOrder o known).Upholds (watched fun _ _ => True) (fun k' _ => c.Delivered k k') k
  stamps : ∀ t, Traffic.Reached r t → t.stamps.Pairwise (· < ·) ∧
    ∀ i ∈ t.issued, r.Carries i.call i.stamp i.request

/-- **Every client keeps the contract**, if it is to try at all and its pauses are in range. -/
theorem retry_contract {r : Rest} (hfits : r.retry.fits = true)
    (hattempts : 1 ≤ r.retry.attempts) : RetryContract r where
  executes := fun _ k hprepare =>
    upholds_execute hprepare hfits hattempts (fun _ _ _ _ => trivial) k
  reads := fun _ _ _ k hprepare =>
    upholds_read hprepare hfits hattempts (fun _ _ _ _ => trivial) k
  places := by
    rintro c o known k rfl hsigner
    exact Client.upholds_placeOrder hsigner hfits hattempts o known k
  stamps := fun _ h =>
    have horderly := h.orderly hfits hattempts
    ⟨horderly.growing, horderly.carries⟩

/-- A client with the usual patience. -/
def patientRest : Rest := ⟨"binance-spot", some ⟨"key", "secret", none⟩, .standard⟩

/-- A market order. -/
def marketCall : Call :=
  ⟨"POST", "/api/v3/order",
    [("symbol", "BTCUSDT"), ("side", "BUY"), ("type", "MARKET"), ("quantity", "1")], .signed⟩

theorem retry_contract_standard :
    patientRest.retry.fits = true ∧ 1 ≤ patientRest.retry.attempts ∧
      marketCall.Preparable patientRest ∧
      ∀ k, (marketCall.deed patientRest).Upholds (watched fun _ _ => True) (fun k' answer =>
        ∃ tries, k'.log = k.log ++ paced 1000000000 1 tries ∧
          Tried patientRest marketCall 5 k.last tries answer) k :=
  ⟨by decide, by decide, .inr rfl, fun k =>
    (retry_contract (r := patientRest) (by decide) (by decide)).executes marketCall k (.inr rfl)⟩

end OrderDesk.Rest
