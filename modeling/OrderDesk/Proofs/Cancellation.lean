import OrderDesk.Desk.Orders
import OrderDesk.Proofs.Leads
import OrderDesk.Proofs.Orders.Section
import OrderDesk.Proofs.Orders.Tracking
import OrderDesk.Proofs.Rest.Course

/-!
# Calls of a desk that is cancelled

A call that finds the desk cancelled may still take the step that it was about to take; which of the
two comes first is not its own to choose.  But it has to wait before it asks for the same thing
again, and whoever waits at a desk that is cancelled is woken at once.  So a call that begins after
the desk was cancelled sends one request at most, and nothing at all if cancellation comes first
(`Dismissed`); and a call that is on its way sends one more at most, and nothing more if it waits
(`cancelled_desk_falls_silent`).

All this is as long as no wait is slept through, which a cancelled desk allows only where the time
is up in the very moment in which the call would be woken; each wait slept through is worth one more
request (`dismissed`).  A call may also break down, and then it asks for nothing more; where the
pauses of its policy are out of range it does so before it looks at anything
(`cancelled_order_sent`).
-/

namespace OrderDesk

open Orders (etherDesk etherOrder)
open Rest (Call)

/-! ## 1. What is asked between two waits -/

/-- The verbs of what was asked since the last wait; none of them may be used again. -/
def spacing : Watch DeskState (List String) where
  meets _ _ := True
  answers _ _ := True
  allows _ _ := True
  changed verbs _ _ := verbs
  heard verbs q _ := verbs ++ [q.method]
  halfway _ := True
  passed
    | verbs, none => verbs
    | _, some _ => []
  sends verbs q := q.method ∉ verbs

/-- What was asked with these verbs alone. -/
def Only (others verbs : List String) : Prop := ∀ verb ∈ verbs, verb ∈ others

theorem only_nil (others : List String) : Only others [] :=
  fun _ hverb => absurd hverb List.not_mem_nil

/-- What is known of a procedure since the desk was cancelled: what it asked, and how many waits it
slept through. -/
structure Farewell where
  asked : List (HttpRequest × Outcome HttpResponse)
  overslept : Nat

namespace Farewell

/-- Nothing was done yet. -/
def fresh : Farewell := ⟨[], 0⟩

/-- How often something was asked with this verb. -/
def times (k : Farewell) (verb : String) : Nat := k.asked.countP fun e => e.1.method = verb

end Farewell

/-- The desk is cancelled, and stays so.  No verb is used more often than once, and once more for
each wait that was slept through.  If all is `calm`, numbers stay within their ranges and nothing
breaks down. -/
def dismissed (calm : Bool) : Watch DeskState Farewell where
  meets _ s := s.cancelled = true ∧ (calm = true → s.InRange)
  answers _ _ := True
  allows _ _ := True
  changed k _ _ := k
  heard k q o := { k with asked := k.asked ++ [(q, o)] }
  halfway _ := calm = false
  passed
    | k, none => k
    | k, some _ => { k with overslept := k.overslept + 1 }
  sends k q := k.times q.method ≤ k.overslept

section Spacing

variable {α : Type} {x : Deed α} {verbs : List String} {post : List String → α → Prop}
  {k : Farewell}

/-- What was asked is accounted for by the waits that were slept through, but for one request with
each verb since the last of them. -/
def Farewell.Spaced (verbs : List String) (k : Farewell) : Prop :=
  ∀ verb, k.times verb ≤ k.overslept + if verb ∈ verbs then 1 else 0

theorem Farewell.spaced_fresh (verbs : List String) : Farewell.fresh.Spaced verbs :=
  fun _ => Nat.zero_le _

theorem Farewell.Spaced.loosen (h : k.Spaced []) (verbs : List String) : k.Spaced verbs :=
  fun verb => (h verb).trans (Nat.le_add_right _ _)

theorem Farewell.Spaced.rested (h : k.Spaced verbs) :
    Farewell.Spaced [] { k with overslept := k.overslept + 1 } := by
  intro verb
  have hverb := h verb
  show k.times verb ≤ k.overslept + 1 + 0
  split at hverb <;> omega

theorem Farewell.Spaced.asked {q : HttpRequest} (o : Outcome HttpResponse) (h : k.Spaced verbs)
    (hnew : q.method ∉ verbs) :
    Farewell.Spaced (verbs ++ [q.method]) { k with asked := k.asked ++ [(q, o)] } := by
  intro verb
  have hverb := h verb
  have hcount : Farewell.times { k with asked := k.asked ++ [(q, o)] } verb =
      k.times verb + if q.method = verb then 1 else 0 := by
    simp [Farewell.times, List.countP_append, List.countP_cons]
  rw [hcount]
  by_cases hsame : q.method = verb
  · subst hsame
    simpa [hnew] using hverb
  · simpa [hsame, Ne.symm hsame] using hverb

/-- **Who waits before a verb is used again uses it once at a desk that is cancelled**, and once
more for each wait slept through. -/
theorem Act.Keeps.dismissed (h : x.Keeps spacing post verbs) (hk : k.Spaced verbs) :
    x.Keeps (dismissed false) (fun _ _ => True) k := by
  induction x generalizing verbs k with
  | done a => exact trivial
  | halt cause => exact rfl
  | access set next ih => exact fun s _ => ⟨trivial, ih s (h s trivial).2 hk⟩
  | ask q next ih =>
    obtain ⟨hsends, hnext⟩ := h
    refine ⟨?_, fun o _ => ih o (hnext o trivial) (hk.asked o hsends)⟩
    exact (hk q.method).trans (by rw [if_neg hsends]; rfl)
  | wait limit goal set next ih =>
    obtain ⟨hlate, hready⟩ := h
    refine ⟨fun nanos hlimit => ih false (hlate nanos hlimit) hk.rested, fun s _ hgoal => ?_⟩
    exact ⟨trivial, ih true (hready s trivial hgoal).2 hk⟩
  | choose ways next ih => exact fun i hi => ih i (h i hi) hk

end Spacing

/-! ## 2. The course of a call, with its waits -/

namespace Rest

section Passage

variable {κ : Type} {W : Watch DeskState κ} {r : Rest} {c : Call} {before : κ → Prop}
  {post goal : κ → Outcome HttpResponse → Prop} {next : Trial HttpResponse} {k : κ}

/-- What a watch that is not concerned with the state has to know of a call before each attempt
(`before`) and at the end (`post`).

* `sturdy`: a call may break down, or numbers stay within their ranges;
* `still`, `chosen`: neither a change nor a way that was taken teaches anything;
* `rested`: after a wait there may be an attempt, whatever was before;
* `refused`, `sent`: a request that cannot be made ready is not sent, another one may be, and then
  any answer may be the last;
* `cancelled`, `lost`: the call may end early, and the answer may get lost. -/
structure Passage (W : Watch DeskState κ) (r : Rest) (c : Call) (before : κ → Prop)
    (post : κ → Outcome HttpResponse → Prop) : Prop where
  sturdy : (∀ k, W.halfway k) ∨ ∀ k s, W.meets k s → s.InRange
  still : ∀ k s s', W.allows s s' ∧ W.changed k s s' = k
  chosen : ∀ k, W.passed k none = k
  rested : ∀ {k} nanos, (before k ∨ ∃ o, post k o) → before (W.passed k (some nanos))
  refused : ∀ {k stamp e}, before k → c.prepared r stamp = .error e → post k (.error e)
  sent : ∀ {k stamp q}, before k → c.prepared r stamp = .ok q →
    W.sends k q ∧ ∀ o, post (W.heard k q o) o
  cancelled : ∀ {k}, before k → post k (.error .cancelled)
  lost : ∀ {k o}, post k o → post k (.error .cancelled)

namespace Passage

theorem upholds_access (h : Passage W r c before post) {set : DeskState → DeskState}
    {next : DeskState → Trial HttpResponse}
    (hnext : ∀ s, W.meets k s → (next s).Upholds W goal k) :
    (Act.access set next).Upholds W goal k := by
  intro s hs
  obtain ⟨hallows, hsame⟩ := h.still k s (set s)
  rw [hsame]
  exact ⟨hallows, hnext s hs⟩

theorem upholds_orCancelled (h : Passage W r c before post) (hnext : next.Upholds W goal k)
    (hcancelled : goal k (.error .cancelled)) : (orCancelled next).Upholds W goal k := by
  refine h.upholds_access fun s _ => ?_
  split
  · refine ⟨by decide, fun i _ => ?_⟩
    rw [h.chosen]
    dsimp only
    split
    · exact hcancelled
    · exact hnext
  · exact hnext

theorem upholds_pause (h : Passage W r c before post) (nanos : Nat)
    (hk : before k ∨ ∃ o, post k o) (hnext : ∀ k, before k → next.Upholds W goal k)
    (hcancelled : goal k (.error .cancelled)) : (pause nanos next).Upholds W goal k := by
  refine ⟨⟨nanos, rfl, hnext _ (h.rested nanos hk)⟩, fun s _ _ => ?_⟩
  obtain ⟨hallows, hsame⟩ := h.still k s (id s)
  rw [hsame]
  exact ⟨hallows, hcancelled⟩

theorem upholds_passGate (h : Passage W r c before post) (hk : before k)
    (hnext : ∀ k, before k → next.Upholds W goal k) (hcancelled : goal k (.error .cancelled)) :
    (passGate next).Upholds W goal k := by
  refine h.upholds_access fun s hs => ?_
  have hfit : ∀ k, before k →
      (if s.gate.fits s.now then next else .halt .sum).Upholds W goal k := by
    intro k hk
    split
    · exact hnext k hk
    · rename_i hunfit
      exact h.sturdy.elim (fun hbroken => hbroken k) fun hrange => absurd (hrange _ s hs).1 hunfit
  dsimp only
  split
  · exact hfit k hk
  · exact h.upholds_pause _ (Or.inl hk) hfit hcancelled

/-- A request that is ready is sent, and its answer counts unless it gets lost. -/
theorem upholds_send (h : Passage W r c before post) (hk : before k) {o : Outcome HttpRequest}
    {stamp : Nat} (ho : c.prepared r stamp = o) :
    ((Act.ofOutcome o).andThen fun q =>
      Act.ask q fun answer => orCancelled (.ofOutcome answer)).Upholds W post k := by
  cases o with
  | error e => exact h.refused hk ho
  | ok q =>
    obtain ⟨hsends, hpost⟩ := h.sent hk ho
    exact ⟨hsends, fun answer _ => h.upholds_orCancelled (hpost answer) (h.lost (hpost answer))⟩

theorem upholds_attempt (h : Passage W r c before post) (hk : before k) :
    (r.attempt c.method c.path (canonicalQuery c.parameters) c.access).Upholds W post k := by
  refine h.upholds_orCancelled ?_ (h.cancelled hk)
  refine h.upholds_passGate hk (fun k hk => ?_) (h.cancelled hk)
  unfold prepare
  split
  · refine h.upholds_access fun s hs => ?_
    dsimp only
    unfold Nonce.stamp?
    by_cases hfit : s.nonce.inRange s.clock = true
    · rw [if_pos hfit]
      exact h.upholds_send hk rfl
    · rw [if_neg hfit]
      exact h.sturdy.elim (fun hbroken => hbroken k) fun hrange => absurd (hrange _ s hs).2 hfit
  · exact h.upholds_send hk rfl

/-- The induction is on the number of the attempts that are left. -/
theorem upholds_attempts (h : Passage W r c before post) (hk : before k) (left number : Nat) :
    (r.attempts c.method c.path (canonicalQuery c.parameters) c.access left number).Upholds W
      post k := by
  induction left generalizing number k with
  | zero => exact h.upholds_attempt hk
  | succ left ih =>
    refine Act.Upholds.andThen ((h.upholds_attempt hk).mono ?_)
    intro k o hpost
    cases o with
    | error e => exact hpost
    | ok a =>
      dsimp only
      split
      · exact h.upholds_pause _ (Or.inr ⟨_, hpost⟩) (fun k hk => ih hk _) (h.lost hpost)
      · exact hpost

/-- **A call takes its course.** -/
theorem upholds_deed (h : Passage W r c before post)
    (hfits : (∀ k, W.halfway k) ∨ r.retry.fits = true) (hk : before k) :
    (c.deed r).Upholds W post k := by
  unfold Call.deed execute
  split
  · exact h.upholds_attempts hk _ _
  · rename_i hunfit
    exact hfits.elim (fun hbroken => hbroken k) fun hfit => absurd hfit hunfit

end Passage
end Passage

/-! ## 3. What is left of a call that finds the desk cancelled -/

variable {r : Rest} {c : Call}

/-- What a call comes to at a desk that is cancelled. -/
inductive Dismissed (r : Rest) (c : Call) (k : Farewell) : Outcome HttpResponse → Prop
  | overslept {o : Outcome HttpResponse} : 0 < k.overslept → Dismissed r c k o
  | unsent : k.asked = [] → Dismissed r c k (.error .cancelled)
  | refused {stamp : Nat} {e : Fault} : k.asked = [] → c.prepared r stamp = .error e →
      Dismissed r c k (.error e)
  | sent {stamp : Nat} {q : HttpRequest} {o : Outcome HttpResponse} : k.asked = [(q, o)] →
      c.prepared r stamp = .ok q → Dismissed r c k o
  | lost {stamp : Nat} {q : HttpRequest} {o : Outcome HttpResponse} : k.asked = [(q, o)] →
      c.prepared r stamp = .ok q → Dismissed r c k (.error .cancelled)

theorem passage_dismissed (calm : Bool) (r : Rest) (c : Call) :
    Passage (dismissed calm) r c (fun k => k.Spaced [] ∧ (0 < k.overslept ∨ k.asked = []))
      (fun k o => k.Spaced [c.method] ∧ Dismissed r c k o) where
  sturdy := by
    cases calm with
    | false => exact Or.inl fun _ => rfl
    | true => exact Or.inr fun _ _ hs => hs.2 rfl
  still _ _ _ := ⟨trivial, rfl⟩
  chosen _ := rfl
  rested := by
    rintro k nanos (⟨hspaced, -⟩ | ⟨o, hspaced, -⟩) <;>
      exact ⟨hspaced.rested, Or.inl (Nat.succ_pos _)⟩
  refused := by
    rintro k stamp e ⟨hspaced, hk⟩ hprepared
    refine ⟨hspaced.loosen _, ?_⟩
    rcases hk with hslept | hnone
    · exact .overslept hslept
    · exact .refused hnone hprepared
  sent := by
    rintro k stamp q ⟨hspaced, hk⟩ hprepared
    have hmethod : q.method = c.method := HttpRequest.method_of_prepare hprepared
    refine ⟨hspaced q.method, fun o => ⟨?_, ?_⟩⟩
    · rw [← hmethod]
      exact hspaced.asked o (List.not_mem_nil)
    · rcases hk with hslept | hnone
      · exact .overslept hslept
      · exact .sent (by simp [dismissed, hnone]) hprepared
  cancelled := by
    rintro k ⟨hspaced, hk⟩
    refine ⟨hspaced.loosen _, ?_⟩
    rcases hk with hslept | hnone
    · exact .overslept hslept
    · exact .unsent hnone
  lost := by
    rintro k o ⟨hspaced, hend⟩
    refine ⟨hspaced, ?_⟩
    cases hend with
    | overslept hslept => exact .overslept hslept
    | unsent hnone => exact .unsent hnone
    | refused hnone _ => exact .unsent hnone
    | sent hasked hprepared => exact .lost hasked hprepared
    | lost hasked hprepared => exact .lost hasked hprepared

/-- **A call that begins at a desk that is cancelled** comes to one of these ends, unless it breaks
down; if all is calm and its policy fits, it does not. -/
theorem upholds_dismissed {calm : Bool} (hcalm : calm = true → r.retry.fits = true) (c : Call) :
    (c.deed r).Upholds (dismissed calm) (Dismissed r c) .fresh := by
  have hfits : (∀ k, (dismissed calm).halfway k) ∨ r.retry.fits = true := by
    cases calm with
    | false => exact Or.inl fun _ => rfl
    | true => exact Or.inr (hcalm rfl)
  exact ((passage_dismissed calm r c).upholds_deed hfits
    ⟨Farewell.spaced_fresh _, Or.inr rfl⟩).mono fun _ _ => And.right

/-- A step that looks for cancellation has two ways to go on if it finds it. -/
theorem moves_orCancelled {α β : Type} {next : Trial α} (f : Outcome α → Trial β)
    {s : DeskState} (hs : s.cancelled = true) :
    ∃ ways, Act.Move ((orCancelled next).bind f) s .changed (.choose 2 ways) s ∧
      ways 0 = f (.error .cancelled) := by
  refine ⟨fun way => (if way = 0 then Act.fail .cancelled else next).bind f, ?_, rfl⟩
  have hmove := Act.Move.access id (fun s : DeskState => (if s.cancelled then
    .choose 2 fun way => if way = 0 then Act.fail .cancelled else next else next).bind f) s
  rw [hs, if_pos rfl] at hmove
  exact hmove

/-- **Where cancellation comes first, a call sends nothing**: it has two ways to begin with, and one
of them is its end. -/
theorem moves_deed (hfits : r.retry.fits = true) (c : Call) {s : DeskState}
    (hs : s.cancelled = true) :
    ∃ ways, Act.Move (c.deed r) s .changed (.choose 2 ways) s ∧
      ways 0 = .done (.error .cancelled) := by
  unfold Call.deed execute
  rw [if_pos hfits]
  cases r.retry.attempts - 1 with
  | zero =>
    rw [attempts, ← Act.bind_done (attempt ..)]
    exact moves_orCancelled _ hs
  | succ left => exact moves_orCancelled _ hs

/-- A call has one verb, and waits before it uses it again; others may have been used before. -/
theorem passage_spacing (r : Rest) (c : Call) {others : List String} (hnew : c.method ∉ others) :
    Passage spacing r c (Only others) (fun verbs _ => Only (c.method :: others) verbs) where
  sturdy := Or.inl fun _ => trivial
  still _ _ _ := ⟨trivial, rfl⟩
  chosen _ := rfl
  rested _ _ := only_nil others
  refused hk _ := fun verb hverb => List.mem_cons_of_mem _ (hk verb hverb)
  sent := by
    rintro verbs stamp q hk hprepared
    have hmethod : q.method = c.method := HttpRequest.method_of_prepare hprepared
    refine ⟨fun hused => hnew (hmethod ▸ hk _ hused), fun o verb hverb => ?_⟩
    rcases List.mem_append.mp hverb with hold | hlast
    · exact List.mem_cons_of_mem _ (hk verb hold)
    · rw [List.mem_singleton.mp hlast, hmethod]
      exact List.mem_cons_self
  cancelled hk := fun verb hverb => List.mem_cons_of_mem _ (hk verb hverb)
  lost := id

theorem keeps_spacing (r : Rest) (c : Call) {others verbs : List String}
    (hnew : c.method ∉ others) (hverbs : Only others verbs) :
    (c.deed r).Keeps spacing (fun verbs _ => Only (c.method :: others) verbs) verbs :=
  ((passage_spacing r c hnew).upholds_deed (Or.inl fun _ => trivial) hverbs).keeps

/-! ## 4. Who waits is woken -/

/-- Whoever waits waits for the desk to be cancelled as well; if it is, the wait is over, nothing
changes, and the procedure ends with that. -/
def Woken {α : Type} : Trial α → Prop
  | .wait _ goal set next =>
    goal = (·.cancelled) ∧ set = id ∧ next true = .done (.error .cancelled)
  | _ => True

section Throughout

variable {α β : Type} {J : DeskState → Prop} {next : Trial α}

theorem throughout_andThen {x : Trial α} {f : α → Trial β} (hx : x.Throughout J Woken)
    (hf : ∀ a, (f a).Throughout J Woken) : (x.andThen f).Throughout J Woken := by
  induction x with
  | done o =>
    cases o with
    | error e => exact trivial
    | ok a => exact hf a
  | halt cause => exact trivial
  | access set next ih => exact ⟨trivial, fun s hs => ih s (hx.2 s hs)⟩
  | ask q next ih => exact ⟨trivial, fun o => ih o (hx.2 o)⟩
  | wait limit goal set next ih =>
    obtain ⟨⟨hgoal, hset, hnext⟩, hlate, hready⟩ := hx
    refine ⟨⟨hgoal, hset, ?_⟩, ih false hlate, fun s hs hs' => ih true (hready s hs hs')⟩
    dsimp only
    rw [hnext]
    rfl
  | choose ways next ih => exact ⟨trivial, fun i hi => ih i (hx.2 i hi)⟩

theorem throughout_orCancelled (h : next.Throughout J Woken) :
    (orCancelled next).Throughout J Woken := by
  refine ⟨trivial, fun s _ => ?_⟩
  dsimp only
  split
  · refine ⟨trivial, fun i _ => ?_⟩
    dsimp only
    split
    · exact trivial
    · exact h
  · exact h

theorem throughout_pause (nanos : Nat) (h : next.Throughout J Woken) :
    (pause nanos next).Throughout J Woken :=
  ⟨⟨rfl, rfl, rfl⟩, h, fun _ _ _ => trivial⟩

theorem throughout_passGate (h : next.Throughout J Woken) :
    (passGate next).Throughout J Woken := by
  have hfit : ∀ s : DeskState,
      (if s.gate.fits s.now then next else .halt .sum).Throughout J Woken := by
    intro s
    split
    · exact h
    · exact trivial
  refine ⟨trivial, fun s _ => ?_⟩
  dsimp only
  split
  · exact hfit s
  · exact throughout_pause _ (hfit s)

theorem throughout_prepare (r : Rest) (method path payload : String) (access : Access) :
    (r.prepare method path payload access).Throughout J Woken := by
  unfold prepare
  split
  · refine ⟨trivial, fun s _ => ?_⟩
    dsimp only
    split <;> exact trivial
  · exact trivial

theorem throughout_attempt (r : Rest) (method path payload : String) (access : Access) :
    (r.attempt method path payload access).Throughout J Woken := by
  refine throughout_orCancelled (throughout_passGate (throughout_andThen
    (throughout_prepare r method path payload access) fun q => ⟨trivial, fun answer => ?_⟩))
  exact throughout_orCancelled trivial

theorem throughout_attempts (r : Rest) (method path payload : String) (access : Access)
    (left number : Nat) :
    (r.attempts method path payload access left number).Throughout J Woken := by
  induction left generalizing number with
  | zero => exact throughout_attempt ..
  | succ left ih =>
    refine throughout_andThen (throughout_attempt ..) fun answer => ?_
    split
    · exact throughout_pause _ (ih _)
    · exact trivial

/-- **Wherever a call waits**, it is woken where the desk is cancelled. -/
theorem throughout_deed (r : Rest) (c : Call) : (c.deed r).Throughout J Woken := by
  unfold Call.deed execute
  split
  · exact throughout_attempts ..
  · exact trivial

end Throughout
end Rest

/-! ## 5. Orders -/

section Orders

open Rest (keeps_spacing)
open Client (Verdict)

variable {α : Type}

/-- A request about an order waits before it is sent again. -/
theorem keeps_spacing_submit (c : Client) {method : String}
    {others verbs : List String} (path : String) (ps : Parameters) (hnew : method ∉ others)
    (hverbs : Only others verbs) :
    (c.submit method path ps).Keeps spacing (fun _ _ => True) verbs := by
  refine Act.Keeps.andThen
    ((keeps_spacing c.toRest ⟨method, path, ps, .signed⟩ hnew hverbs).mono ?_)
  intro _ o _
  cases o <;> exact trivial

/-- A price may be asked for, and nothing else. -/
theorem keeps_spacing_reference (c : Client) (o : Order)
    (symbol : String) (known : Option Decimal) :
    (c.reference o symbol known).Keeps spacing (fun verbs _ => Only ["GET"] verbs) [] := by
  unfold Client.reference
  split
  · split
    · exact only_nil _
    · refine Act.Keeps.andThen (Act.Keeps.andThen (Act.Keeps.andThen
        ((keeps_spacing c.toRest ⟨"GET", _, _, .open⟩ List.not_mem_nil (only_nil [])).mono ?_)))
      intro verbs answer honly
      cases answer with
      | error e => exact honly
      | ok a =>
        show Act.Keeps _ _ (Act.ofOutcome _) verbs
        cases a.decode c.retry.attempts (Json.decodeUntyped 0) with
        | error e => exact honly
        | ok j =>
          simp only [Act.ofOutcome, Act.Keeps]
          cases Wire.lastPrice (Client.firstItem j) with
          | error m => exact honly
          | ok p => exact honly
  · exact only_nil _

theorem keeps_spacing_placing (d : Desk) (o : Order) :
    (d.placing o).Keeps spacing (fun _ _ => True) [] := by
  refine fun s _ => ⟨trivial, Act.Keeps.andThen ?_⟩
  unfold Client.placeOrder
  cases d.listing.wireSymbol o.instrument with
  | error e => exact trivial
  | ok symbol =>
  rw [Act.ofOutcome_ok_andThen]
  refine Act.Keeps.andThen ((keeps_spacing_reference d.toClient o symbol _).mono ?_)
  intro verbs reference hverbs
  cases reference with
  | error e => exact trivial
  | ok reference =>
  dsimp only
  cases OrderRequest.build d.surface o symbol reference with
  | error e => exact trivial
  | ok request =>
  rw [Act.ofOutcome_ok_andThen]
  refine Act.Keeps.andThen ((keeps_spacing_submit d.toClient _ _ (by decide) hverbs).mono ?_)
  intro _ verdict _
  cases verdict with
  | error e => exact trivial
  | ok verdict =>
  cases verdict with
  | rejected cause => exact fun _ _ => ⟨trivial, trivial⟩
  | accepted body =>
    dsimp only
    cases Client.acknowledged body with
    | error e => exact trivial
    | ok placed => exact fun _ _ => ⟨trivial, fun _ _ => ⟨trivial, trivial⟩⟩

theorem keeps_spacing_canceling (d : Desk) (o : Order) :
    (d.canceling o).Keeps spacing (fun _ _ => True) [] := by
  refine Act.Keeps.andThen ?_
  unfold Client.cancelOrder
  cases d.toClient.cancellation o with
  | error e => exact trivial
  | ok target =>
  rw [Act.ofOutcome_ok_andThen]
  refine Act.Keeps.andThen
    ((keeps_spacing_submit d.toClient _ _ List.not_mem_nil (only_nil [])).mono ?_)
  intro _ verdict _
  cases verdict with
  | error e => exact trivial
  | ok verdict =>
  cases verdict with
  | rejected cause => exact fun _ _ => ⟨trivial, trivial⟩
  | accepted body => exact fun _ _ => ⟨trivial, fun _ _ => ⟨trivial, trivial⟩⟩

/-- To wait for the lock and to give it back is not to ask for anything. -/
theorem keeps_spacing_withOrders {x : Deed α} (h : x.Keeps spacing (fun _ _ => True) []) :
    (Deed.withOrders x).Keeps spacing (fun _ _ => True) [] := by
  refine (Act.keeps_bind _ _).mpr ⟨nofun, fun _ _ _ => ⟨trivial, ?_⟩⟩
  exact (Act.keeps_bind _ _).mpr (h.mono fun _ _ _ => fun _ _ => ⟨trivial, trivial⟩)

/-- **An order waits before a verb is used again**, whether it is placed or cancelled. -/
theorem keeps_spacing_of_leads {J : DeskState → Prop} {d : Desk} {o : Order} {x : Trial Bool}
    (h : (d.place o).Leads J x ∨ (d.cancel o).Leads J x) :
    ∃ verbs, x.Keeps spacing (fun _ _ => True) verbs := by
  rcases h with hplace | hcancel
  · exact (keeps_spacing_withOrders (keeps_spacing_placing d o)).leads (fun _ _ _ => trivial)
      (fun _ _ => trivial) hplace
  · exact (keeps_spacing_withOrders (keeps_spacing_canceling d o)).leads (fun _ _ _ => trivial)
      (fun _ _ => trivial) hcancel

end Orders

/-! ## 6. A desk that is cancelled -/

/-- **A desk that is cancelled falls silent.**

* A call that begins then has two ways to go on, and one of them is its end.
* It comes to one of the ends of `Dismissed`, unless it breaks down; it does not if numbers stay
  within their ranges.
* A call on its way ends at once where it waits, and else asks once more at most.
* So does an order on its way, once with each verb; in particular it is sent once at most. -/
theorem cancelled_desk_falls_silent (r : Rest) :
    (r.retry.fits = true → ∀ (c : Call) (s : DeskState), s.cancelled = true →
      ∃ ways, Act.Move (c.deed r) s .changed (.choose 2 ways) s ∧
        ways 0 = .done (.error .cancelled)) ∧
    (∀ (calm : Bool) (c : Call), (calm = true → r.retry.fits = true) →
      (c.deed r).Upholds (dismissed calm) (Rest.Dismissed r c) .fresh) ∧
    (∀ (c : Call) (x : Trial HttpResponse), (c.deed r).Leads (fun _ => True) x →
      Rest.Woken x ∧ x.Keeps (dismissed false) (fun _ _ => True) .fresh) ∧
    (∀ (d : Desk) (o : Order) (x : Trial Bool),
      (d.place o).Leads (fun _ => True) x ∨ (d.cancel o).Leads (fun _ => True) x →
      x.Keeps (dismissed false) (fun _ _ => True) .fresh) := by
  refine ⟨?_, ?_, ?_, ?_⟩
  · intro hfits c s hs
    exact Rest.moves_deed hfits c hs
  · intro calm c hcalm
    exact Rest.upholds_dismissed hcalm c
  · intro c x hleads
    constructor
    · exact (Rest.throughout_deed r c).leads hleads
    · obtain ⟨verbs, hkeeps⟩ := (Rest.keeps_spacing r c List.not_mem_nil (only_nil [])).leads
        (fun _ _ _ => trivial) (fun _ _ => trivial) hleads
      exact hkeeps.dismissed (Farewell.spaced_fresh verbs)
  · intro d o x hleads
    obtain ⟨verbs, hkeeps⟩ := keeps_spacing_of_leads hleads
    exact hkeeps.dismissed (Farewell.spaced_fresh verbs)

/-- The standard policy fits; and an order to buy something is sent once at most. -/
theorem cancelled_desk_falls_silent_ether :
    etherDesk.retry.fits = true ∧
    (∀ c : Call, (c.deed etherDesk.toRest).Upholds (dismissed true)
      (Rest.Dismissed etherDesk.toRest c) .fresh) ∧
    (etherDesk.place etherOrder).Keeps (dismissed false) (fun _ _ => True) .fresh := by
  obtain ⟨-, hcalls, -, horders⟩ := cancelled_desk_falls_silent etherDesk.toRest
  refine ⟨by decide, fun c => hcalls true c fun _ => by decide, ?_⟩
  exact horders etherDesk etherOrder _ (Or.inl (.refl _))

/-- A desk that was cancelled before it did anything. -/
def darkDesk : DeskState := { DeskState.start ⟨1, 100⟩ 0 with cancelled := true }

/-- **A desk that is cancelled is not silent at once.**  An order that is placed then can be sent;
and where the last pause of the policy is out of range, a call breaks down instead of ending. -/
theorem cancelled_order_sent :
    (∃ q next, (etherDesk.place etherOrder).Leads
      (fun s => s.cancelled = true ∧ s.InRange) (.ask q next) ∧
      q.method = "POST" ∧ q.path = "/api/v3/order") ∧
    (⟨"GET", "/p", [], .open⟩ : Call).deed
      ⟨"binance-spot", none, 2000, .ofMillis 18446744073709551615 (by decide)⟩ =
        .halt .spanProduct := by
  constructor
  · have hdark : darkDesk.cancelled = true ∧ darkDesk.InRange :=
      ⟨rfl, by decide +kernel, by decide +kernel⟩
    have hsome : ((etherDesk.place etherOrder).reaches? darkDesk).map
        (fun q => (q.method, q.path)) = some ("POST", "/api/v3/order") := by decide +kernel
    obtain ⟨q, hreaches, hsame⟩ := Option.map_eq_some_iff.mp hsome
    obtain ⟨next, hleads⟩ := Act.leads_of_reaches?
      (J := fun s => s.cancelled = true ∧ s.InRange) hdark hreaches
    exact ⟨q, next, hleads, congrArg Prod.fst hsame, congrArg Prod.snd hsame⟩
  · unfold Call.deed Rest.execute
    rw [if_neg (by decide +kernel)]

end OrderDesk
