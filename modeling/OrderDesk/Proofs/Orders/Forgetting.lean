import OrderDesk.Proofs.Orders.AllOrNothing
import OrderDesk.Proofs.Orders.Attribution
import OrderDesk.Proofs.Orders.Cancelling

/-!
# What a cancellation forgets

The exchange may have given several ids to an order of the host, one for each time that the order was
sent.  A call to cancel it asks for one of them, the first; once the exchange agrees, the desk
forgets all of them.

What is forgotten is therefore what the exchange agreed to just if no other id of the order was kept
(`Forgotten.exact_iff`).  Where another one was, the order is still live under it, and its fills will
find nothing (`sibling_forgotten`).

That no request asks for another id is a matter of texts: which id a request is about can be read off
it, since the parameters of the caller can (`Cancels.unique`).  That all requests of a call are of
the one kind is known of the call as such, and is carried over to a member with the lock
(`ensures_asked`).
-/

namespace OrderDesk.Orders

/-! ## 1. Requests to cancel -/

section Cancels

variable {c : Client} {o : Order} {id id' : String} {q : HttpRequest}

/-- A request to cancel an order under this id. -/
def Cancels (c : Client) (o : Order) (id : String) (q : HttpRequest) : Prop :=
  ∃ target stamp, c.cancellation { o with brokerIds := [id] } = .ok target ∧
    c.toRest.Sends ⟨"DELETE", target.1, target.2, .signed⟩ stamp q

/-- The exchange agreed to cancel an order under this id. -/
def Acknowledged (c : Client) (o : Order) (asked : List (HttpRequest × Outcome HttpResponse))
    (id : String) : Prop :=
  ∃ q a, (q, .ok a) ∈ asked ∧ Cancels c o id q ∧ a.isSuccess = true

/-- Only the first id of an order counts. -/
theorem cancellation_of_head (h : o.brokerIds.head? = some id) :
    c.cancellation { o with brokerIds := [id] } = c.cancellation o := by
  unfold Client.cancellation
  cases hids : o.brokerIds with
  | nil =>
    rw [hids] at h
    cases h
  | cons first rest =>
    rw [hids] at h
    cases h
    rfl

/-- Where an order can be cancelled at all, its id is the last of the parameters. -/
theorem exists_of_cancellation {target : String × Parameters}
    (h : c.cancellation { o with brokerIds := [id] } = .ok target) :
    ∃ path ps name, ∀ id,
      c.cancellation { o with brokerIds := [id] } = .ok (path, ps ++ [(name, id)]) := by
  cases hapart : o.kind.isAlgoOn c.surface with
  | true =>
    obtain ⟨hpath, hstop⟩ := Bool.and_eq_true_iff.mp hapart
    obtain ⟨path, hpath⟩ := Option.isSome_iff_exists.mp hpath
    obtain ⟨stop, hstop⟩ := Option.isSome_iff_exists.mp hstop
    exact ⟨path, [], "algoId", fun id => by simp only [Client.cancellation, hpath, hstop]; rfl⟩
  | false =>
    have hregular : ∀ id, c.cancellation { o with brokerIds := [id] } =
        (c.listing.wireSymbol o.instrument).map fun symbol =>
          (c.surface.orderPath, [("symbol", symbol)] ++ [("orderId", id)]) := by
      intro id
      unfold OrderKind.isAlgoOn at hapart
      unfold Client.cancellation
      cases hpath : c.surface.algoOrderPath? with
      | none => rfl
      | some path =>
        cases hstop : o.kind.stop? with
        | none => rfl
        | some stop => simp [hpath, hstop] at hapart
    cases hsymbol : c.listing.wireSymbol o.instrument with
    | error e =>
      rw [hregular, hsymbol] at h
      cases h
    | ok symbol =>
      rw [hsymbol] at hregular
      exact ⟨_, _, _, hregular⟩

/-- The value of the last parameter can be read off, whatever is in it. -/
theorem value_eq_of_canonicalQuery_eq {ps : Parameters} {name value value' : String}
    (h : canonicalQuery (ps ++ [(name, value)]) = canonicalQuery (ps ++ [(name, value')])) :
    value = value' := by
  rw [← joined_canonicalQuery, ← joined_canonicalQuery, Signer.joined, Signer.joined] at h
  have hlist := congrArg String.toList h
  split at hlist
  · simp only [String.toList_append, List.append_assoc, List.append_cancel_left_eq] at hlist
    exact String.toList_inj.mp hlist
  · simp only [String.toList_append, List.append_assoc, List.append_cancel_left_eq] at hlist
    exact String.toList_inj.mp hlist

/-- **Which id a request is about can be read off it.** -/
theorem Cancels.unique (h : Cancels c o id q) (h' : Cancels c o id' q) : id = id' := by
  obtain ⟨target, stamp, htarget, hsends⟩ := h
  obtain ⟨target', stamp', htarget', hsends'⟩ := h'
  obtain ⟨path, ps, name, hcancellation⟩ := exists_of_cancellation htarget
  cases htarget.symm.trans (hcancellation id)
  cases htarget'.symm.trans (hcancellation id')
  have hcontent := hsends.content
  have hcontent' := hsends'.content
  cases hsigner : c.signer with
  | none =>
    rw [hsigner] at hcontent
    exact hcontent.elim
  | some s =>
    rw [hsigner] at hcontent hcontent'
    have hmethod : q.method ≠ "POST" := by
      rw [hsends.method]
      exact (by decide : "DELETE" ≠ "POST")
    have hsame : canonicalQuery (ps ++ [(name, id)]) = canonicalQuery (ps ++ [(name, id')]) :=
      hcontent.2.canonicalQuery_eq hmethod (by simp) (by simp) hcontent'.2
    exact value_eq_of_canonicalQuery_eq hsame

end Cancels

/-! ## 2. What a call asks -/

section Asked

variable {α κ : Type} {mayCancel : Bool} {f : Fills} {k : Section} {P : HttpRequest → Prop}

/-- **A member with the lock asks for nothing but what its procedure may send.**  The induction is
on the procedure, which is followed under both watches at once. -/
theorem ensures_asked {W : Watch DeskState κ} {post : Section → α → Prop} {final : κ → α → Prop}
    (hmeets : ∀ k s, W.meets k s) (hanswers : ∀ q o, W.answers q o)
    (hsends : ∀ k q, W.sends k q → P q) {x : Deed α} {k' : κ}
    (hx : x.Ensures (whole mayCancel f) post k) (hwatch : x.Upholds W final k')
    (hk : ∀ y ∈ k.asked, P y.1) :
    x.Ensures (whole mayCancel f) (fun k a => post k a ∧ ∀ y ∈ k.asked, P y.1) k := by
  induction x generalizing k k' with
  | done a => exact ⟨hx, hk⟩
  | halt cause => exact hx
  | access set next ih =>
    intro s hs
    obtain ⟨hallows, hnext⟩ := hx s hs
    exact ⟨hallows, ih s hnext (hwatch s (hmeets _ s)).2 hk⟩
  | ask q next ih =>
    intro o ho
    refine ih o (hx o ho) (hwatch.2 o (hanswers q o)) ?_
    refine List.forall_mem_append.mpr ⟨hk, fun y hy => ?_⟩
    obtain rfl := List.mem_singleton.mp hy
    exact hsends k' q hwatch.1
  | wait limit goal set next ih =>
    obtain ⟨hlimit, hlate, hready⟩ := hx
    obtain ⟨⟨nanos, -, hlate'⟩, hready'⟩ := hwatch
    refine ⟨hlimit, ih false hlate hlate' hk, fun s hs hgoal => ?_⟩
    obtain ⟨hallows, hnext⟩ := hready s hs hgoal
    exact ⟨hallows, ih true hnext (hready' s (hmeets _ s) hgoal).2 hk⟩
  | choose ways next ih => exact fun i hi => ih i (hx i hi) (hwatch.2 i hi) hk

/-- A call to cancel an order sends what it decided on, and nothing after that. -/
theorem upholds_canceling (d : Desk) {o : Order} {target : String × Parameters}
    (h : d.toClient.CancelsBy o target) (k : Rest.Encounters) :
    (d.canceling o).Upholds
      (Rest.sending d.toRest ⟨"DELETE", target.1, target.2, .signed⟩) (fun _ _ => True) k := by
  refine Act.Upholds.andThen ((h.2 k).mono ?_)
  intro k result _
  cases result with
  | error e => trivial
  | ok agreed =>
    cases agreed with
    | false => trivial
    | true => exact fun _ _ => ⟨trivial, trivial⟩

end Asked

/-! ## 3. What is forgotten -/

/-- An order is kept under this id. -/
def Tracks (f : Fills) (id : String) : Prop := ∃ o, f.placed.get? id = some o

/-- An id was kept before and is not any more. -/
def Removed (f f' : Fills) (id : String) : Prop := Tracks f id ∧ ¬ Tracks f' id

/-- What a call to cancel an order forgot, and what the exchange agreed to.

* `removed`, `others`: all ids of the order are forgotten, and nothing else is touched;
* `asked`: every request was about the first id;
* `acknowledged`: the exchange agreed to that, and to nothing else. -/
structure Forgotten (c : Client) (o : Order) (f : Fills) (k : Section) : Prop where
  removed : ∀ id, Removed f k.fills id ↔ id ∈ o.brokerIds ∧ Tracks f id
  others : ∀ id, id ∉ o.brokerIds → k.fills.placed.get? id = f.placed.get? id
  asked : ∀ y ∈ k.asked, ∃ id, o.brokerIds.head? = some id ∧ Cancels c o id y.1
  acknowledged : ∀ id, Acknowledged c o k.asked id ↔ o.brokerIds.head? = some id

/-- What is forgotten are those ids of the order that the exchange agreed to cancel. -/
def Exact (c : Client) (o : Order) (f : Fills) (k : Section) : Prop :=
  ∀ id, Removed f k.fills id ↔ id ∈ o.brokerIds ∧ Tracks f id ∧ Acknowledged c o k.asked id

/-- No id of the order but the first is kept. -/
def FirstOnly (o : Order) (f : Fills) : Prop :=
  ∀ id ∈ o.brokerIds, Tracks f id → o.brokerIds.head? = some id

/-- To forget ids is to take them out, whatever they are. -/
theorem get?_forget (f : Fills) (ids : List String) (id : String) :
    (f.forget ids).placed.get? id = if id ∈ ids then none else f.placed.get? id :=
  Table.get?_foldl_erase ..

theorem removed_forget (f : Fills) (ids : List String) (id : String) :
    Removed f (f.forget ids) id ↔ id ∈ ids ∧ Tracks f id := by
  unfold Removed Tracks
  rw [get?_forget]
  split
  · rename_i hmem
    simp [hmem]
  · rename_i hmem
    exact iff_of_false (fun h => h.2 h.1) fun h => hmem h.1

namespace Forgotten

variable {c : Client} {o : Order} {f : Fills} {k : Section}

/-- **What is forgotten is what the exchange agreed to just if no other id of the order was
kept.** -/
theorem exact_iff (h : Forgotten c o f k) : Exact c o f k ↔ FirstOnly o f := by
  simp only [Exact, h.removed, h.acknowledged]
  constructor
  · intro hexact id hid htracks
    exact ((hexact id).mp ⟨hid, htracks⟩).2.2
  · intro hfirst id
    exact ⟨fun ⟨hid, htracks⟩ => ⟨hid, htracks, hfirst id hid htracks⟩,
      fun ⟨hid, htracks, _⟩ => ⟨hid, htracks⟩⟩

/-- An order that was cancelled, and for which nothing but its first id was asked. -/
theorem of_agreed {a : HttpResponse} {id : String} (hid : o.brokerIds.head? = some id)
    (hasked : ∀ y ∈ k.asked, Cancels c o id y.1)
    (hlast : lastAnswer "DELETE" k.asked = some (.ok a)) (hsuccess : a.isSuccess = true)
    (hfills : k.fills = f.forget o.brokerIds) : Forgotten c o f k where
  removed id := by
    rw [hfills]
    exact removed_forget f o.brokerIds id
  others id hnot := by
    rw [hfills, get?_forget, if_neg hnot]
  asked y hy := ⟨id, hid, hasked y hy⟩
  acknowledged id' := by
    constructor
    · rintro ⟨q, a', hmem, hcancels, -⟩
      rw [hid, hcancels.unique (hasked _ hmem)]
    · intro hid'
      obtain rfl := Option.some.inj (hid.symm.trans hid')
      obtain ⟨q, hmem⟩ := exists_of_lastAnswer hlast
      exact ⟨q, a, hmem, hasked _ hmem, hsuccess⟩

end Forgotten

/-- Under the lock, a call to cancel an order forgets what it may. -/
theorem ensures_forgotten (d : Desk) (o : Order) (mayCancel : Bool) (f : Fills) :
    (d.canceling o).Ensures (whole mayCancel f)
      (fun k result => result = .ok true → Forgotten d.toClient o f k) ⟨[], [], f⟩ := by
  cases hcancellation : d.toClient.cancellation o with
  | error e =>
    have hfails : d.canceling o = .done (.error e) := by
      rw [Desk.canceling, Client.cancelOrder, hcancellation]
      rfl
    rw [hfails]
    exact nofun
  | ok target =>
    obtain ⟨id, hid⟩ : ∃ id, o.brokerIds.head? = some id := by
      cases hids : o.brokerIds with
      | nil => simp [Client.cancellation, hids] at hcancellation
      | cons id rest => exact ⟨id, rfl⟩
    have htarget := (cancellation_of_head hid).trans hcancellation
    refine (ensures_asked (P := Cancels d.toClient o id) (fun _ _ => trivial) (fun _ _ => trivial)
      (fun k q hq => ⟨target, k.last, htarget, hq⟩) (ensures_canceling d o f)
      (upholds_canceling d (.of_cancellation hcancellation) ⟨0, false, false⟩)
      (List.forall_mem_nil _)).mono ?_
    rintro k result ⟨hcanceled, hasked⟩ hyes
    obtain ⟨a, hlast, hsuccess, -, hfills⟩ := hcanceled.yes hyes
    exact .of_agreed hid hasked hlast hsuccess hfills

/-! ## 4. The call of the host -/

/-- **A cancellation forgets all ids of its order, though the exchange agreed to the first only**,
for every order, whatever its ids are and whichever of them are kept, and whatever others do
meanwhile: under the lock, where the call comes to its end, and from the host's call on.  What is
forgotten is what the exchange agreed to just if no other id of the order was kept. -/
theorem cancellation_forgets (d : Desk) (o : Order) (mayCancel : Bool) :
    (∀ f, (d.canceling o).Ensures (whole mayCancel f) (fun k result => result = .ok true →
      Forgotten d.toClient o f k ∧ (Exact d.toClient o f k ↔ FirstOnly o f)) ⟨[], [], f⟩) ∧
    (d.cancel o).Keeps (visiting mayCancel) (fun v result => v.Left fun f k => result = .ok true →
      Forgotten d.toClient o f k ∧ (Exact d.toClient o f k ↔ FirstOnly o f)) .outside := by
  have hall : ∀ f, (d.canceling o).Ensures (whole mayCancel f) (fun k result =>
      result = .ok true → Forgotten d.toClient o f k ∧
        (Exact d.toClient o f k ↔ FirstOnly o f)) ⟨[], [], f⟩ := by
    intro f
    refine (ensures_forgotten d o mayCancel f).mono fun k result h hyes => ?_
    have hforgotten := h hyes
    exact ⟨hforgotten, hforgotten.exact_iff⟩
  exact ⟨hall, keeps_withOrders hall⟩

/-! ## 5. An id that nobody asked to cancel -/

/-- The exchange accepts an order under another id. -/
def siblingAnswer (_ : HttpRequest) : Outcome HttpResponse :=
  .ok ⟨200, "\x7b\"orderId\":43,\"symbol\":\"ETHUSDT\",\"origQty\":\"2\",\"status\":\"NEW\"," ++
    "\"type\":\"MARKET\",\"side\":\"BUY\"\x7d"⟩

/-- The order with both of its ids. -/
def siblingOrder : Order := { etherOrder with brokerIds := ["42", "43"] }

/-- The order was placed, is placed once more, and is cancelled then; nobody else takes a step.  What
the second call and the third left. -/
def siblingRun : Option ((Report × List (HttpRequest × Outcome HttpResponse) × DeskState) ×
    (Report × List (HttpRequest × Outcome HttpResponse) × DeskState)) :=
  etherPlacing.bind fun r₁ =>
    (Crew.alone siblingAnswer 1 ((OrderCall.place etherOrder).deed etherDesk) r₁.2.2).bind fun r₂ =>
      (Crew.alone etherAnswer 2 ((OrderCall.cancel siblingOrder).deed etherDesk) r₂.2.2).map
        fun r₃ => (r₂, r₃)

/-- The call that cancels the first of the two. -/
def siblingCall : Rest.Call :=
  ⟨"DELETE", "/api/v3/order", [("symbol", "ETHUSDT"), ("orderId", "42")], .signed⟩

theorem siblingRun_eq : (siblingRun.map fun (r₂, r₃) =>
    (r₂.2.2.fills.placed.keys, (match r₃.1 with
      | .canceled (.ok true) => true
      | _ => false), r₃.2.1.map fun x => some x.1, r₃.2.2.fills.placed.keys)) =
    some (["42", "43"], true, [(siblingCall.prepared etherDesk.toRest 3).toOption], []) := by
  decide +kernel

/-- An id is forgotten that no request was about. -/
theorem sibling_forgotten :
    ∃ c c', Crew.Reached etherDesk c ∧ Tracks c.state.fills "43" ∧ Crew.Reached etherDesk c' ∧
      (∃ d, c'.deals = c.deals ++ [d] ∧ d.call = .cancel siblingOrder ∧
        d.report = .canceled (.ok true) ∧
        ∀ y ∈ d.asked, ¬ Cancels etherDesk.toClient siblingOrder "43" y.1) ∧
      ¬ Tracks c'.state.fills "43" := by
  obtain ⟨⟨r₂, r₃⟩, hrun, hfacts⟩ := Option.map_eq_some_iff.mp siblingRun_eq
  obtain ⟨r₁, hrun₁, hrest⟩ := Option.bind_eq_some_iff.mp hrun
  obtain ⟨r₂', hplace, hlast⟩ := Option.bind_eq_some_iff.mp hrest
  obtain ⟨r₃', hcancel, hpair⟩ := Option.map_eq_some_iff.mp hlast
  cases hpair
  obtain ⟨hkept, hreport, hasked, hforgotten⟩ :
      r₂.2.2.fills.placed.keys = ["42", "43"] ∧
        (match r₃.1 with
          | .canceled (.ok true) => true
          | _ => false) = true ∧
        r₃.2.1.map (fun x => some x.1) = [(siblingCall.prepared etherDesk.toRest 3).toOption] ∧
        r₃.2.2.fills.placed.keys = [] := by
    simpa only [Prod.mk.injEq] using hfacts
  -- the three calls, one after another
  obtain ⟨c₁, -, hreached₁, hstate₁, hlength₁, -⟩ :=
    (Crew.reached_start etherDesk ⟨1, 100⟩ 0).call _ hrun₁
  have hplace : Crew.alone siblingAnswer c₁.members.length
      ((OrderCall.place etherOrder).deed etherDesk) c₁.state = some r₂ := by
    rw [hlength₁, hstate₁]
    exact hplace
  obtain ⟨c₂, -, hreached₂, hstate₂, hlength₂, -⟩ := hreached₁.call _ hplace
  have hcancel : Crew.alone etherAnswer c₂.members.length
      ((OrderCall.cancel siblingOrder).deed etherDesk) c₂.state = some r₃ := by
    rw [hlength₂, hlength₁, hstate₂]
    exact hcancel
  obtain ⟨c₃, told, hreached₃, hstate₃, -, hdeals⟩ := hreached₂.call _ hcancel
  refine ⟨c₂, c₃, hreached₂, ?_, hreached₃, ⟨_, hdeals, rfl, ?_, ?_⟩, ?_⟩
  · rw [hstate₂, Tracks, ← Table.mem_keys_iff, hkept]
    decide
  · split at hreport
    · assumption
    · cases hreport
  · rintro ⟨q, answer⟩ hmem hsibling
    have hq : siblingCall.prepared etherDesk.toRest 3 = .ok q := by
      have hprepared : some q ∈ r₃.2.1.map fun x => some x.1 := List.mem_map.mpr ⟨_, hmem, rfl⟩
      rw [hasked, List.mem_singleton] at hprepared
      cases hcall : siblingCall.prepared etherDesk.toRest 3 with
      | error e =>
        rw [hcall] at hprepared
        cases hprepared
      | ok q' =>
        rw [hcall] at hprepared
        cases hprepared
        rfl
    have hfirst : Cancels etherDesk.toClient siblingOrder "42" q :=
      ⟨(siblingCall.path, siblingCall.parameters), 3, rfl, Rest.sends_of_prepared hq⟩
    exact absurd (hsibling.unique hfirst) (by decide)
  · rw [hstate₃, Tracks, ← Table.mem_keys_iff, hforgotten]
    decide

end OrderDesk.Orders
