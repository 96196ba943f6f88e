import OrderDesk.Proofs.Orders.Tracking

/-!
# Whose fill it is

An execution is one of an order if it carries the symbol of the order, and the id of the order where
such ids stand: among the ids of stop orders if the order is kept apart, among all others if it is
not (`Client.Executes`).  The desk asks for less.  It looks an id up among all orders that it keeps,
whichever of the two ids of an execution it is, and takes no notice of the symbol (`Fills.Finds`).

So an execution is booked on the right order as long as its ids belong to no other one (`Apart`),
and nothing but the exchange sees to that.  Where an id is given out twice, to orders in different
symbols or to a stop order and another one, the fill of the one is booked on the other.
-/

namespace OrderDesk

/-- An execution is one of an order that was placed under this id. -/
structure Client.Executes (c : Client) (o : Order) (b : String) (e : Execution) : Prop where
  symbol : c.listing.wireSymbol o.instrument = .ok e.symbol
  id : if o.kind.isAlgoOn c.surface then e.algoId? = some b else e.orderId = b

namespace Fills

/-- An execution finds the order that is kept under an id: the id of a stop order goes first. -/
structure Finds (f : Fills) (e : Execution) (b : String) (r : Order) : Prop where
  kept : f.placed.get? b = some r
  named : e.algoId? = some b ∨
    e.orderId = b ∧ ∀ a, e.algoId? = some a → f.placed.get? a = none

variable {f : Fills} {e : Execution} {b : String} {r : Order} {book : String → Option Order}

theorem Finds.names (h : f.Finds e b r) : e.Names b := h.named.imp id And.left

/-- The symbol of an execution plays no part. -/
theorem Finds.of_symbol (h : f.Finds e b r) (symbol : String) : f.Finds { e with symbol } b r :=
  ⟨h.kept, h.named⟩

theorem exists_finds_iff :
    (∃ b, f.Finds e b r) ↔ (e.algoId?.bind f.placed.get?).or (f.placed.get? e.orderId) = some r := by
  constructor
  · rintro ⟨b, hkept, halgo | ⟨rfl, hnone⟩⟩
    · rw [halgo, Option.bind_some, hkept]
      rfl
    · rw [Option.bind_eq_none_iff.mpr hnone, hkept]
      rfl
  · intro h
    rcases Option.or_eq_some_iff.mp h with h | ⟨hnone, h⟩
    · obtain ⟨b, halgo, hkept⟩ := Option.bind_eq_some_iff.mp h
      exact ⟨b, hkept, Or.inl halgo⟩
    · exact ⟨e.orderId, h, Or.inr ⟨rfl, Option.bind_eq_none_iff.mp hnone⟩⟩

theorem Finds.orderOf (h : f.Finds e b r) : f.orderOf book e = some r := by
  rw [Fills.orderOf, exists_finds_iff.mp ⟨b, h⟩]
  rfl

theorem orderOf_of_not_finds (h : ∀ b r, ¬ f.Finds e b r) :
    f.orderOf book e = (e.algoId?.bind book).or (book e.orderId) := by
  have hnone : (e.algoId?.bind f.placed.get?).or (f.placed.get? e.orderId) = none := by
    rw [Option.eq_none_iff_forall_ne_some]
    intro r hr
    obtain ⟨b, hfinds⟩ := exists_finds_iff.mpr hr
    exact h b r hfinds
  simp only [Fills.orderOf, hnone, Option.none_or]

/-- The event for the host is that of the order which was found. -/
theorem reconcile_fst {direction : Direction} (hside : Direction.ofWire? e.side = some direction) :
    (f.reconcile book e).1 = (f.orderOf book e).map fun r => eventOf r direction e := by
  unfold reconcile
  cases f.orderOf book e with
  | none => rfl
  | some r => simp only [hside, Option.map_some]

end Fills

namespace Orders

/-! ## 1. What is kept was placed -/

/-- **Every order that is kept was placed**, under the id that it is kept under. -/
theorem Kept.placed {ds : List Deal} {f : Fills} (h : Kept ds f) {b : String} {r : Order}
    (hget : f.placed.get? b = some r) :
    ∃ d ∈ ds, ∃ o, d.Places b o ∧ r = { o with brokerIds := [b] } := by
  induction h with
  | start => cases hget
  | @deal ds f f' d hkept hdoes ih =>
    have hbefore : f.placed.get? b = some r →
        ∃ x ∈ ds ++ [d], ∃ o, x.Places b o ∧ r = { o with brokerIds := [b] } := by
      intro hget
      obtain ⟨x, hx, hplaced⟩ := ih hget
      exact ⟨x, List.mem_append_left _ hx, hplaced⟩
    have hforgotten : ∀ ids, (f.forget ids).placed.get? b = some r →
        f.placed.get? b = some r := by
      intro ids hget
      have hget : (ids.foldl Table.erase f.placed).get? b = some r := hget
      rw [Table.get?_foldl_erase] at hget
      split at hget
      · cases hget
      · exact hget
    cases hcall : d.call with
    | place o =>
      rcases after_place hcall hdoes with ⟨-, rfl⟩ | ⟨b', hplaces, -, rfl⟩
      · exact hbefore hget
      · have hget : (f.placed.put b' { o with brokerIds := [b'] }).get? b = some r := hget
        rw [Table.get?_put] at hget
        split at hget
        · rename_i heq
          subst heq
          cases hget
          exact ⟨d, List.mem_append_right _ List.mem_cons_self, o, hplaces, rfl⟩
        · exact hbefore hget
    | cancel o =>
      rcases after_cancel hcall hdoes with ⟨-, rfl⟩ | ⟨-, rfl⟩
      · exact hbefore hget
      · exact hbefore (hforgotten _ hget)
    | fill e =>
      obtain ⟨host, event, -, hreconcile, -, -⟩ := after_fill hcall hdoes
      have hfills : f' = f ∨ ∃ ids, f' = f.forget ids := by
        rw [show f' = (f.reconcile host.orderOf e).2 by rw [hreconcile]]
        unfold Fills.reconcile
        split
        · exact Or.inl rfl
        · split
          · exact Or.inl rfl
          · dsimp only
            split
            · exact Or.inr ⟨_, rfl⟩
            · exact Or.inl rfl
      rcases hfills with rfl | ⟨ids, rfl⟩
      · exact hbefore hget
      · exact hbefore (hforgotten _ hget)

/-! ## 2. Whose fill it is -/

/-- No id of an execution belongs to an order that was placed, unless the execution is one of
it. -/
def Apart (c : Client) (deals : List Deal) (e : Execution) : Prop :=
  ∀ d ∈ deals, ∀ b o, d.Places b o → e.Names b → c.Executes o b e

/-- **A fill is booked by its id alone**, in every run of a desk and whatever the book of the host
says.

* An execution that finds an order which is kept is booked on it, and would be under any other
  symbol.  The order was placed under that id; it is the right one if the ids of the execution
  belong to no other.
* An execution that finds none is matched with the book of the host.
* An execution of no order that was placed finds none, if its ids belong to none. -/
theorem fills_booked_by_id {desk : Desk} {c : Crew} (h : Crew.Reached desk c)
    (hfree : c.state.orderLock = none) (book : String → Option Order) (e : Execution)
    {direction : Direction} (hside : Direction.ofWire? e.side = some direction) :
    (∀ b r, c.state.fills.Finds e b r →
      ∃ d ∈ c.deals, ∃ o, d.Places b o ∧ r = { o with brokerIds := [b] } ∧ e.Names b ∧
        (∀ symbol, (c.state.fills.reconcile book { e with symbol }).1 =
          some (Fills.eventOf o direction e)) ∧
        (Apart desk.toClient c.deals e → desk.Executes o b e)) ∧
    ((∀ b r, ¬ c.state.fills.Finds e b r) → (c.state.fills.reconcile book e).1 =
      ((e.algoId?.bind book).or (book e.orderId)).map fun o => Fills.eventOf o direction e) ∧
    ((∀ d ∈ c.deals, ∀ b o, d.Places b o → ¬ desk.Executes o b e) →
      Apart desk.toClient c.deals e → ∀ b r, ¬ c.state.fills.Finds e b r) := by
  obtain ⟨f, hordered⟩ := h.ordered
  have hplaced : ∀ {b r}, c.state.fills.Finds e b r →
      ∃ d ∈ c.deals, ∃ o, d.Places b o ∧ r = { o with brokerIds := [b] } := by
    intro b r hfinds
    have hkept := hordered.kept
    rw [← hordered.free hfree] at hkept
    exact hkept.placed hfinds.kept
  refine ⟨?_, ?_, ?_⟩
  · intro b r hfinds
    obtain ⟨d, hd, o, hplaces, rfl⟩ := hplaced hfinds
    refine ⟨d, hd, o, hplaces, rfl, hfinds.names, fun symbol => ?_, fun hapart => ?_⟩
    · rw [Fills.reconcile_fst (e := { e with symbol }) hside, (hfinds.of_symbol symbol).orderOf]
      rfl
    · exact hapart d hd b o hplaces hfinds.names
  · intro hnone
    rw [Fills.reconcile_fst hside, Fills.orderOf_of_not_finds hnone]
  · intro hforeign hapart b r hfinds
    obtain ⟨d, hd, o, hplaces, -⟩ := hplaced hfinds
    exact hforeign d hd b o hplaces (hapart d hd b o hplaces hfinds.names)

/-! ## 3. An id that is given out twice -/

/-- The order is placed, and nobody else takes a step. -/
def etherPlacing : Option (Report × List (HttpRequest × Outcome HttpResponse) × DeskState) :=
  Crew.alone etherAnswer 0 ((OrderCall.place etherOrder).deed etherDesk) (.start ⟨1, 100⟩ 0)

theorem etherPlacing_eq : (etherPlacing.map fun r =>
    ((match r.1 with
      | .placed (.ok true) => true
      | _ => false), r.2.2.orderLock, r.2.2.fills.placed)) =
    some (true, none, (Fills.empty.track "42" etherOrder).placed) := by decide +kernel

/-- A run in which the order was placed and is kept. -/
theorem exists_etherPlaced :
    ∃ c, Crew.Reached etherDesk c ∧ c.state.orderLock = none ∧
      c.state.fills.placed.get? "42" = some { etherOrder with brokerIds := ["42"] } ∧
      ∃ d, c.deals = [d] ∧ d.Places "42" etherOrder := by
  obtain ⟨r, hrun, hfacts⟩ := Option.map_eq_some_iff.mp etherPlacing_eq
  obtain ⟨-, hlock, hfills⟩ :
      (match r.1 with
        | .placed (.ok true) => true
        | _ => false) = true ∧ r.2.2.orderLock = none ∧
        r.2.2.fills.placed = (Fills.empty.track "42" etherOrder).placed := by
    simpa only [Prod.mk.injEq] using hfacts
  obtain ⟨c, told, hreached, hstate, -, hdeals⟩ :=
    (Crew.reached_start etherDesk ⟨1, 100⟩ 0).call _ hrun
  have hget : c.state.fills.placed.get? "42" = some { etherOrder with brokerIds := ["42"] } := by
    rw [hstate, hfills]
    rfl
  have hfree : c.state.orderLock = none := by
    rw [hstate]
    exact hlock
  obtain ⟨f, hordered⟩ := hreached.ordered
  have hkept := hordered.kept
  rw [← hordered.free hfree] at hkept
  obtain ⟨d, hd, o, hplaces, hsame⟩ := hkept.placed hget
  have hdeals : c.deals = [_] := hdeals
  rw [hdeals] at hd
  obtain rfl := List.mem_singleton.mp hd
  obtain rfl : etherOrder = o := OrderCall.place.inj hplaces.call
  exact ⟨c, hreached, hfree, hget, _, hdeals, hplaces⟩

theorem fills_booked_by_id_ether :
    ∃ c, Crew.Reached etherDesk c ∧ c.state.orderLock = none ∧
      Direction.ofWire? etherFill.side = some .buy ∧ Apart etherDesk.toClient c.deals etherFill ∧
      (c.state.fills.reconcile (fun _ => none) etherFill).1 =
        some (Fills.eventOf etherOrder .buy etherFill) ∧
      etherDesk.Executes etherOrder "42" etherFill := by
  obtain ⟨c, hreached, hfree, hget, d, hdeals, hplaces⟩ := exists_etherPlaced
  have hexecutes : etherDesk.Executes etherOrder "42" etherFill := ⟨rfl, rfl⟩
  have hapart : Apart etherDesk.toClient c.deals etherFill := by
    intro d' hd' b o hplaces' _
    rw [hdeals] at hd'
    obtain rfl := List.mem_singleton.mp hd'
    obtain ⟨rfl, rfl⟩ := hplaces.unique hplaces'
    exact hexecutes
  have hside : Direction.ofWire? etherFill.side = some .buy := by decide
  obtain ⟨d', hd', o, hplaces', -, -, hbooked, -⟩ :=
    (fills_booked_by_id hreached hfree (fun _ => none) etherFill hside).1 "42" _
      ⟨hget, Or.inr ⟨rfl, nofun⟩⟩
  rw [hdeals] at hd'
  obtain rfl := List.mem_singleton.mp hd'
  obtain ⟨-, rfl⟩ := hplaces.unique hplaces'
  exact ⟨c, hreached, hfree, hside, hapart, hbooked etherFill.symbol, hexecutes⟩

/-- An order in another symbol was filled, and the exchange gave the same id to it. -/
def bitcoinFill : Execution :=
  ⟨"42", none, "BTCUSDT", "TRADE", "FILLED", 1000, (Decimal.ofInt? 60000).getD .zero,
    (Decimal.ofInt? 1).getD .zero, "SELL", .zero, none⟩

/-- The fill of an order that was not placed here is booked on one that was. -/
theorem fill_booked_on_wrong_order :
    ∃ c, Crew.Reached etherDesk c ∧ c.state.orderLock = none ∧
      (∃ d, c.deals = [d] ∧ d.Places "42" etherOrder) ∧
      etherDesk.listing.wireSymbol etherOrder.instrument ≠ .ok bitcoinFill.symbol ∧
      ∃ event, (c.state.fills.reconcile (fun _ => none) bitcoinFill).1 = some event ∧
        event.orderId = etherOrder.id := by
  obtain ⟨c, hreached, hfree, hget, d, hdeals, hplaces⟩ := exists_etherPlaced
  have hfinds : c.state.fills.Finds bitcoinFill "42" { etherOrder with brokerIds := ["42"] } :=
    ⟨hget, Or.inr ⟨rfl, nofun⟩⟩
  refine ⟨c, hreached, hfree, ⟨d, hdeals, hplaces⟩, ?_,
    Fills.eventOf etherOrder .sell bitcoinFill, ?_, rfl⟩
  · intro heq
    have hsymbol : etherDesk.listing.wireSymbol etherOrder.instrument = .ok "ETHUSDT" := rfl
    exact absurd (Except.ok.inj (hsymbol.symm.trans heq)) (by decide)
  · have hside : Direction.ofWire? bitcoinFill.side = some .sell := by decide
    rw [Fills.reconcile_fst hside, hfinds.orderOf]
    rfl

end Orders
end OrderDesk
