import Mathlib.Algebra.BigOperators.Group.List.Basic
import OrderDesk.Proofs.Feed.Owners
import OrderDesk.Proofs.Pool.Weights

/-!
# What symbols were charged

A symbol is charged its weight when it is put on a carrier, and the carrier gets lighter by what the
symbol weighs when it is taken off.  The two are looked up in the same table, which may have been
replaced in between.  A `Tally` keeps account of both along a run, and of whether the weight of a
symbol was ever changed while it stood on a carrier (`reweighed`).

As long as that did not happen, a carrier weighs what its symbols were charged, and an idle one
nothing.  In any run a carrier is no lighter than that if no symbol was taken off for more than it
was charged, and no heavier if none was taken off for less (`weights_follow_charges`).  Otherwise
the difference stays on the carrier for good (`idle_carrier_weighs`), and counts against it wherever
the lightest one is looked for.

Nothing bounds the sum of the charges: a subscription breaks down where it leaves the range of a
weight.
-/

namespace OrderDesk.Feed

/-! ## 1. The ledger of a run -/

/-- What a symbol was charged when it was put on a carrier, and what was taken off for it. -/
structure Release where
  charged : Nat
  taken : Nat
deriving DecidableEq, Repr

/-- What every symbol was charged last, what became of it where symbols were taken off, and whether
a symbol that stood on a carrier was given another weight. -/
structure Tally where
  charge : String → Nat
  releases : List Release
  reweighed : Bool

/-- Whether a call changes the weight of a symbol that stands on a carrier. -/
def PoolCall.reweighs (p : Pool) : PoolCall → Bool
  | setWeights ws => p.placement.keys.any fun x => (p.setWeights ws).weightOf x != p.weightOf x
  | subscribe _ | unsubscribe _ => false

namespace Tally

/-- Nothing was charged yet. -/
def blank : Tally := ⟨fun _ => 0, [], false⟩

/-- A symbol is charged this weight. -/
def bill (b : Tally) (symbol : String) (weight : Nat) : Tally :=
  { b with charge := Function.update b.charge symbol weight }

/-- A symbol is taken off for this weight. -/
def refund (b : Tally) (symbol : String) (weight : Nat) : Tally :=
  { b with releases := b.releases ++ [⟨b.charge symbol, weight⟩] }

/-- The ledger after the pool `p` gave an order. -/
def enter (p : Pool) (b : Tally) (o : String × PoolOrder) : Tally :=
  match o.2.verb with
  | .subscribe => b.bill o.1 (p.weightOf o.1)
  | .unsubscribe => b.refund o.1 (p.weightOf o.1)

/-- The ledger after a call that made the pool `p` give these orders. -/
def after (p : Pool) (b : Tally) (os : List (String × PoolOrder)) (reweighs : Bool) : Tally :=
  let entered := os.foldl (enter p) b
  { entered with reweighed := reweighs || b.reweighed }

@[simp] theorem bill_charge_self (b : Tally) (x : String) (weight : Nat) :
    (b.bill x weight).charge x = weight :=
  Function.update_self ..

theorem bill_charge_of_ne {b : Tally} {x y : String} {weight : Nat} (h : y ≠ x) :
    (b.bill x weight).charge y = b.charge y :=
  Function.update_of_ne h ..

/-- What the symbols on a carrier were charged. -/
def total (b : Tally) (p : Pool) (index : Nat) : Nat := ((p.carriedBy index).map b.charge).sum

end Tally

/-- The ledgers of the runs of a new pool. -/
inductive Billed (l : Listing) (limits : PoolLimits) : Record → Tally → Prop
  | start {s : DeskState} : s.pool = .empty limits → s.carriers = [] → s.connections = [] →
      Billed l limits (.start s) .blank
  | call {r : Record} {b : Tally} {k : PoolCall} {answer : Outcome Bool} {s : DeskState} :
      Billed l limits r b → (k.deed l).Ends r.state answer s →
        Billed l limits (r.afterCall k answer (k.orders l r.state.pool) s)
          (b.after r.state.pool (k.orders l r.state.pool) (k.reweighs r.state.pool))
  | reaction {r : Record} {b : Tally} {w : Surroundings} (index : Nat) (i : ConnectionInput) :
      Billed l limits r b → w.listing = l → Billed l limits (r.afterReaction w index i) b
  | elsewhere {r : Record} {b : Tally} {s : DeskState} : Billed l limits r b →
      s.pool = r.state.pool → s.carriers = r.state.carriers →
        s.connections = r.state.connections → Billed l limits { r with state := s } b

variable {l : Listing} {limits : PoolLimits} {r : Record} {b : Tally}

theorem Billed.reached (h : Billed l limits r b) : Record.Reached l limits r := by
  induction h with
  | start hpool hcarriers hconn => exact .start hpool hcarriers hconn
  | call _ hends ih => exact .step ih (.call hends)
  | reaction index i _ hw ih => exact .step ih (.reaction index i hw)
  | elsewhere _ hpool hcarriers hconn ih => exact .step ih (.elsewhere hpool hcarriers hconn)

/-- **Every run has a ledger.** -/
theorem Record.Reached.billed (h : Record.Reached l limits r) : ∃ b, Billed l limits r b := by
  induction h with
  | start hpool hcarriers hconn => exact ⟨_, .start hpool hcarriers hconn⟩
  | step _ hstep ih =>
    obtain ⟨b, hb⟩ := ih
    cases hstep with
    | call hends => exact ⟨_, .call hb hends⟩
    | reaction index i hw => exact ⟨b, .reaction index i hb hw⟩
    | elsewhere hpool hcarriers hconn => exact ⟨b, .elsewhere hb hpool hcarriers hconn⟩

/-! ## 2. What a call does to the weights -/

/-- What a carrier weighs after one more order for it. -/
def weighOne (p : Pool) (weight : Nat) (o : String × PoolOrder) : Nat :=
  match o.2.verb with
  | .subscribe => weight + p.weightOf o.1
  | .unsubscribe => weight - p.weightOf o.1

/-- **A carrier weighs what the orders for it say**, and stays within its range. -/
theorem PoolCall.weightAt {s s' : DeskState} {call : PoolCall} {answer : Outcome Bool}
    (hroom : 0 < s.pool.limits.symbols) (h : (call.deed l).Ends s answer s') (i : Nat) :
    s'.pool.weightAt i =
      ((call.orders l s.pool).filter (·.2.index = i)).foldl (weighOne s.pool) (s.pool.weightAt i) ∧
    (s.pool.weightAt i < Word.bound64 → s'.pool.weightAt i < Word.bound64) := by
  cases call with
  | subscribe w =>
    cases hx : l.streamSymbol w with
    | error e =>
      simp only [deed, Feed.subscribe, hx] at h
      obtain ⟨rfl, rfl⟩ := Act.ends_done_iff.mp h
      simp only [orders, hx]
      exact ⟨rfl, id⟩
    | ok x =>
      simp only [deed, Feed.subscribe, hx] at h
      replace h := Act.ends_access_iff.mp h
      simp only [orders, hx]
      rcases Pool.subscribe_cases hroom x w.tickKind with
        ⟨-, hsub⟩ | ⟨-, _, q, -, hsub⟩ | hsub | hsub
      · simp only [Feed.subscribed, hsub, Option.map_some, Option.getD_some] at h
        obtain ⟨-, rfl⟩ := Act.ends_done_iff.mp h
        simp only [hsub]
        exact ⟨rfl, id⟩
      · obtain ⟨j, horder, hfits, hweights⟩ := Pool.subscribe_weightAt hroom hsub
        simp only [Feed.subscribed, hsub, Option.map_some, Option.getD_some] at h
        obtain ⟨-, rfl⟩ := Act.ends_done_iff.mp h
        simp only [hsub, Effect.carryOut_pool, horder, hweights]
        by_cases hij : i = j
        · subst hij
          simp [weighOne, hfits]
        · simp [hij, Ne.symm hij]
      · simp only [Feed.subscribed, hsub, Option.map_some, Option.getD_some] at h
        obtain ⟨-, rfl⟩ := Act.ends_done_iff.mp h
        simp only [hsub]
        exact ⟨rfl, id⟩
      · simp only [Feed.subscribed, hsub] at h
        exact absurd h Act.not_ends_halt
  | unsubscribe w =>
    cases hx : l.streamSymbol w with
    | error e =>
      simp only [deed, Feed.unsubscribe, hx] at h
      obtain ⟨rfl, rfl⟩ := Act.ends_done_iff.mp h
      simp only [orders, hx]
      exact ⟨rfl, id⟩
    | ok x =>
      simp only [deed, Feed.unsubscribe, hx] at h
      replace h := Act.ends_access_iff.mp h
      obtain ⟨-, rfl⟩ := Act.ends_done_iff.mp h
      simp only [orders, hx, Feed.unsubscribed]
      rcases hun : s.pool.unsubscribe x w.tickKind with ⟨there, q, order⟩
      rcases Pool.unsubscribe_weightAt hun with ⟨rfl, hsame⟩ | ⟨j, rfl, hweights⟩
      · simp [hsame]
      · simp only [Effect.carryOut_pool, hweights]
        by_cases hij : i = j
        · subst hij
          refine ⟨by simp [weighOne, PoolOrder.index, PoolOrder.verb], fun hrange => ?_⟩
          rw [if_pos rfl]
          exact Nat.lt_of_le_of_lt (Nat.sub_le ..) hrange
        · simp [hij, Ne.symm hij, PoolOrder.index]
  | setWeights ws =>
    replace h := Act.ends_access_iff.mp h
    obtain ⟨-, rfl⟩ := Act.ends_done_iff.mp h
    exact ⟨rfl, id⟩

/-! ## 3. What the ledger says of the weights -/

theorem sum_map_filter_ne {xs : List String} {x : String} (f : String → Nat) (hnodup : xs.Nodup)
    (hx : x ∈ xs) : ((xs.filter (· ≠ x)).map f).sum + f x = (xs.map f).sum := by
  rw [← List.sum_map_erase f hx, hnodup.erase_eq_filter, Nat.add_comm]
  have hsame : xs.filter (· ≠ x) = xs.filter (· != x) :=
    List.filter_congr fun y _ => Bool.eq_iff_iff.mpr (by simp)
  rw [hsame]

namespace Tally

/-- A ledger fits a pool:

* `atLeast`, `atMost`: a carrier is no lighter than the charges of its symbols, and no heavier, if
  this is so of everything that was taken off;
* `steady`: as long as nothing was reweighed, symbols weigh what they were charged, and this was
  taken off;
* `inRange`: all weights are within their range. -/
structure Fits (b : Tally) (p : Pool) : Prop where
  atLeast : (∀ e ∈ b.releases, e.taken ≤ e.charged) → ∀ i, b.total p i ≤ p.weightAt i
  atMost : (∀ e ∈ b.releases, e.charged ≤ e.taken) → ∀ i, p.weightAt i ≤ b.total p i
  steady : b.reweighed = false →
    (∀ x i, p.placement.get? x = some i → b.charge x = p.weightOf x) ∧
      ∀ e ∈ b.releases, e.taken = e.charged
  inRange : ∀ i, p.weightAt i < Word.bound64

theorem fits_blank (limits : PoolLimits) : blank.Fits (.empty limits) where
  atLeast := fun _ _ => Nat.le_refl 0
  atMost := fun _ _ => Nat.le_refl 0
  steady := fun _ => ⟨nofun, nofun⟩
  inRange := fun _ => (by decide : 0 < Word.bound64)

/-- What the ledger reads of a pool. -/
theorem Fits.congr {p q : Pool} (h : b.Fits p) (hcarriers : q.carriers = p.carriers)
    (hplacement : q.placement = p.placement) (hweights : q.weights = p.weights) : b.Fits q := by
  have hat : ∀ i, q.weightAt i = p.weightAt i := fun i => by simp only [Pool.weightAt, hcarriers]
  have hof : ∀ x, q.weightOf x = p.weightOf x := fun x => by simp only [Pool.weightOf, hweights]
  have htotal : ∀ i, b.total q i = b.total p i := fun i => by
    simp only [total, Pool.carriedBy, hcarriers]
  exact {
    atLeast := fun hs i => by
      rw [hat, htotal]
      exact h.atLeast hs i
    atMost := fun hs i => by
      rw [hat, htotal]
      exact h.atMost hs i
    steady := fun hs => by
      simp only [hplacement, hof]
      exact h.steady hs
    inRange := fun i => hat i ▸ h.inRange i }

variable {p q : Pool} {x : String} {i : Nat}

/-- **A symbol is put on a carrier** and charged its weight. -/
theorem Fits.puts (h : b.Fits p) (hcarried : p.Carried) (hnew : p.placement.get? x = none)
    (hput : p.Puts x i q)
    (hweights : ∀ j, q.weightAt j = if j = i then p.weightAt i + p.weightOf x else p.weightAt j)
    (hrange : ∀ j, q.weightAt j < Word.bound64) :
    (b.bill x (p.weightOf x)).Fits q := by
  have hof : ∀ y, q.weightOf y = p.weightOf y := fun y => by
    simp only [Pool.weightOf, hput.weights]
  have hold : ∀ j, (p.carriedBy j).map (b.bill x (p.weightOf x)).charge =
      (p.carriedBy j).map b.charge := by
    intro j
    refine List.map_congr_left fun y hy => bill_charge_of_ne ?_
    rintro rfl
    rw [← hcarried.placed_iff, hnew] at hy
    cases hy
  have htotal : ∀ j, (b.bill x (p.weightOf x)).total q j =
      if j = i then b.total p i + p.weightOf x else b.total p j := by
    intro j
    simp only [total, hput.carriedBy]
    split
    · rw [List.map_append, List.sum_append, hold, List.map_singleton, List.sum_singleton,
        bill_charge_self]
    · rw [hold]
  refine { atLeast := fun hs j => ?_, atMost := fun hs j => ?_, steady := fun hs => ?_,
           inRange := hrange }
  · have hi := h.atLeast hs i
    have hj := h.atLeast hs j
    rw [htotal, hweights]
    split <;> omega
  · have hi := h.atMost hs i
    have hj := h.atMost hs j
    rw [htotal, hweights]
    split <;> omega
  · obtain ⟨hcharge, hreleases⟩ := h.steady hs
    refine ⟨fun y j hy => ?_, hreleases⟩
    rw [hput.placement, Table.get?_put] at hy
    rw [hof]
    by_cases hyx : y = x
    · rw [hyx, bill_charge_self]
    · rw [if_neg hyx] at hy
      rw [bill_charge_of_ne hyx]
      exact hcharge y j hy

/-- **A symbol is taken off its carrier**, for what it weighs by now. -/
theorem Fits.drops (h : b.Fits p) (hcarried : p.Carried) (hat : p.placement.get? x = some i)
    (hdrop : p.Drops x i q)
    (hweights : ∀ j, q.weightAt j = if j = i then p.weightAt i - p.weightOf x else p.weightAt j)
    (hrange : ∀ j, q.weightAt j < Word.bound64) :
    (b.refund x (p.weightOf x)).Fits q := by
  have hof : ∀ y, q.weightOf y = p.weightOf y := fun y => by
    simp only [Pool.weightOf, hdrop.weights]
  have hlast := sum_map_filter_ne b.charge (hcarried.nodup i) ((hcarried.placed_iff x i).mp hat)
  have htotal : ∀ j, (b.refund x (p.weightOf x)).total q j =
      if j = i then b.total p i - b.charge x else b.total p j := by
    intro j
    simp only [total, refund, hdrop.carriedBy]
    split
    · omega
    · rfl
  have hcharged : b.charge x ≤ b.total p i := by
    simp only [total]
    omega
  refine { atLeast := fun hs j => ?_, atMost := fun hs j => ?_, steady := fun hs => ?_,
           inRange := hrange }
  · obtain ⟨hbefore, hnow⟩ := List.forall_mem_append.mp hs
    have hi := h.atLeast hbefore i
    have hj := h.atLeast hbefore j
    have htaken := hnow _ List.mem_cons_self
    dsimp only at htaken
    rw [htotal, hweights]
    split <;> omega
  · obtain ⟨hbefore, hnow⟩ := List.forall_mem_append.mp hs
    have hi := h.atMost hbefore i
    have hj := h.atMost hbefore j
    have htaken := hnow _ List.mem_cons_self
    dsimp only at htaken
    rw [htotal, hweights]
    split <;> omega
  · obtain ⟨hcharge, hreleases⟩ := h.steady hs
    refine ⟨fun y j hy => ?_, ?_⟩
    · rw [hdrop.placement, Table.get?_erase] at hy
      split at hy
      · cases hy
      · rw [hof]
        exact hcharge y j hy
    · refine List.forall_mem_append.mpr ⟨hreleases, ?_⟩
      intro e he
      obtain rfl := List.mem_singleton.mp he
      exact (hcharge x i hat).symm

/-- **The weights of symbols are replaced**; the ledger takes down whether this concerns a symbol
on a carrier. -/
theorem Fits.setWeights (h : b.Fits p) (ws : Table String Nat) :
    ({ b with reweighed := (PoolCall.setWeights ws).reweighs p || b.reweighed } : Tally).Fits
      (p.setWeights ws) where
  atLeast := h.atLeast
  atMost := h.atMost
  steady := by
    intro hs
    obtain ⟨hnow, hbefore⟩ := Bool.or_eq_false_iff.mp hs
    obtain ⟨hcharge, hreleases⟩ := h.steady hbefore
    refine ⟨fun y j hy => ?_, hreleases⟩
    have hkept := List.any_eq_false.mp hnow y (Table.mem_keys_iff.mpr ⟨j, hy⟩)
    rw [bne_iff_ne, not_not] at hkept
    rw [hkept]
    exact hcharge y j hy
  inRange := h.inRange

/-- **A ledger fits after every call.** -/
theorem Fits.afterCall {s s' : DeskState} {call : PoolCall} {answer : Outcome Bool}
    {os : List (String × PoolOrder)} (h : b.Fits s.pool) (hs : s.pool.Sound)
    (heffect : PoolCall.Effect l s call answer os s')
    (hweights : ∀ i, s'.pool.weightAt i =
      (os.filter (·.2.index = i)).foldl (weighOne s.pool) (s.pool.weightAt i))
    (hrange : ∀ i, s'.pool.weightAt i < Word.bound64) :
    (b.after s.pool os (call.reweighs s.pool)).Fits s'.pool := by
  cases heffect with
  | unknown _ | full _ | stranger _ | missing _ _ => exact h
  | again _ _ => exact h.congr rfl rfl rfl
  | @first w x i q hx hnew hput =>
    simp only [PoolCall.Effect.carryOut_pool] at hweights hrange ⊢
    have hentered : b.after s.pool [(x, s.pool.putOrder i)] false =
        b.bill x (s.pool.weightOf x) := by
      simp [after, enter, bill]
    rw [PoolCall.reweighs, hentered]
    refine (h.puts hs.carried hnew hput (fun j => (hweights j).trans ?_) hrange).congr rfl rfl rfl
    by_cases hji : j = i
    · subst hji
      simp [weighOne]
    · simp [hji, Ne.symm hji]
  | fewer _ _ _ =>
    exact h.congr (Pool.uncount_carriers ..) (Pool.uncount_placement ..) (Pool.uncount_weights ..)
  | @last w x i q hx hpos hgone hi hdrop =>
    simp only [PoolCall.Effect.carryOut_pool] at hweights hrange ⊢
    have hbefore : b.Fits (s.pool.uncount x w.tickKind) :=
      h.congr (Pool.uncount_carriers ..) (Pool.uncount_placement ..) (Pool.uncount_weights ..)
    have hcarried : (s.pool.uncount x w.tickKind).Carried :=
      hs.carried.congr (Pool.uncount_limits ..) (Pool.uncount_placement ..)
        (Pool.uncount_carriers ..)
    have hof : (s.pool.uncount x w.tickKind).weightOf x = s.pool.weightOf x := by
      simp only [Pool.weightOf, Pool.uncount_weights]
    have hat : ∀ j, (s.pool.uncount x w.tickKind).weightAt j = s.pool.weightAt j := fun j => by
      simp only [Pool.weightAt, Pool.uncount_carriers]
    have hdropped := hbefore.drops hcarried (by rw [Pool.uncount_placement]; exact hi) hdrop
      (fun j => (hweights j).trans ?_) hrange
    · rw [hof] at hdropped
      exact hdropped
    · rw [hof, hat, hat]
      by_cases hji : j = i
      · subst hji
        simp [weighOne, PoolOrder.index, PoolOrder.verb]
      · simp [hji, Ne.symm hji, PoolOrder.index]
  | weights ws => exact h.setWeights ws

end Tally

/-- **Every ledger fits.** -/
theorem Billed.fits (hroom : 0 < limits.symbols) (h : Billed l limits r b) :
    b.Fits r.state.pool := by
  induction h with
  | @start s hpool _ _ =>
    rw [Record.start, hpool]
    exact Tally.fits_blank limits
  | @call r b k answer s hb hends ih =>
    have ho := hb.reached.orderly hroom
    have hlimits : 0 < r.state.pool.limits.symbols := ho.limits ▸ hroom
    have hweights := PoolCall.weightAt hlimits hends
    exact ih.afterCall ho.sound (PoolCall.effect hlimits ho.sound hends) (fun i => (hweights i).1)
      fun i => (hweights i).2 (ih.inRange i)
  | reaction _ _ _ _ ih =>
    rw [Record.pool_afterReaction]
    exact ih
  | elsewhere _ hpool _ _ ih =>
    rw [hpool]
    exact ih

/-! ## 4. Weights along every run -/

theorem subscribed_eq_none_iff {s : DeskState} {x : String} {kind : TickKind} :
    subscribed l x kind s = none ↔ s.pool.subscribe x kind = .outOfRange := by
  unfold subscribed
  cases s.pool.subscribe x kind <;> simp

/-- **A subscription breaks down just where a weight gets out of range.** -/
theorem subscribe_breaks_iff {s : DeskState} {w : Subscription} {x : String}
    (hx : l.streamSymbol w = .ok x) :
    (¬ ∃ answer s', ((PoolCall.subscribe w).deed l).Ends s answer s') ↔
      s.pool.placement.get? x = none ∧ ∃ i, s.pool.nextCarrier = some i ∧
        Word.bound64 ≤ s.pool.weightAt i + s.pool.weightOf x := by
  rw [← Pool.subscribe_eq_outOfRange_iff (t := w.tickKind), ← subscribed_eq_none_iff (l := l)]
  constructor
  · intro hnever
    cases hsub : subscribed l x w.tickKind s with
    | none => rfl
    | some answered => exact absurd ⟨_, _, ends_subscribe hx hsub⟩ hnever
  · rintro hsub ⟨answer, s', hends⟩
    simp only [PoolCall.deed, Feed.subscribe, hx] at hends
    replace hends := Act.ends_access_iff.mp hends
    simp only [hsub] at hends
    exact Act.not_ends_halt hends

/-- **Carriers weigh what their symbols were charged, as long as no symbol is given another weight
while it stands on a carrier.**  In every run, whatever the order of the calls:

* a weight never leaves its range;
* a carrier is no lighter than its symbols were charged if none was taken off for more than that, and
  no heavier if none was taken off for less;
* it weighs exactly that, and nothing without symbols, if nothing was reweighed;
* a subscription breaks down just where the carrier that it goes to would leave the range. -/
theorem weights_follow_charges (hroom : 0 < limits.symbols) (h : Billed l limits r b) :
    (∀ (i : Nat) (c : Carrier), r.state.pool.carriers[i]? = some c →
      c.weight < Word.bound64 ∧
      ((∀ e ∈ b.releases, e.taken ≤ e.charged) → (c.symbols.map b.charge).sum ≤ c.weight) ∧
      ((∀ e ∈ b.releases, e.charged ≤ e.taken) → c.weight ≤ (c.symbols.map b.charge).sum) ∧
      (b.reweighed = false →
        c.weight = (c.symbols.map b.charge).sum ∧ (c.symbols = [] → c.weight = 0))) ∧
    ∀ w x, l.streamSymbol w = .ok x →
      ((¬ ∃ answer s, ((PoolCall.subscribe w).deed l).Ends r.state answer s) ↔
        r.state.pool.placement.get? x = none ∧ ∃ i, r.state.pool.nextCarrier = some i ∧
          Word.bound64 ≤ r.state.pool.weightAt i + r.state.pool.weightOf x) := by
  have hfits := h.fits hroom
  refine ⟨fun i c hc => ?_, fun w x hx => subscribe_breaks_iff hx⟩
  have hweight : r.state.pool.weightAt i = c.weight := by simp [Pool.weightAt, hc]
  have htotal : b.total r.state.pool i = (c.symbols.map b.charge).sum := by
    simp [Tally.total, Pool.carriedBy, hc]
  rw [← hweight, ← htotal]
  refine ⟨hfits.inRange i, fun hs => hfits.atLeast hs i, fun hs => hfits.atMost hs i, ?_⟩
  intro hsteady
  obtain ⟨-, heven⟩ := hfits.steady hsteady
  have hexact : r.state.pool.weightAt i = b.total r.state.pool i :=
    Nat.le_antisymm (hfits.atMost (fun e he => Nat.le_of_eq (heven e he).symm) i)
      (hfits.atLeast (fun e he => Nat.le_of_eq (heven e he)) i)
  refine ⟨hexact, fun hidle => ?_⟩
  rw [hexact, htotal, hidle]
  rfl

/-! ## 5. Two runs -/

/-- The record and the ledger after some calls of the host. -/
def bills? (l : Listing) : List PoolCall → Record × Tally → Option (Record × Tally)
  | [], now => some now
  | k :: ks, (r, b) =>
    match (k.deed l).outcome? r.state with
    | none => none
    | some (answer, s) =>
      bills? l ks (r.afterCall k answer (k.orders l r.state.pool) s,
        b.after r.state.pool (k.orders l r.state.pool) (k.reweighs r.state.pool))

theorem billed_of_bills? {ks : List PoolCall} {r' : Record} {b' : Tally} (hb : Billed l limits r b)
    (h : bills? l ks (r, b) = some (r', b')) : Billed l limits r' b' := by
  induction ks generalizing r b with
  | nil =>
    cases h
    exact hb
  | cons k ks ih =>
    rw [bills?] at h
    split at h
    · cases h
    · rename_i answer s hk
      exact ih (.call hb (Act.ends_of_outcome? hk)) h

/-- The weights of one or two symbols. -/
def weightsOf (entries : List (String × Nat)) : PoolCall := .setWeights (.ofList entries)

/-- Both symbols on one connection, and one of them let go of. -/
theorem weights_follow_charges_pair :
    ∃ r b, 0 < 512 ∧ Billed pairListing ⟨1, 512⟩ r b ∧ b.reweighed = false ∧
      b.releases = [⟨3, 3⟩] ∧ r.state.pool.carriers = [⟨["ETHUSDT"], 5⟩] ∧
      (["ETHUSDT"].map b.charge).sum = 5 := by
  have hrun : (bills? pairListing [weightsOf [("BTCUSDT", 3), ("ETHUSDT", 5)],
      .subscribe (tradesOf "BTCUSDT"), .subscribe (tradesOf "ETHUSDT"),
      .unsubscribe (tradesOf "BTCUSDT")] (.start (.start ⟨1, 512⟩ 0), .blank)).any (fun now =>
        now.1.state.pool.carriers = [⟨["ETHUSDT"], 5⟩] && now.2.releases = [⟨3, 3⟩] &&
          !now.2.reweighed) = true := by
    decide +kernel
  obtain ⟨⟨r, b⟩, hbills, hend⟩ := (Option.any_eq_true ..).mp hrun
  simp only [Bool.and_eq_true, decide_eq_true_eq, Bool.not_eq_true'] at hend
  obtain ⟨⟨hcarriers, hreleases⟩, hsteady⟩ := hend
  have hbilled := billed_of_bills? (.start rfl rfl rfl) hbills
  obtain ⟨hweights, -⟩ := weights_follow_charges (by decide) hbilled
  obtain ⟨-, -, -, hexact⟩ := hweights 0 ⟨["ETHUSDT"], 5⟩ (by rw [hcarriers]; rfl)
  exact ⟨r, b, by decide, hbilled, hsteady, hreleases, hcarriers, (hexact hsteady).1.symm⟩

/-- **A carrier without symbols may weigh something.**  A symbol was charged as much as there can be
and taken off for nothing, since the weights were replaced in between; the next symbol goes to the
idle carrier and breaks it. -/
theorem idle_carrier_weighs :
    ∃ r b, Billed pairListing ⟨1, 512⟩ r b ∧
      r.state.pool.carriers = [⟨[], Word.bound64 - 1⟩] ∧ b.releases = [⟨Word.bound64 - 1, 0⟩] ∧
      r.state.pool.weightOf "ETHUSDT" = 1 ∧
      ¬ ∃ answer s, ((PoolCall.subscribe (tradesOf "ETHUSDT")).deed pairListing).Ends r.state
        answer s := by
  have hrun : (bills? pairListing [weightsOf [("BTCUSDT", Word.bound64 - 1)],
      .subscribe (tradesOf "BTCUSDT"), weightsOf [("ETHUSDT", 1)],
      .unsubscribe (tradesOf "BTCUSDT")] (.start (.start ⟨1, 512⟩ 0), .blank)).any (fun now =>
        now.1.state.pool.carriers = [⟨[], Word.bound64 - 1⟩] &&
          now.2.releases = [⟨Word.bound64 - 1, 0⟩] &&
          now.1.state.pool.weightOf "ETHUSDT" = 1 &&
          now.1.state.pool.placement.get? "ETHUSDT" = none &&
          now.1.state.pool.nextCarrier = some 0) = true := by
    decide +kernel
  obtain ⟨⟨r, b⟩, hbills, hend⟩ := (Option.any_eq_true ..).mp hrun
  simp only [Bool.and_eq_true, decide_eq_true_eq] at hend
  obtain ⟨⟨⟨⟨hcarriers, hreleases⟩, hweight⟩, hnew⟩, hnext⟩ := hend
  refine ⟨r, b, billed_of_bills? (.start rfl rfl rfl) hbills, hcarriers, hreleases, hweight, ?_⟩
  have hx : pairListing.streamSymbol (tradesOf "ETHUSDT") = .ok "ETHUSDT" := by decide +kernel
  refine (subscribe_breaks_iff hx).mpr ⟨hnew, 0, hnext, ?_⟩
  rw [hweight, Pool.weightAt, hcarriers]
  decide

end OrderDesk.Feed
