import Mathlib.Data.List.Nodup
import Mathlib.Data.List.Pairwise
import Mathlib.Logic.Relation
import OrderDesk.Rest.Nonce

/-!
# Stamps for many at once

At the desk a stamp is taken in one go.  Behind that stand several callers who take stamps at the
same time, and none of them has the clock, the difference between the clocks and the last stamp to
itself: a call reads them one after another, and any of them may have changed by the time the next
is read.  Only the last stamp is guarded.  A call stores a new one if it is still as it was read,
reads it again otherwise, and works its own stamp out once more after that, from what it had read.

`Mint.Step` has a case for each of these steps and for a new difference between the clocks, and a
run takes them in any order.  The clock may say anything at any time.  Two things break a call: the
corrected clock leaves its range, or there is no stamp left.

Whatever the order of the steps, stamps grow in the order in which they are stored, and with it
across calls of which one is over before the other begins; no two calls have the same stamp; and
each is at least the corrected clock as its call read it (`stamps_increase`).  The greatest stamp so
far is always the last one stored, and that is all there is to it: a call that stores a stamp has
just seen that one, and its own is greater.

What the desk does in one go is what a call does that nobody disturbs (`reaches_undisturbed`).
-/

namespace OrderDesk

/-! ## 1. Calls and their steps -/

/-- How far a call is, with what it has read: the clock, the difference between the clocks, and the
last stamp. -/
inductive Draw where
  | timed (clock : Nat)
  | corrected (clock : Nat) (offset : Int)
  | loaded (clock : Nat) (offset : Int) (previous : Nat)
  | stored (clock : Nat) (offset : Int) (previous : Nat)
  | returned (clock : Nat) (offset : Int) (stamp : Nat)
  | broken
deriving DecidableEq, Repr

namespace Draw

/-- The stamp of a call that has one. -/
def stamp? : Draw → Option Nat
  | stored clock offset previous => some ((⟨previous, offset⟩ : Nonce).stamp clock)
  | returned _ _ stamp => some stamp
  | timed _ | corrected _ _ | loaded _ _ _ | broken => none

/-- The stamp that a call came back with. -/
def returned? : Draw → Option Nat
  | returned _ _ stamp => some stamp
  | timed _ | corrected _ _ | loaded _ _ _ | stored _ _ _ | broken => none

/-- A stamp is at least the corrected clock that its call read. -/
def Timely : Draw → Prop
  | returned clock offset stamp => max 0 ((clock : Int) + offset) ≤ stamp
  | timed _ | corrected _ _ | loaded _ _ _ | stored _ _ _ | broken => True

theorem stamp?_of_returned? {d : Draw} {stamp : Nat} (h : d.returned? = some stamp) :
    d.stamp? = some stamp := by
  cases d <;> first | exact h | cases h

end Draw

/-- Where stamps come from: what is shared, the calls so far, and the order in which they stored
their stamps. -/
structure Mint where
  nonce : Nonce
  draws : List Draw
  order : List Nat
deriving DecidableEq, Repr

namespace Mint

/-- Before the first call. -/
def start (n : Nonce) : Mint := ⟨n, [], []⟩

/-- The call `index` comes to `d`. -/
def put (m : Mint) (index : Nat) (d : Draw) : Mint := { m with draws := m.draws.set index d }

/-- The stamp of a call that has one. -/
def stampOf (m : Mint) (index : Nat) : Option Nat := m.draws[index]?.bind Draw.stamp?

/-- The stamp that a call came back with. -/
def returnedBy (m : Mint) (index : Nat) : Option Nat := m.draws[index]?.bind Draw.returned?

/-- One step of one call, or a new difference between the clocks.

* `begin`: a call reads the clock;
* `correct`, `leave`: it reads the difference, and breaks if the corrected clock leaves its range;
* `load`: it reads the last stamp;
* `store`: the last stamp is still the same, and the call stores a greater one;
* `retry`: the call is told to try once more, and reads the last stamp again;
* `exhaust`: there is no greater one;
* `finish`: the call comes back with its stamp, worked out once more;
* `setOffset`: the clocks were compared. -/
inductive Step (m : Mint) : Mint → Prop
  | begin (clock : Nat) : Step m { m with draws := m.draws ++ [.timed clock] }
  | correct {i clock : Nat} : m.draws[i]? = some (.timed clock) → m.nonce.inRange clock = true →
      Step m (m.put i (.corrected clock m.nonce.offset))
  | leave {i clock : Nat} : m.draws[i]? = some (.timed clock) → m.nonce.inRange clock = false →
      Step m (m.put i .broken)
  | load {i clock : Nat} {offset : Int} : m.draws[i]? = some (.corrected clock offset) →
      Step m (m.put i (.loaded clock offset m.nonce.last))
  | store {i clock : Nat} {offset : Int} :
      m.draws[i]? = some (.loaded clock offset m.nonce.last) → m.nonce.last + 1 < Word.bound64 →
      Step m { m.put i (.stored clock offset m.nonce.last) with
        nonce := { m.nonce with last := (⟨m.nonce.last, offset⟩ : Nonce).stamp clock }
        order := m.order ++ [i] }
  | retry {i clock : Nat} {offset : Int} {previous : Nat} :
      m.draws[i]? = some (.loaded clock offset previous) →
      Step m (m.put i (.loaded clock offset m.nonce.last))
  | exhaust {i clock : Nat} {offset : Int} {previous : Nat} :
      m.draws[i]? = some (.loaded clock offset previous) → Word.bound64 ≤ previous + 1 →
      Step m (m.put i .broken)
  | finish {i clock : Nat} {offset : Int} {previous : Nat} :
      m.draws[i]? = some (.stored clock offset previous) →
      Step m (m.put i (.returned clock offset ((⟨previous, offset⟩ : Nonce).stamp clock)))
  | setOffset (offset : Int) : Step m { m with nonce := { m.nonce with offset } }

/-- Some steps in any order. -/
abbrev Run : Mint → Mint → Prop := Relation.ReflTransGen Step

/-! ## 2. What every step keeps -/

variable {m m' : Mint} {i j clock v w : Nat} {offset : Int}

/-- Stamps grow in the order in which they were stored.

* `nodup`, `mem`: the order has each call that stored a stamp once;
* `sorted`: a call before another has the smaller stamp;
* `bounded`: no stamp is greater than the last;
* `timely`: stamps are at least the corrected clocks. -/
structure Growing (m : Mint) : Prop where
  nodup : m.order.Nodup
  mem : ∀ i, i ∈ m.order ↔ ∃ v, m.stampOf i = some v
  sorted : m.order.Pairwise fun i j => ∀ v w, m.stampOf i = some v → m.stampOf j = some w → v < w
  bounded : ∀ i v, m.stampOf i = some v → v ≤ m.nonce.last
  timely : ∀ d ∈ m.draws, d.Timely

theorem growing_start (n : Nonce) : (start n).Growing where
  nodup := List.nodup_nil
  mem := by simp [start, stampOf]
  sorted := List.Pairwise.nil
  bounded := by simp [start, stampOf]
  timely := nofun

theorem stampOf_put (d : Draw) (hi : i < m.draws.length) :
    (m.put i d).stampOf j = if j = i then d.stamp? else m.stampOf j := by
  unfold stampOf put
  by_cases hj : j = i
  · subst hj
    simp [hi]
  · rw [List.getElem?_set_ne (Ne.symm hj), if_neg hj]

/-- A call that goes on without a new stamp. -/
theorem stampOf_put_same {d d' : Draw} (hd : m.draws[i]? = some d)
    (hstamp : d'.stamp? = d.stamp?) : (m.put i d').stampOf j = m.stampOf j := by
  obtain ⟨hi, -⟩ := List.getElem?_eq_some_iff.mp hd
  rw [stampOf_put d' hi]
  split
  · rename_i hj
    rw [hj, stampOf, hd, hstamp]
    rfl
  · rfl

theorem stampOf_begin (clock j : Nat) :
    ({ m with draws := m.draws ++ [.timed clock] } : Mint).stampOf j = m.stampOf j := by
  unfold stampOf
  rcases Nat.lt_trichotomy j m.draws.length with hj | rfl | hj
  · rw [List.getElem?_append_left hj]
  · simp [Draw.stamp?]
  · rw [List.getElem?_eq_none (by simp; omega), List.getElem?_eq_none (by omega)]

/-- Nothing that counts has changed. -/
theorem Growing.congr (h : m.Growing) (hstamps : ∀ i, m'.stampOf i = m.stampOf i)
    (horder : m'.order = m.order) (hlast : m'.nonce.last = m.nonce.last)
    (htimely : ∀ d ∈ m'.draws, d.Timely) : m'.Growing where
  nodup := horder ▸ h.nodup
  mem := by simpa only [hstamps, horder] using h.mem
  sorted := by simpa only [hstamps, horder] using h.sorted
  bounded := by simpa only [hstamps, hlast] using h.bounded
  timely := htimely

/-- A call goes on without a new stamp. -/
theorem Growing.put (h : m.Growing) {d d' : Draw} (hd : m.draws[i]? = some d)
    (hstamp : d'.stamp? = d.stamp?) (htimely : d'.Timely) : (m.put i d').Growing := by
  refine h.congr (fun j => stampOf_put_same hd hstamp) rfl rfl fun e he => ?_
  rcases List.mem_or_eq_of_mem_set he with hold | rfl
  · exact h.timely e hold
  · exact htimely

theorem lt_stamp (n : Nonce) (clock : Nat) : n.last < n.stamp clock :=
  Nat.lt_of_lt_of_le (Nat.lt_succ_self _) (Nat.le_max_right _ _)

theorem timely_stamp (n : Nonce) (clock : Nat) :
    (Draw.returned clock n.offset (n.stamp clock)).Timely := by
  have hle : n.corrected clock ≤ n.stamp clock := Nat.le_max_left _ _
  unfold Nonce.corrected at hle
  unfold Draw.Timely
  omega

/-- **A stamp that is stored is greater than all before it.** -/
theorem Growing.store (h : m.Growing)
    (hi : m.draws[i]? = some (.loaded clock offset m.nonce.last)) :
    Growing { m.put i (.stored clock offset m.nonce.last) with
      nonce := { m.nonce with last := (⟨m.nonce.last, offset⟩ : Nonce).stamp clock }
      order := m.order ++ [i] } := by
  obtain ⟨hlt, -⟩ := List.getElem?_eq_some_iff.mp hi
  have hgreater := lt_stamp ⟨m.nonce.last, offset⟩ clock
  have hnone : m.stampOf i = none := by
    rw [stampOf, hi]
    rfl
  have hnew : i ∉ m.order := by
    rw [h.mem, hnone]
    simp
  have hstamps : ∀ j, (m.put i (.stored clock offset m.nonce.last)).stampOf j =
      if j = i then some ((⟨m.nonce.last, offset⟩ : Nonce).stamp clock) else m.stampOf j :=
    fun j => stampOf_put _ hlt
  -- The stamps of the calls before this one are as they were.
  have hold : ∀ j ∈ m.order, (m.put i (.stored clock offset m.nonce.last)).stampOf j =
      m.stampOf j := by
    intro j hj
    rw [hstamps, if_neg]
    rintro rfl
    exact hnew hj
  refine { nodup := ?nodup, mem := ?mem, sorted := ?sorted, bounded := ?bounded,
           timely := ?timely }
  case nodup =>
    refine List.nodup_append.mpr ⟨h.nodup, List.nodup_singleton i, ?_⟩
    rintro a ha b hb rfl
    exact hnew (List.mem_singleton.mp hb ▸ ha)
  case mem =>
    intro j
    show j ∈ m.order ++ [i] ↔ ∃ v, (m.put i _).stampOf j = some v
    rw [hstamps, List.mem_append, List.mem_singleton]
    by_cases hj : j = i
    · simp [hj]
    · simp [hj, h.mem]
  case sorted =>
    refine List.pairwise_append.mpr ⟨?_, List.pairwise_singleton _ _, ?_⟩
    · refine h.sorted.imp_of_mem fun {a b} ha hb hab => ?_
      show ∀ v w, (m.put i _).stampOf a = some v → (m.put i _).stampOf b = some w → v < w
      rw [hold a ha, hold b hb]
      exact hab
    · intro a ha b hb v w hv hw
      obtain rfl := List.mem_singleton.mp hb
      have hv' : m.stampOf a = some v := (hold a ha).symm.trans hv
      have hw' : some ((⟨m.nonce.last, offset⟩ : Nonce).stamp clock) = some w :=
        ((hstamps b).trans (if_pos rfl)).symm.trans hw
      cases hw'
      exact Nat.lt_of_le_of_lt (h.bounded a v hv') hgreater
  case bounded =>
    intro j v hv
    have hv' := (hstamps j).symm.trans hv
    split at hv'
    · cases hv'
      exact Nat.le_refl _
    · exact Nat.le_trans (h.bounded j v hv') (Nat.le_of_lt hgreater)
  case timely =>
    intro d hd
    rcases List.mem_or_eq_of_mem_set hd with hbefore | rfl
    · exact h.timely d hbefore
    · trivial

/-- **Every step keeps the stamps growing.** -/
theorem Growing.step (h : m.Growing) (hstep : Step m m') : m'.Growing := by
  cases hstep with
  | begin clock =>
    refine h.congr (stampOf_begin clock) rfl rfl ?_
    refine List.forall_mem_append.mpr ⟨h.timely, fun d hd => ?_⟩
    obtain rfl := List.mem_singleton.mp hd
    trivial
  | correct hi _ | leave hi _ | load hi | retry hi | exhaust hi _ => exact h.put hi rfl trivial
  | store hi _ => exact h.store hi
  | finish hi => exact h.put hi rfl (timely_stamp ⟨_, _⟩ _)
  | setOffset offset => exact h.congr (fun _ => rfl) rfl rfl h.timely

theorem Growing.run (h : m.Growing) (hrun : Run m m') : m'.Growing := by
  induction hrun with
  | refl => exact h
  | tail _ hstep ih => exact ih.step hstep

/-! ## 3. What stays along a run -/

/-- A stamp that was stored stays the stamp of its call. -/
theorem Step.stampOf_eq (hstep : Step m m') (hv : m.stampOf j = some v) :
    m'.stampOf j = some v := by
  cases hstep with
  | begin clock => rw [stampOf_begin, hv]
  | correct hi _ | leave hi _ | load hi | retry hi | exhaust hi _ | finish hi =>
    refine (stampOf_put_same hi ?_).trans hv
    rfl
  | @store i clock offset hi _ =>
    obtain ⟨hlt, -⟩ := List.getElem?_eq_some_iff.mp hi
    have hne : j ≠ i := by
      rintro rfl
      rw [stampOf, hi] at hv
      cases hv
    exact (stampOf_put _ hlt).trans ((if_neg hne).trans hv)
  | setOffset offset => exact hv

theorem Run.stampOf_eq (hrun : Run m m') (hv : m.stampOf j = some v) : m'.stampOf j = some v := by
  induction hrun with
  | refl => exact hv
  | tail _ hstep ih => exact hstep.stampOf_eq ih

/-- The order grows at its end only. -/
theorem Step.order_prefix (hstep : Step m m') : m.order <+: m'.order := by
  cases hstep with
  | store _ _ => exact List.prefix_append ..
  | begin _ | correct _ _ | leave _ _ | load _ | retry _ | exhaust _ _ | finish _ | setOffset _ =>
    exact List.prefix_rfl

theorem Run.order_prefix (hrun : Run m m') : m.order <+: m'.order := by
  induction hrun with
  | refl => exact List.prefix_rfl
  | tail _ hstep ih => exact ih.trans hstep.order_prefix

theorem stampOf_of_returnedBy (h : m.returnedBy i = some v) : m.stampOf i = some v := by
  obtain ⟨d, hd, hv⟩ := Option.bind_eq_some_iff.mp h
  rw [stampOf, hd]
  exact Draw.stamp?_of_returned? hv

/-- **Two calls never have the same stamp.** -/
theorem Growing.ne (h : m.Growing) (hne : i ≠ j) (hv : m.stampOf i = some v)
    (hw : m.stampOf j = some w) : v ≠ w := by
  have happart : m.order.Pairwise fun a b =>
      ∀ v w, m.stampOf a = some v → m.stampOf b = some w → v ≠ w :=
    h.sorted.imp fun hlt v w hv hw => Nat.ne_of_lt (hlt v w hv hw)
  have : Std.Symm fun a b => ∀ v w, m.stampOf a = some v → m.stampOf b = some w → v ≠ w :=
    ⟨fun _ _ hab v w hv hw => (hab w v hw hv).symm⟩
  exact happart.forall ((h.mem i).mpr ⟨v, hv⟩) ((h.mem j).mpr ⟨w, hw⟩) hne v w hv hw

/-- **A call that begins after another one is over has the greater stamp.** -/
theorem Growing.lt_of_later (h : m.Growing) (hrun : Run m m') (hv : m.stampOf i = some v)
    (hj : m.draws.length ≤ j) (hw : m'.stampOf j = some w) : v < w := by
  have hafter := h.run hrun
  obtain ⟨later, horder⟩ := hrun.order_prefix
  have hi : i ∈ m.order := (h.mem i).mpr ⟨v, hv⟩
  have hnew : j ∉ m.order := by
    rw [h.mem, stampOf, List.getElem?_eq_none hj]
    simp
  have hlater : j ∈ later := by
    have hmem := (hafter.mem j).mpr ⟨w, hw⟩
    rw [← horder] at hmem
    exact (List.mem_append.mp hmem).resolve_left hnew
  have hsorted := hafter.sorted
  rw [← horder] at hsorted
  exact (List.pairwise_append.mp hsorted).2.2 i hi j hlater v w (hrun.stampOf_eq hv) hw

/-! ## 4. Every run -/

/-- **A call that nobody disturbs does what the desk does in one go.** -/
theorem reaches_undisturbed (m : Mint) (hrange : m.nonce.inRange clock = true)
    (hroom : m.nonce.last + 1 < Word.bound64) :
    Run m ⟨m.nonce.next clock,
      m.draws ++ [.returned clock m.nonce.offset (m.nonce.stamp clock)],
      m.order ++ [m.draws.length]⟩ := by
  obtain ⟨n, ds, order⟩ := m
  have hat : ∀ d : Draw, (ds ++ [d])[ds.length]? = some d := fun d => List.getElem?_concat_length ..
  have hput : ∀ (n' : Nonce) (order' : List Nat) (d d' : Draw),
      (⟨n', ds ++ [d], order'⟩ : Mint).put ds.length d' = ⟨n', ds ++ [d'], order'⟩ := by
    intro n' order' d d'
    simp [put]
  have hcorrect : Step ⟨n, ds ++ [.timed clock], order⟩ _ := .correct (hat _) hrange
  rw [hput] at hcorrect
  have hload : Step ⟨n, ds ++ [.corrected clock n.offset], order⟩ _ := .load (hat _)
  rw [hput] at hload
  have hstore : Step ⟨n, ds ++ [.loaded clock n.offset n.last], order⟩ _ := .store (hat _) hroom
  rw [hput] at hstore
  have hfinish : Step ⟨n.next clock, ds ++ [.stored clock n.offset n.last],
      order ++ [ds.length]⟩ _ := .finish (hat _)
  rw [hput] at hfinish
  exact ((((Relation.ReflTransGen.single (.begin clock)).tail hcorrect).tail hload).tail
    hstore).tail hfinish

/-- **Stamps never repeat and never go back**, however the steps of the calls are mixed, whatever
the clock says, and as often as the difference between the clocks changes.

* The order has each call once, and every call that came back is in it.
* The stamps that calls came back with grow in that order; so no two calls have the same.
* A call comes back with no less than the clock and the difference that it read make.
* What begins when a call is over comes back with a greater stamp, however long the run goes on. -/
theorem stamps_increase {n : Nonce} (h : Run (start n) m) :
    m.order.Nodup ∧
    (∀ i v, m.returnedBy i = some v → i ∈ m.order) ∧
    (m.order.filterMap m.returnedBy).Pairwise (· < ·) ∧
    (∀ i j v w, i ≠ j → m.returnedBy i = some v → m.returnedBy j = some w → v ≠ w) ∧
    (∀ (i clock : Nat) (offset : Int) (stamp : Nat),
      m.draws[i]? = some (.returned clock offset stamp) →
      m.returnedBy i = some stamp ∧ max 0 ((clock : Int) + offset) ≤ stamp) ∧
    (∀ m', Run m m' → ∀ i j v w, m.returnedBy i = some v → m.draws.length ≤ j →
      m'.returnedBy j = some w → v < w) := by
  have hgrowing := (growing_start n).run h
  refine ⟨hgrowing.nodup, ?present, ?sorted, ?apart, ?timely, ?later⟩
  case present =>
    intro i v hv
    exact (hgrowing.mem i).mpr ⟨v, stampOf_of_returnedBy hv⟩
  case sorted =>
    refine List.pairwise_filterMap.mpr (hgrowing.sorted.imp fun hlt v hv w hw => ?_)
    exact hlt v w (stampOf_of_returnedBy hv) (stampOf_of_returnedBy hw)
  case apart =>
    intro i j v w hne hv hw
    exact hgrowing.ne hne (stampOf_of_returnedBy hv) (stampOf_of_returnedBy hw)
  case timely =>
    intro i clock offset stamp hi
    refine ⟨?_, hgrowing.timely _ (List.mem_of_getElem? hi)⟩
    rw [returnedBy, hi]
    rfl
  case later =>
    intro m' hrun i j v w hv hj hw
    exact hgrowing.lt_of_later hrun (stampOf_of_returnedBy hv) hj (stampOf_of_returnedBy hw)

/-- The second call is the first to store, and the difference between the clocks shrinks before the
other one stores: it is told to try once more, and has the greater stamp. -/
theorem stamps_increase_pair :
    ∃ m : Mint, Run (start .start) m ∧ m.order = [1, 0] ∧
      m.order.filterMap m.returnedBy = [7, 8] ∧
      (m.order.filterMap m.returnedBy).Pairwise (· < ·) := by
  have hread : Run (start .start) ⟨⟨0, 0⟩, [.loaded 5 0 0, .loaded 7 0 0], []⟩ :=
    (((((Relation.ReflTransGen.single (.begin 5)).tail (.begin 7)).tail
      (.correct (i := 0) rfl rfl)).tail (.load (i := 0) rfl)).tail
      (.correct (i := 1) rfl rfl)).tail (.load (i := 1) rfl)
  have hfirst : Step ⟨⟨0, 0⟩, [.loaded 5 0 0, .loaded 7 0 0], []⟩
      ⟨⟨7, 0⟩, [.loaded 5 0 0, .stored 7 0 0], [1]⟩ := @Step.store _ 1 7 0 rfl (by decide)
  have hagain : Run _ ⟨⟨7, -3⟩, [.loaded 5 0 7, .stored 7 0 0], [1]⟩ :=
    ((hread.tail hfirst).tail (.setOffset (-3))).tail (.retry (i := 0) rfl)
  have hsecond : Step ⟨⟨7, -3⟩, [.loaded 5 0 7, .stored 7 0 0], [1]⟩
      ⟨⟨8, -3⟩, [.stored 5 0 7, .stored 7 0 0], [1, 0]⟩ := @Step.store _ 0 5 0 rfl (by decide)
  have hback : Step ⟨⟨8, -3⟩, [.stored 5 0 7, .stored 7 0 0], [1, 0]⟩
      ⟨⟨8, -3⟩, [.returned 5 0 8, .stored 7 0 0], [1, 0]⟩ := @Step.finish _ 0 5 0 7 rfl
  have hlast : Step ⟨⟨8, -3⟩, [.returned 5 0 8, .stored 7 0 0], [1, 0]⟩
      ⟨⟨8, -3⟩, [.returned 5 0 8, .returned 7 0 7], [1, 0]⟩ := @Step.finish _ 1 7 0 0 rfl
  have hrun := ((hagain.tail hsecond).tail hback).tail hlast
  exact ⟨_, hrun, rfl, rfl, (stamps_increase hrun).2.2.1⟩

end Mint
end OrderDesk
