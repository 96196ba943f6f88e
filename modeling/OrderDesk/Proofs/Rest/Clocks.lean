import OrderDesk.Client.Basic
import OrderDesk.Proofs.History
import OrderDesk.Proofs.Rest.Stamps

/-!
# Clocks that are compared

The exchange tells its time, the local clock is read, and the difference corrects every stamp from
then on.  Nothing holds the desk while it does so: calls take their stamps at the same time, the
clock moves on between the reading and the moment at which the difference takes effect, and several
comparisons may be under way.

A `Clockwork` is a mint whose clock only moves forward, together with the comparisons.  Two
numbers may leave their ranges.  The difference does if the exchange tells a time more than 2^63
milliseconds before the local one; then the comparison breaks, and nothing takes effect.  And a
difference that is in range need not stay so: with every millisecond that the clock moves on, the
corrected clock comes nearer to the end of the range, and a call that reads it beyond the end
breaks (`comparison_overflows`).

There is nothing else.  While a difference is in force, a call comes back with no less than its
clock and that difference make, over the integers, and it breaks only if they make too much, or
after 2^63 stamps (`stamps_follow_comparison`).
-/

namespace OrderDesk

theorem Word.holds_iff {n : Int} :
    Word.holds n = true ↔ -(Word.bound63 : Int) ≤ n ∧ n < Word.bound63 := by
  rw [Word.holds, Bool.and_eq_true, decide_eq_true_eq, decide_eq_true_eq]

/-! ## 1. What the desk does -/

namespace Client

/-- Compares the clocks, once the exchange told its time. -/
def compareClocks (told : Int) : Trial Int :=
  .access id fun s =>
    match difference? told s.clock with
    | none => .halt .difference
    | some offset =>
      .access (fun s => { s with nonce := { s.nonce with offset } }) fun _ => .ok offset

theorem syncClock_eq (c : Client) :
    c.syncClock = (getOpen c.toRest c.surface.timePath [] Wire.serverTime).andThen compareClocks :=
  rfl

variable {told offset : Int} {clock : Nat}

/-- The difference of a 64-bit number and a clock can only be too small. -/
theorem difference?_eq_none_iff (htold : Word.holds told = true) :
    difference? told clock = none ↔ told - clock < -(Word.bound63 : Int) := by
  obtain ⟨-, hhigh⟩ := Word.holds_iff.mp htold
  rw [difference?, ite_eq_right_iff]
  simp only [reduceCtorEq, imp_false, Word.holds_iff]
  omega

theorem difference?_eq_some (h : difference? told clock = some offset) :
    offset = told - clock ∧ Word.holds offset = true := by
  unfold difference? at h
  split at h
  · rename_i hholds
    cases h
    exact ⟨rfl, hholds⟩
  · cases h

/-- **A comparison that nobody disturbs** has the difference take effect, if there is one. -/
theorem ends_compareClocks_iff {s s' : DeskState} {o : Outcome Int} :
    (compareClocks told).Ends s o s' ↔ ∃ offset, difference? told s.clock = some offset ∧
      o = .ok offset ∧ s' = { s with nonce := { s.nonce with offset } } := by
  rw [compareClocks, Act.ends_access_iff]
  cases hdifference : difference? told s.clock with
  | none => exact iff_of_false Act.not_ends_halt nofun
  | some offset =>
    simp only [id_eq, Act.ends_access_iff, Act.ok, Act.ends_done_iff, Option.some.injEq,
      exists_eq_left']

end Client

/-! ## 2. Comparisons among calls -/

/-- A comparison: what the exchange told, and what the local clock said. -/
structure Comparison where
  told : Int
  clock : Nat
deriving DecidableEq, Repr

/-- The difference, over the integers. -/
def Comparison.difference (c : Comparison) : Int := c.told - c.clock

/-- A mint with its clock.

* `began`: what each call read from the clock;
* `measured`: the comparisons that are to take effect;
* `failed`: those that broke. -/
structure Clockwork where
  mint : Mint
  clock : Nat
  began : List Nat
  measured : List Comparison
  failed : List Comparison
deriving DecidableEq, Repr

namespace Clockwork

/-- Before the first call. -/
def start (clock : Nat) : Clockwork := ⟨.start .start, clock, [], [], []⟩

/-- A comparison takes effect. -/
def apply (w : Clockwork) (c : Comparison) : Clockwork where
  mint := { w.mint with nonce := { w.mint.nonce with offset := c.difference } }
  clock := w.clock
  began := w.began
  measured := w.measured.erase c
  failed := w.failed

/-- One step that leaves the difference between the clocks as it is.

* `pass`: the clock moves on;
* `begin`: a call reads the clock;
* `go`: a call goes on;
* `measure`, `fail`: the exchange told its time, and the clock is read; if the difference is out of
  range the comparison breaks. -/
inductive Quiet (w : Clockwork) : Clockwork → Prop
  | pass {later : Nat} : w.clock ≤ later → later < Word.bound63 → Quiet w { w with clock := later }
  | begin : Quiet w { w with
      mint := { w.mint with draws := w.mint.draws ++ [.timed w.clock] }
      began := w.began ++ [w.clock] }
  | go {m : Mint} : Mint.Step w.mint m → m.draws.length = w.mint.draws.length →
      m.nonce.offset = w.mint.nonce.offset → Quiet w { w with mint := m }
  | measure {told offset : Int} : Word.holds told = true →
      Client.difference? told w.clock = some offset →
      Quiet w { w with measured := w.measured ++ [⟨told, w.clock⟩] }
  | fail {told : Int} : Word.holds told = true → Client.difference? told w.clock = none →
      Quiet w { w with failed := w.failed ++ [⟨told, w.clock⟩] }

/-- One step: of those that leave the difference alone, or a comparison takes effect. -/
inductive Step (w : Clockwork) : Clockwork → Prop
  | quiet {w' : Clockwork} : Quiet w w' → Step w w'
  | apply {c : Comparison} : c ∈ w.measured → Step w (w.apply c)

/-- Some steps in any order. -/
abbrev Run : Clockwork → Clockwork → Prop := Relation.ReflTransGen Step

/-- Some steps in any order, until the next comparison takes effect. -/
abbrev Pause : Clockwork → Clockwork → Prop := Relation.ReflTransGen Quiet

variable {w w' : Clockwork} {c : Comparison} {i t : Nat}

/-- A call that has not read the difference yet. -/
def Fresh (w : Clockwork) (i : Nat) : Prop :=
  ∀ d, w.mint.draws[i]? = some d → ∃ clock, d = .timed clock

end Clockwork

/-! ## 3. How a call goes on -/

namespace Draw

/-- How a call goes on, with the difference and the last stamp as they are. -/
inductive Goes (n : Nonce) : Draw → Draw → Prop
  | correct {clock : Nat} : n.inRange clock = true →
      Goes n (.timed clock) (.corrected clock n.offset)
  | leave {clock : Nat} : n.inRange clock = false → Goes n (.timed clock) .broken
  | load {clock : Nat} {offset : Int} :
      Goes n (.corrected clock offset) (.loaded clock offset n.last)
  | store {clock : Nat} {offset : Int} :
      Goes n (.loaded clock offset n.last) (.stored clock offset n.last)
  | retry {clock previous : Nat} {offset : Int} :
      Goes n (.loaded clock offset previous) (.loaded clock offset n.last)
  | exhaust {clock previous : Nat} {offset : Int} : Word.bound64 ≤ previous + 1 →
      Goes n (.loaded clock offset previous) .broken
  | finish {clock previous : Nat} {offset : Int} :
      Goes n (.stored clock offset previous)
        (.returned clock offset ((⟨previous, offset⟩ : Nonce).stamp clock))

/-- What a call has read is in range. -/
def InRange (last : Nat) : Draw → Prop
  | timed _ | broken => True
  | corrected clock offset | returned clock offset _ => (clock : Int) + offset < Word.bound63
  | loaded clock offset previous | stored clock offset previous =>
    (clock : Int) + offset < Word.bound63 ∧ previous ≤ last

/-- A call that began at the time `t` goes by this difference, and it breaks only where the
corrected clock is too late, or after very many stamps. -/
def Heeds (difference : Int) (stamps t : Nat) : Draw → Prop
  | timed clock => clock = t
  | corrected clock offset | loaded clock offset _ | stored clock offset _
  | returned clock offset _ =>
    clock = t ∧ offset = difference ∧ (t : Int) + difference < Word.bound63
  | broken => (Word.bound63 : Int) ≤ t + difference ∨ Word.bound63 ≤ stamps

variable {n : Nonce} {d d' : Draw} {last last' stamps stamps' t : Nat} {difference : Int}

theorem InRange.mono (h : d.InRange last) (hle : last ≤ last') : d.InRange last' := by
  cases d with
  | timed | broken | corrected | returned => exact h
  | loaded | stored => exact ⟨h.1, Nat.le_trans h.2 hle⟩

theorem InRange.goes (h : d.InRange n.last) (hgoes : d.Goes n d') : d'.InRange n.last := by
  cases hgoes with
  | correct hrange => exact (Word.holds_iff.mp hrange).2
  | leave | exhaust => trivial
  | load => exact ⟨h, Nat.le_refl _⟩
  | store => exact h
  | retry => exact ⟨h.1, Nat.le_refl _⟩
  | finish => exact h.1

theorem Heeds.mono (h : d.Heeds difference stamps t) (hle : stamps ≤ stamps') :
    d.Heeds difference stamps' t := by
  cases d with
  | timed | corrected | loaded | stored | returned => exact h
  | broken => exact h.imp_right fun hmany => Nat.le_trans hmany hle

/-- **A call that goes on goes by the difference** that is in force when it reads it. -/
theorem Heeds.goes (h : d.Heeds n.offset stamps t) (hgoes : d.Goes n d')
    (hrange : d.InRange n.last) (hoffset : Word.holds n.offset = true)
    (hfew : n.last < Word.bound63 + stamps) : d'.Heeds n.offset stamps t := by
  cases hgoes with
  | correct hin =>
    obtain rfl := h
    exact ⟨rfl, rfl, (Word.holds_iff.mp hin).2⟩
  | @leave clock hout =>
    -- A difference in range never carries the clock below its range.
    obtain rfl := h
    have hlow := (Word.holds_iff.mp hoffset).1
    have hnot : ¬ (-(Word.bound63 : Int) ≤ clock + n.offset ∧ clock + n.offset < Word.bound63) :=
      fun hin => Bool.false_ne_true (hout.symm.trans (Word.holds_iff.mpr hin))
    exact Or.inl (by omega)
  | load | store | retry => exact h
  | exhaust hfull =>
    have hbounds : Word.bound64 = Word.bound63 + Word.bound63 := rfl
    have := hrange.2
    exact Or.inr (show Word.bound63 ≤ stamps by omega)
  | finish => exact h

end Draw

namespace Mint

variable {m m' : Mint}

/-- **What a step of a call can do.** -/
theorem Step.goes (hstep : Step m m') (hcalls : m'.draws.length = m.draws.length)
    (hoffset : m'.nonce.offset = m.nonce.offset) :
    m' = m ∨ ∃ i d d', m.draws[i]? = some d ∧ d.Goes m.nonce d' ∧
      m'.draws = m.draws.set i d' ∧
      (m'.nonce = m.nonce ∧ m'.order = m.order ∨
        ∃ clock offset, d = .loaded clock offset m.nonce.last ∧
          m'.nonce = { m.nonce with last := (⟨m.nonce.last, offset⟩ : Nonce).stamp clock } ∧
          m'.order = m.order ++ [i]) := by
  cases hstep with
  | begin clock => simp at hcalls
  | correct hi hrange => exact Or.inr ⟨_, _, _, hi, .correct hrange, rfl, Or.inl ⟨rfl, rfl⟩⟩
  | leave hi hrange => exact Or.inr ⟨_, _, _, hi, .leave hrange, rfl, Or.inl ⟨rfl, rfl⟩⟩
  | load hi => exact Or.inr ⟨_, _, _, hi, .load, rfl, Or.inl ⟨rfl, rfl⟩⟩
  | store hi _ => exact Or.inr ⟨_, _, _, hi, .store, rfl, Or.inr ⟨_, _, rfl, rfl, rfl⟩⟩
  | retry hi => exact Or.inr ⟨_, _, _, hi, .retry, rfl, Or.inl ⟨rfl, rfl⟩⟩
  | exhaust hi hfull => exact Or.inr ⟨_, _, _, hi, .exhaust hfull, rfl, Or.inl ⟨rfl, rfl⟩⟩
  | finish hi => exact Or.inr ⟨_, _, _, hi, .finish, rfl, Or.inl ⟨rfl, rfl⟩⟩
  | setOffset offset =>
    left
    dsimp only at hoffset
    rw [hoffset]

end Mint

namespace Clockwork

variable {w w₁ w₂ : Clockwork} {c : Comparison} {i t : Nat}

/-! ## 4. What every step keeps -/

/-- A clockwork in order.

* `now`: the clock is in its range;
* `aligned`, `timed`: what calls read from the clock is written down;
* `measured`, `failed`: the comparisons are what they should be;
* `inRange`, `few`: no stamp is beyond the range by more than the number of stamps;
* `growing`: the stamps are in order. -/
structure Sound (w : Clockwork) : Prop where
  now : w.clock < Word.bound63
  aligned : w.began.length = w.mint.draws.length
  timed : ∀ i t : Nat, w.mint.draws[i]? = some (Draw.timed t) → w.began[i]? = some t
  measured : ∀ c ∈ w.measured, Word.holds c.difference = true ∧ c.clock ≤ w.clock
  failed : ∀ c ∈ w.failed, c.difference < -(Word.bound63 : Int)
  inRange : ∀ d ∈ w.mint.draws, d.InRange w.mint.nonce.last
  few : w.mint.nonce.last < Word.bound63 + w.mint.order.length
  growing : w.mint.Growing

theorem sound_start {clock : Nat} (hclock : clock < Word.bound63) : (start clock).Sound where
  now := hclock
  aligned := rfl
  timed := nofun
  measured := nofun
  failed := nofun
  inRange := nofun
  few := show 0 < Word.bound63 + 0 by decide
  growing := Mint.growing_start _

/-- A call goes on. -/
theorem Sound.go (h : w.Sound) {m : Mint} (hstep : Mint.Step w.mint m)
    (hcalls : m.draws.length = w.mint.draws.length)
    (hoffset : m.nonce.offset = w.mint.nonce.offset) : Sound { w with mint := m } := by
  rcases hstep.goes hcalls hoffset with rfl | ⟨i, d, d', hi, hgoes, hdraws, hrest⟩
  · exact h
  have hd := h.inRange d (List.mem_of_getElem? hi)
  have hfew := h.few
  have hlast : w.mint.nonce.last ≤ m.nonce.last ∧
      m.nonce.last < Word.bound63 + m.order.length := by
    rcases hrest with ⟨hnonce, horder⟩ | ⟨clock, offset, rfl, hnonce, horder⟩
    · rw [hnonce, horder]
      exact ⟨Nat.le_refl _, hfew⟩
    · have hclock := hd.1
      rw [hnonce, horder, List.length_append, List.length_singleton]
      simp only [Nonce.stamp, Nonce.corrected]
      omega
  refine { h with
    aligned := h.aligned.trans hcalls.symm
    timed := fun j t hj => ?timed
    inRange := fun e he => ?inRange
    few := hlast.2
    growing := h.growing.step hstep }
  case timed =>
    dsimp only at hj
    rw [hdraws] at hj
    by_cases hij : i = j
    · subst hij
      rw [List.getElem?_set_self (List.getElem?_eq_some_iff.mp hi).1] at hj
      cases hj
      cases hgoes
    · exact h.timed j t ((List.getElem?_set_ne hij).symm.trans hj)
  case inRange =>
    dsimp only at he
    rw [hdraws] at he
    rcases List.mem_or_eq_of_mem_set he with hold | rfl
    · exact (h.inRange e hold).mono hlast.1
    · exact (hd.goes hgoes).mono hlast.1

/-- **Steps that leave the difference alone keep the order.** -/
theorem Sound.quiet (h : w.Sound) (hstep : Quiet w w₁) : w₁.Sound := by
  cases hstep with
  | pass hle hlater =>
    exact { h with now := hlater, measured := fun c hc =>
      (h.measured c hc).imp_right fun hc => Nat.le_trans hc hle }
  | begin =>
    refine { h with
      aligned := by simp [h.aligned]
      timed := fun i t hi => ?timed
      inRange := List.forall_mem_append.mpr ⟨h.inRange, List.forall_mem_singleton.mpr trivial⟩
      growing := h.growing.step (.begin w.clock) }
    case timed =>
      simp only [List.getElem?_append, h.aligned] at hi ⊢
      split at hi
      · exact (if_pos ‹_›).trans (h.timed i t hi)
      · rw [List.getElem?_singleton] at hi
        split at hi
        · cases hi
          simp [*]
        · cases hi
  | go hgo hcalls hoffset => exact h.go hgo hcalls hoffset
  | measure htold hdifference =>
    obtain ⟨rfl, hholds⟩ := Client.difference?_eq_some hdifference
    exact { h with
      measured := List.forall_mem_append.mpr
        ⟨h.measured, List.forall_mem_singleton.mpr ⟨hholds, Nat.le_refl _⟩⟩ }
  | fail htold hnone =>
    exact { h with
      failed := List.forall_mem_append.mpr ⟨h.failed, List.forall_mem_singleton.mpr
        ((Client.difference?_eq_none_iff htold).mp hnone)⟩ }

/-- A new difference does not disturb the stamps. -/
theorem Sound.apply (h : w.Sound) (c : Comparison) : (w.apply c).Sound :=
  { h with
    measured := fun c' hc' => h.measured c' (List.mem_of_mem_erase hc')
    growing := h.growing.step (.setOffset c.difference) }

theorem Sound.run (h : w.Sound) (hrun : Run w w₁) : w₁.Sound := by
  induction hrun with
  | refl => exact h
  | tail _ hstep ih =>
    cases hstep with
    | quiet hquiet => exact ih.quiet hquiet
    | apply _ => exact ih.apply _

/-! ## 5. While a difference is in force -/

/-- What has come of a clockwork `w` since a comparison took effect.

* `offset`: the difference is still that of the comparison;
* `later`, `now`: calls that began since then read no earlier time from the clock;
* `heeds`: calls that had not read the difference before go by it. -/
structure Obeys (c : Comparison) (w w' : Clockwork) : Prop where
  offset : w'.mint.nonce.offset = c.difference
  now : c.clock ≤ w'.clock
  longer : w.began.length ≤ w'.began.length
  later : ∀ i t : Nat, w.began.length ≤ i → w'.began[i]? = some t → c.clock ≤ t
  heeds : ∀ (i t : Nat) (d : Draw), w.Fresh i → w'.began[i]? = some t → w'.mint.draws[i]? = some d →
    d.Heeds c.difference w'.mint.order.length t

theorem obeys_apply (h : w.Sound) (hc : c ∈ w.measured) : Obeys c w (w.apply c) where
  offset := rfl
  now := (h.measured c hc).2
  longer := Nat.le_refl _
  later := by
    intro i t hi ht
    exact absurd (List.getElem?_eq_some_iff.mp ht).1 (Nat.not_lt.mpr hi)
  heeds := by
    intro i t d hfresh ht hd
    obtain ⟨clock, rfl⟩ := hfresh d hd
    exact Option.some.inj ((h.timed i clock hd).symm.trans ht)

/-- A call goes on. -/
theorem Obeys.go (h : Obeys c w w₁) (hsound : w₁.Sound) (hc : Word.holds c.difference = true)
    {m : Mint} (hstep : Mint.Step w₁.mint m) (hcalls : m.draws.length = w₁.mint.draws.length)
    (hoffset : m.nonce.offset = w₁.mint.nonce.offset) : Obeys c w { w₁ with mint := m } := by
  rcases hstep.goes hcalls hoffset with rfl | ⟨i, d, d', hi, hgoes, hdraws, hrest⟩
  · exact h
  have hle : w₁.mint.order.length ≤ m.order.length := by
    rcases hrest with ⟨-, horder⟩ | ⟨_, _, -, -, horder⟩ <;> simp [horder]
  refine { h with offset := hoffset.trans h.offset, heeds := fun j t e hfresh ht he => ?_ }
  dsimp only at he
  rw [hdraws] at he
  by_cases hij : i = j
  · subst hij
    rw [List.getElem?_set_self (List.getElem?_eq_some_iff.mp hi).1] at he
    obtain rfl := Option.some.inj he
    have hbefore := h.heeds i t d hfresh ht hi
    rw [← h.offset] at hbefore hc ⊢
    exact (hbefore.goes hgoes (hsound.inRange d (List.mem_of_getElem? hi)) hc hsound.few).mono hle
  · exact (h.heeds j t e hfresh ht ((List.getElem?_set_ne hij).symm.trans he)).mono hle

/-- **Steps that leave the difference alone obey it.** -/
theorem Obeys.quiet (h : Obeys c w w₁) (hsound : w₁.Sound) (hc : Word.holds c.difference = true)
    (hstep : Quiet w₁ w₂) : Obeys c w w₂ := by
  cases hstep with
  | pass hle _ => exact { h with now := Nat.le_trans h.now hle }
  | begin =>
    refine { h with longer := ?longer, later := ?later, heeds := ?heeds }
    case longer =>
      have := h.longer
      simp only [List.length_append]
      omega
    case later =>
      intro i t hi ht
      rw [List.getElem?_append] at ht
      split at ht
      · exact h.later i t hi ht
      · obtain rfl := List.mem_singleton.mp (List.mem_of_getElem? ht)
        exact h.now
    case heeds =>
      intro i t d hfresh ht hd
      rw [List.getElem?_append, hsound.aligned] at ht
      rw [List.getElem?_append] at hd
      split at ht
      · rw [if_pos ‹_›] at hd
        exact h.heeds i t d hfresh ht hd
      · -- the call that has just begun
        rw [if_neg ‹_›] at hd
        obtain rfl := List.mem_singleton.mp (List.mem_of_getElem? ht)
        obtain rfl := List.mem_singleton.mp (List.mem_of_getElem? hd)
        rfl
  | go hgo hcalls hoffset => exact h.go hsound hc hgo hcalls hoffset
  | measure _ _ | fail _ _ => exact { h with }

theorem Obeys.pause (h : Obeys c w w₁) (hsound : w₁.Sound) (hc : Word.holds c.difference = true)
    (hpause : Pause w₁ w₂) : Obeys c w w₂ ∧ w₂.Sound := by
  induction hpause with
  | refl => exact ⟨h, hsound⟩
  | tail _ hstep ih => exact ⟨ih.1.quiet ih.2 hc hstep, ih.2.quiet hstep⟩

/-- **Stamps follow the clock of the exchange** from one comparison to the next, and what is out of
range is known.

* A comparison breaks only if the exchange told a time that is too far back.
* As long as a comparison is in force, the desk has a stamp just if the corrected clock is below its
  bound.
* A call that had not read the difference when the comparison took effect comes back with no less
  than the clock that it read and that difference make.  It breaks only if they make too much, or
  after 2^63 stamps.
* What calls that began since then read from the clock is not before the comparison. -/
theorem stamps_follow_comparison {clock : Nat} (hclock : clock < Word.bound63)
    (hrun : Run (start clock) w) :
    (∀ c ∈ w.failed, c.difference < -(Word.bound63 : Int)) ∧
    ∀ c ∈ w.measured, -(Word.bound63 : Int) ≤ c.difference ∧ ∀ w', Pause (w.apply c) w' →
      ((w'.mint.nonce.stamp? w'.clock).isSome ↔ (w'.clock : Int) + c.difference < Word.bound63) ∧
      (∀ i t, w.Fresh i → w'.began[i]? = some t →
        (∀ stamp, w'.mint.returnedBy i = some stamp →
          (t : Int) + c.difference < Word.bound63 ∧ max 0 ((t : Int) + c.difference) ≤ stamp) ∧
        (w'.mint.draws[i]? = some .broken →
          (Word.bound63 : Int) ≤ t + c.difference ∨ Word.bound63 ≤ w'.mint.order.length)) ∧
      ∀ i t, w.began.length ≤ i → w'.began[i]? = some t → c.clock ≤ t := by
  have hsound := (sound_start hclock).run hrun
  refine ⟨hsound.failed, fun c hc => ?_⟩
  have hholds := (hsound.measured c hc).1
  refine ⟨(Word.holds_iff.mp hholds).1, fun w' hpause => ?_⟩
  obtain ⟨hobeys, hsound'⟩ := (obeys_apply hsound hc).pause (hsound.apply c) hholds hpause
  refine ⟨?stamp, fun i t hfresh ht => ⟨fun stamp hstamp => ?returned, fun hbroken => ?broken⟩,
    hobeys.later⟩
  case stamp =>
    have hlow := (Word.holds_iff.mp hholds).1
    simp only [Nonce.stamp?, Nonce.inRange, hobeys.offset]
    rw [Option.isSome_ite, Word.holds_iff]
    omega
  case returned =>
    obtain ⟨d, hd, hreturned⟩ := Option.bind_eq_some_iff.mp hstamp
    have hheeds := hobeys.heeds i t d hfresh ht hd
    have htimely := hsound'.growing.timely d (List.mem_of_getElem? hd)
    cases d with
    | timed | corrected | loaded | stored | broken => cases hreturned
    | returned clock offset v =>
      cases hreturned
      obtain ⟨rfl, rfl, hbelow⟩ := hheeds
      exact ⟨hbelow, htimely⟩
  case broken => exact hobeys.heeds i t .broken hfresh ht hbroken

/-- The exchange is four milliseconds ahead, and so is the next stamp. -/
theorem stamps_follow_comparison_ahead :
    5 < Word.bound63 ∧ Run (start 5) ⟨.start .start, 5, [], [⟨9, 5⟩], []⟩ ∧
      ∃ w', Pause (apply ⟨.start .start, 5, [], [⟨9, 5⟩], []⟩ ⟨9, 5⟩) w' ∧ w'.began = [5] ∧
        w'.mint.returnedBy 0 = some 9 ∧
        ((5 : Nat) : Int) + (⟨9, 5⟩ : Comparison).difference < Word.bound63 ∧
        max 0 (((5 : Nat) : Int) + (⟨9, 5⟩ : Comparison).difference) ≤ (9 : Nat) := by
  have hmeasured : Run (start 5) ⟨.start .start, 5, [], [⟨9, 5⟩], []⟩ :=
    .single (.quiet (@Quiet.measure (start 5) 9 4 (by decide) (by decide)))
  have hread : Pause (apply ⟨.start .start, 5, [], [⟨9, 5⟩], []⟩ ⟨9, 5⟩)
      ⟨⟨⟨0, 4⟩, [.loaded 5 4 0], []⟩, 5, [5], [], []⟩ :=
    ((Relation.ReflTransGen.single .begin).tail
      (.go (.correct (i := 0) rfl rfl) rfl rfl)).tail (.go (.load (i := 0) rfl) rfl rfl)
  have hstore : Quiet ⟨⟨⟨0, 4⟩, [.loaded 5 4 0], []⟩, 5, [5], [], []⟩
      ⟨⟨⟨9, 4⟩, [.stored 5 4 0], [0]⟩, 5, [5], [], []⟩ :=
    .go (@Mint.Step.store _ 0 5 4 rfl (by decide)) rfl rfl
  have hback : Quiet ⟨⟨⟨9, 4⟩, [.stored 5 4 0], [0]⟩, 5, [5], [], []⟩
      ⟨⟨⟨9, 4⟩, [.returned 5 4 9], [0]⟩, 5, [5], [], []⟩ :=
    .go (@Mint.Step.finish _ 0 5 4 0 rfl) rfl rfl
  have hpause := (hread.tail hstore).tail hback
  have hfollow := stamps_follow_comparison (by decide) hmeasured
  have hfresh : Fresh ⟨.start .start, 5, [], [⟨9, 5⟩], []⟩ 0 := nofun
  exact ⟨by decide, hmeasured, _, hpause, rfl, rfl,
    ((hfollow.2 ⟨9, 5⟩ (by decide)).2 _ hpause).2.1 0 5 hfresh rfl |>.1 9 rfl⟩

/-- **Both numbers leave their ranges.**  A time at the beginning of the range breaks the comparison
one millisecond after the epoch; and after one at its end, the first call that begins when the clock
has moved on breaks. -/
theorem comparison_overflows :
    (Client.minuteClient.syncClock.breakdown (.start ⟨1, 100⟩ 1) fun _ =>
      .ok ⟨200, "\x7b\"serverTime\":-9223372036854775808\x7d"⟩) = some .difference ∧
    ∃ w w', Run (start 5) w ∧ w.measured = [⟨9223372036854775807, 5⟩] ∧
      Pause (w.apply ⟨9223372036854775807, 5⟩) w' ∧ w'.began = [6] ∧
        w'.mint.draws = [.broken] := by
  have hmeasured : Run (start 5) ⟨.start .start, 5, [], [⟨9223372036854775807, 5⟩], []⟩ :=
    .single (.quiet (@Quiet.measure (start 5) 9223372036854775807 9223372036854775802
      (by decide) (by decide)))
  have hmoved : Pause
      (apply ⟨.start .start, 5, [], [⟨9223372036854775807, 5⟩], []⟩ ⟨9223372036854775807, 5⟩)
      ⟨⟨⟨0, 9223372036854775802⟩, [.timed 6], []⟩, 6, [6], [], []⟩ :=
    (Relation.ReflTransGen.single (.pass (show 5 ≤ 6 by decide) (by decide))).tail .begin
  exact ⟨by decide +kernel, _, _, hmeasured, rfl, hmoved.tail
    (.go (.leave (i := 0) rfl (by decide)) rfl rfl), rfl, rfl⟩

end Clockwork
end OrderDesk
