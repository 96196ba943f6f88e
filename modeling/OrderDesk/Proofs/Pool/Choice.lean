import Mathlib.Algebra.GroupWithZero.Nat
import OrderDesk.Proofs.Pool.Weights

/-!
# Which carrier takes a symbol

A symbol that is not placed yet goes to the first carrier without symbols; if there is none, to a
new carrier while more are allowed; and else, of the carriers that have room, to the one that comes
before all others by its weight, its number of symbols and its place (`Takes`).  There is never more
than one such carrier, and it is the one that the pool finds (`takes_iff`).

Nothing is found just where every carrier that is allowed is there and has no room
(`nextCarrier_eq_none_iff`).  This is a statement about the carriers; in terms of the symbols it
says that as many are placed as there can be (`size_placement_eq_iff`).  The step from one to the
other is a count: every placed symbol stands on just one carrier, so that the carriers together hold
as many symbols as are placed (`size_placement`), and a sum of that many numbers, none of them over
the limit, reaches the greatest it can be only where all of them do.
-/

namespace OrderDesk

namespace Load

/-! ## 1. The lightest of some loads -/

variable {a b c : Load} {i j k : Nat}

/-- The load `a` in place `i` is not behind the load `b` in place `j`: it is lighter, or as light
with fewer symbols, or as light with as many symbols and no further back. -/
def Precedes (a : Load) (i : Nat) (b : Load) (j : Nat) : Prop :=
  a.weight < b.weight ∨
    a.weight = b.weight ∧ (a.symbols < b.symbols ∨ a.symbols = b.symbols ∧ i ≤ j)

theorem Precedes.trans (h : a.Precedes i b j) (h' : b.Precedes j c k) : a.Precedes i c k := by
  unfold Precedes at *
  omega

/-- Two loads in different places are never level. -/
theorem Precedes.antisymm (h : a.Precedes i b j) (h' : b.Precedes j a i) : i = j := by
  unfold Precedes at *
  omega

theorem isLighter_iff : a.isLighter b = true ↔
    a.weight < b.weight ∨ a.weight = b.weight ∧ a.symbols < b.symbols := by
  simp [isLighter]

theorem precedes_of_isLighter (h : a.isLighter b = true) : a.Precedes i b j := by
  rw [isLighter_iff] at h
  unfold Precedes
  omega

/-- A load that is not lighter than one before it stays behind it. -/
theorem precedes_of_not_isLighter (h : ¬ a.isLighter b = true) (hij : i ≤ j) :
    b.Precedes i a j := by
  rw [isLighter_iff] at h
  unfold Precedes
  omega

/-- One more load is looked at: it is taken if it has room and is lighter than what was found. -/
theorem lightestFrom_cons (room index : Nat) (best : Option (Nat × Load)) (head : Load)
    (rest : List Load) : lightestFrom room index best (head :: rest) =
      lightestFrom room (index + 1)
        (if head.symbols < room ∧ best.all (fun found => head.isLighter found.2) = true
          then some (index, head) else best) rest := by
  cases best <;> simp [lightestFrom]

theorem lightestFrom_eq_none {room index : Nat} {best : Option (Nat × Load)} (loads : List Load) :
    lightestFrom room index best loads = none ↔
      best = none ∧ ∀ l ∈ loads, room ≤ l.symbols := by
  induction loads generalizing index best with
  | nil => simp [lightestFrom]
  | cons head rest ih =>
    rw [lightestFrom_cons, ih, List.forall_mem_cons, ← and_assoc]
    refine and_congr_left fun _ => ?_
    cases best with
    | none => simp
    | some found => split <;> simp

/-- **What is found comes before everything that was looked at**, and before what was found
earlier. -/
theorem lightestFrom_precedes {room : Nat} {l : Load} (loads : List Load) :
    ∀ {index : Nat} {best : Option (Nat × Load)}, (∀ n f, best = some (n, f) → n < index) →
      lightestFrom room index best loads = some (i, l) →
        (∀ n f, best = some (n, f) → l.Precedes i f n) ∧
          ∀ j b, loads[j]? = some b → b.symbols < room → l.Precedes i b (index + j) := by
  induction loads with
  | nil =>
    rintro index best - h
    refine ⟨fun n f hbest => ?_, nofun⟩
    obtain ⟨rfl, rfl⟩ : i = n ∧ l = f := by simpa using h.symm.trans hbest
    exact Or.inr ⟨rfl, Or.inr ⟨rfl, Nat.le_refl _⟩⟩
  | cons head rest ih =>
    intro index best hbefore h
    rw [lightestFrom_cons] at h
    -- What is known of the first load and of what was found decides the rest.
    suffices hboth : (head.symbols < room → l.Precedes i head index) ∧
        (∀ n f, best = some (n, f) → l.Precedes i f n) ∧
        ∀ j b, rest[j]? = some b → b.symbols < room → l.Precedes i b (index + 1 + j) by
      obtain ⟨hhead, hbest, hrest⟩ := hboth
      refine ⟨hbest, fun j b hj hroom => ?_⟩
      cases j with
      | zero =>
        obtain rfl : head = b := by simpa using hj
        exact hhead hroom
      | succ j =>
        rw [← Nat.add_assoc, Nat.add_right_comm]
        exact hrest j b (by simpa using hj) hroom
    by_cases hbetter : head.symbols < room ∧ best.all (fun found => head.isLighter found.2) = true
    · rw [if_pos hbetter] at h
      obtain ⟨hhead, hrest⟩ := ih (by rintro _ _ ⟨⟩; exact Nat.lt_succ_self _) h
      have hfirst : l.Precedes i head index := hhead index head rfl
      refine ⟨fun _ => hfirst, fun n f hbest => hfirst.trans ?_, hrest⟩
      rw [hbest] at hbetter
      exact precedes_of_isLighter hbetter.2
    · rw [if_neg hbetter] at h
      obtain ⟨hbest, hrest⟩ := ih (fun n f hf => Nat.lt_succ_of_lt (hbefore n f hf)) h
      refine ⟨fun hroom => ?_, hbest, hrest⟩
      cases best with
      | none => exact absurd ⟨hroom, rfl⟩ hbetter
      | some found =>
        have hnot : ¬ head.isLighter found.2 = true := fun hlighter => hbetter ⟨hroom, hlighter⟩
        exact (hbest _ _ rfl).trans
          (precedes_of_not_isLighter hnot (Nat.le_of_lt (hbefore _ _ rfl)))

end Load

namespace Pool

variable {p q : Pool} {s : String} {t : TickKind} {i j : Nat}

/-! ## 2. The carrier that takes the next symbol -/

/-- The load of a carrier; one that is still to come has none. -/
def loadAt (p : Pool) (index : Nat) : Load := ⟨(p.carriedBy index).length, p.weightAt index⟩

/-- Every carrier has symbols. -/
def Busy (p : Pool) : Prop := ∀ j < p.carriers.length, p.carriedBy j ≠ []

/-- The carrier `i` is the one to take the next symbol. -/
inductive Takes (p : Pool) : (i : Nat) → Prop
  | idle {i : Nat} : i < p.carriers.length → p.carriedBy i = [] →
      (∀ j < i, p.carriedBy j ≠ []) → Takes p i
  | new : p.Busy → p.carriers.length < p.limits.connections → Takes p p.carriers.length
  | lightest {i : Nat} : p.Busy → p.limits.connections ≤ p.carriers.length →
      i < p.carriers.length → (p.carriedBy i).length < p.limits.symbols →
      (∀ j < p.carriers.length, (p.carriedBy j).length < p.limits.symbols →
        (p.loadAt i).Precedes i (p.loadAt j) j) → Takes p i

/-- No two carriers are to take the same symbol. -/
theorem Takes.unique (hi : p.Takes i) (hj : p.Takes j) : i = j := by
  cases hi with
  | idle hlt hidle hfirst =>
    cases hj with
    | idle _ hidle' hfirst' =>
      rcases Nat.lt_trichotomy i j with hij | hij | hij
      · exact absurd hidle (hfirst' i hij)
      · exact hij
      · exact absurd hidle' (hfirst j hij)
    | new hbusy _ | lightest hbusy _ _ _ _ => exact absurd hidle (hbusy i hlt)
  | new hbusy hfew =>
    cases hj with
    | idle hlt hidle _ => exact absurd hidle (hbusy j hlt)
    | new _ _ => rfl
    | lightest _ hall _ _ _ => exact absurd hfew (Nat.not_lt.mpr hall)
  | lightest hbusy hall hlt hroom hfirst =>
    cases hj with
    | idle hlt' hidle _ => exact absurd hidle (hbusy j hlt')
    | new _ hfew => exact absurd hfew (Nat.not_lt.mpr hall)
    | lightest _ _ hlt' hroom' hfirst' =>
      exact (hfirst j hlt' hroom').antisymm (hfirst' i hlt hroom)

theorem getElem?_loads {l : Load} :
    (p.carriers.map load)[j]? = some l ↔ j < p.carriers.length ∧ l = p.loadAt j := by
  rw [List.getElem?_map]
  unfold loadAt carriedBy weightAt
  rcases Nat.lt_or_ge j p.carriers.length with hlt | hge
  · simp [hlt, load, eq_comm]
  · simp [Nat.not_lt.mpr hge]

/-- A carrier whose load counts no symbols has none. -/
theorem carriedBy_eq_nil_iff : p.carriedBy j = [] ↔ (p.loadAt j).symbols = 0 :=
  List.length_eq_zero_iff.symm

/-- The carriers are busy where no load is found that counts no symbols. -/
theorem busy_iff : p.Busy ↔ (p.carriers.map load).findIdx? (fun l => l.symbols == 0) = none := by
  rw [List.findIdx?_eq_none_iff]
  constructor
  · intro hbusy l hl
    obtain ⟨j, hj⟩ := List.mem_iff_getElem?.mp hl
    obtain ⟨hlt, rfl⟩ := getElem?_loads.mp hj
    exact beq_eq_false_iff_ne.mpr (mt carriedBy_eq_nil_iff.mpr (hbusy j hlt))
  · intro hnone j hlt hnil
    have hload := hnone _ (List.mem_of_getElem? (getElem?_loads.mpr ⟨hlt, rfl⟩))
    exact beq_eq_false_iff_ne.mp hload (carriedBy_eq_nil_iff.mp hnil)

/-- **What is found is the carrier that is to take the symbol.** -/
theorem takes_of_nextCarrier (h : p.nextCarrier = some i) : p.Takes i := by
  unfold nextCarrier Load.place at h
  cases hidle : (p.carriers.map load).findIdx? fun l => l.symbols == 0 with
  | some n =>
    rw [hidle] at h
    obtain rfl : n = i := by simpa using h
    obtain ⟨hlt, hzero, hfirst⟩ := List.findIdx?_eq_some_iff_getElem.mp hidle
    have hload : ∀ j (hj : j < (p.carriers.map load).length),
        (p.carriers.map load)[j] = p.loadAt j :=
      fun j hj => (getElem?_loads.mp (List.getElem?_eq_getElem hj)).2
    rw [List.length_map] at hlt
    refine .idle hlt (carriedBy_eq_nil_iff.mpr ?_) fun j hj => mt carriedBy_eq_nil_iff.mp ?_
    · rw [hload] at hzero
      exact beq_iff_eq.mp hzero
    · have hsome := hfirst j hj
      rw [hload] at hsome
      simpa using hsome
  | none =>
    have hbusy := busy_iff.mpr hidle
    rw [hidle] at h
    dsimp only at h
    split at h
    · rename_i hfew
      rw [List.length_map] at hfew
      obtain rfl : p.carriers.length = i := by simpa using h
      exact .new hbusy hfew
    · rename_i hall
      rw [List.length_map] at hall
      rw [Option.map_map] at h
      obtain ⟨n, hfound, hi⟩ := Option.map_eq_some_iff.mp h
      obtain rfl : n = i := hi
      obtain ⟨found, hlight, rfl⟩ := Option.map_eq_some_iff.mp hfound
      rcases Load.lightestFrom_eq_some _ hlight with hnone | ⟨j, hn, hj, hroom⟩
      · cases hnone
      · obtain ⟨hlt, hload⟩ := getElem?_loads.mp hj
        rw [Nat.zero_add] at hn
        rw [← hn] at hlt hload
        rw [hload] at hroom
        refine .lightest hbusy (Nat.not_lt.mp hall) hlt hroom fun j hj hroom' => ?_
        have hbefore := (Load.lightestFrom_precedes _ (by rintro _ _ ⟨⟩) hlight).2 j _
          (getElem?_loads.mpr ⟨hj, rfl⟩) hroom'
        rwa [Nat.zero_add, hload] at hbefore

/-- **Nothing is found just where all carriers are there and none has room.** -/
theorem nextCarrier_eq_none_iff (hroom : 0 < p.limits.symbols) : p.nextCarrier = none ↔
    p.limits.connections ≤ p.carriers.length ∧
      ∀ c ∈ p.carriers, p.limits.symbols ≤ c.symbols.length := by
  have hloads : (∀ l ∈ p.carriers.map load, p.limits.symbols ≤ l.symbols) ↔
      ∀ c ∈ p.carriers, p.limits.symbols ≤ c.symbols.length := by
    simp [load]
  unfold nextCarrier Load.place
  rw [Option.map_eq_none_iff, ← hloads, ← Nat.not_lt]
  cases hidle : (p.carriers.map load).findIdx? fun l => l.symbols == 0 with
  | some n =>
    obtain ⟨hlt, hzero, -⟩ := List.findIdx?_eq_some_iff_getElem.mp hidle
    refine ⟨nofun, fun ⟨_, hfull⟩ => ?_⟩
    have := hfull _ (List.getElem_mem hlt)
    rw [beq_iff_eq] at hzero
    omega
  | none =>
    dsimp only
    rw [List.length_map]
    split
    · rename_i hfew
      exact ⟨nofun, fun h => absurd hfew h.1⟩
    · rename_i hall
      simp only [Load.lightest?, Option.map_eq_none_iff, Load.lightestFrom_eq_none, true_and, hall,
        not_false_eq_true]

/-- **The pool finds the carrier that is to take the symbol**, and no other. -/
theorem takes_iff (hroom : 0 < p.limits.symbols) : p.Takes i ↔ p.nextCarrier = some i := by
  refine ⟨fun htakes => ?_, takes_of_nextCarrier⟩
  cases hnext : p.nextCarrier with
  | some j => rw [htakes.unique (takes_of_nextCarrier hnext)]
  | none =>
    obtain ⟨hall, hfull⟩ := (nextCarrier_eq_none_iff hroom).mp hnext
    have hfull' : ∀ j < p.carriers.length, p.limits.symbols ≤ (p.carriedBy j).length := by
      intro j hj
      simpa [carriedBy, List.getElem?_eq_getElem hj] using hfull _ (List.getElem_mem hj)
    cases htakes with
    | idle hlt hidle _ =>
      have := hfull' i hlt
      rw [hidle, List.length_nil] at this
      omega
    | new _ hfew => omega
    | lightest _ _ hlt hfree _ => exact absurd hfree (Nat.not_lt.mpr (hfull' i hlt))

/-! ## 3. Room for symbols -/

theorem mem_flatMap_symbols : s ∈ p.carriers.flatMap Carrier.symbols ↔ ∃ i, s ∈ p.carriedBy i := by
  rw [List.mem_flatMap]
  constructor
  · rintro ⟨c, hc, hs⟩
    obtain ⟨i, hi⟩ := List.mem_iff_getElem?.mp hc
    exact ⟨i, by simpa [carriedBy, hi] using hs⟩
  · rintro ⟨i, hs⟩
    have hi := lt_of_mem_carriedBy hs
    refine ⟨p.carriers[i], List.getElem_mem hi, ?_⟩
    simpa [carriedBy, List.getElem?_eq_getElem hi] using hs

/-- No symbol stands on the carriers twice. -/
theorem Carried.nodup_flatMap (h : p.Carried) :
    (p.carriers.flatMap Carrier.symbols).Nodup := by
  have hby : ∀ i (hi : i < p.carriers.length), p.carriedBy i = p.carriers[i].symbols := by
    intro i hi
    simp [carriedBy, List.getElem?_eq_getElem hi]
  refine List.nodup_flatMap.mpr ⟨fun c hc => ?_, List.pairwise_iff_getElem.mpr ?_⟩
  · obtain ⟨i, hi, rfl⟩ := List.mem_iff_getElem.mp hc
    rw [← hby i hi]
    exact h.nodup i
  · intro i j hi hj hij x hx hx'
    rw [← hby i hi, ← h.placed_iff] at hx
    rw [← hby j hj, ← h.placed_iff] at hx'
    have := Option.some.inj (hx.symm.trans hx')
    omega

/-- **The carriers together hold as many symbols as are placed.** -/
theorem size_placement (h : p.Carried) (hkeys : p.placement.keys.Nodup) :
    p.placement.size = (p.carriers.map fun c => c.symbols.length).sum := by
  have hperm : p.placement.keys.Perm (p.carriers.flatMap Carrier.symbols) := by
    refine (List.perm_ext_iff_of_nodup hkeys h.nodup_flatMap).mpr fun x => ?_
    rw [Table.mem_keys_iff, mem_flatMap_symbols]
    exact exists_congr fun i => h.placed_iff x i
  rw [← List.length_flatMap, ← hperm.length_eq, Table.keys, List.length_map, Table.size]

/-- Numbers up to a bound add up to no more than that many times the bound, and to just that if all
of them reach it. -/
theorem sum_le_mul_and_eq_iff {bound : Nat} {ns : List Nat} (h : ∀ n ∈ ns, n ≤ bound) :
    ns.sum ≤ ns.length * bound ∧ (ns.sum = ns.length * bound ↔ ∀ n ∈ ns, bound ≤ n) := by
  induction ns with
  | nil => simp
  | cons n ns ih =>
    obtain ⟨hn, hns⟩ := List.forall_mem_cons.mp h
    obtain ⟨hle, hiff⟩ := ih hns
    rw [List.sum_cons, List.length_cons, Nat.succ_mul, List.forall_mem_cons, ← hiff]
    omega

/-- **There is no room for another symbol just where as many are placed as there can be.** -/
theorem size_placement_eq_iff (hroom : 0 < p.limits.symbols) (h : p.Carried)
    (hkeys : p.placement.keys.Nodup) :
    p.placement.size = p.limits.connections * p.limits.symbols ↔ p.nextCarrier = none := by
  have hbound : ∀ n ∈ p.carriers.map fun c => c.symbols.length, n ≤ p.limits.symbols := by
    intro n hn
    obtain ⟨c, hc, rfl⟩ := List.mem_map.mp hn
    obtain ⟨i, hi, rfl⟩ := List.mem_iff_getElem.mp hc
    simpa [carriedBy, List.getElem?_eq_getElem hi] using h.room i
  obtain ⟨hle, hiff⟩ := sum_le_mul_and_eq_iff hbound
  rw [List.length_map] at hle hiff
  have hfew := h.few
  rw [size_placement h hkeys, nextCarrier_eq_none_iff hroom,
    show (∀ c ∈ p.carriers, p.limits.symbols ≤ c.symbols.length) ↔
      ∀ n ∈ p.carriers.map fun c => c.symbols.length, p.limits.symbols ≤ n by simp, ← hiff]
  constructor
  · intro hsum
    -- Fewer carriers than are allowed could not hold that many symbols.
    have hall : p.limits.connections ≤ p.carriers.length := by
      by_contra hless
      have := Nat.mul_lt_mul_of_pos_right (Nat.not_le.mp hless) hroom
      omega
    rw [hsum, Nat.le_antisymm hfew hall]
    exact ⟨Nat.le_refl _, rfl⟩
  · rintro ⟨hall, hsum⟩
    rw [hsum, Nat.le_antisymm hfew hall]

/-! ## 4. What comes of a subscription -/

/-- **A symbol is turned away just where it is not placed and nothing is found for it.** -/
theorem subscribe_eq_full_iff :
    p.subscribe s t = .full ↔ p.placement.get? s = none ∧ p.nextCarrier = none := by
  unfold subscribe nextCarrier
  rw [Table.contains_eq_isSome]
  cases p.placement.get? s with
  | some i => simp
  | none =>
    cases Load.place (p.carriers.map load) p.limits.connections p.limits.symbols with
    | none => simp
    | some choice =>
      cases choice with
      | existing i => cases hcarry : p.carry s i <;> simp [hcarry]
      | new =>
        cases hcarry : ({ p with carriers := p.carriers ++ [⟨[], 0⟩] } : Pool).carry s
          p.carriers.length <;> simp [hcarry]

/-- **A symbol that is placed goes to the carrier that was found.** -/
theorem nextCarrier_of_placed (h : p.subscribe s t = .placed q (p.putOrder i)) :
    p.nextCarrier = some i := by
  unfold subscribe at h
  unfold nextCarrier
  split at h
  · cases h
  split at h
  · cases h
  · rename_i j hplace
    rw [hplace]
    split at h
    · injection h with _ horder
      unfold putOrder at horder
      split at horder
      · cases horder
        rfl
      · cases horder
    · cases h
  · rename_i hplace
    rw [hplace]
    dsimp only at h
    split at h
    · injection h with _ horder
      unfold putOrder at horder
      split at horder
      · cases horder
      · cases horder
        rfl
    · cases h

end Pool
end OrderDesk
