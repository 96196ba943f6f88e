import OrderDesk.Proofs.Pool.Books

/-!
# What the carriers of a pool weigh

The weight of a carrier is written in one place only, and two entries touch it: a symbol that is put
on a carrier adds its weight (`subscribe_weightAt`), and a symbol that is taken off takes away what
it weighs by then (`unsubscribe_weightAt`).  A subscription breaks down just where the first of the
two leaves the range of a weight (`subscribe_eq_outOfRange_iff`).
-/

namespace OrderDesk.Pool

variable {p q : Pool} {s : String} {t : TickKind} {o : PoolOrder}

/-- The weight of a carrier; one that is still to come weighs nothing. -/
def weightAt (p : Pool) (index : Nat) : Nat := ((p.carriers[index]?).map (·.weight)).getD 0

/-- The carrier that the next symbol goes to. -/
def nextCarrier (p : Pool) : Option Nat :=
  (Load.place (p.carriers.map load) p.limits.connections p.limits.symbols).map fun
    | .existing index => index
    | .new => p.carriers.length

theorem weightAt_mapCarrier (p : Pool) {i : Nat} (j : Nat) {f : Carrier → Carrier} {g : Nat → Nat}
    (hf : ∀ c, (f c).weight = g c.weight) (hi : i < p.carriers.length ∨ g 0 = 0) :
    (p.mapCarrier i f).weightAt j = if j = i then g (p.weightAt i) else p.weightAt j := by
  unfold weightAt mapCarrier
  by_cases hj : j = i
  · subst hj
    cases hc : p.carriers[j]? with
    | some c => simp [hc, hf]
    | none =>
      have hg : g 0 = 0 := by
        refine hi.resolve_left fun hlt => ?_
        rw [List.getElem?_eq_getElem hlt] at hc
        cases hc
      simp [hc, hg]
  · simp [Ne.symm hj, hj]

/-! ## 1. A symbol that is put on a carrier -/

theorem weightAt_carry {i : Nat} (hi : i < p.carriers.length) (h : p.carry s i = some q) :
    p.weightAt i + p.weightOf s < Word.bound64 ∧
      ∀ j, q.weightAt j = if j = i then p.weightAt i + p.weightOf s else p.weightAt j := by
  unfold carry at h
  dsimp only at h
  split at h
  · rename_i hfits
    obtain rfl := Option.some.inj h
    exact ⟨hfits, fun j => p.weightAt_mapCarrier j (g := fun _ => p.weightAt i + p.weightOf s)
      (fun _ => rfl) (Or.inl hi)⟩
  · cases h

theorem carry_eq_none_iff {i : Nat} :
    p.carry s i = none ↔ Word.bound64 ≤ p.weightAt i + p.weightOf s := by
  rw [← Nat.not_lt]
  unfold carry
  dsimp only
  split
  · rename_i hfits
    exact ⟨nofun, fun hnot => absurd hfits hnot⟩
  · rename_i hfits
    exact ⟨fun _ => hfits, fun _ => rfl⟩

/-- A carrier without symbols makes no difference to the weights. -/
theorem weightAt_append_idle (p : Pool) (j : Nat) :
    ({ p with carriers := p.carriers ++ [⟨[], 0⟩] } : Pool).weightAt j = p.weightAt j := by
  unfold weightAt
  rcases Nat.lt_trichotomy j p.carriers.length with hj | rfl | hj
  · simp [List.getElem?_append_left hj]
  · simp
  · have hnew : (p.carriers ++ [(⟨[], 0⟩ : Carrier)])[j]? = none :=
      List.getElem?_eq_none (by rw [List.length_append, List.length_singleton]; omega)
    have hold : p.carriers[j]? = none := List.getElem?_eq_none (by omega)
    simp only [hnew, hold]

/-- **The first subscription to a symbol adds its weight to one carrier.** -/
theorem subscribe_weightAt (hroom : 0 < p.limits.symbols) (h : p.subscribe s t = .placed q o) :
    ∃ i, o = p.putOrder i ∧ p.weightAt i + p.weightOf s < Word.bound64 ∧
      ∀ j, q.weightAt j = if j = i then p.weightAt i + p.weightOf s else p.weightAt j := by
  unfold subscribe at h
  split at h
  · cases h
  split at h
  · cases h
  · rename_i i hplace
    obtain ⟨c, hc, -⟩ := Load.place_eq_existing hroom hplace
    have hi : i < p.carriers.length := by
      obtain ⟨hlt, -⟩ := List.getElem?_eq_some_iff.mp hc
      rwa [List.length_map] at hlt
    split at h
    · rename_i q' hcarry
      cases h
      obtain ⟨hfits, hweights⟩ := weightAt_carry hi hcarry
      exact ⟨i, (if_pos hi).symm, hfits, hweights⟩
    · cases h
  · dsimp only at h
    split at h
    · rename_i q' hcarry
      cases h
      obtain ⟨hfits, hweights⟩ := weightAt_carry (by simp) hcarry
      simp only [weightAt_append_idle] at hfits hweights
      exact ⟨_, (if_neg (Nat.lt_irrefl _)).symm, hfits, hweights⟩
    · cases h

/-- **A subscription breaks down just where a weight gets out of range.** -/
theorem subscribe_eq_outOfRange_iff : p.subscribe s t = .outOfRange ↔
    p.placement.get? s = none ∧
      ∃ i, p.nextCarrier = some i ∧ Word.bound64 ≤ p.weightAt i + p.weightOf s := by
  unfold subscribe nextCarrier
  rw [Table.contains_eq_isSome]
  cases p.placement.get? s with
  | some i => simp
  | none =>
    cases Load.place (p.carriers.map load) p.limits.connections p.limits.symbols with
    | none => simp
    | some choice =>
      cases choice with
      | existing i =>
        have hnone := carry_eq_none_iff (p := p) (s := s) (i := i)
        cases hcarry : p.carry s i <;> simp_all
      | new =>
        have hnone : ({ p with carriers := p.carriers ++ [⟨[], 0⟩] } : Pool).carry s
            p.carriers.length = none ↔
              Word.bound64 ≤ p.weightAt p.carriers.length + p.weightOf s := by
          rw [← weightAt_append_idle]
          exact carry_eq_none_iff
        cases hcarry : ({ p with carriers := p.carriers ++ [⟨[], 0⟩] } : Pool).carry s
          p.carriers.length <;> simp_all

/-! ## 2. A symbol that is taken off -/

@[simp] theorem uncount_weights (p : Pool) (s : String) (t : TickKind) :
    (p.uncount s t).weights = p.weights := by
  unfold uncount; split <;> rfl

/-- **The end of the last subscription to a symbol takes its weight off one carrier**, as far as
there is any; the end of another one leaves the weights as they are. -/
theorem unsubscribe_weightAt {there : Bool} {order : Option PoolOrder}
    (h : p.unsubscribe s t = (there, q, order)) :
    (order = none ∧ ∀ j, q.weightAt j = p.weightAt j) ∨
    ∃ i, order = some (.drop i) ∧
      ∀ j, q.weightAt j = if j = i then p.weightAt i - p.weightOf s else p.weightAt j := by
  unfold unsubscribe at h
  split at h
  · cases h
    exact Or.inl ⟨rfl, fun _ => rfl⟩
  split at h
  · cases h
    exact Or.inl ⟨rfl, fun _ => rfl⟩
  dsimp only at h
  split at h
  · unfold release at h
    dsimp only at h
    split at h
    · cases h
      exact Or.inl ⟨rfl, fun _ => rfl⟩
    · rename_i i _
      cases h
      refine Or.inr ⟨i, rfl, fun j => ?_⟩
      exact p.weightAt_mapCarrier j (g := (· - p.weightOf s)) (fun _ => rfl)
        (Or.inr (Nat.zero_sub _))
  · cases h
    exact Or.inl ⟨rfl, fun _ => rfl⟩

end OrderDesk.Pool
