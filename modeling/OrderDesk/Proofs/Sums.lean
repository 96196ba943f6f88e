import Mathlib.Algebra.Order.Field.Basic
import Mathlib.Tactic.Linarith
import OrderDesk.Decimal.Basic
import OrderDesk.Proofs.Amounts

/-!
# Sums of amounts

Two amounts are added exactly, and then as many places are dropped as it takes for the rest to fit
96 bits.  So a sum that can be written as an amount at all is never rounded: the places that have to
go are zeros (`add?_exact`).  Any other sum is the nearest there is with the places that are left
(`abs_add?_sub_le`), and it is a zero just if the exact sum is (`isZero_add?_iff`): what is dropped
is small beside the bits that stay.

There is no sum just where nothing helps, that is where the exact one is at least half a unit above
the greatest whole number of 96 bits (`add?_eq_none_iff`).
-/

namespace OrderDesk.Decimal

/-! ## 1. Rounding a fraction -/

section Rounding

variable {n d : Nat}

/-- A half decides: below it the quotient stays, above it one is added, and at it the even neighbour
is taken. -/
theorem roundHalfEven_cases (n : Nat) (hd : 0 < d) : ∃ q r, n = q * d + r ∧ r < d ∧
    ((2 * r < d ∧ roundHalfEven n d = q) ∨ (2 * r = d ∧ roundHalfEven n d = q + q % 2) ∨
      (d < 2 * r ∧ roundHalfEven n d = q + 1)) := by
  refine ⟨n / d, n % d, (Nat.div_add_mod' n d).symm, Nat.mod_lt n hd, ?_⟩
  unfold roundHalfEven
  rcases Nat.lt_trichotomy (2 * (n % d)) d with hless | heq | hmore
  · exact Or.inl ⟨hless, by simp [Nat.ne_of_lt hless, Nat.le_of_lt hless]⟩
  · exact Or.inr (Or.inl ⟨heq, by simp [heq]⟩)
  · exact Or.inr (Or.inr ⟨hmore, by simp [hmore]⟩)

/-- What is rounded is at most half a unit off. -/
theorem roundHalfEven_near (n : Nat) (hd : 0 < d) :
    2 * n ≤ 2 * (roundHalfEven n d * d) + d ∧ 2 * (roundHalfEven n d * d) ≤ 2 * n + d := by
  obtain ⟨q, r, rfl, hr, hround⟩ := roundHalfEven_cases n hd
  rcases hround with ⟨hhalf, hround⟩ | ⟨hhalf, hround⟩ | ⟨hhalf, hround⟩ <;> rw [hround]
  · omega
  · rcases Nat.mod_two_eq_zero_or_one q with heven | hodd
    · rw [heven, Nat.add_zero]
      omega
    · rw [hodd, Nat.add_one_mul q d]
      omega
  · rw [Nat.add_one_mul q d]
    omega

/-- **Rounding stays below an even bound** just if the fraction is more than half a unit below: at
half a unit the bound itself is the even neighbour. -/
theorem roundHalfEven_lt_iff {bound : Nat} (hd : 0 < d) (heven : bound % 2 = 0) :
    roundHalfEven n d < bound ↔ 2 * n + d < 2 * (bound * d) := by
  obtain ⟨q, r, rfl, hr, hround⟩ := roundHalfEven_cases n hd
  have hsplit : ∀ x, (x < bound ∧ x * d + d ≤ bound * d) ∨ (bound ≤ x ∧ bound * d ≤ x * d) := by
    intro x
    rcases Nat.lt_or_ge x bound with hlt | hge
    · exact Or.inl ⟨hlt, Nat.add_one_mul x d ▸ Nat.mul_le_mul_right d hlt⟩
    · exact Or.inr ⟨hge, Nat.mul_le_mul_right d hge⟩
  have hnext := Nat.add_one_mul q d
  rcases hround with ⟨hhalf, hround⟩ | ⟨hhalf, hround⟩ | ⟨hhalf, hround⟩ <;> rw [hround]
  · have hcase := hsplit q
    omega
  · have hcase := hsplit (q + 1)
    omega
  · have hcase := hsplit (q + 1)
    omega

/-- A whole number is not rounded. -/
theorem roundHalfEven_mul (q : Nat) (hd : 0 < d) : roundHalfEven (q * d) d = q := by
  simp [roundHalfEven, Nat.mul_div_cancel q hd, Nat.mul_mod_left, Nat.ne_of_lt hd]

end Rounding

/-! ## 2. Dropping places -/

section Places

variable {negative : Bool} {n places k m : Nat}

/-- What is left of a number when this many places are dropped. -/
def dropped (n k : Nat) : Nat := roundHalfEven n (tenTo k)

/-- What fits still fits when more places are dropped. -/
theorem dropped_lt_of_le {j : Nat} (hle : j ≤ k) (h : dropped n j < Word.bound96) :
    dropped n k < Word.bound96 := by
  induction hle with
  | refl => exact h
  | @step k _ ih =>
    have hbefore := (roundHalfEven_lt_iff (tenTo_pos k) (by decide)).mp ih
    refine (roundHalfEven_lt_iff (tenTo_pos (k + 1)) (by decide)).mpr ?_
    have hpos : tenTo k ≤ Word.bound96 * tenTo k := Nat.le_mul_of_pos_left _ (by decide)
    rw [tenTo_succ, ← Nat.mul_assoc Word.bound96]
    omega

theorem dropped_zero (n : Nat) : dropped n 0 = n := by
  have hwhole := roundHalfEven_mul n Nat.one_pos
  rw [Nat.mul_one] at hwhole
  exact hwhole

/-- **Zeros are dropped without a loss.** -/
theorem dropped_mul_tenTo {j : Nat} (hle : j ≤ k) :
    dropped (m * tenTo k) j * tenTo j = m * tenTo k := by
  obtain ⟨more, rfl⟩ := Nat.exists_eq_add_of_le hle
  have hsplit : m * tenTo (j + more) = m * tenTo more * tenTo j := by
    rw [tenTo_eq, tenTo_eq, tenTo_eq, pow_add]
    ring
  rw [hsplit, dropped, roundHalfEven_mul _ (tenTo_pos j)]

/-- What does not fit before a place is dropped is not nothing after. -/
theorem dropped_succ_pos (h : Word.bound96 ≤ dropped n k) : 0 < dropped n (k + 1) := by
  by_contra hnone
  have hzero : dropped n (k + 1) = 0 := Nat.eq_zero_of_not_pos hnone
  have hbefore := mt (roundHalfEven_lt_iff (n := n) (tenTo_pos k) (by decide)).mpr
    (Nat.not_lt.mpr h)
  have hafter := (roundHalfEven_near n (tenTo_pos (k + 1))).1
  rw [show roundHalfEven n (tenTo (k + 1)) = 0 from hzero, tenTo_succ] at hafter
  have hpos := tenTo_pos k
  -- before, there were nearly `bound96` units; the unit after is ten of them
  have hbound : Word.bound96 * tenTo k = 79228162514264337593543950336 * tenTo k := rfl
  omega

theorem mantissa_of_ofParts? {x : Int} {scale : Nat} {d : Decimal}
    (h : ofParts? x scale = some d) : d.mantissa = x ∧ d.scale = scale := by
  unfold ofParts? at h
  split at h
  · obtain rfl := Option.some.inj h
    refine ⟨?_, rfl⟩
    simp only [mantissa, withSign, decide_eq_true_eq]
    split <;> omega
  · cases h

/-- A number with a sign makes an amount just if it fits. -/
theorem isSome_ofParts?_withSign (negative : Bool) {scale : Nat} (hscale : scale ≤ maxScale) :
    (ofParts? (withSign negative m) scale).isSome = true ↔ m < Word.bound96 := by
  have habs := natAbs_withSign negative m
  unfold ofParts?
  by_cases hfits : m < Word.bound96
  · rw [dif_pos ⟨habs.symm ▸ hfits, hscale⟩]
    exact iff_of_true rfl hfits
  · rw [dif_neg fun h => hfits (habs ▸ h.1)]
    exact iff_of_false Bool.false_ne_true hfits

/-- An amount that is left when this many places are dropped, and no fewer would do. -/
structure Fitted (negative : Bool) (n places k : Nat) (d : Decimal) : Prop where
  le : k ≤ places
  scale : d.scale = places - k
  mantissa : d.mantissa = withSign negative (dropped n k)
  fits : dropped n k < Word.bound96
  needed : ∀ j < k, Word.bound96 ≤ dropped n j

/-- What fits is kept. -/
theorem fit?_of_lt {left : Nat} (hleft : left ≤ maxScale)
    (hneeded : ∀ j < k, Word.bound96 ≤ dropped n j) (h : dropped n k < Word.bound96) :
    ∃ d, fit? negative n k left = some d ∧ Fitted negative n (k + left) k d := by
  obtain ⟨d, hd⟩ := Option.isSome_iff_exists.mp
    ((isSome_ofParts?_withSign negative hleft).mpr h)
  obtain ⟨hmantissa, hscale⟩ := mantissa_of_ofParts? hd
  refine ⟨d, ?_, Nat.le_add_right k left, ?_, hmantissa, h, hneeded⟩
  · rw [dropped] at hd
    cases left with
    | zero => exact hd
    | succ left => rw [fit?, hd]
  · rw [hscale, Nat.add_sub_cancel_left]

theorem ofParts?_of_le (negative : Bool) {scale : Nat} (hscale : scale ≤ maxScale)
    (h : Word.bound96 ≤ m) : ofParts? (withSign negative m) scale = none :=
  Option.not_isSome_iff_eq_none.mp
    (mt (isSome_ofParts?_withSign negative hscale).mp (Nat.not_lt.mpr h))

/-- **Places are dropped until the rest fits**, or there are none left.  The induction is on the
places that are left. -/
theorem fit?_cases (negative : Bool) (n : Nat) {k left : Nat} (hleft : left ≤ maxScale)
    (hneeded : ∀ j < k, Word.bound96 ≤ dropped n j) :
    (∃ j d, fit? negative n k left = some d ∧ Fitted negative n (k + left) j d) ∨
      (fit? negative n k left = none ∧ Word.bound96 ≤ dropped n (k + left)) := by
  induction left generalizing k with
  | zero =>
    rcases Nat.lt_or_ge (dropped n k) Word.bound96 with hfits | hlarge
    · exact Or.inl ⟨k, fit?_of_lt hleft hneeded hfits⟩
    · exact Or.inr ⟨ofParts?_of_le negative hleft hlarge, hlarge⟩
  | succ left ih =>
    rcases Nat.lt_or_ge (dropped n k) Word.bound96 with hfits | hlarge
    · exact Or.inl ⟨k, fit?_of_lt hleft hneeded hfits⟩
    · have hnone := ofParts?_of_le negative hleft hlarge
      have hnext : fit? negative n k (left + 1) = fit? negative n (k + 1) left := by
        rw [dropped] at hnone
        rw [fit?, hnone]
      rw [hnext, ← Nat.add_assoc, Nat.add_right_comm]
      refine ih (Nat.le_of_succ_le hleft) fun j hj => ?_
      rcases Nat.lt_succ_iff_lt_or_eq.mp hj with hlt | rfl
      · exact hneeded j hlt
      · exact hlarge

/-- What is left is not nothing unless there was nothing. -/
theorem Fitted.dropped_eq_zero_iff {d : Decimal} (h : Fitted negative n places k d) :
    dropped n k = 0 ↔ n = 0 := by
  cases k with
  | zero => rw [dropped_zero]
  | succ k =>
    have hlarge := h.needed k (Nat.lt_succ_self k)
    have hsome : dropped n (k + 1) ≠ 0 := Nat.ne_of_gt (dropped_succ_pos hlarge)
    refine iff_of_false hsome ?_
    rintro rfl
    exact hsome (by simp [dropped, roundHalfEven])

/-- **Where dropping zeros is enough, only zeros are dropped.** -/
theorem Fitted.exact {d : Decimal} {j : Nat} (h : Fitted negative n places k d)
    (hzeros : n = m * tenTo j) (hm : m < Word.bound96) : dropped n k * tenTo k = n := by
  have hle : k ≤ j := by
    by_contra hmore
    have hlarge := h.needed j (Nat.lt_of_not_le hmore)
    rw [hzeros, dropped, roundHalfEven_mul m (tenTo_pos j)] at hlarge
    exact Nat.not_lt.mpr hlarge hm
  rw [hzeros]
  exact dropped_mul_tenTo hle

end Places

/-! ## 3. Two amounts -/

section Sum

variable {a b c : Decimal}

/-- The sum of two amounts in units of the last place of either. -/
def total (a b : Decimal) : Int :=
  a.mantissaAt (max a.scale b.scale) + b.mantissaAt (max a.scale b.scale)

theorem value_add (a b : Decimal) :
    a.value + b.value = (total a b : ℚ) / 10 ^ max a.scale b.scale := by
  rw [value_eq_mantissaAt (Nat.le_max_left a.scale b.scale),
    value_eq_mantissaAt (Nat.le_max_right a.scale b.scale), total]
  push_cast
  ring

theorem withSign_natAbs (x : Int) : withSign (decide (x < 0)) x.natAbs = x := by
  simp only [withSign, decide_eq_true_eq]
  split <;> omega

theorem cast_withSign (negative : Bool) (n : Nat) :
    ((withSign negative n : Int) : ℚ) = (if negative then -1 else 1) * n := by
  cases negative <;> simp [withSign]

theorem isZero_iff : a.isZero = true ↔ a.value = 0 := by
  have hunit : (10 : ℚ) ^ a.scale ≠ 0 := by positivity
  rw [isZero, beq_iff_eq, value, div_eq_zero_iff, or_iff_left hunit, Int.cast_eq_zero, mantissa]
  cases a.negative <;> simp [withSign]

/-- **A sum is what is left of the exact one**, unless one of the amounts is a zero or nothing is
left that fits. -/
theorem add?_cases (a b : Decimal) :
    (a.value = 0 ∧ a.add? b = some b) ∨ (b.value = 0 ∧ a.add? b = some a) ∨
      (∃ k c, a.add? b = some c ∧
        Fitted (total a b < 0) (total a b).natAbs (max a.scale b.scale) k c) ∨
      (a.add? b = none ∧ Word.bound96 ≤ dropped (total a b).natAbs (max a.scale b.scale)) := by
  unfold add?
  by_cases ha : a.isZero = true
  · exact Or.inl ⟨isZero_iff.mp ha, if_pos ha⟩
  rw [if_neg ha]
  by_cases hb : b.isZero = true
  · exact Or.inr (Or.inl ⟨isZero_iff.mp hb, if_pos hb⟩)
  rw [if_neg hb]
  have hplaces : max a.scale b.scale ≤ maxScale := Nat.max_le.mpr ⟨a.scale_le, b.scale_le⟩
  have hfit := fit?_cases (decide (total a b < 0)) (total a b).natAbs hplaces
    (k := 0) (fun j hj => absurd hj (Nat.not_lt_zero j))
  rw [Nat.zero_add] at hfit
  exact Or.inr (Or.inr hfit)

/-- What an amount is worth without its sign. -/
theorem abs_value (d : Decimal) : |d.value| = d.magnitude / 10 ^ d.scale := by
  have hmantissa : |(d.mantissa : ℚ)| = d.magnitude := by
    rw [← Int.cast_abs, Int.abs_eq_natAbs, mantissa, natAbs_withSign]
    rfl
  rw [value, abs_div, hmantissa, abs_of_pos (by positivity)]

theorem abs_value_add (a b : Decimal) :
    |a.value + b.value| = (total a b).natAbs / 10 ^ max a.scale b.scale := by
  rw [value_add, abs_div, abs_of_pos (by positivity : (0 : ℚ) < 10 ^ max a.scale b.scale),
    Nat.cast_natAbs, Int.cast_abs]

/-- What is left, at the places that there were. -/
theorem Fitted.value_eq {negative : Bool} {n places k : Nat} (h : Fitted negative n places k c) :
    c.value = (if negative then -1 else 1) * (dropped n k * 10 ^ k) / 10 ^ places := by
  obtain ⟨left, rfl⟩ := Nat.exists_eq_add_of_le h.le
  rw [value, h.mantissa, cast_withSign, h.scale, Nat.add_sub_cancel_left, pow_add]
  field_simp

/-- Half a unit above the greatest whole number of 96 bits. -/
def limit : ℚ := Word.bound96 - 1 / 2

theorem abs_value_lt_limit (d : Decimal) : |d.value| < limit := by
  have hunit : (1 : ℚ) ≤ 10 ^ d.scale := one_le_pow₀ (by norm_num)
  have hmagnitude : (d.magnitude : ℚ) ≤ Word.bound96 - 1 := by
    have hlt : d.magnitude + 1 ≤ Word.bound96 := d.magnitude_lt
    have hcast : (d.magnitude : ℚ) + 1 ≤ Word.bound96 := by exact_mod_cast hlt
    linarith
  calc |d.value| = d.magnitude / 10 ^ d.scale := abs_value d
    _ ≤ d.magnitude := div_le_self (by positivity) hunit
    _ < limit := by
      rw [limit]
      linarith

/-- What does not fit without places is beyond the limit. -/
theorem le_dropped_iff (n places : Nat) :
    Word.bound96 ≤ dropped n places ↔ limit ≤ (n : ℚ) / 10 ^ places := by
  have hunit : (0 : ℚ) < 10 ^ places := by positivity
  have hcast : 2 * (Word.bound96 * 10 ^ places) ≤ 2 * n + 10 ^ places ↔
      2 * (Word.bound96 * 10 ^ places : ℚ) ≤ 2 * n + 10 ^ places := by
    exact_mod_cast Iff.rfl
  rw [← Nat.not_lt, dropped, roundHalfEven_lt_iff (tenTo_pos places) (by decide), Nat.not_lt,
    tenTo_eq, hcast, le_div_iff₀ hunit, limit]
  constructor <;> intro h <;> linarith

/-- **There is no sum just where the exact one is beyond the limit.** -/
theorem add?_eq_none_iff : a.add? b = none ↔ limit ≤ |a.value + b.value| := by
  rcases add?_cases a b with ⟨hzero, hsum⟩ | ⟨hzero, hsum⟩ | ⟨k, c, hsum, hfitted⟩ | ⟨hsum, hlarge⟩
  · rw [hsum, hzero, zero_add]
    exact iff_of_false nofun (not_le.mpr (abs_value_lt_limit b))
  · rw [hsum, hzero, add_zero]
    exact iff_of_false nofun (not_le.mpr (abs_value_lt_limit a))
  · have hfits := dropped_lt_of_le hfitted.le hfitted.fits
    rw [hsum, abs_value_add, ← le_dropped_iff]
    exact iff_of_false nofun (Nat.not_le.mpr hfits)
  · rw [hsum, abs_value_add, ← le_dropped_iff]
    exact iff_of_true rfl hlarge

example : ((ofInt? 79228162514264337593543950335).bind fun a => (ofParts? 5 1).bind a.add?) =
    none := by
  decide +kernel

/-- A number is that of an amount. -/
def Representable (x : ℚ) : Prop := ∃ d : Decimal, d.value = x

/-- What has at most 96 bits at the places of an amount has them after its zeros are dropped. -/
theorem exists_zeros {d : Decimal} {n places : Nat} (h : |d.value| = n / 10 ^ places) :
    ∃ m j, n = m * tenTo j ∧ m < Word.bound96 := by
  have hcross : d.magnitude * 10 ^ places = n * 10 ^ d.scale := by
    have hunit : (10 : ℚ) ^ d.scale ≠ 0 := by positivity
    have hplaces : (10 : ℚ) ^ places ≠ 0 := by positivity
    rw [abs_value, div_eq_div_iff hunit hplaces] at h
    exact_mod_cast h
  rcases Nat.le_total d.scale places with hle | hle
  · obtain ⟨more, rfl⟩ := Nat.exists_eq_add_of_le hle
    refine ⟨d.magnitude, more, ?_, d.magnitude_lt⟩
    rw [pow_add, mul_left_comm, mul_comm n] at hcross
    exact (Nat.eq_of_mul_eq_mul_left (by positivity) hcross).symm
  · obtain ⟨more, hmore⟩ := Nat.exists_eq_add_of_le hle
    rw [hmore, pow_add, mul_left_comm, mul_comm d.magnitude] at hcross
    have hmagnitude : d.magnitude = n * 10 ^ more :=
      Nat.eq_of_mul_eq_mul_left (by positivity) hcross
    have hn : n ≤ d.magnitude := hmagnitude ▸ Nat.le_mul_of_pos_right n (by positivity)
    exact ⟨n, 0, (Nat.mul_one n).symm, Nat.lt_of_le_of_lt hn d.magnitude_lt⟩

/-- **A sum that is that of an amount is exact.** -/
theorem add?_exact (h : Representable (a.value + b.value)) :
    ∃ c, a.add? b = some c ∧ c.value = a.value + b.value := by
  obtain ⟨d, hd⟩ := h
  rcases add?_cases a b with ⟨hzero, hsum⟩ | ⟨hzero, hsum⟩ | ⟨k, c, hsum, hfitted⟩ | ⟨hsum, -⟩
  · exact ⟨b, hsum, by rw [hzero, zero_add]⟩
  · exact ⟨a, hsum, by rw [hzero, add_zero]⟩
  · obtain ⟨m, j, hzeros, hm⟩ := exists_zeros (hd ▸ abs_value_add a b)
    have hexact : (dropped (total a b).natAbs k * 10 ^ k : ℚ) = (total a b).natAbs := by
      exact_mod_cast hfitted.exact hzeros hm
    refine ⟨c, hsum, ?_⟩
    rw [hfitted.value_eq, hexact, ← cast_withSign, withSign_natAbs, value_add]
  · rw [add?_eq_none_iff, ← hd] at hsum
    exact absurd hsum (not_le.mpr (abs_value_lt_limit d))

/-- **A sum is a zero just if the exact one is.** -/
theorem isZero_add?_iff (h : a.add? b = some c) : c.isZero = true ↔ a.value + b.value = 0 := by
  rcases add?_cases a b with ⟨hzero, hsum⟩ | ⟨hzero, hsum⟩ | ⟨k, c', hsum, hfitted⟩ | ⟨hsum, -⟩ <;>
    cases h.symm.trans hsum
  · rw [isZero_iff, hzero, zero_add]
  · rw [isZero_iff, hzero, add_zero]
  · have hunit : (10 : ℚ) ^ max a.scale b.scale ≠ 0 := by positivity
    have hmantissa : c.isZero = true ↔ dropped (total a b).natAbs k = 0 := by
      rw [isZero, beq_iff_eq, ← natAbs_withSign c.negative c.magnitude,
        show withSign c.negative c.magnitude = _ from hfitted.mantissa, natAbs_withSign]
    rw [hmantissa, hfitted.dropped_eq_zero_iff, Int.natAbs_eq_zero, value_add,
      div_eq_zero_iff, or_iff_left hunit, Int.cast_eq_zero]

/-- Dropping places changes a number by half a unit of the last one that is left, at most. -/
theorem abs_dropped_sub_le (n k : Nat) : |(dropped n k : ℚ) * 10 ^ k - n| ≤ 10 ^ k / 2 := by
  obtain ⟨hlow, hhigh⟩ := roundHalfEven_near n (tenTo_pos k)
  have hlow : 2 * (n : ℚ) ≤ 2 * (dropped n k * 10 ^ k) + 10 ^ k := by exact_mod_cast hlow
  have hhigh : 2 * (dropped n k * 10 ^ k : ℚ) ≤ 2 * n + 10 ^ k := by exact_mod_cast hhigh
  rw [abs_le]
  constructor <;> linarith

/-- **A sum is the nearest there is** with the places that are left. -/
theorem abs_add?_sub_le (h : a.add? b = some c) :
    |c.value - (a.value + b.value)| ≤ 1 / 2 / 10 ^ c.scale := by
  rcases add?_cases a b with ⟨hzero, hsum⟩ | ⟨hzero, hsum⟩ | ⟨k, c', hsum, hfitted⟩ | ⟨hsum, -⟩ <;>
    cases h.symm.trans hsum
  · rw [hzero, zero_add, sub_self, abs_zero]
    positivity
  · rw [hzero, add_zero, sub_self, abs_zero]
    positivity
  · obtain ⟨left, hplaces⟩ := Nat.exists_eq_add_of_le hfitted.le
    have hscale : c.scale = left := by rw [hfitted.scale, hplaces, Nat.add_sub_cancel_left]
    have hsign : ∀ negative : Bool, |(if negative then -1 else 1 : ℚ)| = 1 := by
      intro negative
      cases negative <;> simp
    have htotal := cast_withSign (total a b < 0) (total a b).natAbs
    rw [withSign_natAbs] at htotal
    calc |c.value - (a.value + b.value)|
        = |(dropped (total a b).natAbs k : ℚ) * 10 ^ k - (total a b).natAbs| /
            10 ^ max a.scale b.scale := by
          rw [hfitted.value_eq, value_add, htotal, ← sub_div, ← mul_sub, abs_div, abs_mul, hsign,
            one_mul, abs_of_pos (by positivity : (0 : ℚ) < 10 ^ max a.scale b.scale)]
      _ ≤ 10 ^ k / 2 / 10 ^ max a.scale b.scale :=
          div_le_div_of_nonneg_right (abs_dropped_sub_le _ k) (by positivity)
      _ = 1 / 2 / 10 ^ c.scale := by
          rw [hplaces, hscale, pow_add]
          field_simp

end Sum
end OrderDesk.Decimal
