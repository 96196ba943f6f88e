import Mathlib.Algebra.Order.Field.Rat
import Mathlib.Tactic.FieldSimp
import OrderDesk.Decimal.Text
import OrderDesk.Proofs.Digits

/-!
# What amounts are worth

The number that an amount stands for is a fraction (`Decimal.value`).  The comparison of the desk
goes by it (`sameValue_iff`), and dropping trailing zeros does not change it (`value_normalize`).

An amount that is written down is read back as it was, but for the sign of a zero
(`ofText?_toText_reread`), which is not worth anything (`value_reread`).  The removal of trailing
zeros leaves no sign on a zero, so an amount without them is read back exactly (`ofText?_toText`).
-/

namespace OrderDesk.Decimal

open OrderDesk.Text

/-! ## 1. The number behind an amount -/

/-- The number that an amount stands for. -/
def value (d : Decimal) : ℚ := d.mantissa / 10 ^ d.scale

example : value ⟨true, 150, 2, by decide, by decide⟩ = -3 / 2 := by norm_num [value, mantissa, withSign]

theorem tenTo_eq (n : Nat) : tenTo n = 10 ^ n := rfl

/-- The mantissa with more places belongs to the same number. -/
theorem value_eq_mantissaAt {d : Decimal} {places : Nat} (h : d.scale ≤ places) :
    d.value = d.mantissaAt places / 10 ^ places := by
  obtain ⟨more, rfl⟩ := Nat.exists_eq_add_of_le h
  rw [value, mantissaAt, tenTo_eq, Nat.add_sub_cancel_left, pow_add]
  push_cast
  field_simp

/-- **Amounts are compared as the numbers that they stand for**: brought to the same places, their
mantissas are those numbers times the same power of ten. -/
theorem value_common (a b : Decimal) : ∃ unit : ℚ, 0 < unit ∧
    a.value = a.mantissaAt (max a.scale b.scale) / unit ∧
    b.value = b.mantissaAt (max a.scale b.scale) / unit :=
  ⟨10 ^ max a.scale b.scale, by positivity, value_eq_mantissaAt (Nat.le_max_left _ _),
    value_eq_mantissaAt (Nat.le_max_right _ _)⟩

/-- Two amounts are the same to the desk if they stand for the same number. -/
theorem sameValue_iff {a b : Decimal} : a.sameValue b = true ↔ a.value = b.value := by
  obtain ⟨unit, hunit, ha, hb⟩ := value_common a b
  rw [sameValue, compare, beq_iff_eq, Std.compare_eq_iff_eq, ha, hb, div_left_inj' hunit.ne',
    Int.cast_inj]

theorem lt_iff {a b : Decimal} : a.lt b = true ↔ a.value < b.value := by
  obtain ⟨unit, hunit, ha, hb⟩ := value_common a b
  rw [lt, compare, beq_iff_eq, compare_lt_iff_lt, ha, hb, div_lt_div_iff_of_pos_right hunit,
    Int.cast_lt]

theorem le_iff {a b : Decimal} : a.le b = true ↔ a.value ≤ b.value := by
  rw [le, Bool.not_eq_true', Bool.eq_false_iff, Ne, lt_iff, not_lt]

/-! ## 2. Trailing zeros -/

/-- What is dropped are zeros. -/
theorem stripZeros_spec (m s : Nat) : (stripZeros m s).1 * 10 ^ (s - (stripZeros m s).2) = m := by
  induction s generalizing m with
  | zero => simp [stripZeros]
  | succ s ih =>
    rw [stripZeros]
    split
    · rename_i hzero
      have hle : (stripZeros (m / 10) s).2 ≤ s := stripZeros_scale_le _ _
      rw [Nat.succ_sub hle, Nat.pow_succ, ← Nat.mul_assoc, ih]
      exact Nat.div_mul_cancel (Nat.dvd_of_mod_eq_zero (by simpa using hzero))
    · simp

/-- **Dropping zeros does not change the number.** -/
theorem value_normalize (d : Decimal) : d.normalize.value = d.value := by
  have hstrip := stripZeros_spec d.magnitude d.scale
  have hscale := stripZeros_scale_le d.magnitude d.scale
  have hmantissa : d.normalize.mantissa * 10 ^ (d.scale - d.normalize.scale) = d.mantissa := by
    unfold mantissa withSign normalize isZero
    dsimp only
    cases hnegative : d.negative with
    | false =>
      simp only [Bool.false_and, Bool.false_eq_true, if_false]
      exact_mod_cast hstrip
    | true =>
      by_cases hzero : d.magnitude = 0
      · have hgone : (stripZeros d.magnitude d.scale).1 = 0 := by
          have := stripZeros_magnitude_le d.magnitude d.scale
          omega
        simp only [hgone]
        simp [hzero]
      · simp only [hzero, Bool.true_and, Bool.not_eq_true', beq_eq_false_iff_ne, ne_eq,
          not_false_eq_true, if_true, neg_mul, neg_inj]
        exact_mod_cast hstrip
  have hplaces : d.normalize.scale ≤ d.scale := hscale
  rw [value_eq_mantissaAt hplaces, mantissaAt, tenTo_eq, value]
  push_cast
  rw [← hmantissa]
  push_cast
  rfl

/-- A sign has something behind it. -/
def IsPlain (d : Decimal) : Prop := d.negative = true → d.magnitude ≠ 0

theorem isPlain_normalize (d : Decimal) : d.normalize.IsPlain := by
  intro hnegative hzero
  obtain ⟨-, hsome⟩ : d.negative = true ∧ d.magnitude ≠ 0 := by
    simpa [normalize, isZero] using hnegative
  have hstrip := stripZeros_spec d.magnitude d.scale
  rw [show (stripZeros d.magnitude d.scale).1 = 0 from hzero, Nat.zero_mul] at hstrip
  exact hsome hstrip.symm

/-! ## 3. Plain notation -/

/-- A text in plain notation: perhaps a minus sign, digits, and perhaps a point with further digits
behind it. -/
def PlainNotation (text : String) : Prop :=
  ∃ sign whole places : List Char, text.toList = sign ++ whole ++ places ∧
    (sign = [] ∨ sign = ['-']) ∧ (whole ≠ [] ∧ ∀ c ∈ whole, (digit? c).isSome = true) ∧
    (places = [] ∨ ∃ digits, places = '.' :: digits ∧ digits ≠ [] ∧
      ∀ c ∈ digits, (digit? c).isSome = true)

/-- **Amounts are written in plain notation.** -/
theorem plainNotation_toText (d : Decimal) : PlainNotation d.toText := by
  refine ⟨if d.negative then ['-'] else [], natDigits (d.magnitude / tenTo d.scale),
    if d.scale = 0 then [] else '.' :: fixedDigits d.scale d.magnitude, ?_, ?_,
    ⟨natDigits_ne_nil _, fun _ => isSome_of_mem_natDigits⟩, ?_⟩
  · rw [toText, String.toList_ofList, pointed]
    by_cases hscale : d.scale = 0 <;> cases d.negative <;> simp [hscale]
  · cases d.negative <;> simp
  · by_cases hscale : d.scale = 0
    · exact Or.inl (if_pos hscale)
    · refine Or.inr ⟨_, if_neg hscale, ?_, fun _ => isSome_of_mem_fixedDigits⟩
      intro hnil
      have hlength := length_fixedDigits d.scale d.magnitude
      rw [hnil] at hlength
      exact hscale hlength.symm

/-! ## 4. Written and read -/

/-- **Digits are read one after another**, before the point and after it, as long as there are
places for them. -/
theorem readDigits_append (negative : Bool) {cs rest : List Char} {start n : Nat}
    {places : Option Nat} {started : Bool} (hvalue : valueFrom start cs = some n)
    (hfits : n < Word.bound96) (hroom : ∀ p, places = some p → p + cs.length ≤ maxScale) :
    readDigits negative start places started (cs ++ rest) =
      readDigits negative n (places.map (· + cs.length)) (started || !cs.isEmpty) rest := by
  induction cs generalizing start places started with
  | nil =>
    obtain rfl : start = n := Option.some.inj hvalue
    cases places <;> simp
  | cons c cs ih =>
    have hplaces : places ≠ some maxScale := fun hfull => by
      have := hroom _ hfull
      simp at this
    obtain ⟨d, hdigit, htail⟩ := valueFrom_cons hvalue
    have hstep : start * 10 + d < Word.bound96 := by
      have := le_of_valueFrom htail
      omega
    rw [Nat.mul_comm] at htail
    rw [List.cons_append]
    cases places with
    | none =>
      simp only [readDigits, hdigit, reduceCtorEq, if_false, if_pos hstep]
      rw [ih htail (fun _ h => by cases h)]
      simp
    | some p =>
      simp only [readDigits, hdigit, if_neg hplaces, if_pos hstep]
      rw [ih htail ?_]
      · simp [Nat.add_assoc, Nat.add_comm 1]
      · rintro _ ⟨⟩
        have := hroom p rfl
        rw [List.length_cons] at this
        omega

/-- The amount that is read where this one was written: a zero has lost its sign. -/
def reread (d : Decimal) : Decimal := { d with negative := d.negative && !d.isZero }

theorem natAbs_withSign (negative : Bool) (n : Nat) : (withSign negative n).natAbs = n := by
  unfold withSign
  split <;> simp

theorem ofDigits?_parts (d : Decimal) :
    ofDigits? d.negative d.magnitude d.scale = some d.reread := by
  obtain ⟨negative, magnitude, scale, hmagnitude, hscale⟩ := d
  have hplaces : scale % (maxScale + 1) = scale := Nat.mod_eq_of_lt (Nat.lt_succ_of_le hscale)
  have habs : (withSign negative magnitude).natAbs = magnitude := natAbs_withSign ..
  have hsign : decide (withSign negative magnitude < 0) = (negative && !(magnitude == 0)) := by
    cases negative with
    | false => simp [withSign]
    | true =>
      rw [Bool.eq_iff_iff]
      simp only [withSign, if_true, decide_eq_true_eq, Bool.true_and, Bool.not_eq_true',
        beq_eq_false_iff_ne]
      omega
  dsimp only [ofDigits?]
  rw [hplaces, ofParts?, dif_pos ⟨habs.symm ▸ hmagnitude, hscale⟩]
  simp only [habs, hsign, reread, isZero]

theorem reread_eq_self {d : Decimal} (h : d.IsPlain) : d.reread = d := by
  have hsign : (d.negative && !d.isZero) = d.negative := by
    cases hnegative : d.negative with
    | false => rfl
    | true => simpa [isZero] using h hnegative
  rw [reread, hsign]

/-- **The sign of a zero is not worth anything.** -/
theorem value_reread (d : Decimal) : d.reread.value = d.value := by
  by_cases hzero : d.magnitude = 0
  · have hnothing : ∀ negative, withSign negative 0 = 0 := by decide
    simp only [value, mantissa, reread, hzero, hnothing]
  · rw [reread_eq_self fun _ => hzero]

/-- The digits with their point. -/
theorem readDigits_pointed (negative : Bool) {magnitude scale : Nat}
    (hmagnitude : magnitude < Word.bound96) (hscale : scale ≤ maxScale) :
    readDigits negative 0 none false (pointed magnitude scale) =
      ofDigits? negative magnitude scale := by
  have hwhole : magnitude / tenTo scale < Word.bound96 :=
    Nat.lt_of_le_of_lt (Nat.div_le_self _ _) hmagnitude
  have hdigits : (natDigits (magnitude / tenTo scale)).isEmpty = false :=
    List.isEmpty_eq_false_iff.mpr (natDigits_ne_nil _)
  unfold pointed
  split
  · rename_i hnone
    rw [hnone, tenTo_zero, Nat.div_one] at hwhole hdigits ⊢
    rw [← List.append_nil (natDigits _), readDigits_append _ (valueFrom_natDigits _) hwhole
      (fun _ h => by cases h), hdigits]
    simp [readDigits]
  · have hfraction : valueFrom (magnitude / tenTo scale) (fixedDigits scale magnitude) =
        some magnitude := by
      rw [valueFrom_fixedDigits, tenTo_eq, Nat.div_add_mod']
    have hroom : ∀ p, some 0 = some p → p + (fixedDigits scale magnitude).length ≤ maxScale := by
      rintro _ ⟨⟩
      rw [length_fixedDigits, Nat.zero_add]
      exact hscale
    rw [readDigits_append _ (valueFrom_natDigits _) hwhole (fun _ h => by cases h), hdigits]
    simp only [Option.map_none, readDigits, reduceCtorEq, if_false,
      show digit? '.' = none by decide, if_true]
    rw [← List.append_nil (fixedDigits _ _), readDigits_append _ hfraction hmagnitude hroom]
    simp [readDigits, length_fixedDigits]

/-- The digits do not begin with a sign. -/
theorem ofPlain?_pointed (magnitude scale : Nat) :
    ofPlain? (pointed magnitude scale) =
      readDigits false 0 none false (pointed magnitude scale) := by
  obtain ⟨c, cs, hdigits, hdigit⟩ := exists_natDigits_eq_cons (magnitude / tenTo scale)
  have hpointed : pointed magnitude scale =
      c :: if scale = 0 then cs else cs ++ '.' :: fixedDigits scale magnitude := by
    simp only [pointed, hdigits]
    split <;> rfl
  rw [hpointed]
  unfold ofPlain?
  split
  · rename_i heq
    cases heq
    cases hdigit
  · rename_i heq
    cases heq
    cases hdigit
  · rfl

/-- **An amount that was written is read**, a zero without its sign. -/
theorem ofText?_toText_reread (d : Decimal) : ofText? d.toText = some d.reread := by
  have hplain : ofPlain? d.toText.toList = some d.reread := by
    have hread := (readDigits_pointed d.negative d.magnitude_lt d.scale_le).trans
      (ofDigits?_parts d)
    unfold toText
    rw [String.toList_ofList]
    cases hnegative : d.negative with
    | false =>
      rw [hnegative] at hread
      rw [if_neg (by decide), ofPlain?_pointed]
      exact hread
    | true =>
      rw [hnegative] at hread
      rw [if_pos rfl]
      exact hread
  rw [ofText?, hplain]

/-- An amount that is no zero with a sign is read as it was. -/
theorem ofText?_toText {d : Decimal} (h : d.IsPlain) : ofText? d.toText = some d := by
  rw [ofText?_toText_reread, reread_eq_self h]

end OrderDesk.Decimal
