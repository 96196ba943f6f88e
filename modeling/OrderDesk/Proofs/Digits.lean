import OrderDesk.Text.Digits
import Mathlib.Tactic.IntervalCases
import Mathlib.Tactic.Ring

/-!
# Digits, written and read

Reading the digits of a whole number gives the number back, so that different numbers are written
differently.  The digits are nothing but digits: a number within a longer text ends where something
else begins.
-/

namespace OrderDesk.Text

/-- The digit of a number, read. -/
theorem digit?_digitChar (n : Nat) : digit? (digitChar n) = some (n % 10) := by
  have hlt : n % 10 < 10 := Nat.mod_lt n (by decide)
  unfold digitChar
  generalize n % 10 = d at hlt
  interval_cases d <;> rfl

/-- Putting the digits of `n` in front means to read on from `n`. -/
theorem valueFrom_digitsOnto {fuel : Nat} :
    ∀ {n : Nat} {tail : List Char}, n < 10 ^ (fuel + 1) →
      valueFrom 0 (digitsOnto fuel n tail) = valueFrom n tail := by
  have hone : ∀ {n : Nat} (start : Nat) (tail : List Char), n < 10 →
      valueFrom start (digitChar n :: tail) = valueFrom (10 * start + n) tail := by
    intro n start tail hn
    simp only [valueFrom, digit?_digitChar, Nat.mod_eq_of_lt hn]
  induction fuel with
  | zero =>
    intro n tail hn
    rw [digitsOnto, hone 0 tail (by simpa using hn)]
    simp
  | succ fuel ih =>
    intro n tail hn
    rw [digitsOnto]
    by_cases hsmall : n < 10
    · rw [if_pos hsmall, hone 0 tail hsmall]
      simp
    · have hdiv : n / 10 < 10 ^ (fuel + 1) := by
        rw [Nat.div_lt_iff_lt_mul (by decide)]
        simpa [Nat.pow_succ] using hn
      rw [if_neg hsmall, ih hdiv]
      simp only [valueFrom, digit?_digitChar]
      congr 1
      omega

/-- There is fuel for all digits of a number. -/
theorem lt_ten_pow_log2 (n : Nat) : n < 10 ^ (Nat.log2 n + 1 + 1) := by
  have hlog : n < 2 ^ (Nat.log2 n + 1) := Nat.lt_log2_self
  have hbase : 2 ^ (Nat.log2 n + 1) ≤ 10 ^ (Nat.log2 n + 1) := Nat.pow_le_pow_left (by decide) _
  have hmore : 10 ^ (Nat.log2 n + 1) ≤ 10 ^ (Nat.log2 n + 1 + 1) :=
    Nat.pow_le_pow_right (by decide) (Nat.le_succ _)
  omega

/-- **A whole number that was written is read.** -/
theorem valueFrom_natDigits (n : Nat) : valueFrom 0 (natDigits n) = some n := by
  rw [natDigits, valueFrom_digitsOnto (lt_ten_pow_log2 n)]
  rfl

theorem valueFrom_append (xs : List Char) {ys : List Char} {start : Nat} :
    valueFrom start (xs ++ ys) = (valueFrom start xs).bind fun n => valueFrom n ys := by
  induction xs generalizing start with
  | nil => rfl
  | cons c xs ih =>
    simp only [List.cons_append, valueFrom]
    cases digit? c with
    | none => rfl
    | some d => exact ih

theorem length_fixedDigits (width n : Nat) : (fixedDigits width n).length = width := by
  induction width generalizing n with
  | zero => rfl
  | succ width ih => rw [fixedDigits, List.length_append, ih, List.length_singleton]

/-- Reading on over the last digits of `n`. -/
theorem valueFrom_fixedDigits (start width n : Nat) :
    valueFrom start (fixedDigits width n) = some (start * 10 ^ width + n % 10 ^ width) := by
  induction width generalizing n with
  | zero => simp [fixedDigits, valueFrom, Nat.mod_one]
  | succ width ih =>
    rw [fixedDigits, valueFrom_append, ih, Option.bind_some]
    simp only [valueFrom, digit?_digitChar]
    have hmod : n % 10 ^ (width + 1) = n % 10 + 10 * (n / 10 % 10 ^ width) := by
      rw [Nat.pow_succ', Nat.mod_mul]
    rw [hmod, Nat.pow_succ]
    congr 1
    ring

/-- What is read as a number begins with a digit. -/
theorem valueFrom_cons {c : Char} {cs : List Char} {start n : Nat}
    (h : valueFrom start (c :: cs) = some n) :
    ∃ d, digit? c = some d ∧ valueFrom (10 * start + d) cs = some n := by
  rw [valueFrom] at h
  split at h
  · exact ⟨_, ‹_›, h⟩
  · cases h

/-- What is read on from a number is not smaller. -/
theorem le_of_valueFrom {cs : List Char} {start n : Nat} (h : valueFrom start cs = some n) :
    start ≤ n := by
  induction cs generalizing start with
  | nil => exact Nat.le_of_eq (Option.some.inj h)
  | cons c cs ih =>
    obtain ⟨d, -, htail⟩ := valueFrom_cons h
    have := ih htail
    omega

/-- Digits are digits. -/
theorem exists_of_mem_digitsOnto {fuel : Nat} :
    ∀ {n : Nat} {tail : List Char} {c : Char}, c ∈ digitsOnto fuel n tail →
      (∃ m, c = digitChar m) ∨ c ∈ tail := by
  induction fuel with
  | zero =>
    intro n tail c hc
    rcases List.mem_cons.mp hc with rfl | hc
    · exact Or.inl ⟨n, rfl⟩
    · exact Or.inr hc
  | succ fuel ih =>
    intro n tail c hc
    rw [digitsOnto] at hc
    split at hc
    · rcases List.mem_cons.mp hc with rfl | hc
      · exact Or.inl ⟨n, rfl⟩
      · exact Or.inr hc
    · rcases ih hc with hdigit | hc
      · exact Or.inl hdigit
      · rcases List.mem_cons.mp hc with rfl | hc
        · exact Or.inl ⟨n, rfl⟩
        · exact Or.inr hc

/-- What is no digit does not stand among the digits of a number. -/
theorem notMem_natDigits {c : Char} (hc : digit? c = none) (n : Nat) : c ∉ natDigits n := by
  intro hmem
  rcases exists_of_mem_digitsOnto hmem with ⟨m, rfl⟩ | hnil
  · rw [digit?_digitChar] at hc
    cases hc
  · cases hnil

theorem isSome_of_mem_natDigits {c : Char} {n : Nat} (hc : c ∈ natDigits n) :
    (digit? c).isSome = true :=
  Option.isSome_iff_ne_none.mpr fun hnone => notMem_natDigits hnone n hc

theorem isSome_of_mem_fixedDigits {c : Char} {width n : Nat} (hc : c ∈ fixedDigits width n) :
    (digit? c).isSome = true := by
  induction width generalizing n with
  | zero => cases hc
  | succ width ih =>
    rcases List.mem_append.mp hc with hc | hc
    · exact ih hc
    · rw [List.mem_singleton.mp hc, digit?_digitChar]
      rfl

theorem toList_ofNat (n : Nat) : (ofNat n).toList = natDigits n := by
  rw [ofNat, String.toList_ofList]

/-- **Different numbers are written differently.** -/
theorem ofNat_injective {m n : Nat} (h : ofNat m = ofNat n) : m = n := by
  have hdigits : natDigits m = natDigits n := by rw [← toList_ofNat, h, toList_ofNat]
  have hvalue := valueFrom_natDigits m
  rw [hdigits, valueFrom_natDigits] at hvalue
  exact (Option.some.inj hvalue).symm

theorem ofNat_ne_empty (n : Nat) : ofNat n ≠ "" := by
  intro h
  have hdigits := valueFrom_natDigits n
  rw [← toList_ofNat, h] at hdigits
  obtain rfl : 0 = n := Option.some.inj hdigits
  exact absurd h (by decide)

theorem natDigits_ne_nil (n : Nat) : natDigits n ≠ [] := by
  rw [← toList_ofNat]
  exact mt String.toList_eq_nil_iff.mp (ofNat_ne_empty n)

/-- A number begins with a digit. -/
theorem exists_natDigits_eq_cons (n : Nat) :
    ∃ c cs, natDigits n = c :: cs ∧ (digit? c).isSome = true := by
  obtain ⟨c, cs, hdigits⟩ := List.exists_cons_of_ne_nil (natDigits_ne_nil n)
  have hmem : c ∈ natDigits n := hdigits ▸ List.mem_cons_self
  exact ⟨c, cs, hdigits, isSome_of_mem_natDigits hmem⟩

theorem notMem_ofInt {c : Char} (hc : digit? c = none) (hminus : c ≠ '-') (n : Int) :
    c ∉ (ofInt n).toList := by
  unfold ofInt
  split
  · rw [String.toList_append, toList_ofNat, List.mem_append]
    rintro (hmem | hmem)
    · exact hminus (by simpa using hmem)
    · exact notMem_natDigits hc _ hmem
  · rw [toList_ofNat]
    exact notMem_natDigits hc _

theorem ofInt_injective {m n : Int} (h : ofInt m = ofInt n) : m = n := by
  have hsign : ∀ a b : Nat, "-" ++ ofNat a ≠ ofNat b := by
    intro a b he
    have hmem : '-' ∈ natDigits b := by
      rw [← toList_ofNat, ← he, String.toList_append]
      exact List.mem_append_left _ List.mem_cons_self
    exact notMem_natDigits (by decide) b hmem
  unfold ofInt at h
  split at h <;> split at h
  · have hlist := congrArg String.toList h
    rw [String.toList_append, String.toList_append, List.append_cancel_left_eq,
      String.toList_inj] at hlist
    have := ofNat_injective hlist
    omega
  · exact absurd h (hsign _ _)
  · exact absurd h.symm (hsign _ _)
  · have := ofNat_injective h
    omega

/-- Two texts that end at the first `c` are told apart by what comes before it and what comes
after. -/
theorem append_cons_injective {c : Char} {xs ys as bs : List Char} (hxs : c ∉ xs) (hys : c ∉ ys)
    (h : xs ++ c :: as = ys ++ c :: bs) : xs = ys ∧ as = bs := by
  induction xs generalizing ys with
  | nil =>
    cases ys with
    | nil => exact ⟨rfl, (List.cons.inj h).2⟩
    | cons y ys => exact absurd ((List.cons.inj h).1 ▸ List.mem_cons_self) hys
  | cons x xs ih =>
    cases ys with
    | nil => exact absurd ((List.cons.inj h).1 ▸ List.mem_cons_self) hxs
    | cons y ys =>
      obtain ⟨rfl, htail⟩ := List.cons.inj h
      obtain ⟨rfl, hrest⟩ := ih (fun hmem => hxs (List.mem_cons_of_mem _ hmem))
        (fun hmem => hys (List.mem_cons_of_mem _ hmem)) htail
      exact ⟨rfl, hrest⟩

/-- The same for the last `c`. -/
theorem append_cons_injective_last {c : Char} {xs ys as bs : List Char} (has : c ∉ as)
    (hbs : c ∉ bs) (h : xs ++ c :: as = ys ++ c :: bs) : xs = ys ∧ as = bs := by
  have hback : as.reverse ++ c :: xs.reverse = bs.reverse ++ c :: ys.reverse := by
    simpa using congrArg List.reverse h
  obtain ⟨hafter, hbefore⟩ :=
    append_cons_injective (by simpa using has) (by simpa using hbs) hback
  exact ⟨List.reverse_inj.mp hbefore, List.reverse_inj.mp hafter⟩

end OrderDesk.Text
