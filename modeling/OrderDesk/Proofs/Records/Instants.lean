import OrderDesk.Instant.Text
import OrderDesk.Proofs.Digits
import OrderDesk.Proofs.Records.Calendar

/-!
# Instants, written and read

An instant that was written is read: its date, its time of day, the digits after the second and the
leap second at the end of a minute.  The text is made of digits and of single characters between
them, and each part of it is read up to the character that ends it.

A leap second elsewhere in a minute (`IsStray`) has no text of its own: it is written as the second
after it, and read as that (`reread`, `ofText?_toText`).  No nanosecond is lost or won, but the
instant is another one.
-/

namespace OrderDesk.Instant

open OrderDesk.Text

/-! ## 1. Digits within a text -/

/-- Digits go no further than here. -/
def Halts (rest : List Char) : Prop := ∀ c cs, rest = c :: cs → digit? c = none

theorem halts_cons {c : Char} {cs : List Char} (h : digit? c = none) : Halts (c :: cs) := by
  rintro _ _ ⟨⟩
  exact h

/-- As many digits as may be are split off. -/
theorem spanDigits_append {ds rest : List Char} {most : Nat}
    (hdigits : ∀ c ∈ ds, (digit? c).isSome = true) (hlength : ds.length ≤ most)
    (hrest : ds.length = most ∨ Halts rest) : spanDigits most (ds ++ rest) = (ds, rest) := by
  induction ds generalizing most with
  | nil =>
    cases most with
    | zero => rfl
    | succ most =>
      cases rest with
      | nil => rfl
      | cons c rest =>
        have hc := hrest.resolve_left (by simp) c rest rfl
        rw [List.nil_append, spanDigits, hc]
        rfl
  | cons d ds ih =>
    cases most with
    | zero => cases hlength
    | succ most =>
      rw [List.cons_append, spanDigits, if_pos (hdigits d List.mem_cons_self),
        ih (fun c hc => hdigits c (List.mem_cons_of_mem _ hc)) (Nat.le_of_succ_le_succ hlength)
          (hrest.imp_left Nat.succ.inj)]

theorem readNumber_append {ds rest : List Char} {most n : Nat}
    (hdigits : ∀ c ∈ ds, (digit? c).isSome = true) (hlength : ds.length ≤ most)
    (hrest : ds.length = most ∨ Halts rest) (hvalue : natOfDigits? ds = some n) :
    readNumber most (ds ++ rest) = some (n, rest) := by
  rw [readNumber, spanDigits_append hdigits hlength hrest]
  simp only [hvalue, Option.map_some]

/-- A number of a fixed width is read as a number. -/
theorem natOfDigits?_fixedDigits {width n : Nat} (hwidth : width ≠ 0) (hn : n < 10 ^ width) :
    natOfDigits? (fixedDigits width n) = some n := by
  have hvalue := valueFrom_fixedDigits 0 width n
  rw [Nat.zero_mul, Nat.zero_add, Nat.mod_eq_of_lt hn] at hvalue
  have hlength := length_fixedDigits width n
  cases hdigits : fixedDigits width n with
  | nil =>
    rw [hdigits] at hlength
    exact absurd hlength.symm hwidth
  | cons c cs =>
    rw [← hvalue, hdigits, natOfDigits?]
    nofun

/-- What does not begin with a blank is not trimmed. -/
theorem trimStart_cons {c : Char} {cs : List Char} (h : isBlank c = false) :
    trimStart (c :: cs) = c :: cs := by
  rw [trimStart, List.dropWhile_cons_of_neg (by rw [h]; decide)]

theorem isBlank_of_digit {c : Char} (hc : (digit? c).isSome = true) : isBlank c = false := by
  unfold digit? at hc
  split at hc
  · rename_i hrange
    have hlow : 48 ≤ c.toNat := hrange.1
    have hhigh : c.toNat ≤ 57 := hrange.2
    simp only [isBlank, Bool.or_eq_false_iff, Bool.and_eq_false_iff, decide_eq_false_iff_not,
      beq_eq_false_iff_ne]
    omega
  · cases hc

theorem trimStart_digits {ds rest : List Char} (hne : ds ≠ [])
    (hdigits : ∀ c ∈ ds, (digit? c).isSome = true) : trimStart (ds ++ rest) = ds ++ rest := by
  obtain ⟨c, cs, rfl⟩ := List.exists_cons_of_ne_nil hne
  exact trimStart_cons (isBlank_of_digit (hdigits c List.mem_cons_self))

theorem fixedDigits_ne_nil {width : Nat} (hwidth : width ≠ 0) (n : Nat) :
    fixedDigits width n ≠ [] := by
  intro hnil
  have hlength := length_fixedDigits width n
  rw [hnil] at hlength
  exact hwidth hlength.symm

/-- Two digits are read as a number. -/
theorem readTwo_fixedDigits {n : Nat} (hn : n < 100) (rest : List Char) :
    readTwo (fixedDigits 2 n ++ rest) = some (n, rest) := by
  rw [readTwo, trimStart_digits (fixedDigits_ne_nil (by decide) n)
    (fun _ => isSome_of_mem_fixedDigits)]
  exact readNumber_append (fun _ => isSome_of_mem_fixedDigits)
    (Nat.le_of_eq (length_fixedDigits _ _)) (Or.inl (length_fixedDigits _ _))
    (natOfDigits?_fixedDigits (by decide) hn)

theorem expect_cons {c : Char} (hc : isBlank c = false) (cs : List Char) :
    expect c (c :: cs) = some cs := by
  rw [expect, trimStart_cons hc]
  exact if_pos rfl

/-! ## 2. Dates -/

/-- Zeros before the digits of a number do not count. -/
theorem natOfDigits?_padded (zeros n : Nat) :
    natOfDigits? (List.replicate zeros '0' ++ natDigits n) = some n := by
  have hzeros : valueFrom 0 (List.replicate zeros '0') = some 0 := by
    induction zeros with
    | zero => rfl
    | succ zeros ih => exact ih
  have hvalue : valueFrom 0 (List.replicate zeros '0' ++ natDigits n) = some n := by
    rw [valueFrom_append, hzeros]
    exact valueFrom_natDigits n
  cases hdigits : List.replicate zeros '0' ++ natDigits n with
  | nil => exact absurd (List.append_eq_nil_iff.mp hdigits).2 (natDigits_ne_nil n)
  | cons c cs =>
    rw [← hvalue, hdigits, natOfDigits?]
    nofun

/-- As many digits as there are are read, up to the hyphen. -/
theorem readNumber_padded (zeros n : Nat) (rest : List Char) :
    readNumber (List.replicate zeros '0' ++ natDigits n ++ '-' :: rest).length
      (List.replicate zeros '0' ++ natDigits n ++ '-' :: rest) = some (n, '-' :: rest) := by
  have hdigits : ∀ c ∈ List.replicate zeros '0' ++ natDigits n, (digit? c).isSome = true := by
    intro c hc
    rcases List.mem_append.mp hc with hzero | hdigit
    · rw [List.eq_of_mem_replicate hzero]
      rfl
    · exact isSome_of_mem_natDigits hdigit
  exact readNumber_append hdigits (List.sublist_append_left _ _).length_le
    (Or.inr (halts_cons rfl)) (natOfDigits?_padded zeros n)

theorem readYear_minus (cs : List Char) :
    readYear ('-' :: cs) = (readNumber cs.length cs).map fun p => (-(p.1 : Int), p.2) := rfl

theorem readYear_plus (cs : List Char) :
    readYear ('+' :: cs) = (readNumber cs.length cs).map fun p => ((p.1 : Int), p.2) := rfl

/-- A year of four digits is read. -/
theorem readYear_digits {n : Nat} (hn : n < 10 ^ 4) (rest : List Char) :
    readYear (fixedDigits 4 n ++ '-' :: rest) = some ((n : Int), '-' :: rest) := by
  have hread : readNumber 4 (fixedDigits 4 n ++ '-' :: rest) = some (n, '-' :: rest) :=
    readNumber_append (fun _ => isSome_of_mem_fixedDigits) (Nat.le_of_eq (length_fixedDigits _ _))
      (Or.inl (length_fixedDigits _ _)) (natOfDigits?_fixedDigits (by decide) hn)
  have hne := fixedDigits_ne_nil (by decide : (4 : Nat) ≠ 0) n
  obtain ⟨c, cs, hdigits⟩ := List.exists_cons_of_ne_nil hne
  have hc : (digit? c).isSome = true :=
    isSome_of_mem_fixedDigits (hdigits ▸ List.mem_cons_self : c ∈ fixedDigits 4 n)
  rw [readYear, trimStart_digits hne (fun _ => isSome_of_mem_fixedDigits)]
  rw [hdigits] at hread ⊢
  split
  · rename_i heq
    obtain rfl := (List.cons.inj heq).1
    cases hc
  · rename_i heq
    obtain rfl := (List.cons.inj heq).1
    cases hc
  · rw [hread, Option.map_some]

/-- **A year is read**, with or without a sign. -/
theorem readYear_yearText (y : Int) (rest : List Char) :
    readYear (yearText y ++ '-' :: rest) = some (y, '-' :: rest) := by
  by_cases hshort : 0 ≤ y ∧ y ≤ 9999
  · rw [yearText, if_pos hshort, readYear_digits (by omega), Int.natAbs_of_nonneg hshort.1]
  · have hread := readNumber_padded (4 - (natDigits y.natAbs).length) y.natAbs rest
    rw [yearText, if_neg hshort]
    dsimp only
    by_cases hneg : y < 0
    · rw [if_pos hneg, List.cons_append, readYear_minus, hread]
      simp only [Option.map_some, Option.some.injEq, Prod.mk.injEq, and_true]
      omega
    · rw [if_neg hneg, List.cons_append, readYear_plus, hread]
      simp only [Option.map_some, Option.some.injEq, Prod.mk.injEq, and_true]
      omega

/-- **A date that exists is read.** -/
theorem readDate_dateText {d : Date} (h : d.isValid = true) (rest : List Char) :
    readDate (dateText d ++ rest) = some (d, rest) := by
  have hparts := h
  simp only [Date.isValid, Bool.and_eq_true, decide_eq_true_eq] at hparts
  obtain ⟨⟨⟨-, hmonth⟩, -⟩, hday⟩ := hparts
  have hlength : Date.daysIn d.year d.month ≤ 31 := by
    unfold Date.daysIn
    repeat' split
    all_goals omega
  have hdash : ∀ cs, expect '-' ('-' :: cs) = some cs := expect_cons rfl
  have hmonth' := readTwo_fixedDigits (show d.month < 100 by omega)
  have hday' := readTwo_fixedDigits (show d.day < 100 by omega)
  simp only [dateText, List.append_assoc, List.cons_append, readDate, readYear_yearText,
    Option.bind_some, hdash, hmonth', hday', if_pos h]

/-! ## 3. Times of day -/

/-- The digits after a second are read as nanoseconds, whichever of them are written. -/
theorem readFraction_fractionText {nanos : Nat} (hnanos : nanos < 1000000000) {rest : List Char}
    (hrest : Halts rest) (hdot : ∀ cs, rest ≠ '.' :: cs) :
    readFraction (fractionText nanos ++ rest) = some (nanos, rest) := by
  have hpointed : ∀ width n, width ≠ 0 → width ≤ 9 → n < 10 ^ width →
      readFraction ('.' :: fixedDigits width n ++ rest) = some (n * tenTo (9 - width), rest) := by
    intro width n hwidth hle hn
    have hlength := length_fixedDigits width n
    have hsplit : spanDigits 9 (fixedDigits width n ++ rest) = (fixedDigits width n, rest) :=
      spanDigits_append (fun _ => isSome_of_mem_fixedDigits) ((Nat.le_of_eq hlength).trans hle)
        (Or.inr hrest)
    have hdrop : (rest.dropWhile fun c => (digit? c).isSome) = rest := by
      cases rest with
      | nil => rfl
      | cons c cs => rw [List.dropWhile_cons_of_neg (by rw [hrest c cs rfl]; decide)]
    simp only [List.cons_append, readFraction, hsplit, natOfDigits?_fixedDigits hwidth hn,
      Option.map_some, hlength, hdrop]
  unfold fractionText
  split
  · rename_i hzero
    rw [List.nil_append, readFraction, hzero]
    exact hdot
  split
  · rename_i hmillis
    have hvalue : nanos / 1000000 * tenTo (9 - 3) = nanos := by
      show nanos / 1000000 * 1000000 = nanos
      omega
    rw [hpointed 3 _ (by decide) (by decide) (by omega), hvalue]
  split
  · rename_i hmicros
    have hvalue : nanos / 1000 * tenTo (9 - 6) = nanos := by
      show nanos / 1000 * 1000 = nanos
      omega
    rw [hpointed 6 _ (by decide) (by decide) (by omega), hvalue]
  · have hvalue : nanos * tenTo (9 - 9) = nanos := Nat.mul_one nanos
    rw [hpointed 9 _ (by decide) (by decide) (by omega), hvalue]

/-- A leap second that does not end its minute. -/
def IsStray (t : Instant) : Prop := 1000000000 ≤ t.nanos ∧ t.seconds % 60 ≠ 59

instance (t : Instant) : Decidable t.IsStray := inferInstanceAs (Decidable (_ ∧ _))

/-- **The time of day is read**, also in a leap second at the end of a minute. -/
theorem readClock_clockText {t : Instant} (ht : ¬ t.IsStray) {rest : List Char}
    (hrest : Halts rest) (hdot : ∀ cs, rest ≠ '.' :: cs) :
    readClock (clockText t ++ rest) = some (⟨(t.seconds % 86400).toNat, t.nanos⟩, rest) := by
  have hleap : 1000000000 ≤ t.nanos → t.seconds % 60 = 59 :=
    fun hlong => by_contra fun hne => ht ⟨hlong, hne⟩
  have hbound := t.nanos_lt
  have hday : (t.seconds % 86400).toNat < 86400 := by omega
  have hlast : t.seconds % 60 = 59 → (t.seconds % 86400).toNat % 60 = 59 := by omega
  have hread : ∀ second nanos, second ≤ 60 → nanos < 1000000000 →
      readClock (fixedDigits 2 ((t.seconds % 86400).toNat / 3600) ++
        ':' :: (fixedDigits 2 ((t.seconds % 86400).toNat / 60 % 60) ++
          ':' :: (fixedDigits 2 second ++ fractionText nanos)) ++ rest) =
        some (⟨(t.seconds % 86400).toNat / 3600 * 3600 + (t.seconds % 86400).toNat / 60 % 60 * 60 +
          min second 59, if second = 60 then nanos + 1000000000 else nanos⟩, rest) := by
    intro second nanos hsecond hnanos
    have hcolon : ∀ cs, expect ':' (':' :: cs) = some cs := expect_cons rfl
    have hhour := readTwo_fixedDigits (show (t.seconds % 86400).toNat / 3600 < 100 by omega)
    have hminute := readTwo_fixedDigits (show (t.seconds % 86400).toNat / 60 % 60 < 100 by omega)
    have hsecond' := readTwo_fixedDigits (show second < 100 by omega)
    have hvalid : (t.seconds % 86400).toNat / 3600 ≤ 23 ∧
        (t.seconds % 86400).toNat / 60 % 60 ≤ 59 ∧ second ≤ 60 := ⟨by omega, by omega, hsecond⟩
    simp only [List.append_assoc, List.cons_append, readClock, Option.bind_some, hcolon, hhour,
      hminute, hsecond', readFraction_fractionText hnanos hrest hdot, if_pos hvalid]
  unfold clockText
  by_cases hlong : 1000000000 ≤ t.nanos
  · simp only [if_pos hlong]
    rw [hread _ _ (by omega) (by omega)]
    have := hlast (hleap hlong)
    congr 3
    · omega
    · rw [if_pos (by omega)]
      omega
  · simp only [if_neg hlong]
    rw [hread _ _ (by omega) (by omega)]
    congr 3
    · omega
    · rw [if_neg (by omega)]

/-! ## 4. Instants -/

/-- An instant that is no stray leap second is read as it was written. -/
theorem ofText?_toText_of_not_isStray {t : Instant} (ht : ¬ t.IsStray) :
    ofText? t.toText = some t := by
  have hfirst := t.first_le
  have hlast := t.le_last
  simp only [firstSecond, lastSecond] at hfirst hlast
  have hyear := Date.year_mem (t.seconds / 86400) (by omega) (by omega)
  have hdate : readDate t.toText.toList = some (t.date, 'T' :: (clockText t ++ ['Z'])) := by
    rw [toText, String.toList_ofList]
    exact readDate_dateText (Date.isValid_ofDays _) _
  have hclock : readClock (clockText t ++ ['Z']) =
      some (⟨(t.seconds % 86400).toNat, t.nanos⟩, ['Z']) :=
    readClock_clockText ht (halts_cons rfl) nofun
  have hseconds : t.date.toDays * 86400 + ((t.seconds % 86400).toNat : Nat) - 0 = t.seconds := by
    rw [date, Date.toDays_ofDays]
    omega
  have hrange : yearInRange t.date.year = true := by
    simp only [yearInRange, date, Bool.and_eq_true]
    exact ⟨decide_eq_true hyear.1, decide_eq_true hyear.2⟩
  rw [ofText?, hdate, Option.bind_some]
  dsimp only
  rw [if_pos (Or.inl rfl), hclock, Option.bind_some, trimStart_cons rfl]
  simp only [readOffset, Option.bind_some, hrange, hseconds]
  rw [if_pos (by rfl), ofParts?, dif_pos ⟨t.nanos_lt, t.first_le, t.le_last⟩]

/-- Nanoseconds since the epoch, every leap second running on into the next second. -/
def count (t : Instant) : Int := t.seconds * 1000000000 + t.nanos

/-- What is read of the text of an instant: a stray leap second is the second after it. -/
def reread (t : Instant) : Instant :=
  if h : t.IsStray then
    have hnanos := t.nanos_lt
    have hfirst := t.first_le
    have hlast : t.seconds + 1 ≤ lastSecond := by
      have hle := t.le_last
      have hne := h.2
      unfold lastSecond at hle ⊢
      omega
    ⟨t.seconds + 1, t.nanos - 1000000000, by omega, by omega, hlast⟩
  else t

variable {t : Instant}

/-- **No nanosecond is lost or won.** -/
theorem count_reread (t : Instant) : t.reread.count = t.count := by
  unfold reread
  split
  · rename_i h
    have hlong := h.1
    simp only [count]
    omega
  · rfl

/-- **Only stray leap seconds are read as other instants.** -/
theorem reread_eq_iff : t.reread = t ↔ ¬ t.IsStray := by
  unfold reread
  split
  · rename_i h
    refine iff_of_false (fun hsame => ?_) (not_not_intro h)
    have hseconds : t.seconds + 1 = t.seconds := congrArg seconds hsame
    omega
  · rename_i h
    exact iff_of_true rfl h

theorem not_isStray_reread (t : Instant) : ¬ t.reread.IsStray := by
  unfold reread
  split
  · have hnanos := t.nanos_lt
    rintro ⟨hlong, -⟩
    dsimp only at hlong
    omega
  · assumption

/-- The second after a stray leap second shows on a clock as the leap second itself. -/
theorem clockText_of_isStray {t next : Instant} (ht : t.IsStray)
    (hseconds : next.seconds = t.seconds + 1) (hnanos : next.nanos = t.nanos - 1000000000) :
    clockText next = clockText t := by
  obtain ⟨hlong, hne⟩ := ht
  have hbound := t.nanos_lt
  have hshort : ¬ 1000000000 ≤ t.nanos - 1000000000 := by omega
  -- the minute goes on, and so does the hour
  have hsecond : (next.seconds % 86400).toNat = (t.seconds % 86400).toNat + 1 := by omega
  have hhour : ((t.seconds % 86400).toNat + 1) / 3600 = (t.seconds % 86400).toNat / 3600 := by omega
  have hminute : ((t.seconds % 86400).toNat + 1) / 60 = (t.seconds % 86400).toNat / 60 := by omega
  have hlast : ((t.seconds % 86400).toNat + 1) % 60 = (t.seconds % 86400).toNat % 60 + 1 := by omega
  simp only [clockText, if_neg hshort, if_pos hlong, hsecond, hnanos, hhour, hminute, hlast]

/-- A stray leap second is written like the second after it. -/
theorem toText_reread (t : Instant) : t.reread.toText = t.toText := by
  by_cases h : t.IsStray
  · have hseconds : t.reread.seconds = t.seconds + 1 := by rw [reread, dif_pos h]
    have hnanos : t.reread.nanos = t.nanos - 1000000000 := by rw [reread, dif_pos h]
    have hday : (t.seconds + 1) / 86400 = t.seconds / 86400 := by
      have hne := h.2
      omega
    unfold toText
    rw [clockText_of_isStray h hseconds hnanos, date, date, hseconds, hday]
  · rw [reread, dif_neg h]

/-- **An instant that was written is read.** -/
theorem ofText?_toText (t : Instant) : ofText? t.toText = some t.reread := by
  rw [← toText_reread]
  exact ofText?_toText_of_not_isStray t.not_isStray_reread

end OrderDesk.Instant
