import Mathlib
import OrderDesk.Text.LetterCase

/-!
# Capital letters stay

A text in capital letters has no other capital form: `upper_upper`.  The tables of letter case are
data, so this is a property of the data.  What has to be looked up is that nothing that the tables
lead to is listed in them again (`Settled`): of a run of letters the image is compared with every
other run as a whole, by its ends and, where a run takes every second letter, by its parity.
-/

namespace OrderDesk.Text

/-! ## 1. What the tables lead to -/

namespace CaseRun

/-- The first letter of the image. -/
def low (r : CaseRun) : Nat := (r.first + r.shift).toNat

/-- The last letter of the image. -/
def high (r : CaseRun) : Nat := (r.last + r.shift).toNat

/-- The run takes every second letter, or there is only one. -/
def isSparse (r : CaseRun) : Bool := r.step == 2 || r.first == r.last

/-- The image of `r` has no letter of `r'`. -/
def isApart (r r' : CaseRun) : Bool :=
  Nat.blt r.high r'.first || Nat.blt r'.last r.low ||
    (r.isSparse && r'.step == 2 && (r.low + r'.first) % 2 == 1)

end CaseRun

/-- The tables do not list a letter. -/
structure Settled (n : Nat) : Prop where
  runs : ∀ r ∈ capitalRuns, r.shift? n = none
  strings : ∀ e ∈ capitalStrings, e.1 ≠ n

/-- A letter that a run does not list, as far as its ends and its parity tell. -/
def isBeside (n : Nat) (r : CaseRun) : Bool :=
  Nat.blt n r.first || Nat.blt r.last n || (r.step == 2 && (n + r.first) % 2 == 1)

theorem shift?_eq_none {r : CaseRun} {n : Nat} (h : isBeside n r = true) : r.shift? n = none := by
  simp only [isBeside, Bool.or_eq_true, Bool.and_eq_true, Nat.blt_eq, beq_iff_eq] at h
  refine if_neg ?_
  rintro ⟨hfirst, hlast, hstep⟩
  rcases h with (h | h) | ⟨htwo, hodd⟩
  · omega
  · omega
  · rw [htwo] at hstep
    omega

/-- The tables, seen from a run: it leads somewhere, and nowhere where a letter is listed. -/
theorem runs_apart : capitalRuns.all (fun r =>
    Nat.blt 0 r.low && capitalRuns.all r.isApart &&
      capitalStrings.all fun e => Nat.blt r.high e.1 || Nat.blt e.1 r.low) = true := by
  decide +kernel

/-- The tables, seen from a letter with a longer form: no letter of that form is listed. -/
theorem strings_apart : capitalStrings.all (fun e => e.2.all fun n =>
    capitalRuns.all (isBeside n) && capitalStrings.all fun e' => !(e'.1 == n)) = true := by
  decide +kernel

/-- **A run leads to letters that the tables do not list.** -/
theorem settled_of_shift {r : CaseRun} {n : Nat} {d : Int} (hr : r ∈ capitalRuns)
    (h : r.shift? n = some d) : Settled (n + d).toNat := by
  obtain ⟨⟨hfirst, hlast, hstep⟩, hshift⟩ := Option.ite_none_right_eq_some.mp h
  obtain rfl := Option.some.inj hshift
  have hall := List.all_eq_true.mp runs_apart r hr
  simp only [Bool.and_eq_true, List.all_eq_true, Bool.or_eq_true, Nat.blt_eq] at hall
  obtain ⟨⟨hpos, hruns⟩, hstrings⟩ := hall
  have hlow : r.low ≤ ((n : Int) + r.shift).toNat := Int.toNat_le_toNat (by omega)
  have hhigh : ((n : Int) + r.shift).toNat ≤ r.high := Int.toNat_le_toNat (by omega)
  refine ⟨fun r' hr' => shift?_eq_none ?_, fun e he => ?_⟩
  · have hapart := hruns r' hr'
    simp only [CaseRun.isApart, isBeside, Bool.or_eq_true, Bool.and_eq_true, Nat.blt_eq,
      beq_iff_eq] at hapart ⊢
    rcases hapart with (hless | hless) | ⟨⟨hsparse, htwo⟩, hodd⟩
    · exact Or.inl (Or.inl (Nat.lt_of_le_of_lt hhigh hless))
    · exact Or.inl (Or.inr (Nat.lt_of_lt_of_le hless hlow))
    · refine Or.inr ⟨htwo, ?_⟩
      -- letters of a sparse run are an even number apart, and so are their images
      have heven : (n - r.first) % 2 = 0 := by
        simp only [CaseRun.isSparse, Bool.or_eq_true, beq_iff_eq] at hsparse
        rcases hsparse with htwo' | hone
        · rw [htwo'] at hstep
          exact hstep
        · omega
      unfold CaseRun.low at hpos hodd
      omega
  · rcases hstrings e he with hless | hless
    · omega
    · omega

theorem toNat_ofNat_settled {n : Nat} (h : Settled n) : Settled (Char.ofNat n).toNat := by
  rw [Char.toNat_ofNat]
  split
  · exact h
  · have hzero : (capitalRuns.all fun r => isBeside 0 r) = true := by decide +kernel
    have hnone : (capitalStrings.all fun e => !(e.1 == 0)) = true := by decide +kernel
    refine ⟨fun r hr => shift?_eq_none (List.all_eq_true.mp hzero r hr), fun e he => ?_⟩
    simpa using List.all_eq_true.mp hnone e he

/-! ## 2. Capitals of capitals -/

theorem lookup_eq_none {n : Nat} (h : Settled n) : capitalStrings.lookup n = none := by
  rw [List.lookup_eq_none_iff]
  intro e he
  simpa using (h.strings e he).symm

/-- A letter beyond ASCII that the tables do not list is its own capital. -/
theorem mapCase_of_settled {c : Char} (h : Settled c.toNat) :
    mapCase capitalRuns capitalStrings c = [c] := by
  have hrun : (capitalRuns.findSome? fun r => r.shift? c.toNat) = none :=
    List.findSome?_eq_none_iff.mpr h.runs
  simp only [mapCase, lookup_eq_none h, hrun]

/-- In ASCII the runs list exactly the letters that have a capital. -/
theorem capitals_of_settled {c : Char} (h : Settled c.toNat) : capitals c = [c] := by
  unfold capitals
  split
  · have hlower : ¬ c.isLower = true := by
      intro hc
      have hnone := h.runs ⟨0x61, 0x7A, 1, -32⟩ List.mem_cons_self
      simp only [Char.isLower, UInt32.le_iff_toNat_le, Char.toNat_val, Bool.and_eq_true,
        decide_eq_true_eq] at hc
      have hlisted : 0x61 ≤ c.toNat ∧ c.toNat ≤ 0x7A ∧ (c.toNat - 0x61) % 1 = 0 :=
        ⟨hc.1, hc.2, Nat.mod_one _⟩
      rw [CaseRun.shift?, if_pos hlisted] at hnone
      cases hnone
    rw [Char.toUpper_eq_of_not_isLower hlower]
  · exact mapCase_of_settled h

/-- **What the tables lead to is not listed in them.** -/
theorem settled_of_mem_mapCase {c c' : Char}
    (h : c' ∈ mapCase capitalRuns capitalStrings c) : Settled c'.toNat := by
  unfold mapCase at h
  split at h
  · rename_i ns hns
    obtain ⟨n, hn, rfl⟩ := List.mem_map.mp h
    have hmem : (c.toNat, ns) ∈ capitalStrings := by
      obtain ⟨l₁, l₂, hsplit, -⟩ := List.lookup_eq_some_iff.mp hns
      rw [hsplit]
      exact List.mem_append_right _ List.mem_cons_self
    have hall := List.all_eq_true.mp (List.all_eq_true.mp strings_apart _ hmem) n hn
    simp only [Bool.and_eq_true, List.all_eq_true, Bool.not_eq_true', beq_eq_false_iff_ne] at hall
    obtain ⟨hruns, hstrings⟩ := hall
    exact toNat_ofNat_settled ⟨fun r hr => shift?_eq_none (hruns r hr), hstrings⟩
  · rename_i hlookup
    split at h
    · rename_i d hd
      obtain ⟨r, hr, hshift⟩ := List.exists_of_findSome?_eq_some hd
      obtain rfl := List.mem_singleton.mp h
      exact toNat_ofNat_settled (settled_of_shift hr hshift)
    · rename_i hruns
      obtain rfl := List.mem_singleton.mp h
      refine ⟨List.findSome?_eq_none_iff.mp hruns, fun e he hkey => ?_⟩
      have := List.lookup_eq_none_iff.mp hlookup e he
      simp [hkey] at this

theorem toUpper_lt {c : Char} (h : c.toNat < 128) : c.toUpper.toNat < 128 := by
  by_cases hlower : c.isLower = true
  · rw [Char.toUpper_eq_of_isLower hlower, Char.toNat_ofNat]
    split <;> omega
  · rw [Char.toUpper_eq_of_not_isLower hlower]
    exact h

theorem flatMap_capitals (c : Char) : (capitals c).flatMap capitals = capitals c := by
  by_cases hascii : c.toNat < 128
  · have hself : ∀ {c : Char}, c.toNat < 128 → capitals c = [c.toUpper] := fun h => if_pos h
    rw [hself hascii, List.flatMap_singleton, hself (toUpper_lt hascii),
      Char.toUpper_toUpper_eq_toUpper]
  · have hsettled : ∀ c' ∈ capitals c, capitals c' = [c'] := by
      intro c' hc'
      rw [capitals, if_neg hascii] at hc'
      exact capitals_of_settled (settled_of_mem_mapCase hc')
    rw [List.flatMap_congr hsettled, List.flatMap_singleton']

/-- **A text in capital letters stays as it is.** -/
theorem upper_upper (s : String) : upper (upper s) = upper s := by
  simp only [upper, String.toList_ofList, List.flatMap_assoc, flatMap_capitals]

end OrderDesk.Text
