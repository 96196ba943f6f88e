import OrderDesk.Json.Decode
import OrderDesk.Proofs.Digits

/-!
# Documents, printed and read

Reading the text of a document gives the document back, if it can be written at all: its whole
numbers fit 64 bits, it has no fractions and nothing unreadable (`Legible`).  How a document is
read off a text does not depend on what follows it, as long as that is the end or one of the three
characters that may follow a value (`Stops`), and each level and each item takes less fuel than it
has characters.  Both are carried through the levels by one induction over the document
(`readValue_print`).
-/

namespace OrderDesk.Json

open OrderDesk.Text

/-- Documents that can be written. -/
inductive Legible : Json → Prop
  | null : Legible .null
  | bool (b : Bool) : Legible (.bool b)
  | string (s : String) : Legible (.string s)
  | whole {n : Int} : -(Word.bound63 : Int) ≤ n → n < Word.bound64 → Legible (.number (.whole n))
  | array {items : List Json} : (∀ j ∈ items, Legible j) → Legible (.array items)
  | object {fields : List (String × Json)} : (∀ f ∈ fields, Legible f.2) → Legible (.object fields)

/-- What may follow a value: nothing, or a comma or a closing bracket. -/
def Stops (rest : List Char) : Prop :=
  ∀ c cs, rest = c :: cs → c = ',' ∨ c = ']' ∨ c = '\x7d'

theorem stops_nil : Stops [] := nofun

theorem stops_cons {c : Char} {cs : List Char} (h : c = ',' ∨ c = ']' ∨ c = '\x7d') :
    Stops (c :: cs) := by
  rintro _ _ ⟨⟩
  exact h

theorem skipBlanks_cons {c : Char} {cs : List Char} (h : isBlank c = false) :
    skipBlanks (c :: cs) = c :: cs := by
  rw [skipBlanks, List.dropWhile_cons_of_neg (by rw [h]; decide)]

/-! ## 1. Strings -/

theorem hexDigit?_hexChar (n : Nat) : hexDigit? (hexChar n) = some (n % 16) := by
  have hlt : n % 16 < 16 := Nat.mod_lt n (by decide)
  unfold hexChar
  generalize n % 16 = d at hlt
  interval_cases d <;> rfl

/-- Four digits of a control character. -/
theorem readUnicodeEscape_control {c : Char} (hc : c.toNat < 32) (rest : List Char) :
    readUnicodeEscape ('0' :: '0' :: hexChar (c.toNat / 16) :: hexChar c.toNat :: rest) =
      .ok (some c, rest) := by
  have hvalue : ((0 * 16 + 0) * 16 + c.toNat / 16 % 16) * 16 + c.toNat % 16 = c.toNat := by omega
  have hzero : hexDigit? '0' = some 0 := rfl
  have hhex : readHex4 ('0' :: '0' :: hexChar (c.toNat / 16) :: hexChar c.toNat :: rest) =
      some (c.toNat, rest) := by
    simp only [readHex4, hzero, hexDigit?_hexChar]
    rw [hvalue]
  rw [readUnicodeEscape, hhex]
  dsimp only
  rw [if_neg (by omega), if_neg (by omega), Char.ofNat_toNat]

/-- **An escaped character is read as one character.** -/
theorem readString_escape (fuel : Nat) (acc : List Char) (c : Char) (rest : List Char) :
    readString (fuel + 1) (some acc) (escape c ++ rest) =
      readString fuel (some (c :: acc)) rest := by
  unfold escape
  split
  · rfl
  · rfl
  · rfl
  · rfl
  · rfl
  · rename_i hquote hslash _ _ _
    split
    · rename_i h8
      obtain rfl : c = Char.ofNat 8 := by rw [← h8, Char.ofNat_toNat]
      rfl
    split
    · rename_i h12
      obtain rfl : c = Char.ofNat 12 := by rw [← h12, Char.ofNat_toNat]
      rfl
    split
    · rename_i hcontrol
      simp only [List.cons_append, List.nil_append, readString,
        readUnicodeEscape_control hcontrol]
      rfl
    · rename_i hplain
      rw [List.singleton_append, readString.eq_def]
      dsimp only
      rw [if_neg hquote, if_neg hslash, if_neg hplain]
      rfl

/-- **A string that was printed is read.** -/
theorem readString_quoted (cs rest : List Char) {fuel : Nat} {acc : List Char}
    (hfuel : (cs.flatMap escape).length < fuel) :
    readString fuel (some acc) (cs.flatMap escape ++ '"' :: rest) =
      .ok (some (String.ofList (acc.reverse ++ cs)), rest) := by
  induction cs generalizing fuel acc with
  | nil =>
    obtain ⟨fuel, rfl⟩ := Nat.exists_eq_succ_of_ne_zero (Nat.ne_of_gt hfuel)
    simp [readString]
  | cons c cs ih =>
    have hescape : escape c ≠ [] := by
      unfold escape
      repeat' split
      all_goals exact List.cons_ne_nil _ _
    have hlength := List.length_pos_iff.mpr hescape
    rw [List.flatMap_cons, List.length_append] at hfuel
    obtain ⟨fuel, rfl⟩ := Nat.exists_eq_succ_of_ne_zero (Nat.ne_zero_of_lt hfuel)
    rw [List.flatMap_cons, List.append_assoc, readString_escape, ih (by omega)]
    simp

theorem toList_quote (s : String) :
    (quote s).toList = '"' :: (s.toList.flatMap escape ++ ['"']) := by
  rw [quote, String.toList_ofList]

/-- A quoted string is read after its first quote. -/
theorem readString_quote (s : String) (rest : List Char) :
    ∃ cs, (quote s).toList ++ rest = '"' :: cs ∧
      readString (cs.length + 1) (some []) cs = .ok (some s, rest) := by
  refine ⟨s.toList.flatMap escape ++ '"' :: rest, ?_, ?_⟩
  · rw [toList_quote, List.cons_append, List.append_assoc]
    rfl
  · rw [readString_quoted s.toList rest (by rw [List.length_append, List.length_cons]; omega)]
    simp

/-! ## 2. Numbers -/

/-- Digits are none of the characters that other values begin with. -/
theorem ne_of_digit {c d : Char} (hc : (digit? c).isSome = true) (hd : digit? d = none) :
    c ≠ d := by
  rintro rfl
  rw [hd] at hc
  cases hc

theorem digit?_of_stops {c : Char} {rest : List Char} (h : Stops (c :: rest)) :
    digit? c = none := by
  rcases h c rest rfl with rfl | rfl | rfl <;> rfl

/-- Digits are read up to where the number stops. -/
theorem readWhole_digits {negative : Bool} {rest : List Char} (hrest : Stops rest)
    {cs : List Char} {word n : Nat} (hvalue : valueFrom word cs = some n)
    (hn : n < Word.bound64) :
    readWhole negative word (cs ++ rest) = .ok (wholeLeaf negative n, rest) := by
  induction cs generalizing word with
  | nil =>
    obtain rfl : word = n := Option.some.inj hvalue
    cases rest with
    | nil => rfl
    | cons c rest =>
      rw [List.nil_append, readWhole, digit?_of_stops hrest]
      rcases hrest c rest rfl with rfl | rfl | rfl <;> rfl
  | cons c cs ih =>
    obtain ⟨d, hdigit, htail⟩ := valueFrom_cons hvalue
    have hfits := le_of_valueFrom htail
    rw [Nat.mul_comm] at htail hfits
    rw [List.cons_append, readWhole, hdigit]
    dsimp only
    rw [if_neg (by omega), ih htail]

/-- The digits of a number do not begin with a zero, unless it is zero. -/
theorem digitsOnto_eq_cons {fuel : Nat} : ∀ {n : Nat} {tail : List Char}, 0 < n →
    n < 10 ^ (fuel + 1) →
      ∃ m cs, digitsOnto fuel n tail = digitChar m :: cs ∧ 0 < m ∧ m < 10 := by
  induction fuel with
  | zero => exact fun hpos hn => ⟨_, _, rfl, hpos, by simpa using hn⟩
  | succ fuel ih =>
    intro n tail hpos hn
    rw [digitsOnto]
    by_cases hsmall : n < 10
    · exact ⟨n, tail, if_pos hsmall, hpos, hsmall⟩
    · rw [if_neg hsmall]
      refine ih (by omega) ?_
      rw [Nat.div_lt_iff_lt_mul (by decide)]
      simpa [Nat.pow_succ] using hn

theorem readUnsigned_natDigits {negative : Bool} {rest : List Char} (hrest : Stops rest) {n : Nat}
    (hn : n < Word.bound64) :
    readUnsigned negative (natDigits n ++ rest) = .ok (wholeLeaf negative n, rest) := by
  by_cases hzero : n = 0
  · subst hzero
    have hdigits : natDigits 0 = ['0'] := rfl
    rw [hdigits]
    cases rest with
    | nil => rfl
    | cons c rest =>
      have hread : readWhole negative 0 (c :: rest) = .ok (wholeLeaf negative 0, c :: rest) :=
        readWhole_digits hrest (rfl : valueFrom 0 [] = some 0) (by decide)
      simp only [List.cons_append, List.nil_append, readUnsigned, digit?_of_stops hrest]
      exact hread
  · obtain ⟨m, cs, hdigits, hpos, hm⟩ : ∃ m cs, natDigits n = digitChar m :: cs ∧ 0 < m ∧ m < 10 :=
      digitsOnto_eq_cons (Nat.pos_of_ne_zero hzero) (lt_ten_pow_log2 n)
    have hdigit : digit? (digitChar m) = some m := by
      rw [digit?_digitChar, Nat.mod_eq_of_lt hm]
    have hvalue := valueFrom_natDigits n
    rw [hdigits, valueFrom, hdigit] at hvalue
    have hne : digitChar m ≠ '0' := by
      intro heq
      rw [heq] at hdigit
      exact absurd (Option.some.inj hdigit) (Nat.ne_of_lt hpos)
    rw [hdigits, List.cons_append, readUnsigned]
    · rw [hdigit]
      exact readWhole_digits hrest (by simpa using hvalue) hn
    · intro _ _ heq
      exact absurd heq hne

/-! ## 3. Documents -/

/-- The characters of a document. -/
def textOf (j : Json) : List Char := (print j).toList

theorem textOf_array (items : List Json) :
    textOf (.array items) = '[' :: ((printItems items).toList ++ [']']) := by
  rw [textOf, print, String.toList_append, String.toList_append]
  rfl

theorem textOf_object (fields : List (String × Json)) :
    textOf (.object fields) = '\x7b' :: ((printFields fields).toList ++ ['\x7d']) := by
  rw [textOf, print, String.toList_append, String.toList_append]
  rfl

theorem toList_printItems_cons (j k : Json) (rest : List Json) :
    (printItems (j :: k :: rest)).toList = textOf j ++ ',' :: (printItems (k :: rest)).toList := by
  rw [printItems, String.toList_append, String.toList_append, List.append_assoc]
  · rfl
  · nofun

theorem toList_printFields_single (n : String) (j : Json) :
    (printFields [(n, j)]).toList = (quote n).toList ++ ':' :: textOf j := by
  rw [printFields, String.toList_append, String.toList_append, List.append_assoc]
  rfl

theorem toList_printFields_cons (n : String) (j : Json) (f : String × Json)
    (rest : List (String × Json)) :
    (printFields ((n, j) :: f :: rest)).toList =
      (quote n).toList ++ ':' :: (textOf j ++ ',' :: (printFields (f :: rest)).toList) := by
  rw [printFields, String.toList_append, String.toList_append, String.toList_append,
    String.toList_append, List.append_assoc, List.append_assoc, List.append_assoc]
  · rfl
  · nofun

/-- A document is read off its text, whatever comes after it. -/
def IsRead (j : Json) : Prop :=
  ∀ fuel rest, (textOf j).length < fuel → Stops rest →
    readValue fuel (textOf j ++ rest) = .ok (j, rest)

theorem isBlank_of_digit {c : Char} (hc : (digit? c).isSome = true) : isBlank c = false := by
  have hspace := ne_of_digit hc (d := ' ') rfl
  have hline := ne_of_digit hc (d := '\n') rfl
  have htab := ne_of_digit hc (d := '\t') rfl
  have hreturn := ne_of_digit hc (d := '\r') rfl
  simp [isBlank, hspace, hline, htab, hreturn]

theorem readValue_array {fuel : Nat} {c : Char} {cs : List Char} (hblank : isBlank c = false)
    (hc : c ≠ ']') : readValue (fuel + 1) ('[' :: c :: cs) = readItems fuel [] (c :: cs) := by
  rw [readValue, skipBlanks_cons rfl]
  split
  case h_3 rest heq =>
    obtain rfl := (List.cons.inj heq).2
    rw [skipBlanks_cons hblank]
    split
    · rename_i heq
      exact absurd (List.cons.inj heq).1 hc
    · rfl
  case h_9 hopen _ _ _ _ _ heq => exact absurd (List.cons.inj heq).1.symm hopen
  all_goals
    rename_i heq
    cases heq

/-- A text that begins with a quote is read as a string. -/
theorem readValue_quote {fuel : Nat} {s : String} {cs rest : List Char}
    (h : readString (cs.length + 1) (some []) cs = .ok (some s, rest)) :
    readValue (fuel + 1) ('"' :: cs) = .ok (.string s, rest) := by
  rw [readValue, skipBlanks_cons rfl]
  split
  case h_2 tail heq =>
    obtain rfl := (List.cons.inj heq).2
    rw [h]
    rfl
  case h_9 hquote _ _ _ _ _ _ heq => exact absurd (List.cons.inj heq).1.symm hquote
  all_goals
    rename_i heq
    cases heq

/-- A text that begins with a digit is read as a number. -/
theorem readValue_digit {fuel : Nat} {c : Char} (hc : (digit? c).isSome = true) (rest : List Char) :
    readValue (fuel + 1) (c :: rest) = readUnsigned false (c :: rest) := by
  rw [readValue, skipBlanks_cons (isBlank_of_digit hc)]
  split
  · rename_i heq; cases heq
  · rename_i heq; cases heq; cases hc
  · rename_i heq; cases heq; cases hc
  · rename_i heq; cases heq; cases hc
  · rename_i heq; cases heq; cases hc
  · rename_i heq; cases heq; cases hc
  · rename_i heq; cases heq; cases hc
  · rename_i heq; cases heq; cases hc
  · rename_i heq; cases heq; rfl

theorem isRead_whole {n : Int} (hlow : -(Word.bound63 : Int) ≤ n) (hhigh : n < Word.bound64) :
    IsRead (.number (.whole n)) := by
  intro fuel rest hfuel hrest
  obtain ⟨fuel, rfl⟩ := Nat.exists_eq_succ_of_ne_zero (Nat.ne_zero_of_lt hfuel)
  have hbounds : Word.bound63 < Word.bound64 := by decide
  have hn : n.natAbs < Word.bound64 := by omega
  by_cases hneg : n < 0
  · have htext : textOf (.number (.whole n)) = '-' :: natDigits n.natAbs := by
      rw [textOf, print, numberText, Text.ofInt, if_pos hneg, String.toList_append, toList_ofNat]
      rfl
    have hleaf : wholeLeaf true n.natAbs = .number (.whole n) := by
      rw [wholeLeaf, if_pos rfl, if_neg (by omega), Json.ofInt]
      congr
      omega
    rw [htext, ← hleaf]
    exact readUnsigned_natDigits hrest hn
  · have htext : textOf (.number (.whole n)) = natDigits n.natAbs := by
      rw [textOf, print, numberText, Text.ofInt, if_neg hneg, toList_ofNat]
    have hleaf : wholeLeaf false n.natAbs = .number (.whole n) := by
      rw [wholeLeaf, if_neg (by decide), Json.ofNat]
      congr
      omega
    obtain ⟨c, cs, hdigits, hc⟩ := exists_natDigits_eq_cons n.natAbs
    have hread : readUnsigned false (natDigits n.natAbs ++ rest) = _ :=
      readUnsigned_natDigits hrest hn
    rw [htext, ← hleaf, ← hread, hdigits]
    exact readValue_digit hc _

theorem isRead_string (s : String) : IsRead (.string s) := by
  intro fuel rest hfuel _
  obtain ⟨fuel, rfl⟩ := Nat.exists_eq_succ_of_ne_zero (Nat.ne_zero_of_lt hfuel)
  obtain ⟨cs, hcs, hread⟩ := readString_quote s rest
  have htext : textOf (.string s) = (quote s).toList := rfl
  rw [htext, hcs, readValue_quote hread]

/-! ### Arrays -/

section Items

variable {fuel : Nat} {acc : List Json} {v : Json} {cs rest : List Char}

theorem readItems_more (h : readValue fuel cs = .ok (v, ',' :: rest)) :
    readItems (fuel + 1) acc cs = readItems fuel (v :: acc) rest := by
  rw [readItems, h]
  rfl

theorem readItems_last (h : readValue fuel cs = .ok (v, ']' :: rest)) :
    readItems (fuel + 1) acc cs = .ok (.array (v :: acc).reverse, rest) := by
  rw [readItems, h]
  rfl

/-- **Items that were printed are read**, one after another. -/
theorem readItems_print {items : List Json} (hitems : ∀ j ∈ items, IsRead j) (hne : items ≠ []) :
    ∀ {fuel : Nat} {acc : List Json}, (printItems items).toList.length + 1 < fuel →
      readItems fuel acc ((printItems items).toList ++ ']' :: rest) =
        .ok (.array (acc.reverse ++ items), rest) := by
  induction items with
  | nil => exact absurd rfl hne
  | cons j items ih =>
    intro fuel acc hfuel
    obtain ⟨fuel, rfl⟩ := Nat.exists_eq_succ_of_ne_zero (Nat.ne_zero_of_lt hfuel)
    have hj := hitems j List.mem_cons_self
    cases items with
    | nil =>
      have htext : (printItems [j]).toList = textOf j := rfl
      rw [htext] at hfuel ⊢
      rw [readItems_last (hj fuel (']' :: rest) (by omega) (stops_cons (by decide))),
        List.reverse_cons]
    | cons k items =>
      rw [toList_printItems_cons, List.length_append, List.length_cons] at hfuel
      rw [toList_printItems_cons, List.append_assoc, List.cons_append,
        readItems_more (hj fuel _ (by omega) (stops_cons (by decide))),
        ih (fun i hi => hitems i (List.mem_cons_of_mem _ hi)) (List.cons_ne_nil _ _) (by omega),
        List.reverse_cons, List.append_assoc]
      rfl

/-- The text of a document that can be written does not begin with a blank or a bracket that
closes. -/
theorem Legible.exists_head {j : Json} (h : Legible j) :
    ∃ c cs, textOf j = c :: cs ∧ isBlank c = false ∧ c ≠ ']' := by
  cases h with
  | null => exact ⟨_, _, rfl, rfl, by decide⟩
  | bool b => cases b <;> exact ⟨_, _, rfl, rfl, by decide⟩
  | string s => exact ⟨'"', _, toList_quote s, rfl, by decide⟩
  | array _ => exact ⟨'[', _, textOf_array _, rfl, by decide⟩
  | object _ => exact ⟨'\x7b', _, textOf_object _, rfl, by decide⟩
  | @whole n hlow hhigh =>
    have hsign : textOf (.number (.whole n)) = (Text.ofInt n).toList := rfl
    rw [hsign, Text.ofInt]
    split
    · rw [String.toList_append]
      exact ⟨'-', _, rfl, rfl, by decide⟩
    · obtain ⟨c, cs, hdigits, hc⟩ := exists_natDigits_eq_cons n.natAbs
      rw [toList_ofNat, hdigits]
      exact ⟨c, cs, rfl, isBlank_of_digit hc, ne_of_digit hc rfl⟩

theorem isRead_array {items : List Json} (hlegible : ∀ j ∈ items, Legible j)
    (hitems : ∀ j ∈ items, IsRead j) : IsRead (.array items) := by
  intro fuel rest hfuel _
  obtain ⟨fuel, rfl⟩ := Nat.exists_eq_succ_of_ne_zero (Nat.ne_zero_of_lt hfuel)
  rw [textOf_array, List.length_cons, List.length_append, List.length_singleton] at hfuel
  rw [textOf_array, List.cons_append, List.append_assoc, List.singleton_append]
  cases items with
  | nil => rfl
  | cons j items =>
    have hread : readItems fuel [] (_ ++ ']' :: rest) = _ :=
      readItems_print hitems (List.cons_ne_nil _ _) (by omega)
    obtain ⟨c, cs, hhead, hblank, hc⟩ : ∃ c cs, (printItems (j :: items)).toList ++ ']' :: rest =
        c :: cs ∧ isBlank c = false ∧ c ≠ ']' := by
      obtain ⟨c, cs, hj, hblank, hc⟩ := (hlegible j List.mem_cons_self).exists_head
      cases items with
      | nil => exact ⟨c, cs ++ ']' :: rest, congrArg (· ++ ']' :: rest) hj, hblank, hc⟩
      | cons k items =>
        rw [toList_printItems_cons, hj]
        exact ⟨c, _, rfl, hblank, hc⟩
    rw [hhead] at hread ⊢
    rw [readValue_array hblank hc, hread]
    rfl

end Items

/-! ### Objects -/

section Fields

variable {fuel : Nat} {acc : List (String × Json)} {n : String} {v : Json}
  {cs rest rest' : List Char}

theorem readFields_more
    (hname : readString (cs.length + 1) (some []) cs = .ok (some n, ':' :: rest))
    (hvalue : readValue fuel rest = .ok (v, ',' :: rest')) :
    readFields (fuel + 1) (some acc) ('"' :: cs) =
      readFields fuel (some ((n, v) :: acc)) rest' := by
  rw [readFields, skipBlanks_cons rfl]
  simp only [hname]
  rw [skipBlanks_cons rfl]
  simp only [hvalue]
  rfl

theorem readFields_last
    (hname : readString (cs.length + 1) (some []) cs = .ok (some n, ':' :: rest))
    (hvalue : readValue fuel rest = .ok (v, '\x7d' :: rest')) :
    readFields (fuel + 1) (some acc) ('"' :: cs) =
      .ok (.object ((n, v) :: acc).reverse, rest') := by
  rw [readFields, skipBlanks_cons rfl]
  simp only [hname]
  rw [skipBlanks_cons rfl]
  simp only [hvalue]
  rfl

/-- **Fields that were printed are read**, one after another. -/
theorem readFields_print {fields : List (String × Json)} (hfields : ∀ f ∈ fields, IsRead f.2)
    (hne : fields ≠ []) :
    ∀ {fuel : Nat} {acc : List (String × Json)}, (printFields fields).toList.length + 1 < fuel →
      readFields fuel (some acc) ((printFields fields).toList ++ '\x7d' :: rest) =
        .ok (.object (acc.reverse ++ fields), rest) := by
  induction fields with
  | nil => exact absurd rfl hne
  | cons f fields ih =>
    obtain ⟨n, j⟩ := f
    intro fuel acc hfuel
    obtain ⟨fuel, rfl⟩ := Nat.exists_eq_succ_of_ne_zero (Nat.ne_zero_of_lt hfuel)
    have hj : IsRead j := hfields (n, j) List.mem_cons_self
    cases fields with
    | nil =>
      rw [toList_printFields_single, List.length_append, List.length_cons] at hfuel
      obtain ⟨cs, hcs, hname⟩ := readString_quote n (':' :: (textOf j ++ '\x7d' :: rest))
      rw [toList_printFields_single, List.append_assoc, List.cons_append, hcs,
        readFields_last hname (hj fuel ('\x7d' :: rest) (by omega) (stops_cons (by decide))),
        List.reverse_cons]
    | cons g fields =>
      rw [toList_printFields_cons, List.length_append, List.length_cons, List.length_append,
        List.length_cons] at hfuel
      obtain ⟨cs, hcs, hname⟩ := readString_quote n (':' :: (textOf j ++
        ',' :: ((printFields (g :: fields)).toList ++ '\x7d' :: rest)))
      rw [toList_printFields_cons, List.append_assoc, List.cons_append, List.append_assoc,
        List.cons_append, hcs,
        readFields_more hname (hj fuel _ (by omega) (stops_cons (by decide))),
        ih (fun i hi => hfields i (List.mem_cons_of_mem _ hi)) (List.cons_ne_nil _ _) (by omega),
        List.reverse_cons, List.append_assoc]
      rfl

theorem isRead_object {fields : List (String × Json)} (hfields : ∀ f ∈ fields, IsRead f.2) :
    IsRead (.object fields) := by
  intro fuel rest hfuel _
  obtain ⟨fuel, rfl⟩ := Nat.exists_eq_succ_of_ne_zero (Nat.ne_zero_of_lt hfuel)
  rw [textOf_object, List.length_cons, List.length_append, List.length_singleton] at hfuel
  rw [textOf_object, List.cons_append, List.append_assoc, List.singleton_append]
  cases fields with
  | nil => rfl
  | cons f fields =>
    have hread : readFields fuel (some []) (_ ++ '\x7d' :: rest) = _ :=
      readFields_print hfields (List.cons_ne_nil _ _) (by omega)
    obtain ⟨cs, hhead⟩ : ∃ cs, (printFields (f :: fields)).toList ++ '\x7d' :: rest =
        '"' :: cs := by
      obtain ⟨n, j⟩ := f
      cases fields with
      | nil => rw [toList_printFields_single, toList_quote]; exact ⟨_, rfl⟩
      | cons g fields => rw [toList_printFields_cons, toList_quote]; exact ⟨_, rfl⟩
    rw [hhead] at hread ⊢
    exact hread

end Fields

/-- **A document that can be written is read off its text.** -/
theorem Legible.isRead {j : Json} (h : Legible j) : IsRead j := by
  induction h with
  | null | bool b =>
    intro fuel rest hfuel _
    obtain ⟨fuel, rfl⟩ := Nat.exists_eq_succ_of_ne_zero (Nat.ne_zero_of_lt hfuel)
    first | rfl | cases b <;> rfl
  | string s => exact isRead_string s
  | whole hlow hhigh => exact isRead_whole hlow hhigh
  | array hitems ih => exact isRead_array hitems ih
  | object _ ih => exact isRead_object ih

/-- **A text that was printed is read.** -/
theorem Legible.read_print {j : Json} (h : Legible j) : read (print j) = .ok j := by
  have hread := h.isRead ((textOf j).length + 1) [] (Nat.lt_succ_self _) stops_nil
  rw [List.append_nil] at hread
  have hvalue : readValue ((print j).toList.length + 1) (print j).toList = .ok (j, []) := hread
  rw [read]
  simp only [hvalue]
  rfl

end OrderDesk.Json
