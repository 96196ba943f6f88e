import Mathlib.Data.List.Nodup
import OrderDesk.Proofs.Fields
import OrderDesk.Proofs.Records.Printed

/-!
# Documents in another order

The fields of an object may stand in any order.  `Reorders` relates a document to those that differ
from it only in the order of fields, at any depth.  A decoder that makes one value of all of them
has read the document (`Reads`), and records are put together from such decoders field by field:
each name stands once, wherever it stands (`Reordered.holds`).

What is written in another order can still be written (`Legible.reorders`), so a value that is read
from a document is read from the texts of all these documents (`Reads.decodeText`).
-/

namespace OrderDesk.Json

/-- A document with its fields in another order, at any depth. -/
inductive Reorders : Json → Json → Prop
  | same (j : Json) : Reorders j j
  | array {items items' : List Json} : items.length = items'.length →
      (∀ (i : Nat) (j k : Json), items[i]? = some j → items'[i]? = some k → Reorders j k) →
      Reorders (.array items) (.array items')
  | object {fs gs : List (String × Json)} : (gs.map (·.1)).Perm (fs.map (·.1)) →
      (∀ name j k, (name, j) ∈ fs → (name, k) ∈ gs → Reorders j k) →
      Reorders (.object fs) (.object gs)

/-- The fields of a document in another order: the same names, each with its value. -/
structure Reordered (fs gs : List (String × Json)) : Prop where
  names : (gs.map (·.1)).Perm (fs.map (·.1))
  values : ∀ name j k, (name, j) ∈ fs → (name, k) ∈ gs → Reorders j k

/-- Every document in another order is read as this value. -/
def Reads {α : Type} (decode : Json → Decoded α) (j : Json) (a : α) : Prop :=
  ∀ j', Reorders j j' → decode j' = .ok a

variable {α β : Type} {fs gs : List (String × Json)} {name : String} {j k : Json} {a : α}
  {decode : Json → Decoded α}

/-! ## 1. Fields -/

/-- The values of a name that stands once are one. -/
theorem eq_of_nodup (hfs : (fs.map (·.1)).Nodup) (hj : (name, j) ∈ fs) (hk : (name, k) ∈ fs) :
    j = k :=
  congrArg Prod.snd (List.inj_on_of_nodup_map hfs hj hk rfl)

/-- A name that stands once is found. -/
theorem sole_of_nodup (hfs : (fs.map (·.1)).Nodup) (hj : (name, j) ∈ fs) : Sole fs name j := by
  induction fs with
  | nil => cases hj
  | cons f fs ih =>
    rw [List.map_cons, List.nodup_cons] at hfs
    rcases List.mem_cons.mp hj with rfl | hj
    · rw [Sole, List.filter_cons_of_pos (by simp), List.filter_eq_nil_iff.mpr]
      intro g hg
      have hne : g.1 ≠ name := by
        rintro rfl
        exact hfs.1 (List.mem_map.mpr ⟨g, hg, rfl⟩)
      simpa using hne
    · have hne : f.1 ≠ name := by
        rintro rfl
        exact hfs.1 (List.mem_map.mpr ⟨_, hj, rfl⟩)
      rw [Sole, List.filter_cons_of_neg (by simpa using hne)]
      exact ih hfs.2 hj

/-- **What is read from a field is read wherever the field stands.** -/
theorem Reordered.holds (h : Reordered fs gs) (hfs : (fs.map (·.1)).Nodup) (hj : (name, j) ∈ fs)
    (hreads : Reads decode j a) : Holds gs name decode a := by
  have hgs : (gs.map (·.1)).Nodup := h.names.nodup_iff.mpr hfs
  have hname : name ∈ gs.map (·.1) := h.names.mem_iff.mpr (List.mem_map_of_mem hj)
  obtain ⟨⟨_, k⟩, hk, rfl⟩ := List.mem_map.mp hname
  exact ⟨k, sole_of_nodup hgs hk, hreads k (h.values _ _ _ hj hk)⟩

/-! ## 2. Documents -/

theorem Reorders.of_object {j' : Json} (h : Reorders (.object fs) j')
    (hfs : (fs.map (·.1)).Nodup) : ∃ gs, j' = .object gs ∧ Reordered fs gs := by
  cases h with
  | same => exact ⟨fs, rfl, List.Perm.refl _, fun _ j k hj hk => eq_of_nodup hfs hj hk ▸ .same j⟩
  | object hnames hvalues => exact ⟨_, rfl, hnames, hvalues⟩

/-- An object of one field stays one. -/
theorem Reorders.of_single {j' : Json} (h : Reorders (.object [(name, j)]) j') :
    ∃ k, j' = .object [(name, k)] ∧ Reorders j k := by
  obtain ⟨gs, rfl, hnames, hvalues⟩ := h.of_object (List.nodup_singleton _)
  obtain ⟨⟨_, k⟩, rfl, rfl⟩ := List.map_eq_singleton_iff.mp (List.perm_singleton.mp hnames)
  exact ⟨k, rfl, hvalues _ _ _ List.mem_cons_self List.mem_cons_self⟩

/-- What can be written can be written in another order. -/
theorem Legible.reorders {j' : Json} (hj : Legible j) (h : Reorders j j') : Legible j' := by
  induction h with
  | same => exact hj
  | @array items items' hlength _ ih =>
    cases hj with
    | array hitems =>
      refine .array fun k hk => ?_
      obtain ⟨i, hi, rfl⟩ := List.getElem_of_mem hk
      have hlt : i < items.length := hlength ▸ hi
      exact ih i items[i] items'[i] (List.getElem?_eq_getElem hlt) (List.getElem?_eq_getElem hi)
        (hitems _ (List.getElem_mem hlt))
  | @object fs gs hnames _ ih =>
    cases hj with
    | object hfields =>
      refine .object ?_
      rintro ⟨name, k⟩ hk
      obtain ⟨⟨_, j⟩, hj, rfl⟩ := List.mem_map.mp (hnames.mem_iff.mp (List.mem_map_of_mem hk))
      exact ih _ j k hj hk (hfields _ hj)

/-! ## 3. Values -/

/-- **A value is read from the text of its document**, in whatever order that is written. -/
theorem Reads.decodeText (h : Reads decode j a) (hj : Legible j) {j' : Json} (hj' : Reorders j j') :
    decodeText decode (print j') = .ok a := by
  rw [Json.decodeText, (hj.reorders hj').read_print]
  simp only [h j' hj']

/-- A leaf has no order. -/
theorem Reads.of_leaf (hleaf : ∀ j', Reorders j j' → j' = j) (h : decode j = .ok a) :
    Reads decode j a := by
  intro j' hj'
  rw [hleaf j' hj', h]

theorem reads_of_string {s : String} (h : decode (.string s) = .ok a) :
    Reads decode (.string s) a :=
  .of_leaf (fun _ hj' => by cases hj'; rfl) h

theorem reads_string (s : String) : Reads decodeString (.string s) s := reads_of_string rfl

theorem reads_bool (b : Bool) : Reads decodeBool (.bool b) b :=
  .of_leaf (fun _ hj' => by cases hj'; rfl) rfl

/-- A number of 64 bits is read. -/
theorem reads_word64 {n : Nat} (hn : n < Word.bound64) : Reads decodeWord64 (.ofNat n) n := by
  refine .of_leaf (fun _ hj' => by cases hj'; rfl) ?_
  rw [decodeWord64, Json.ofNat, decodeWhole, if_pos ⟨Int.natCast_nonneg n, by omega⟩]
  rfl

/-- A text that may be missing is read, and so is that it is missing. -/
theorem reads_option (s? : Option String) :
    Reads (decodeOption decodeString) (Json.ofOption (s?.map .string)) s? := by
  cases s? with
  | none => exact .of_leaf (fun _ hj' => by cases hj'; rfl) rfl
  | some s => exact reads_of_string rfl

/-- A name from a table is read. -/
theorem reads_name {table : List (String × α)} {s : String} (h : table.lookup s = some a) :
    Reads (decodeName table) (.string s) a := by
  refine reads_of_string ?_
  simp only [decodeName, decodeVariant, Option.all_none, if_true, h]

/-- A list is read item by item. -/
theorem reads_list {toJson : β → Json} {decode : Json → Decoded β}
    (h : ∀ b, Reads decode (toJson b) b) (bs : List β) :
    Reads (decodeList decode) (.array (bs.map toJson)) bs := by
  have hitems : ∀ (bs : List β) (items : List Json), bs.length = items.length →
      (∀ (i : Nat) (j k : Json), (bs.map toJson)[i]? = some j → items[i]? = some k →
        Reorders j k) → decodeItems decode items = .ok bs := by
    intro bs
    induction bs with
    | nil =>
      intro items hlength _
      obtain rfl := List.length_eq_zero_iff.mp hlength.symm
      rfl
    | cons b bs ih =>
      intro items hlength hreorders
      cases items with
      | nil => cases hlength
      | cons k items =>
        have hb := h b k (hreorders 0 _ k rfl rfl)
        have hbs := ih items (Nat.succ.inj hlength) fun i j k hj hk => hreorders (i + 1) j k hj hk
        simp only [decodeItems, hb, hbs]
        rfl
  intro j' hj'
  cases hj' with
  | same =>
    refine hitems bs _ (List.length_map _).symm fun i j k hj hk => ?_
    obtain rfl := Option.some.inj (hj.symm.trans hk)
    exact .same j
  | array hlength hreorders => exact hitems bs _ (by simpa using hlength) hreorders

/-! ## 4. Records -/

/-- A field that may be missing and is there. -/
theorem Makes.optional {f : Option α → RecordReader β} {a? : Option α} {P : β → Prop}
    (hfield : Holds fs name (decodeOption decode) a?) (h : Makes fs (f a?) P) :
    Makes fs (optional name decode >>= f) P := by
  obtain ⟨j, hsole, hread⟩ := hfield
  refine .of_bind ?_ h
  simp only [Json.optional, take_sole hsole, hread]
  rfl

/-- **A record is read** if its row of readers makes it of the fields, and each field is read
wherever it stands. -/
theorem reads_record {reader : RecordReader α} (hfs : (fs.map (·.1)).Nodup)
    (h : ∀ gs, (∀ {β : Type} {name : String} {j : Json} {decode : Json → Decoded β} {b : β},
      (name, j) ∈ fs → Reads decode j b → Holds gs name decode b) → Makes gs reader (· = a)) :
    Reads (decodeRecord reader) (.object fs) a := by
  intro j' hj'
  obtain ⟨gs, rfl, hgs⟩ := hj'.of_object hfs
  obtain ⟨b, hb, rfl⟩ := (h gs fun hj hreads => hgs.holds hfs hj hreads).decodeRecord
  exact hb

/-- **An alternative with its content is read** if the content is. -/
theorem reads_alternative {inner : Json → Decoded α}
    (hinner : ∀ k, decode (.object [(name, k)]) = inner k) (h : Reads inner j a) :
    Reads decode (.object [(name, j)]) a := by
  intro j' hj'
  obtain ⟨k, rfl, hk⟩ := hj'.of_single
  rw [hinner, h k hk]

/-! ## 5. What can be written -/

attribute [simp] Legible.null Legible.bool Legible.string

@[simp] theorem legible_array {items : List Json} :
    Legible (.array items) ↔ ∀ j ∈ items, Legible j :=
  ⟨fun h => by cases h; assumption, .array⟩

@[simp] theorem legible_object : Legible (.object fs) ↔ ∀ f ∈ fs, Legible f.2 :=
  ⟨fun h => by cases h; assumption, .object⟩

@[simp] theorem legible_ofNat {n : Nat} : Legible (.ofNat n) ↔ n < Word.bound64 := by
  constructor
  · rintro (_ | _ | _ | ⟨-, hn⟩)
    exact_mod_cast hn
  · exact fun hn => .whole (by omega) (by exact_mod_cast hn)

@[simp] theorem legible_ofOption (s? : Option String) :
    Legible (Json.ofOption (s?.map .string)) := by
  cases s? with
  | none => exact .null
  | some s => exact .string s

end OrderDesk.Json
