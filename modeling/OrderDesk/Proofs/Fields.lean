import OrderDesk.Json.Decode

/-!
# Reading records

Taking a field off an object leaves the object as it is, so that every reader of a row sees all
fields (`Leaves`).  What a row of readers found is therefore what each of them finds by itself
(`Leaves.of_bind`).  A record may also be an array of its fields in order, in which a row of readers
finds what stands at their places (`says_of_bind`).  Where only the end of a row matters, it is
enough to look at what it makes of whatever came before (`Yields`).  A row that does not ask for a
name makes the same of objects that differ in the fields of that name only (`Ignores`).
-/

namespace OrderDesk.Json

/-! ## 1. Objects -/

variable {α β : Type} {fs : List (String × Json)} {name : String} {j : Json}

/-- The field of this name stands once in an object. -/
def Sole (fs : List (String × Json)) (name : String) (j : Json) : Prop :=
  (fs.filter fun f => [name].contains f.1) = [(name, j)]

/-- A reader leaves objects as they are. -/
def Leaves (x : RecordReader α) : Prop :=
  ∀ ⦃fs : List (String × Json)⦄ ⦃a : α⦄ ⦃r : Record⦄, x (.fields fs) = .ok (a, r) → r = .fields fs

theorem take_fields {names : List String} {found : Option Json} {r : Record}
    (h : Record.take names (.fields fs) = .ok (found, r)) : r = .fields fs := by
  simp only [Record.take] at h
  split at h
  · cases h
    rfl
  · cases h
    rfl
  · cases h

theorem take_sole (h : Sole fs name j) :
    Record.take [name] (.fields fs) = .ok (some j, .fields fs) := by
  simp only [Record.take]
  rw [h]

/-- A field that stands once is the one that is found. -/
theorem lookup_of_sole (h : Sole fs name j) :
    fs.lookup name = some j := by
  induction fs with
  | nil => cases h
  | cons f fs ih =>
    obtain ⟨name', j'⟩ := f
    rw [List.lookup_cons]
    by_cases hname : name' = name
    · subst hname
      have hfirst := h
      rw [Sole, List.filter_cons_of_pos (by simp)] at hfirst
      have hj := (Prod.mk.inj (List.cons.inj hfirst).1).2
      rw [beq_self_eq_true, hj]
    · have hrest : Sole fs name j := by
        rw [Sole, List.filter_cons_of_neg (by simpa using hname)] at h
        exact h
      rw [beq_eq_false_iff_ne.mpr (Ne.symm hname)]
      exact ih hrest

/-- What no field is named is not found. -/
theorem lookup_of_filter_eq_nil (h : (fs.filter fun f => [name].contains f.1) = []) :
    fs.lookup name = none := by
  rw [List.lookup_eq_none_iff]
  intro f hf
  have hname : f.1 ≠ name := by simpa using List.filter_eq_nil_iff.mp h f hf
  exact bne_iff_ne.mpr hname.symm

/-- A field that stands once has one value. -/
theorem Sole.unique {i : Json} (hi : Sole fs name i) (hj : Sole fs name j) : i = j :=
  Option.some.inj ((lookup_of_sole hi).symm.trans (lookup_of_sole hj))

/-- What is read as a number is that number. -/
theorem eq_ofNat_of_decodeWord64 {n : Nat} (h : decodeWord64 j = .ok n) : j = .ofNat n := by
  cases j with
  | number m =>
    cases m with
    | whole i =>
      simp only [decodeWord64, decodeWhole] at h
      split at h
      · rename_i hrange
        cases h
        rw [Json.ofNat, Int.toNat_of_nonneg hrange.1]
      · cases h
    | float x => cases h
  | _ => cases h

/-- A value that was read with the record beside it. -/
theorem eq_of_map_pair {x : Decoded α} {r r' : Record} {a : α}
    (h : (x.map fun v => (v, r)) = .ok (a, r')) : x = .ok a ∧ r' = r := by
  cases x with
  | error e => cases h
  | ok v =>
    cases h
    exact ⟨rfl, rfl⟩

theorem leaves_required (name : String) (decode : Json → Decoded α) :
    Leaves (required name decode) := by
  intro fs a r h
  unfold required at h
  split at h
  · cases h
  · rename_i j r' htake
    obtain rfl := take_fields htake
    exact (eq_of_map_pair h).2
  · cases h

theorem leaves_defaulted (name : String) (value : α) (decode : Json → Decoded α) :
    Leaves (defaulted name value decode) := by
  intro fs a r h
  unfold defaulted defaultedOf at h
  split at h
  · cases h
  · rename_i j r' htake
    obtain rfl := take_fields htake
    exact (eq_of_map_pair h).2
  · rename_i r' htake
    obtain rfl := take_fields htake
    cases h
    rfl

/-- A field that stands once is what its reader reads. -/
theorem required_sole {decode : Json → Decoded α} {a : α} {r : Record} (h : Sole fs name j)
    (hread : required name decode (.fields fs) = .ok (a, r)) : decode j = .ok a := by
  simp only [required, take_sole h] at hread
  exact (eq_of_map_pair hread).1

theorem defaulted_sole {decode : Json → Decoded α} {value a : α} {r : Record}
    (h : Sole fs name j) (hread : defaulted name value decode (.fields fs) = .ok (a, r)) :
    decode j = .ok a := by
  simp only [defaulted, defaultedOf, take_sole h] at hread
  exact (eq_of_map_pair hread).1

/-- **A row of readers**: the first reads the object, and so do those after it. -/
theorem Leaves.of_bind {x : RecordReader α} {f : α → RecordReader β} {b : β} {r : Record}
    (hx : Leaves x) (h : (x >>= f) (.fields fs) = .ok (b, r)) :
    ∃ a, x (.fields fs) = .ok (a, .fields fs) ∧ f a (.fields fs) = .ok (b, r) := by
  have h : RecordReader.bind x f (.fields fs) = .ok (b, r) := h
  unfold RecordReader.bind at h
  split at h
  · cases h
  · rename_i a r' hread
    obtain rfl := hx hread
    exact ⟨a, hread, h⟩

/-- What a record reader makes of an object. -/
theorem decodeRecord_object {reader : RecordReader α} {a : α}
    (h : decodeRecord reader (.object fs) = .ok a) : ∃ r, reader (.fields fs) = .ok (a, r) := by
  have h : (reader (.fields fs)).map (·.1) = .ok a := h
  cases hread : reader (.fields fs) with
  | error e =>
    rw [hread] at h
    cases h
  | ok p =>
    rw [hread] at h
    cases h
    exact ⟨p.2, rfl⟩

/-! ## 2. What a row of readers makes -/

/-- Whatever a reader makes has a property. -/
def Yields (P : α → Prop) (x : RecordReader α) : Prop :=
  ∀ ⦃r : Record⦄ ⦃a : α⦄ ⦃r' : Record⦄, x r = .ok (a, r') → P a

theorem Yields.pure {P : α → Prop} {a : α} (h : P a) : Yields P (pure a) := by
  intro r a' r' hread
  cases hread
  exact h

theorem Yields.bind {P : β → Prop} {x : RecordReader α} {f : α → RecordReader β}
    (h : ∀ a, Yields P (f a)) : Yields P (x >>= f) := by
  intro r b r' hread
  have hread : RecordReader.bind x f r = .ok (b, r') := hread
  unfold RecordReader.bind at hread
  split at hread
  · cases hread
  · exact h _ hread

/-- A record has the property of what its reader makes. -/
theorem Yields.of_decodeRecord {P : α → Prop} {reader : RecordReader α} {j : Json} {a : α}
    (hreader : Yields P reader) (h : decodeRecord reader j = .ok a) : P a := by
  unfold decodeRecord at h
  split at h
  · rename_i fs
    cases hread : reader (.fields fs) with
    | error e =>
      rw [hread] at h
      cases h
    | ok p =>
      rw [hread] at h
      cases h
      exact hreader hread
  · rename_i js
    split at h
    · cases h
    · rename_i a' hread
      cases h
      exact hreader hread
    · cases h
  · cases h

/-! ## 3. What a row of readers needs -/

/-- A field stands once in an object, and this is read from it. -/
def Holds (fs : List (String × Json)) (name : String) (decode : Json → Decoded α) (a : α) : Prop :=
  ∃ j, Sole fs name j ∧ decode j = .ok a

/-- A field that need not be there can be read if it is. -/
def Fits (fs : List (String × Json)) (name : String) (decode : Json → Decoded α) : Prop :=
  (fs.filter fun f => [name].contains f.1) = [] ∨ ∃ a, Holds fs name decode a

/-- What taking a field off an object finds. -/
theorem take_cases (fs : List (String × Json)) (name : String) :
    ((fs.filter fun f => [name].contains f.1) = [] ∧
      Record.take [name] (.fields fs) = .ok (none, .fields fs)) ∨
    (∃ j, Sole fs name j ∧ Record.take [name] (.fields fs) = .ok (some j, .fields fs)) ∨
    (∃ e, Record.take [name] (.fields fs) = .error e) := by
  simp only [Record.take]
  split
  · rename_i hnone
    exact Or.inl ⟨hnone, rfl⟩
  · rename_i f hone
    have hmem : f ∈ fs.filter fun f => [name].contains f.1 := hone ▸ List.mem_singleton_self f
    have hname : f.1 = name := by simpa using (List.mem_filter.mp hmem).2
    refine Or.inr (Or.inl ⟨f.2, ?_, rfl⟩)
    rw [Sole, hone, ← hname]
  · exact Or.inr (Or.inr ⟨_, rfl⟩)

theorem holds_of_required {decode : Json → Decoded α} {a : α} {r : Record}
    (h : required name decode (.fields fs) = .ok (a, r)) : Holds fs name decode a := by
  unfold required at h
  rcases take_cases fs name with ⟨-, htake⟩ | ⟨j, hsole, htake⟩ | ⟨e, htake⟩
  · rw [htake] at h
    cases h
  · rw [htake] at h
    exact ⟨j, hsole, (eq_of_map_pair h).1⟩
  · rw [htake] at h
    cases h

/-- A text stands in a field as a string. -/
theorem sole_of_holds_text {text : String} (h : Holds fs name decodeString text) :
    Sole fs name (.string text) := by
  obtain ⟨j, hsole, hread⟩ := h
  cases j <;> cases hread
  exact hsole

/-- A number stands in a field as such. -/
theorem sole_of_holds_number {n : Nat} (h : Holds fs name decodeWord64 n) :
    Sole fs name (.ofNat n) := by
  obtain ⟨j, hsole, hread⟩ := h
  rwa [eq_ofNat_of_decodeWord64 hread] at hsole

theorem fits_of_defaulted {decode : Json → Decoded α} {value a : α} {r : Record}
    (h : defaulted name value decode (.fields fs) = .ok (a, r)) : Fits fs name decode := by
  unfold defaulted defaultedOf at h
  rcases take_cases fs name with ⟨hnone, -⟩ | ⟨j, hsole, htake⟩ | ⟨e, htake⟩
  · exact Or.inl hnone
  · rw [htake] at h
    exact Or.inr ⟨a, j, hsole, (eq_of_map_pair h).1⟩
  · rw [htake] at h
    cases h

/-- A reader reads an object and makes something with a property. -/
def Makes (fs : List (String × Json)) (x : RecordReader α) (P : α → Prop) : Prop :=
  ∃ a r, x (.fields fs) = .ok (a, r) ∧ P a

section Makes

variable {decode : Json → Decoded α} {a : α} {f : α → RecordReader β} {b : β} {P : β → Prop}

theorem Makes.pure (h : P b) : Makes fs (pure b) P := ⟨b, .fields fs, rfl, h⟩

theorem Makes.of_bind {x : RecordReader α} (hread : x (.fields fs) = .ok (a, .fields fs))
    (h : Makes fs (f a) P) : Makes fs (x >>= f) P := by
  obtain ⟨b, r, hrest, hb⟩ := h
  refine ⟨b, r, ?_, hb⟩
  show RecordReader.bind x f (.fields fs) = .ok (b, r)
  rw [RecordReader.bind, hread]
  exact hrest

/-- A field that is there is read, and the row goes on. -/
theorem Makes.required (hfield : Holds fs name decode a) (h : Makes fs (f a) P) :
    Makes fs (required name decode >>= f) P := by
  obtain ⟨j, hsole, hread⟩ := hfield
  refine .of_bind ?_ h
  simp only [Json.required, take_sole hsole, hread]
  rfl

/-- A field that can be read or is not there does not stop the row. -/
theorem Makes.defaulted {value : α} (hfield : Fits fs name decode)
    (h : ∀ a, Makes fs (f a) P) : Makes fs (defaulted name value decode >>= f) P := by
  rcases hfield with hnone | ⟨a, j, hsole, hread⟩
  · refine .of_bind ?_ (h value)
    simp only [Json.defaulted, defaultedOf, Record.take]
    rw [hnone]
  · refine .of_bind ?_ (h a)
    simp only [Json.defaulted, defaultedOf, take_sole hsole, hread]
    rfl

/-- What a reader makes of an object is the record. -/
theorem Makes.decodeRecord {reader : RecordReader β} (h : Makes fs reader P) :
    ∃ b, decodeRecord reader (.object fs) = .ok b ∧ P b := by
  obtain ⟨b, r, hread, hb⟩ := h
  refine ⟨b, ?_, hb⟩
  show (reader (.fields fs)).map (·.1) = .ok b
  rw [hread]
  rfl

end Makes

/-! ## 4. What a row of readers does not look at -/

/-- Two objects differ in the fields of one name at most. -/
def SameBeside (name : String) (fs gs : List (String × Json)) : Prop :=
  (fs.filter fun f => f.1 ≠ name) = gs.filter fun f => f.1 ≠ name

/-- A reader finds the same in objects that differ in the fields of one name at most, and leaves
them as they are. -/
def Ignores (name : String) (x : RecordReader α) : Prop :=
  ∀ ⦃fs gs : List (String × Json)⦄, SameBeside name fs gs →
    x (.fields gs) = (x (.fields fs)).map fun p => (p.1, .fields gs)

section Ignores

variable {gs : List (String × Json)} {other : String} {decode : Json → Decoded α} {value : α}

/-- Fields of another name are the same in both objects. -/
theorem SameBeside.filter_eq (h : SameBeside name fs gs) (hne : other ≠ name) :
    (fs.filter fun f => [other].contains f.1) = gs.filter fun f => [other].contains f.1 := by
  have hrest : ∀ hs : List (String × Json), (hs.filter fun f => [other].contains f.1) =
      (hs.filter fun f => f.1 ≠ name).filter fun f => [other].contains f.1 := fun hs => by
    rw [List.filter_filter]
    refine List.filter_congr fun f _ => ?_
    by_cases hf : f.1 = other
    · simp [hf, hne]
    · simp [hf]
  rw [hrest fs, hrest gs, h]

/-- Taking a field of another name finds the same. -/
theorem SameBeside.take_eq (h : SameBeside name fs gs) (hne : other ≠ name) :
    Record.take [other] (.fields gs) =
      (Record.take [other] (.fields fs)).map fun p => (p.1, .fields gs) := by
  simp only [Record.take, ← h.filter_eq hne]
  split <;> rfl

theorem Ignores.pure (a : α) : Ignores name (Pure.pure a : RecordReader α) := fun _ _ _ => rfl

theorem Ignores.required (hne : other ≠ name) : Ignores name (required other decode) := by
  intro fs gs h
  simp only [Json.required, h.take_eq hne]
  rcases take_cases fs other with ⟨-, htake⟩ | ⟨j, -, htake⟩ | ⟨e, htake⟩
  · rw [htake]
    rfl
  · rw [htake]
    simp only [Except.map]
    cases decode j <;> rfl
  · rw [htake]
    rfl

theorem Ignores.defaulted (hne : other ≠ name) :
    Ignores name (defaulted other value decode) := by
  intro fs gs h
  simp only [Json.defaulted, defaultedOf, h.take_eq hne]
  rcases take_cases fs other with ⟨-, htake⟩ | ⟨j, -, htake⟩ | ⟨e, htake⟩
  · rw [htake]
    rfl
  · rw [htake]
    simp only [Except.map]
    cases decode j <;> rfl
  · rw [htake]
    rfl

theorem Ignores.bind {x : RecordReader α} {f : α → RecordReader β} (hx : Ignores name x)
    (hf : ∀ a, Ignores name (f a)) : Ignores name (x >>= f) := by
  intro fs gs h
  have hself := hx (rfl : SameBeside name fs fs)
  show RecordReader.bind x f (.fields gs) = (RecordReader.bind x f (.fields fs)).map _
  unfold RecordReader.bind
  rw [hx h]
  cases hread : x (.fields fs) with
  | error e => rfl
  | ok p =>
    obtain ⟨a, r⟩ := p
    rw [hread] at hself
    obtain rfl : r = .fields fs := (Prod.mk.inj (Except.ok.inj hself)).2
    exact hf a h

/-- What is made of both objects is the same record. -/
theorem Ignores.decodeRecord_eq {reader : RecordReader α} (hreader : Ignores name reader)
    (h : SameBeside name fs gs) :
    decodeRecord reader (.object gs) = decodeRecord reader (.object fs) := by
  simp only [decodeRecord, hreader h]
  cases reader (.fields fs) <;> rfl

end Ignores

/-! ## 5. One field more -/

theorem sameBeside_insertField (name : String) (value : Json) (fs : List (String × Json)) :
    SameBeside name fs (insertField name value fs) := by
  induction fs with
  | nil => simp [SameBeside, insertField]
  | cons f fs ih =>
    obtain ⟨n, v⟩ := f
    simp only [insertField]
    split
    · simp [SameBeside]
    · split
      · rename_i _ hname
        simp [SameBeside, hname]
      · simp only [SameBeside, List.filter_cons] at ih ⊢
        rw [ih]

theorem lookup_insertField_self (name : String) (value : Json) (fs : List (String × Json)) :
    (insertField name value fs).lookup name = some value := by
  induction fs with
  | nil => simp [insertField]
  | cons f fs ih =>
    obtain ⟨n, v⟩ := f
    simp only [insertField]
    split
    · simp
    · split
      · simp
      · rename_i _ hname
        rw [List.lookup_cons, beq_eq_false_iff_ne.mpr hname]
        exact ih

theorem lookup_insertField_of_ne {other : String} {value : Json} (hne : other ≠ name) :
    (insertField name value fs).lookup other = fs.lookup other := by
  induction fs with
  | nil => simp [insertField, List.lookup_cons, beq_eq_false_iff_ne.mpr hne]
  | cons f fs ih =>
    obtain ⟨n, v⟩ := f
    simp only [insertField]
    split
    · rw [List.lookup_cons, beq_eq_false_iff_ne.mpr hne]
    · split
      · rename_i _ hname
        rw [List.lookup_cons, List.lookup_cons, ← hname]
        simp [beq_eq_false_iff_ne.mpr hne]
      · rw [List.lookup_cons, List.lookup_cons, ih]

/-! ## 6. Records in either shape -/

section Shapes

variable {r r' : Record} {place : Nat} {decode : Json → Decoded α} {f : α → RecordReader β} {a : α}
  {b : β}

/-- What a record has under a name, which is the one at this place: an object has it in the field
that stands once, and an array goes by its place. -/
def Record.Has (place : Nat) (name : String) (j : Json) : Record → Prop
  | .fields fs => Sole fs name j
  | .items js => js[place]? = some j

/-- A record after its first field was read. -/
def Record.rest : Record → Record
  | .fields fs => .fields fs
  | .items js => .items js.tail

@[simp] theorem Record.has_rest : r.rest.Has place name j ↔ r.Has (place + 1) name j := by
  cases r with
  | fields fs => rfl
  | items js => simp [rest, Has]

theorem Record.Has.unique {i : Json} (hi : r.Has place name i) (hj : r.Has place name j) :
    i = j := by
  cases r with
  | fields fs => exact Sole.unique hi hj
  | items js => exact Option.some.inj (hi.symm.trans hj)

/-- This is read from a record. -/
def Record.Says (r : Record) (place : Nat) (name : String) (decode : Json → Decoded α) (a : α) :
    Prop :=
  ∃ j, r.Has place name j ∧ decode j = .ok a

@[simp] theorem Record.says_rest :
    r.rest.Says place name decode a ↔ r.Says (place + 1) name decode a := by
  simp only [Says, has_rest]

theorem Record.Says.unique {a' : α} (h : r.Says place name decode a)
    (h' : r.Says place name decode a') : a = a' := by
  obtain ⟨j, hj, hread⟩ := h
  obtain ⟨j', hj', hread'⟩ := h'
  obtain rfl := hj.unique hj'
  exact Except.ok.inj (hread.symm.trans hread')

/-- A field that is always there is read off a record. -/
theorem says_of_required (h : required name decode r = .ok (a, r')) :
    r.Says 0 name decode a ∧ r' = r.rest := by
  cases r with
  | fields fs =>
    obtain rfl := leaves_required name decode h
    exact ⟨holds_of_required h, rfl⟩
  | items js =>
    cases js with
    | nil => cases h
    | cons j js =>
      obtain ⟨hread, rfl⟩ := eq_of_map_pair h
      exact ⟨⟨j, rfl, hread⟩, rfl⟩

/-- **A row of fields**: the first is read, and the others are read from the rest. -/
theorem says_of_bind (h : (required name decode >>= f) r = .ok (b, r')) :
    ∃ a, r.Says 0 name decode a ∧ f a r.rest = .ok (b, r') := by
  have h : RecordReader.bind (required name decode) f r = .ok (b, r') := h
  unfold RecordReader.bind at h
  split at h
  · cases h
  · rename_i a r'' hread
    obtain ⟨hfield, rfl⟩ := says_of_required hread
    exact ⟨a, hfield, h⟩

/-- The record that a document is. -/
def record? : Json → Option Record
  | .object fs => some (.fields fs)
  | .array js => some (.items js)
  | _ => none

theorem reader_of_decodeRecord {reader : RecordReader α} (h : decodeRecord reader j = .ok a) :
    ∃ r r', j.record? = some r ∧ reader r = .ok (a, r') := by
  unfold decodeRecord at h
  split at h
  · rename_i fs
    obtain ⟨p, hp, rfl⟩ : ∃ p, reader (.fields fs) = .ok p ∧ p.1 = a := by
      cases hread : reader (.fields fs) with
      | error e =>
        rw [hread] at h
        cases h
      | ok p =>
        rw [hread] at h
        exact ⟨p, rfl, Except.ok.inj h⟩
    exact ⟨_, p.2, rfl, hp⟩
  · rename_i js
    split at h
    · cases h
    · rename_i a' hread
      cases h
      exact ⟨_, _, rfl, hread⟩
    · cases h
  · cases h

end Shapes

end OrderDesk.Json
