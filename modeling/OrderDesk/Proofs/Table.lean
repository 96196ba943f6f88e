import Mathlib.Data.List.Nodup
import Mathlib.Data.List.Perm.Subperm
import OrderDesk.Table

/-!
# What a table answers

A table is read through `get?` alone.  This module says what `get?` answers after `put` and after
`erase`, for the key that was touched and for every other one, so that no later proof looks at the
list behind a table.  A table that was built by `put` and `erase` has every key once
(`keys_nodup_put`, `keys_nodup_erase`).
-/

namespace OrderDesk.Table

variable {α β : Type} [DecidableEq α]

/-! ## 1. Lookup -/

@[simp] theorem get?_empty (k : α) : (empty : Table α β).get? k = none := rfl

/-- Lookup in a table with a first entry. -/
theorem get?_cons (e : α × β) (es : List (α × β)) (k : α) :
    (⟨e :: es⟩ : Table α β).get? k = if e.1 = k then some e.2 else (⟨es⟩ : Table α β).get? k := by
  by_cases h : e.1 = k <;> simp [get?, h]

/-- A table contains the keys that have a value. -/
theorem contains_eq_isSome (t : Table α β) (k : α) : t.contains k = (t.get? k).isSome := by
  obtain ⟨es⟩ := t
  induction es with
  | nil => rfl
  | cons e es ih =>
    rw [get?_cons]
    by_cases h : e.1 = k
    · simp [contains, h]
    · rw [if_neg h, ← ih]
      simp [contains, h]

theorem contains_iff {t : Table α β} {k : α} : t.contains k = true ↔ ∃ v, t.get? k = some v := by
  rw [contains_eq_isSome, Option.isSome_iff_exists]

@[simp] theorem get?_put_self (t : Table α β) (k : α) (v : β) : (t.put k v).get? k = some v := by
  obtain ⟨es⟩ := t
  induction es with
  | nil => simp [put, putIn, get?_cons]
  | cons e es ih =>
    by_cases h : e.1 = k
    · simp [put, putIn, h, get?_cons]
    · simpa [put, putIn, h, get?_cons] using ih

theorem get?_put_of_ne {k k' : α} (hne : k' ≠ k) (t : Table α β) (v : β) :
    (t.put k v).get? k' = t.get? k' := by
  obtain ⟨es⟩ := t
  induction es with
  | nil => simp [put, putIn, get?_cons, hne.symm]
  | cons e es ih =>
    by_cases h : e.1 = k
    · simp [put, putIn, h, get?_cons, hne.symm]
    · have ih' : (⟨putIn k v es⟩ : Table α β).get? k' = (⟨es⟩ : Table α β).get? k' := ih
      simp only [put, putIn, h, if_false, get?_cons, ih']

/-- `put` changes the answer for one key. -/
theorem get?_put (t : Table α β) (k k' : α) (v : β) :
    (t.put k v).get? k' = if k' = k then some v else t.get? k' := by
  by_cases h : k' = k
  · subst h; simp
  · rw [if_neg h, get?_put_of_ne h]

@[simp] theorem get?_erase_self (t : Table α β) (k : α) : (t.erase k).get? k = none := by
  obtain ⟨es⟩ := t
  induction es with
  | nil => rfl
  | cons e es ih =>
    by_cases h : e.1 = k
    · simpa [erase, h] using ih
    · simpa [erase, h, get?_cons] using ih

theorem get?_erase_of_ne {k k' : α} (hne : k' ≠ k) (t : Table α β) :
    (t.erase k).get? k' = t.get? k' := by
  obtain ⟨es⟩ := t
  induction es with
  | nil => rfl
  | cons e es ih =>
    by_cases h : e.1 = k
    · have hk : e.1 ≠ k' := fun h' => hne (h'.symm.trans h)
      rw [get?_cons, if_neg hk, ← ih]
      simp [erase, h]
    · have hcons : (⟨e :: es⟩ : Table α β).erase k
          = ⟨e :: ((⟨es⟩ : Table α β).erase k).entries⟩ := by
        simp [erase, h]
      rw [hcons, get?_cons, get?_cons, ih]

/-- `erase` changes the answer for one key. -/
theorem get?_erase (t : Table α β) (k k' : α) :
    (t.erase k).get? k' = if k' = k then none else t.get? k' := by
  by_cases h : k' = k
  · subst h; simp
  · rw [if_neg h, get?_erase_of_ne h]

/-- Erasing keys one after another takes out exactly these keys. -/
theorem get?_foldl_erase (ks : List α) (t : Table α β) (k : α) :
    (ks.foldl erase t).get? k = if k ∈ ks then none else t.get? k := by
  induction ks generalizing t with
  | nil => simp
  | cons k' ks ih =>
    rw [List.foldl_cons, ih, get?_erase]
    by_cases h : k = k' <;> by_cases hm : k ∈ ks <;> simp [h, hm]

/-! ## 2. Every key once -/

theorem keys_put_of_mem {t : Table α β} {k : α} (v : β) (h : k ∈ t.keys) :
    (t.put k v).keys = t.keys := by
  obtain ⟨es⟩ := t
  induction es with
  | nil => simp [keys] at h
  | cons e es ih =>
    by_cases he : e.1 = k
    · simp [put, putIn, he, keys]
    · have hmem : k ∈ (⟨es⟩ : Table α β).keys := by
        simpa [keys, Ne.symm he] using h
      have := ih hmem
      simp only [keys, put] at this
      simp [put, putIn, he, keys, this]

theorem keys_put_of_notMem {t : Table α β} {k : α} (v : β) (h : k ∉ t.keys) :
    (t.put k v).keys = t.keys ++ [k] := by
  obtain ⟨es⟩ := t
  induction es with
  | nil => simp [put, putIn, keys]
  | cons e es ih =>
    simp only [keys, List.map_cons, List.mem_cons, not_or] at h
    have := ih h.2
    simp only [keys, put] at this
    simp [put, putIn, Ne.symm h.1, keys, this]

/-- A new value for a key leaves every key once. -/
theorem keys_nodup_put {t : Table α β} (k : α) (v : β) (h : t.keys.Nodup) :
    (t.put k v).keys.Nodup := by
  by_cases hk : k ∈ t.keys
  · rw [keys_put_of_mem v hk]
    exact h
  · rw [keys_put_of_notMem v hk]
    exact List.Nodup.append h (List.nodup_singleton k) (by simpa using hk)

/-- Erasing leaves every key once. -/
theorem keys_nodup_erase {t : Table α β} (k : α) (h : t.keys.Nodup) : (t.erase k).keys.Nodup :=
  h.sublist (List.filter_sublist.map Prod.fst)

theorem keys_nodup_foldl_erase (ks : List α) {t : Table α β} (h : t.keys.Nodup) :
    (ks.foldl erase t).keys.Nodup := by
  induction ks generalizing t with
  | nil => exact h
  | cons k ks ih => exact ih (keys_nodup_erase k h)

/-- The keys are those that have a value. -/
theorem mem_keys_iff {t : Table α β} {k : α} : k ∈ t.keys ↔ ∃ v, t.get? k = some v := by
  rw [← contains_iff]
  simp [keys, contains]

omit [DecidableEq α] in
/-- A table whose keys lead into another one, each to a key of its own, is no larger. -/
theorem size_le_of_leads {γ δ : Type} {t : Table α β} {u : Table γ δ} (ht : t.keys.Nodup)
    (f : α → γ) (hmem : ∀ k ∈ t.keys, f k ∈ u.keys)
    (hinj : ∀ k ∈ t.keys, ∀ k' ∈ t.keys, f k = f k' → k = k') : t.size ≤ u.size := by
  have hnodup : (t.keys.map f).Nodup := List.Nodup.map_on hinj ht
  have hsub : t.keys.map f ⊆ u.keys := by
    intro b hb
    obtain ⟨k, hk, rfl⟩ := List.mem_map.mp hb
    exact hmem k hk
  simpa [keys, size] using (hnodup.subperm hsub).length_le

end OrderDesk.Table
