import OrderDesk.Pool.Basic
import OrderDesk.Proofs.Table

/-!
# The two books of a pool

A pool keeps two books.  One counts the subscriptions of the host, by symbol and kind (`counts`,
and `wanted` for the connections to read); the other says which symbol stands on which carrier
(`placement`, and the symbols of the carriers themselves).  Each is written in two places, and the
two places have to agree: `Counted` and `Carried` say how.

The books are read through three functions: `countOf`, `kinds` and `carriedBy`.  For every entry
that `subscribe` and `unsubscribe` make there is one lemma that says what these functions answer
afterwards and one that says that the book still agrees with itself.
-/

namespace OrderDesk

namespace Load

/-! ## 1. Where a symbol goes -/

/-- What `lightestFrom` finds is a load of the list that has room, or what it started with. -/
theorem lightestFrom_eq_some {room : Nat} (loads : List Load) :
    ∀ {index : Nat} {best : Option (Nat × Load)} {i : Nat} {l : Load},
      lightestFrom room index best loads = some (i, l) →
        best = some (i, l) ∨ ∃ j, i = index + j ∧ loads[j]? = some l ∧ l.symbols < room := by
  induction loads with
  | nil =>
    intro index best i l h
    exact Or.inl h
  | cons head rest ih =>
    intro index best i l h
    simp only [lightestFrom] at h
    rcases ih h with hbest | ⟨j, hi, hj, hroom⟩
    · rcases ite_eq_iff.mp hbest with ⟨hbetter, he⟩ | ⟨-, he⟩
      · obtain ⟨rfl, rfl⟩ : index = i ∧ head = l := by simpa using he
        have hlt : head.symbols < room := by
          rw [Bool.and_eq_true, decide_eq_true_eq] at hbetter
          exact hbetter.1
        exact Or.inr ⟨0, rfl, rfl, hlt⟩
      · exact Or.inl he
    · exact Or.inr ⟨j + 1, by omega, by simpa using hj, hroom⟩

/-- **An old carrier is only chosen if it has room.** -/
theorem place_eq_existing {loads : List Load} {connections room i : Nat} (hroom : 0 < room)
    (h : place loads connections room = some (.existing i)) :
    ∃ l, loads[i]? = some l ∧ l.symbols < room := by
  unfold place at h
  split at h
  · rename_i k hk
    obtain rfl : k = i := by simpa using h
    obtain ⟨hlt, hidle, -⟩ := List.findIdx?_eq_some_iff_getElem.mp hk
    refine ⟨loads[k], List.getElem?_eq_getElem hlt, ?_⟩
    have : loads[k].symbols = 0 := by simpa using hidle
    omega
  · split at h
    · cases h
    · obtain ⟨k, hk, hki⟩ := Option.map_eq_some_iff.mp h
      obtain rfl : k = i := by simpa using hki
      obtain ⟨⟨j, l⟩, hl, rfl⟩ := Option.map_eq_some_iff.mp hk
      rcases lightestFrom_eq_some loads hl with hnone | ⟨m, hm, hget, hlt⟩
      · cases hnone
      · exact ⟨l, by simpa [hm] using hget, hlt⟩

/-- **A new carrier is only chosen while more are allowed.** -/
theorem place_eq_new {loads : List Load} {connections room : Nat}
    (h : place loads connections room = some .new) : loads.length < connections := by
  unfold place at h
  split at h
  · cases h
  · split at h
    · assumption
    · obtain ⟨k, -, hk⟩ := Option.map_eq_some_iff.mp h
      cases hk

end Load

namespace Pool

/-! ## 2. The book of subscriptions -/

/-- The number of subscriptions of the host to a kind of ticks of a symbol. -/
def countOf (p : Pool) (symbol : String) (kind : TickKind) : Nat :=
  (p.counts.get? (symbol, kind)).getD 0

/-- The book of subscriptions agrees with itself. -/
structure Counted (p : Pool) : Prop where
  pos : ∀ k n, p.counts.get? k = some n → 0 < n
  mem_kinds : ∀ s t, t ∈ p.kinds s ↔ 0 < p.countOf s t
  kinds_ne_nil : ∀ s ks, p.wanted.get? s = some ks → ks ≠ []

/-- The host wants something of a symbol. -/
def Wants (p : Pool) (symbol : String) : Prop := ∃ kind, 0 < p.countOf symbol kind

theorem counted_empty (limits : PoolLimits) : (empty limits).Counted where
  pos := by intro k n h; cases h
  mem_kinds := by intro s t; simp [kinds, empty, countOf]
  kinds_ne_nil := by intro s ks h; cases h

/-- The connections read of a symbol exactly if the host wants something of it. -/
theorem Counted.wanted_iff {p : Pool} (h : p.Counted) (s : String) :
    p.wanted.contains s = true ↔ p.Wants s := by
  rw [Table.contains_iff]
  constructor
  · rintro ⟨ks, hks⟩
    obtain ⟨t, ht⟩ := List.exists_mem_of_ne_nil ks (h.kinds_ne_nil s ks hks)
    refine ⟨t, (h.mem_kinds s t).mp ?_⟩
    simpa [kinds, hks] using ht
  · rintro ⟨t, ht⟩
    have hmem := (h.mem_kinds s t).mpr ht
    cases hks : p.wanted.get? s with
    | none => simp [kinds, hks] at hmem
    | some ks => exact ⟨ks, rfl⟩

/-- One more subscription raises one count by one. -/
theorem countOf_count (p : Pool) (s s' : String) (t t' : TickKind) :
    (p.count s t).countOf s' t' =
      if s' = s ∧ t' = t then p.countOf s t + 1 else p.countOf s' t' := by
  unfold countOf count
  rw [Table.get?_put]
  by_cases h : s' = s ∧ t' = t
  · simp [h]
  · simp [h, Prod.mk.injEq]

theorem mem_kinds_count (p : Pool) (s s' : String) (t t' : TickKind) :
    t' ∈ (p.count s t).kinds s' ↔ t' ∈ p.kinds s' ∨ (s' = s ∧ t' = t) := by
  have hwanted : (p.count s t).kinds s' = if s' = s
      then (if (p.kinds s).contains t then p.kinds s else p.kinds s ++ [t]) else p.kinds s' := by
    simp only [kinds, count, Table.get?_put]
    by_cases h : s' = s <;> simp [h]
  rw [hwanted]
  by_cases hs : s' = s
  · subst hs
    by_cases hc : t ∈ p.kinds s'
    · simp only [if_true, List.contains_eq_mem, hc, decide_true, true_and]
      exact ⟨Or.inl, fun h => h.elim id fun ht => ht ▸ hc⟩
    · simp [hc]
  · simp [hs]

/-- **The book of subscriptions survives one more subscription.** -/
theorem Counted.count {p : Pool} (h : p.Counted) (s : String) (t : TickKind) :
    (p.count s t).Counted where
  pos := by
    intro k n hk
    simp only [Pool.count, Table.get?_put] at hk
    split at hk
    · cases hk
      omega
    · exact h.pos k n hk
  mem_kinds := by
    intro s' t'
    rw [mem_kinds_count, countOf_count, h.mem_kinds]
    by_cases hst : s' = s ∧ t' = t
    · simp [hst]
    · rw [if_neg hst]
      exact ⟨fun h' => h'.elim id fun e => absurd e hst, Or.inl⟩
  kinds_ne_nil := by
    intro s' ks hks
    simp only [Pool.count, Table.get?_put] at hks
    split at hks
    · cases hks
      split
      · rename_i hc
        exact List.ne_nil_of_mem (List.mem_of_elem_eq_true hc)
      · simp
    · exact h.kinds_ne_nil s' ks hks

/-- The pool after one subscription less, with the carriers as they were. -/
def uncount (p : Pool) (symbol : String) (kind : TickKind) : Pool :=
  if 1 < p.countOf symbol kind then
    { p with counts := p.counts.put (symbol, kind) (p.countOf symbol kind - 1) }
  else
    let kinds := (p.kinds symbol).filter (· ≠ kind)
    { p with
      counts := p.counts.erase (symbol, kind)
      wanted := if kinds.isEmpty then p.wanted.erase symbol else p.wanted.put symbol kinds }

@[simp] theorem uncount_carriers (p : Pool) (s : String) (t : TickKind) :
    (p.uncount s t).carriers = p.carriers := by
  unfold uncount; split <;> rfl

@[simp] theorem uncount_placement (p : Pool) (s : String) (t : TickKind) :
    (p.uncount s t).placement = p.placement := by
  unfold uncount; split <;> rfl

@[simp] theorem uncount_limits (p : Pool) (s : String) (t : TickKind) :
    (p.uncount s t).limits = p.limits := by
  unfold uncount; split <;> rfl

theorem uncount_of_lt {p : Pool} {s : String} {t : TickKind} (h : 1 < p.countOf s t) :
    p.uncount s t = { p with counts := p.counts.put (s, t) (p.countOf s t - 1) } :=
  if_pos h

theorem uncount_of_le {p : Pool} {s : String} {t : TickKind} (h : p.countOf s t ≤ 1) :
    p.uncount s t = { p with
      counts := p.counts.erase (s, t)
      wanted := if ((p.kinds s).filter (· ≠ t)).isEmpty then p.wanted.erase s
        else p.wanted.put s ((p.kinds s).filter (· ≠ t)) } :=
  if_neg (Nat.not_lt.mpr h)

/-- One subscription less lowers one count by one. -/
theorem countOf_uncount (p : Pool) (s s' : String) (t t' : TickKind) :
    (p.uncount s t).countOf s' t' =
      if s' = s ∧ t' = t then p.countOf s t - 1 else p.countOf s' t' := by
  rcases Nat.lt_or_ge 1 (p.countOf s t) with hn | hn
  · rw [uncount_of_lt hn]
    simp only [countOf, Table.get?_put, Prod.mk.injEq]
    split <;> rfl
  · rw [uncount_of_le hn]
    simp only [countOf, Table.get?_erase, Prod.mk.injEq]
    split
    · have : p.countOf s t - 1 = 0 := by omega
      exact this.symm
    · rfl

/-- A list that is dropped where it is empty reads the same as one that is kept. -/
theorem getD_get?_putUnlessNil (w : Table String (List TickKind)) (s s' : String)
    (ks : List TickKind) :
    ((if ks.isEmpty then w.erase s else w.put s ks).get? s').getD [] =
      if s' = s then ks else (w.get? s').getD [] := by
  by_cases hnil : ks = []
  · subst hnil
    rw [if_pos List.isEmpty_nil, Table.get?_erase]
    split <;> rfl
  · rw [if_neg (fun h => hnil (List.isEmpty_iff.mp h)), Table.get?_put]
    split <;> rfl

/-- A kind is read no longer once its last subscription is gone. -/
theorem mem_kinds_uncount (p : Pool) (s s' : String) (t t' : TickKind) :
    t' ∈ (p.uncount s t).kinds s' ↔
      t' ∈ p.kinds s' ∧ ¬ (s' = s ∧ t' = t ∧ p.countOf s t ≤ 1) := by
  rcases Nat.lt_or_ge 1 (p.countOf s t) with hn | hn
  · have hle : ¬ p.countOf s t ≤ 1 := by omega
    rw [uncount_of_lt hn]
    simp [hle, kinds]
  · have hkinds : (p.uncount s t).kinds s' =
        if s' = s then (p.kinds s).filter (· ≠ t) else p.kinds s' := by
      rw [uncount_of_le hn]
      exact getD_get?_putUnlessNil p.wanted s s' _
    rw [hkinds]
    by_cases hs : s' = s
    · subst hs
      simp [hn]
    · simp [hs]

/-- **The book of subscriptions survives one subscription less.** -/
theorem Counted.uncount {p : Pool} (h : p.Counted) (s : String) (t : TickKind) :
    (p.uncount s t).Counted where
  pos := by
    intro k n hk
    rcases Nat.lt_or_ge 1 (p.countOf s t) with hn | hn
    · rw [uncount_of_lt hn] at hk
      simp only [Table.get?_put] at hk
      split at hk
      · cases hk
        omega
      · exact h.pos k n hk
    · rw [uncount_of_le hn] at hk
      simp only [Table.get?_erase] at hk
      split at hk
      · cases hk
      · exact h.pos k n hk
  mem_kinds := by
    intro s' t'
    rw [mem_kinds_uncount, countOf_uncount, h.mem_kinds]
    by_cases hst : s' = s ∧ t' = t
    · obtain ⟨rfl, rfl⟩ := hst
      simp only [true_and, and_self, if_true]
      omega
    · rw [if_neg hst]
      exact ⟨fun h' => h'.1, fun h' => ⟨h', fun e => hst ⟨e.1, e.2.1⟩⟩⟩
  kinds_ne_nil := by
    intro s' ks hks
    rcases Nat.lt_or_ge 1 (p.countOf s t) with hn | hn
    · rw [uncount_of_lt hn] at hks
      exact h.kinds_ne_nil s' ks hks
    · rw [uncount_of_le hn] at hks
      dsimp only at hks
      split at hks
      · rw [Table.get?_erase] at hks
        split at hks
        · cases hks
        · exact h.kinds_ne_nil s' ks hks
      · rename_i hne
        rw [Table.get?_put] at hks
        split at hks
        · cases hks
          exact fun he => hne (List.isEmpty_iff.mpr he)
        · exact h.kinds_ne_nil s' ks hks

/-! ## 3. The book of places -/

/-- The symbols on a carrier. -/
def carriedBy (p : Pool) (index : Nat) : List String :=
  ((p.carriers[index]?).map Carrier.symbols).getD []

/-- The book of places agrees with itself, and keeps the limits of the pool. -/
structure Carried (p : Pool) : Prop where
  placed_iff : ∀ s i, p.placement.get? s = some i ↔ s ∈ p.carriedBy i
  nodup : ∀ i, (p.carriedBy i).Nodup
  room : ∀ i, (p.carriedBy i).length ≤ p.limits.symbols
  few : p.carriers.length ≤ p.limits.connections

theorem carried_empty (limits : PoolLimits) : (empty limits).Carried where
  placed_iff := by intro s i; simp [empty, carriedBy]
  nodup := by intro i; simp [empty, carriedBy]
  room := by intro i; simp [empty, carriedBy]
  few := by simp [empty]

/-- A symbol only stands on carriers that exist. -/
theorem lt_of_mem_carriedBy {p : Pool} {s : String} {i : Nat} (h : s ∈ p.carriedBy i) :
    i < p.carriers.length := by
  by_contra hge
  have : p.carriers[i]? = none := List.getElem?_eq_none (Nat.le_of_not_lt hge)
  simp [carriedBy, this] at h

/-- `q` is `p` with a symbol put on the carrier `i`, which may be a new one. -/
structure Puts (p : Pool) (symbol : String) (i : Nat) (q : Pool) : Prop where
  limits : q.limits = p.limits
  weights : q.weights = p.weights
  counts : q.counts = p.counts
  wanted : q.wanted = p.wanted
  placement : q.placement = p.placement.put symbol i
  carriedBy : ∀ j, q.carriedBy j = if j = i then p.carriedBy i ++ [symbol] else p.carriedBy j
  length : q.carriers.length = max p.carriers.length (i + 1)
  room : (p.carriedBy i).length < p.limits.symbols
  few : i < p.carriers.length ∨ (i = p.carriers.length ∧ i < p.limits.connections)

/-- `q` is `p` with a symbol taken off the carrier `i`. -/
structure Drops (p : Pool) (symbol : String) (i : Nat) (q : Pool) : Prop where
  limits : q.limits = p.limits
  weights : q.weights = p.weights
  counts : q.counts = p.counts
  wanted : q.wanted = p.wanted
  placement : q.placement = p.placement.erase symbol
  carriedBy : ∀ j, q.carriedBy j =
    if j = i then (p.carriedBy i).filter (· ≠ symbol) else p.carriedBy j
  length : q.carriers.length = p.carriers.length

theorem carriedBy_mapCarrier (p : Pool) (i j : Nat) (f : Carrier → Carrier)
    (hi : i < p.carriers.length) (g : List String → List String)
    (hf : ∀ c, (f c).symbols = g c.symbols) :
    (p.mapCarrier i f).carriedBy j = if j = i then g (p.carriedBy i) else p.carriedBy j := by
  unfold carriedBy mapCarrier
  by_cases hj : j = i
  · subst hj
    simp [List.getElem?_eq_getElem hi, hf]
  · simp [Ne.symm hj, hj]

/-- A symbol that can be carried by an old carrier with room. -/
theorem puts_of_carry {p q : Pool} {s : String} {i : Nat} (hi : i < p.carriers.length)
    (hroom : (p.carriedBy i).length < p.limits.symbols) (h : p.carry s i = some q) :
    p.Puts s i q := by
  unfold carry at h
  dsimp only at h
  split at h
  · obtain rfl := Option.some.inj h
    exact {
      limits := rfl
      weights := rfl
      counts := rfl
      wanted := rfl
      placement := rfl
      carriedBy := fun j => carriedBy_mapCarrier p i j _ hi (· ++ [s]) fun _ => rfl
      length := by
        simp only [mapCarrier, List.length_modify]
        omega
      room := hroom
      few := Or.inl hi }
  · cases h

/-- A symbol that can be carried by a new carrier. -/
theorem puts_of_carry_new {p q : Pool} {s : String} (hroom : 0 < p.limits.symbols)
    (hfew : p.carriers.length < p.limits.connections)
    (h : ({ p with carriers := p.carriers ++ [⟨[], 0⟩] } : Pool).carry s p.carriers.length
      = some q) : p.Puts s p.carriers.length q := by
  have hsame : ∀ j, ({ p with carriers := p.carriers ++ [⟨[], 0⟩] } : Pool).carriedBy j
      = p.carriedBy j := by
    intro j
    unfold carriedBy
    rcases Nat.lt_trichotomy j p.carriers.length with hj | hj | hj
    · simp [List.getElem?_append_left hj]
    · subst hj
      simp
    · have h1 : (p.carriers ++ [(⟨[], 0⟩ : Carrier)])[j]? = none :=
        List.getElem?_eq_none (by simp; omega)
      have h2 : p.carriers[j]? = none := List.getElem?_eq_none (by omega)
      simp only [h1, h2]
  have hempty : (p.carriedBy p.carriers.length).length = 0 := by simp [carriedBy]
  have hput := puts_of_carry (by simp) (by rw [hsame, hempty]; exact hroom) h
  exact {
    limits := hput.limits
    weights := hput.weights
    counts := hput.counts
    wanted := hput.wanted
    placement := hput.placement
    carriedBy := by
      intro j
      rw [hput.carriedBy, hsame, hsame]
    length := by
      rw [hput.length, List.length_append, List.length_singleton]
      omega
    room := by rw [hempty]; exact hroom
    few := Or.inr ⟨rfl, hfew⟩ }

/-- Taking a symbol off its carrier. -/
theorem drops_of_release {p : Pool} {s : String} {i : Nat} (hi : i < p.carriers.length)
    (h : p.placement.get? s = some i) :
    ∃ q, p.release s = (q, some (.drop i)) ∧ p.Drops s i q := by
  refine ⟨_, by simp only [release, h]; rfl, ?_⟩
  exact {
    limits := rfl
    weights := rfl
    counts := rfl
    wanted := rfl
    placement := rfl
    carriedBy := fun j =>
      carriedBy_mapCarrier p i j _ hi (fun symbols => symbols.filter (· ≠ s)) fun _ => rfl
    length := by simp [mapCarrier] }

/-- **The book of places survives a new symbol.** -/
theorem Carried.puts {p q : Pool} {s : String} {i : Nat} (h : p.Carried) (hput : p.Puts s i q)
    (hnew : p.placement.get? s = none) : q.Carried where
  placed_iff := by
    intro s' j
    rw [hput.placement, Table.get?_put, hput.carriedBy]
    by_cases hs : s' = s
    · subst hs
      by_cases hj : j = i
      · simp [hj]
      · have hnot : s' ∉ p.carriedBy j := by
          rw [← h.placed_iff, hnew]
          exact nofun
        simp [hj, Ne.symm hj, hnot]
    · by_cases hj : j = i
      · simp [hs, hj, h.placed_iff]
      · simp [hs, hj, h.placed_iff]
  nodup := by
    intro j
    rw [hput.carriedBy]
    split
    · have hnot : s ∉ p.carriedBy i := by
        rw [← h.placed_iff, hnew]
        exact nofun
      exact List.Nodup.append (h.nodup i) (List.nodup_singleton s) (by simpa using hnot)
    · exact h.nodup j
  room := by
    intro j
    rw [hput.carriedBy, hput.limits]
    split
    · have := hput.room
      rw [List.length_append, List.length_singleton]
      omega
    · exact h.room j
  few := by
    have := h.few
    rw [hput.length, hput.limits]
    rcases hput.few with hlt | ⟨-, hlt⟩ <;> omega

/-- **The book of places survives the loss of a symbol.** -/
theorem Carried.drops {p q : Pool} {s : String} {i : Nat} (h : p.Carried)
    (hdrop : p.Drops s i q) (hat : p.placement.get? s = some i) : q.Carried where
  placed_iff := by
    intro s' j
    rw [hdrop.placement, Table.get?_erase, hdrop.carriedBy]
    by_cases hs : s' = s
    · subst hs
      by_cases hj : j = i
      · simp [hj]
      · have hnot : s' ∉ p.carriedBy j := by
          rw [← h.placed_iff, hat]
          exact fun he => hj (Option.some.inj he).symm
        simp [hj, hnot]
    · by_cases hj : j = i
      · simp [hs, hj, h.placed_iff]
      · simp [hs, hj, h.placed_iff]
  nodup := by
    intro j
    rw [hdrop.carriedBy]
    split
    · exact (h.nodup i).filter _
    · exact h.nodup j
  room := by
    intro j
    rw [hdrop.carriedBy, hdrop.limits]
    split
    · exact Nat.le_trans (List.length_filter_le _ _) (h.room i)
    · exact h.room j
  few := by
    rw [hdrop.length, hdrop.limits]
    exact h.few

/-! ## 4. Both books together -/

/-- **Both books agree.**  A symbol has a place exactly if the host wants something of it. -/
structure Sound (p : Pool) : Prop where
  counted : p.Counted
  carried : p.Carried
  placed_iff_wants : ∀ s, (∃ i, p.placement.get? s = some i) ↔ p.Wants s

theorem sound_empty (limits : PoolLimits) : (empty limits).Sound where
  counted := counted_empty limits
  carried := carried_empty limits
  placed_iff_wants := by
    intro s
    constructor
    · rintro ⟨i, hi⟩
      cases hi
    · rintro ⟨t, ht⟩
      exact absurd ht (Nat.lt_irrefl 0)

theorem countOf_congr {p q : Pool} (h : q.counts = p.counts) (s : String) (t : TickKind) :
    q.countOf s t = p.countOf s t := by
  unfold countOf
  rw [h]

theorem wants_count {p : Pool} (s s' : String) (t : TickKind) :
    (p.count s t).Wants s' ↔ s' = s ∨ p.Wants s' := by
  constructor
  · rintro ⟨t', ht⟩
    rw [countOf_count] at ht
    by_cases hst : s' = s ∧ t' = t
    · exact Or.inl hst.1
    · rw [if_neg hst] at ht
      exact Or.inr ⟨t', ht⟩
  · rintro (rfl | ⟨t', ht⟩)
    · exact ⟨t, by rw [countOf_count, if_pos ⟨rfl, rfl⟩]; omega⟩
    · refine ⟨t', ?_⟩
      rw [countOf_count]
      split
      · omega
      · exact ht

/-- Only what is wanted of the symbol itself can be lost. -/
theorem wants_uncount_of_ne {p : Pool} {s s' : String} (t : TickKind) (h : s' ≠ s) :
    (p.uncount s t).Wants s' ↔ p.Wants s' := by
  unfold Wants
  simp only [countOf_uncount, h, false_and, if_false]

theorem wants_congr {p q : Pool} (h : q.counts = p.counts) (s : String) :
    q.Wants s ↔ p.Wants s := by
  unfold Wants
  simp only [countOf_congr h]

theorem Counted.congr {p q : Pool} (h : p.Counted) (hcounts : q.counts = p.counts)
    (hwanted : q.wanted = p.wanted) : q.Counted where
  pos := by rw [hcounts]; exact h.pos
  mem_kinds := by
    intro s t
    have hkinds : q.kinds s = p.kinds s := by unfold kinds; rw [hwanted]
    rw [hkinds, countOf_congr hcounts, h.mem_kinds]
  kinds_ne_nil := by rw [hwanted]; exact h.kinds_ne_nil

theorem Carried.congr {p q : Pool} (h : p.Carried) (hlimits : q.limits = p.limits)
    (hplacement : q.placement = p.placement) (hcarriers : q.carriers = p.carriers) :
    q.Carried := by
  have hby : ∀ i, q.carriedBy i = p.carriedBy i := by
    intro i
    unfold carriedBy
    rw [hcarriers]
  exact {
    placed_iff := by
      intro s i
      rw [hplacement, hby]
      exact h.placed_iff s i
    nodup := by intro i; rw [hby]; exact h.nodup i
    room := by intro i; rw [hby, hlimits]; exact h.room i
    few := by rw [hcarriers, hlimits]; exact h.few }

/-- Weights have no part in the books. -/
theorem Sound.setWeights {p : Pool} (h : p.Sound) (weights : Table String Nat) :
    (p.setWeights weights).Sound where
  counted := h.counted.congr rfl rfl
  carried := h.carried.congr rfl rfl rfl
  placed_iff_wants := h.placed_iff_wants

/-! ## 5. What subscribing does -/

/-- The order that puts a symbol on a carrier: by command, unless the carrier is new. -/
def putOrder (p : Pool) (i : Nat) : PoolOrder :=
  if i < p.carriers.length then .add i else .open i

/-- **What can come of a subscription**: one more is counted, the symbol is put somewhere and
counted, there is no room, or a weight is out of range. -/
theorem subscribe_cases {p : Pool} (hroom : 0 < p.limits.symbols) (s : String) (t : TickKind) :
    ((∃ i, p.placement.get? s = some i) ∧ p.subscribe s t = .counted (p.count s t)) ∨
    (p.placement.get? s = none ∧ ∃ i q, p.Puts s i q ∧
      p.subscribe s t = .placed (q.count s t) (p.putOrder i)) ∨
    p.subscribe s t = .full ∨ p.subscribe s t = .outOfRange := by
  by_cases hplaced : p.placement.contains s = true
  · exact Or.inl ⟨Table.contains_iff.mp hplaced, by rw [subscribe, if_pos hplaced]⟩
  · have hnone : p.placement.get? s = none := by
      rw [Table.contains_eq_isSome] at hplaced
      simpa using hplaced
    rw [subscribe, if_neg hplaced]
    cases hplace : Load.place (p.carriers.map load) p.limits.connections p.limits.symbols with
    | none => exact Or.inr (Or.inr (Or.inl rfl))
    | some choice =>
      cases choice with
      | existing i =>
        obtain ⟨l, hl, hlt⟩ := Load.place_eq_existing hroom hplace
        rw [List.getElem?_map] at hl
        obtain ⟨c, hc, rfl⟩ := Option.map_eq_some_iff.mp hl
        obtain ⟨hi, -⟩ := List.getElem?_eq_some_iff.mp hc
        cases hcarry : p.carry s i with
        | none => exact Or.inr (Or.inr (Or.inr (by simp only [hcarry])))
        | some q =>
          have hlen : c.symbols.length < p.limits.symbols := hlt
          have hby : (p.carriedBy i).length < p.limits.symbols := by
            simpa [carriedBy, hc] using hlen
          refine Or.inr (Or.inl ⟨hnone, i, q, puts_of_carry hi hby hcarry, ?_⟩)
          simp only [hcarry, putOrder, hi, if_true]
      | new =>
        have hfew : p.carriers.length < p.limits.connections := by
          simpa using Load.place_eq_new hplace
        cases hcarry : ({ p with carriers := p.carriers ++ [⟨[], 0⟩] } : Pool).carry s
            p.carriers.length with
        | none => exact Or.inr (Or.inr (Or.inr (by simp only [hcarry])))
        | some q =>
          refine Or.inr (Or.inl ⟨hnone, _, q, puts_of_carry_new hroom hfew hcarry, ?_⟩)
          simp only [hcarry, putOrder, Nat.lt_irrefl, if_false]

/-- **Both books survive a subscription.** -/
theorem Sound.count {p : Pool} (h : p.Sound) {s : String} {i : Nat}
    (hs : p.placement.get? s = some i) (t : TickKind) : (p.count s t).Sound where
  counted := h.counted.count s t
  carried := h.carried.congr rfl rfl rfl
  placed_iff_wants := by
    intro s'
    rw [wants_count, ← h.placed_iff_wants]
    constructor
    · exact Or.inr
    · rintro (rfl | h')
      · exact ⟨i, hs⟩
      · exact h'

/-- **Both books survive the first subscription to a symbol.** -/
theorem Sound.puts {p q : Pool} (h : p.Sound) {s : String} {i : Nat} (hput : p.Puts s i q)
    (hnew : p.placement.get? s = none) (t : TickKind) : (q.count s t).Sound where
  counted := (h.counted.congr hput.counts hput.wanted).count s t
  carried := (h.carried.puts hput hnew).congr rfl rfl rfl
  placed_iff_wants := by
    intro s'
    have hplaced : (q.count s t).placement.get? s'
        = if s' = s then some i else p.placement.get? s' := by
      show q.placement.get? s' = _
      rw [hput.placement, Table.get?_put]
    rw [wants_count, wants_congr hput.counts, ← h.placed_iff_wants, hplaced]
    by_cases hs : s' = s
    · simp [hs]
    · simp [hs]

/-! ## 6. What the end of a subscription does -/

/-- **What can come of the end of a subscription**: there was none; or it was not the last of its
symbol, which stays where it is; or it was the last, and the symbol is taken off its carrier. -/
theorem unsubscribe_cases {p : Pool} (h : p.Sound) (s : String) (t : TickKind) :
    (p.countOf s t = 0 ∧ p.unsubscribe s t = (false, p, none)) ∨
    (0 < p.countOf s t ∧ (p.uncount s t).Wants s ∧
      p.unsubscribe s t = (true, p.uncount s t, none)) ∨
    (0 < p.countOf s t ∧ ¬ (p.uncount s t).Wants s ∧ ∃ i q, p.placement.get? s = some i ∧
      (p.uncount s t).Drops s i q ∧ p.unsubscribe s t = (true, q, some (.drop i))) := by
  have hsound := h.counted.uncount s t
  unfold unsubscribe
  cases hget : p.counts.get? (s, t) with
  | none => exact Or.inl ⟨by simp [countOf, hget], rfl⟩
  | some n =>
    have hn : p.countOf s t = n := by simp [countOf, hget]
    have hpos : 0 < p.countOf s t := hn ▸ h.counted.pos _ _ hget
    refine Or.inr ?_
    dsimp only
    rcases Nat.lt_or_ge 1 n with hlt | hle
    · refine Or.inl ⟨hpos, ⟨t, ?_⟩, ?_⟩
      · rw [countOf_uncount, if_pos ⟨rfl, rfl⟩]
        omega
      · rw [if_pos hlt, uncount_of_lt (hn ▸ hlt), hn]
    · rw [if_neg (Nat.not_lt.mpr hle)]
      have hun := uncount_of_le (p := p) (hn ▸ hle)
      by_cases hnil : ((p.kinds s).filter (· ≠ t)).isEmpty = true
      · have hgone : ¬ (p.uncount s t).Wants s := by
          rw [← hsound.wanted_iff, hun, Table.contains_eq_isSome]
          simp only [hnil, if_true, Table.get?_erase_self]
          exact Bool.false_ne_true
        obtain ⟨i, hi⟩ := (h.placed_iff_wants s).mpr ⟨t, hpos⟩
        have hlt : i < (p.uncount s t).carriers.length := by
          rw [uncount_carriers]
          exact lt_of_mem_carriedBy ((h.carried.placed_iff s i).mp hi)
        obtain ⟨q, hq, hdrop⟩ := drops_of_release (p := p.uncount s t) (s := s) hlt
          (by rw [uncount_placement]; exact hi)
        refine Or.inr ⟨hpos, hgone, i, q, hi, hdrop, ?_⟩
        rw [if_pos hnil]
        rw [hun] at hq
        simp only [hnil, if_true] at hq
        rw [hq]
      · refine Or.inl ⟨hpos, ?_, ?_⟩
        · rw [← hsound.wanted_iff, hun, Table.contains_eq_isSome, if_neg hnil,
            Table.get?_put_self]
          rfl
        · rw [if_neg hnil, hun, if_neg hnil]

/-- **Both books survive the end of a subscription that was not the last.** -/
theorem Sound.uncount {p : Pool} (h : p.Sound) {s : String} {t : TickKind}
    (hleft : (p.uncount s t).Wants s) (hpos : 0 < p.countOf s t) : (p.uncount s t).Sound where
  counted := h.counted.uncount s t
  carried := h.carried.congr (uncount_limits ..) (uncount_placement ..) (uncount_carriers ..)
  placed_iff_wants := by
    intro s'
    rw [uncount_placement, h.placed_iff_wants]
    by_cases hs : s' = s
    · subst hs
      exact ⟨fun _ => hleft, fun _ => ⟨t, hpos⟩⟩
    · rw [wants_uncount_of_ne t hs]

/-- **Both books survive the end of the last subscription to a symbol.** -/
theorem Sound.drops {p q : Pool} (h : p.Sound) {s : String} {t : TickKind} {i : Nat}
    (hgone : ¬ (p.uncount s t).Wants s) (hat : p.placement.get? s = some i)
    (hdrop : (p.uncount s t).Drops s i q) : q.Sound where
  counted := (h.counted.uncount s t).congr hdrop.counts hdrop.wanted
  carried := by
    have hcarried : (p.uncount s t).Carried :=
      h.carried.congr (uncount_limits ..) (uncount_placement ..) (uncount_carriers ..)
    exact hcarried.drops hdrop (by rw [uncount_placement]; exact hat)
  placed_iff_wants := by
    intro s'
    rw [hdrop.placement, Table.get?_erase, wants_congr hdrop.counts, uncount_placement]
    by_cases hs : s' = s
    · subst hs
      simp [hgone]
    · rw [if_neg hs, wants_uncount_of_ne t hs, h.placed_iff_wants]

end Pool
end OrderDesk
