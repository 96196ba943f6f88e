import Mathlib.Data.List.Induction
import OrderDesk.Proofs.Orders.Alone
import OrderDesk.Proofs.Orders.Lock
import OrderDesk.Proofs.Orders.Names
import OrderDesk.Proofs.Table

/-!
# Every fill finds its order

An order is open (`Open`) once a call placed it, until a call closes it: a cancellation to which the
exchange agreed, or an execution with a side that can be read after which nothing more will happen
to the order.  As long as no id of the exchange belongs to two orders (`OwnIds`), the desk keeps
exactly the open orders (`Mirrors`), each under the id that the exchange gave to it.

So an execution that names an open order finds it, whatever the host knows by then, and the host is
told of it, after it was told the id and that the order was submitted.  Nothing keeps count of
executions: one that comes twice is told twice.

The order in the book of the host is found only for an execution that names no open order; it may
carry no other id than the one that it was found by, and so nothing open is closed by mistake.
-/

namespace OrderDesk.Orders

/-! ## 1. Open orders -/

/-- The ids that the exchange gave to orders in a call. -/
def Deal.assigned (d : Deal) : List String := assignedIds d.asked

/-- A call that placed an order: it said so, after the host was told the id of the order and that
it was submitted. -/
structure Deal.Places (d : Deal) (b : String) (o : Order) : Prop where
  call : d.call = .place o
  agreed : d.report = .placed (.ok true)
  told : ∃ time, d.told = [.orderIds o.id [b], .order (.ofStatus o .submitted "" time)]

/-- A call after which nothing more will happen to an order: it cancelled the order, or reported an
execution that is the order's last. -/
def Deal.Closes (d : Deal) (b : String) : Prop :=
  (∃ o, d.call = .cancel o ∧ d.report = .canceled (.ok true) ∧ b ∈ o.brokerIds) ∨
    ∃ e, d.call = .fill e ∧ (Direction.ofWire? e.side).isSome = true ∧
      (OrderStatus.ofWire e.status).isFinal = true ∧ e.Names b

/-- An order that was placed and that nothing closed since. -/
def Open (deals : List Deal) (b : String) (o : Order) : Prop :=
  ∃ ds d es, deals = ds ++ d :: es ∧ d.Places b o ∧ ∀ x ∈ es, ¬ x.Closes b

/-- No id of the exchange belongs to two orders: none is given out in two calls, and the two ids of
an execution are not those of two orders. -/
structure OwnIds (deals : List Deal) : Prop where
  once : deals.Pairwise fun d d' => ∀ b ∈ d.assigned, b ∉ d'.assigned
  named : ∀ x ∈ deals, ∀ e a, x.call = .fill e → e.algoId? = some a →
    ∀ d ∈ deals, ∀ d' ∈ deals, a ∈ d.assigned → e.orderId ∈ d'.assigned → d = d'

variable {ds es : List Deal} {d x : Deal} {f f' : Fills} {b : String} {o : Order} {e : Execution}

theorem Deal.Places.unique {b' : String} {o' : Order} (h : d.Places b o) (h' : d.Places b' o') :
    b = b' ∧ o = o' := by
  obtain ⟨time, htold⟩ := h.told
  obtain ⟨time', htold'⟩ := h'.told
  obtain rfl : o = o' := OrderCall.place.inj (h.call.symm.trans h'.call)
  have hfirst := (List.cons.inj (htold.symm.trans htold')).1
  have hids := (Event.orderIds.inj hfirst).2
  exact ⟨(List.cons.inj hids).1, rfl⟩

theorem not_open_nil : ¬ Open [] b o := by
  rintro ⟨ds, d, es, hsplit, -, -⟩
  exact List.append_ne_nil_of_right_ne_nil ds (List.cons_ne_nil d es) hsplit.symm

/-- What one more call does to the open orders. -/
theorem open_snoc :
    Open (ds ++ [d]) b o ↔ (Open ds b o ∧ ¬ d.Closes b) ∨ d.Places b o := by
  constructor
  · rintro ⟨xs, p, es, hsplit, hplaces, hopen⟩
    rcases List.eq_nil_or_concat es with rfl | ⟨es, last, rfl⟩
    · obtain ⟨-, hlast⟩ := List.append_inj' hsplit rfl
      obtain rfl := (List.cons.inj hlast).1
      exact Or.inr hplaces
    · rw [List.concat_eq_append, ← List.cons_append, ← List.append_assoc] at hsplit
      obtain ⟨rfl, hlast⟩ := List.append_inj' hsplit rfl
      obtain rfl := (List.cons.inj hlast).1
      rw [List.concat_eq_append] at hopen
      refine Or.inl ⟨⟨xs, p, es, rfl, hplaces, ?_⟩, ?_⟩
      · intro x hx
        exact hopen x (List.mem_append_left _ hx)
      · exact hopen d (List.mem_append_right _ List.mem_cons_self)
  · rintro (⟨⟨xs, p, es, rfl, hplaces, hopen⟩, hnot⟩ | hplaces)
    · refine ⟨xs, p, es ++ [d], List.append_assoc xs (p :: es) [d], hplaces, ?_⟩
      intro x hx
      rcases List.mem_append.mp hx with hx | hx
      · exact hopen x hx
      · obtain rfl := List.mem_singleton.mp hx
        exact hnot
    · exact ⟨ds, d, [], rfl, hplaces, List.forall_mem_nil _⟩

theorem OwnIds.before (h : OwnIds (ds ++ es)) : OwnIds ds where
  once := (List.pairwise_append.mp h.once).1
  named := by
    intro x hx e a hcall halgo d hd d' hd'
    exact h.named x (List.mem_append_left _ hx) e a hcall halgo d (List.mem_append_left _ hd) d'
      (List.mem_append_left _ hd')

/-! ## 2. One call -/

/-- A call that placed an order, or did not. -/
theorem after_place (hcall : d.call = .place o)
    (h : d.call.Does f ⟨d.asked, d.told, f'⟩ d.report) :
    (d.report ≠ .placed (.ok true) ∧ f' = f) ∨
      ∃ b, d.Places b o ∧ b ∈ d.assigned ∧ f' = f.track b o := by
  obtain ⟨call, report, asked, told⟩ := d
  obtain rfl : call = .place o := hcall
  cases report with
  | placed answer =>
    rcases h with ⟨hno, hsame⟩ | ⟨rfl, b, htrack, hassigned, htold⟩
    · exact Or.inl ⟨fun heq => hno (Report.placed.inj heq), hsame⟩
    · exact Or.inr ⟨b, ⟨rfl, rfl, htold⟩, hassigned, htrack⟩
  | canceled answer => exact h.elim
  | matched event => exact h.elim

/-- A call that cancelled an order, or did not. -/
theorem after_cancel (hcall : d.call = .cancel o)
    (h : d.call.Does f ⟨d.asked, d.told, f'⟩ d.report) :
    (d.report ≠ .canceled (.ok true) ∧ f' = f) ∨
      (d.report = .canceled (.ok true) ∧ f' = f.forget o.brokerIds) := by
  obtain ⟨call, report, asked, told⟩ := d
  obtain rfl : call = .cancel o := hcall
  cases report with
  | placed answer => exact h.elim
  | canceled answer =>
    rcases h with ⟨hno, hsame⟩ | ⟨rfl, hforget⟩
    · exact Or.inl ⟨fun heq => hno (Report.canceled.inj heq), hsame⟩
    · exact Or.inr ⟨rfl, hforget⟩
  | matched event => exact h.elim

/-- A call about an execution. -/
theorem after_fill (hcall : d.call = .fill e)
    (h : d.call.Does f ⟨d.asked, d.told, f'⟩ d.report) :
    ∃ host : Host, ∃ event, host.OneId ∧ f.reconcile host.orderOf e = (event, f') ∧
      d.report = .matched event ∧ d.told = (event.map Event.order).toList := by
  obtain ⟨call, report, asked, told⟩ := d
  obtain rfl : call = .fill e := hcall
  cases report with
  | placed answer => exact h.elim
  | canceled answer => exact h.elim
  | matched event =>
    obtain ⟨host, hone, hreconcile, htold⟩ := h
    exact ⟨host, event, hone, hreconcile, rfl, htold⟩

theorem kept_snoc :
    Kept (ds ++ [d]) f' ↔ ∃ f, Kept ds f ∧ d.call.Does f ⟨d.asked, d.told, f'⟩ d.report := by
  constructor
  · intro h
    generalize hall : ds ++ [d] = all at h
    cases h with
    | start => exact absurd hall (List.append_ne_nil_of_right_ne_nil ds (List.cons_ne_nil d []))
    | deal hkept hdoes =>
      obtain ⟨rfl, hlast⟩ := List.append_inj' hall rfl
      obtain rfl := (List.cons.inj hlast).1
      exact ⟨_, hkept, hdoes⟩
  · rintro ⟨f, hkept, hdoes⟩
    exact hkept.deal hdoes

/-- Calls that were kept were kept from the first to each of them. -/
theorem Kept.upTo (h : Kept (ds ++ x :: es) f) : ∃ f', Kept (ds ++ [x]) f' := by
  induction es using List.reverseRecOn generalizing f with
  | nil => exact ⟨f, h⟩
  | append_singleton es last ih =>
    rw [← List.cons_append, ← List.append_assoc] at h
    obtain ⟨f', hkept, -⟩ := kept_snoc.mp h
    exact ih hkept

theorem Kept.does (h : Kept ds f) (hd : d ∈ ds) :
    ∃ f₀ f₁, d.call.Does f₀ ⟨d.asked, d.told, f₁⟩ d.report := by
  obtain ⟨xs, es, rfl⟩ := List.append_of_mem hd
  obtain ⟨f₁, hupTo⟩ := h.upTo
  obtain ⟨f₀, -, hdoes⟩ := kept_snoc.mp hupTo
  exact ⟨f₀, f₁, hdoes⟩

/-- The id of an order that was placed is one that the exchange gave out in that call. -/
theorem Kept.assigned (h : Kept ds f) (hd : d ∈ ds) (hplaces : d.Places b o) :
    b ∈ d.assigned := by
  obtain ⟨f₀, f₁, hdoes⟩ := h.does hd
  rcases after_place hplaces.call hdoes with ⟨hno, -⟩ | ⟨b', hplaces', hassigned, -⟩
  · exact absurd hplaces.agreed hno
  · obtain ⟨rfl, -⟩ := hplaces.unique hplaces'
    exact hassigned

theorem Kept.assigned_of_open (h : Kept ds f) (hopen : Open ds b o) :
    ∃ d ∈ ds, d.Places b o ∧ b ∈ d.assigned := by
  obtain ⟨xs, d, es, rfl, hplaces, -⟩ := hopen
  have hd : d ∈ xs ++ d :: es := List.mem_append_right _ List.mem_cons_self
  exact ⟨d, hd, hplaces, h.assigned hd hplaces⟩

/-! ## 3. What the desk keeps -/

/-- The desk keeps exactly the open orders, each once and under its own id. -/
structure Mirrors (f : Fills) (ds : List Deal) : Prop where
  keys : f.placed.keys.Nodup
  get : ∀ b r, f.placed.get? b = some r ↔ ∃ o, Open ds b o ∧ r = { o with brokerIds := [b] }

theorem mirrors_empty : Mirrors .empty [] where
  keys := List.nodup_nil
  get := by
    intro b r
    constructor
    · intro h
      cases h
    · rintro ⟨o, hopen, -⟩
      exact absurd hopen not_open_nil

/-- **An execution that names an open order finds it**, whatever is in the book of the host. -/
theorem Mirrors.orderOf (hf : Mirrors f ds) (hkept : Kept ds f) (hown : OwnIds (ds ++ [x]))
    (hcall : x.call = .fill e) (hopen : Open ds b o) (hnames : e.Names b)
    (book : String → Option Order) : f.orderOf book e = some { o with brokerIds := [b] } := by
  have hget : f.placed.get? b = some { o with brokerIds := [b] } :=
    (hf.get b _).mpr ⟨o, hopen, rfl⟩
  have hplaced : (e.algoId?.bind f.placed.get?).or (f.placed.get? e.orderId) =
      some { o with brokerIds := [b] } := by
    rcases hnames with halgo | rfl
    · rw [halgo, Option.bind_some, hget]
      rfl
    · cases halgo : e.algoId? with
      | none => exact hget
      | some a =>
        rw [Option.bind_some]
        cases hstop : f.placed.get? a with
        | none => exact hget
        | some r =>
          -- the other id of the execution has an order as well, which must be the same
          obtain ⟨o', hopen', rfl⟩ := (hf.get a r).mp hstop
          obtain ⟨d, hd, hplaces, hassigned⟩ := hkept.assigned_of_open hopen
          obtain ⟨d', hd', hplaces', hassigned'⟩ := hkept.assigned_of_open hopen'
          obtain rfl := hown.named x (List.mem_append_right _ List.mem_cons_self) e a hcall halgo
            d' (List.mem_append_left _ hd') d (List.mem_append_left _ hd) hassigned' hassigned
          obtain ⟨hid, rfl⟩ := hplaces'.unique hplaces
          rw [hid]
          rfl
  simp only [Fills.orderOf, hplaced, Option.some_or]

/-- An order that an execution finds carries at most an id that the execution names. -/
theorem Mirrors.names_of_orderOf (hf : Mirrors f ds) {host : Host} (hone : host.OneId) {r : Order}
    (h : f.orderOf host.orderOf e = some r) : ∀ b ∈ r.brokerIds, e.Names b := by
  have hplaced : ∀ a, f.placed.get? a = some r → ∀ b ∈ r.brokerIds, b = a := by
    intro a hget b hb
    obtain ⟨o, -, rfl⟩ := (hf.get a r).mp hget
    exact List.mem_singleton.mp hb
  intro b hb
  rcases Option.or_eq_some_iff.mp h with h | ⟨-, h⟩
  · rcases Option.or_eq_some_iff.mp h with h | ⟨-, h⟩
    · obtain ⟨a, halgo, hget⟩ := Option.bind_eq_some_iff.mp h
      exact Or.inl (halgo.trans (congrArg some (hplaced a hget b hb).symm))
    · exact Or.inr (hplaced _ h b hb).symm
  · rcases Option.or_eq_some_iff.mp h with h | ⟨-, h⟩
    · obtain ⟨a, halgo, hget⟩ := Option.bind_eq_some_iff.mp h
      exact Or.inl (halgo.trans (congrArg some (hone a r hget b hb).symm))
    · exact Or.inr (hone _ r h b hb).symm

/-- A call that places nothing and closes the orders whose ids are dropped. -/
theorem Mirrors.close (hf : Mirrors f ds) {ids : List String} (hplaces : ∀ b o, ¬ d.Places b o)
    (hcloses : ∀ b o, Open ds b o → (b ∈ ids ↔ d.Closes b)) :
    Mirrors (f.forget ids) (ds ++ [d]) where
  keys := Table.keys_nodup_foldl_erase ids hf.keys
  get := by
    intro b r
    show (ids.foldl Table.erase f.placed).get? b = some r ↔ _
    rw [Table.get?_foldl_erase]
    constructor
    · intro h
      split at h
      · cases h
      · rename_i hmem
        obtain ⟨o, hopen, rfl⟩ := (hf.get b r).mp h
        exact ⟨o, open_snoc.mpr (Or.inl ⟨hopen, fun hc => hmem ((hcloses b o hopen).mpr hc)⟩), rfl⟩
    · rintro ⟨o, hopen, rfl⟩
      rcases open_snoc.mp hopen with ⟨hopen, hnot⟩ | hplaced
      · rw [if_neg fun hmem => hnot ((hcloses b o hopen).mp hmem)]
        exact (hf.get b _).mpr ⟨o, hopen, rfl⟩
      · exact absurd hplaced (hplaces b o)

theorem Mirrors.keep (hf : Mirrors f ds) (hplaces : ∀ b o, ¬ d.Places b o)
    (hcloses : ∀ b o, Open ds b o → ¬ d.Closes b) : Mirrors f (ds ++ [d]) := by
  have hnone : ∀ b o, Open ds b o → (b ∈ ([] : List String) ↔ d.Closes b) :=
    fun b o hopen => iff_of_false List.not_mem_nil (hcloses b o hopen)
  exact hf.close hplaces hnone

theorem Mirrors.place (hf : Mirrors f ds) (hfresh : ∀ b ∈ d.assigned, ∀ o, ¬ Open ds b o)
    (hcall : d.call = .place o) (hdoes : d.call.Does f ⟨d.asked, d.told, f'⟩ d.report) :
    Mirrors f' (ds ++ [d]) := by
  have hcloses : ∀ b, ¬ d.Closes b := by
    rintro b (⟨o', hcancel, -⟩ | ⟨e, hfill, -⟩)
    · exact nomatch hcall.symm.trans hcancel
    · exact nomatch hcall.symm.trans hfill
  rcases after_place hcall hdoes with ⟨hno, rfl⟩ | ⟨b, hplaces, hassigned, rfl⟩
  · exact hf.keep (fun b o hplaces => hno hplaces.agreed) fun b o _ => hcloses b
  · refine ⟨Table.keys_nodup_put b _ hf.keys, ?_⟩
    intro b' r
    show (f.placed.put b { o with brokerIds := [b] }).get? b' = some r ↔ _
    rw [Table.get?_put]
    constructor
    · intro h
      split at h
      · rename_i heq
        subst heq
        cases h
        exact ⟨o, open_snoc.mpr (Or.inr hplaces), rfl⟩
      · obtain ⟨o', hopen, rfl⟩ := (hf.get b' r).mp h
        exact ⟨o', open_snoc.mpr (Or.inl ⟨hopen, hcloses b'⟩), rfl⟩
    · rintro ⟨o', hopen, rfl⟩
      rcases open_snoc.mp hopen with ⟨hopen, -⟩ | hplaces'
      · have hne : b' ≠ b := by
          rintro rfl
          exact hfresh b' hassigned o' hopen
        rw [if_neg hne]
        exact (hf.get b' _).mpr ⟨o', hopen, rfl⟩
      · obtain ⟨rfl, rfl⟩ := hplaces.unique hplaces'
        rw [if_pos rfl]

theorem Mirrors.cancel (hf : Mirrors f ds) (hcall : d.call = .cancel o)
    (hdoes : d.call.Does f ⟨d.asked, d.told, f'⟩ d.report) : Mirrors f' (ds ++ [d]) := by
  have hplaces : ∀ b o, ¬ d.Places b o := fun b o' h => nomatch hcall.symm.trans h.call
  have hcloses : ∀ b, d.Closes b ↔ d.report = .canceled (.ok true) ∧ b ∈ o.brokerIds := by
    intro b
    constructor
    · rintro (⟨o', hcancel, hagreed, hmem⟩ | ⟨e, hfill, -⟩)
      · obtain rfl := OrderCall.cancel.inj (hcall.symm.trans hcancel)
        exact ⟨hagreed, hmem⟩
      · exact nomatch hcall.symm.trans hfill
    · rintro ⟨hagreed, hmem⟩
      exact Or.inl ⟨o, hcall, hagreed, hmem⟩
  rcases after_cancel hcall hdoes with ⟨hno, rfl⟩ | ⟨hagreed, rfl⟩
  · exact hf.keep hplaces fun b o' _ hclosed => hno ((hcloses b).mp hclosed).1
  · refine hf.close hplaces ?_
    intro b o' _
    rw [hcloses, and_iff_right hagreed]

theorem Mirrors.fill (hf : Mirrors f ds) (hkept : Kept ds f) (hown : OwnIds (ds ++ [d]))
    (hcall : d.call = .fill e) (hdoes : d.call.Does f ⟨d.asked, d.told, f'⟩ d.report) :
    Mirrors f' (ds ++ [d]) := by
  have hplaces : ∀ b o, ¬ d.Places b o := fun b o' h => nomatch hcall.symm.trans h.call
  have hcloses : ∀ b, d.Closes b ↔ (Direction.ofWire? e.side).isSome = true ∧
      (OrderStatus.ofWire e.status).isFinal = true ∧ e.Names b := by
    intro b
    constructor
    · rintro (⟨o', hcancel, -⟩ | ⟨e', hfill, hlast⟩)
      · exact nomatch hcall.symm.trans hcancel
      · obtain rfl := OrderCall.fill.inj (hcall.symm.trans hfill)
        exact hlast
    · intro hlast
      exact Or.inr ⟨e, hcall, hlast⟩
  obtain ⟨host, event, hone, hreconcile, -, -⟩ := after_fill hcall hdoes
  unfold Fills.reconcile at hreconcile
  cases hfound : f.orderOf host.orderOf e with
  | none =>
    rw [hfound] at hreconcile
    cases hreconcile
    refine hf.keep hplaces ?_
    intro b o hopen hclosed
    have hnames := ((hcloses b).mp hclosed).2.2
    rw [hf.orderOf hkept hown hcall hopen hnames] at hfound
    cases hfound
  | some r =>
    rw [hfound] at hreconcile
    cases hside : Direction.ofWire? e.side with
    | none =>
      rw [hside] at hreconcile hcloses
      cases hreconcile
      exact hf.keep hplaces fun b o _ hclosed => nomatch ((hcloses b).mp hclosed).1
    | some direction =>
      rw [hside] at hreconcile hcloses
      by_cases hfinal : (OrderStatus.ofWire e.status).isFinal = true
      · simp only [hfinal, if_true] at hreconcile
        cases hreconcile
        refine hf.close hplaces ?_
        intro b o hopen
        constructor
        · intro hb
          exact (hcloses b).mpr ⟨rfl, hfinal, hf.names_of_orderOf hone hfound b hb⟩
        · intro hclosed
          have hnames := ((hcloses b).mp hclosed).2.2
          rw [hf.orderOf hkept hown hcall hopen hnames] at hfound
          cases hfound
          exact List.mem_cons_self
      · simp only [hfinal] at hreconcile
        cases hreconcile
        exact hf.keep hplaces fun b o _ hclosed => hfinal ((hcloses b).mp hclosed).2.1

/-- **The desk keeps exactly the open orders.** -/
theorem Kept.mirrors (h : Kept ds f) (hown : OwnIds ds) : Mirrors f ds := by
  induction h with
  | start => exact mirrors_empty
  | @deal ds f f' d hkept hdoes ih =>
    have hf := ih hown.before
    cases hcall : d.call with
    | place o =>
      refine hf.place ?_ hcall hdoes
      intro b hassigned o' hopen
      obtain ⟨d', hd', -, hassigned'⟩ := hkept.assigned_of_open hopen
      exact (List.pairwise_append.mp hown.once).2.2 d' hd' d List.mem_cons_self b hassigned'
        hassigned
    | cancel o => exact hf.cancel hcall hdoes
    | fill e => exact hf.fill hkept hown hcall hdoes

/-! ## 4. Executions -/

/-- **An execution that names an open order is told to the host**, as one of this order. -/
theorem Kept.fill_open {direction : Direction} (h : Kept (ds ++ [x]) f)
    (hown : OwnIds (ds ++ [x])) (hcall : x.call = .fill e)
    (hside : Direction.ofWire? e.side = some direction) (hopen : Open ds b o)
    (hnames : e.Names b) :
    x.report = .matched (some (Fills.eventOf o direction e)) ∧
      x.told = [.order (Fills.eventOf o direction e)] := by
  obtain ⟨f₀, hkept, hdoes⟩ := kept_snoc.mp h
  obtain ⟨host, event, -, hreconcile, hreport, htold⟩ := after_fill hcall hdoes
  have hfound := (hkept.mirrors hown.before).orderOf hkept hown hcall hopen hnames host.orderOf
  simp only [Fills.reconcile, hfound, hside] at hreconcile
  obtain rfl := (Prod.mk.inj hreconcile).1
  exact ⟨hreport, htold⟩

/-- **Any other execution is matched with the book of the host**, as it is at that moment. -/
theorem Kept.fill_other {direction : Direction} (h : Kept (ds ++ [x]) f)
    (hown : OwnIds (ds ++ [x])) (hcall : x.call = .fill e)
    (hside : Direction.ofWire? e.side = some direction)
    (hnone : ∀ b o, Open ds b o → ¬ e.Names b) :
    ∃ host : Host, host.OneId ∧ x.report = .matched
        (((e.algoId?.bind host.orderOf).or (host.orderOf e.orderId)).map fun o =>
          Fills.eventOf o direction e) := by
  obtain ⟨f₀, hkept, hdoes⟩ := kept_snoc.mp h
  obtain ⟨host, event, hone, hreconcile, hreport, -⟩ := after_fill hcall hdoes
  have hf := hkept.mirrors hown.before
  have hget : ∀ b, e.Names b → f₀.placed.get? b = none := by
    intro b hnames
    cases hget : f₀.placed.get? b with
    | none => rfl
    | some r =>
      obtain ⟨o, hopen, -⟩ := (hf.get b r).mp hget
      exact absurd hnames (hnone b o hopen)
  have hplaced : (e.algoId?.bind f₀.placed.get?).or (f₀.placed.get? e.orderId) = none := by
    rw [hget e.orderId (Or.inr rfl), Option.or_none, Option.bind_eq_none_iff]
    exact fun a halgo => hget a (Or.inl halgo)
  refine ⟨host, hone, ?_⟩
  rw [hreport]
  simp only [Fills.reconcile, Fills.orderOf, hplaced, Option.none_or, hside] at hreconcile
  cases hbook : (e.algoId?.bind host.orderOf).or (host.orderOf e.orderId) with
  | none =>
    rw [hbook] at hreconcile
    rw [← (Prod.mk.inj hreconcile).1]
    rfl
  | some r =>
    rw [hbook] at hreconcile
    rw [← (Prod.mk.inj hreconcile).1]
    rfl

/-! ## 5. Runs -/

/-- The exchange gives numbers to orders. -/
theorem number_of_mem_assignedIds {asked : List (HttpRequest × Outcome HttpResponse)}
    (h : b ∈ assignedIds asked) : ∃ n, b = Text.ofNat n := by
  obtain ⟨⟨r, answer⟩, -, hid⟩ := List.mem_filterMap.mp h
  cases answer with
  | error e => cases hid
  | ok a =>
    dsimp only at hid
    split at hid
    · cases hplaced : Client.acknowledged a.body with
      | error e =>
        rw [hplaced] at hid
        cases hid
      | ok w =>
        rw [hplaced] at hid
        cases hid
        unfold Client.acknowledged at hplaced
        split at hplaced
        · exact WireOrder.id_of_ofJson hplaced
        · cases hplaced
    · cases hid

/-- **Every fill finds its order, in every run of a desk** in which no id of the exchange belongs to
two orders.

* An order that was placed has an id, a number that the exchange gave to it.
* Whenever the lock on orders is free, the desk keeps exactly the open orders.
* An execution that names an open order is told to the host as one of this order, after its id and
  that it was submitted.
* It is told again if it comes again while the order is open; one that names no open order is
  matched with the book of the host.
* A number in the document of an execution, as the id of the order or as that of a stop order, as a
  number or as a string, names the order with this id. -/
theorem fills_find_orders {desk : Desk} {c : Crew} (h : Crew.Reached desk c)
    (hown : OwnIds c.deals) :
    (∀ d ∈ c.deals, ∀ o, d.call = .place o → d.report = .placed (.ok true) →
      ∃ n, d.Places (Text.ofNat n) o ∧ Text.ofNat n ∈ d.assigned) ∧
    (c.state.orderLock = none → Mirrors c.state.fills c.deals) ∧
    (∀ ds x es e direction, c.deals = ds ++ x :: es → x.call = .fill e →
      Direction.ofWire? e.side = some direction →
      (∀ b o, Open ds b o → e.Names b →
        (Fills.eventOf o direction e).orderId = o.id ∧
        x.report = .matched (some (Fills.eventOf o direction e)) ∧
        x.told = [.order (Fills.eventOf o direction e)] ∧
        (∃ time, [Event.orderIds o.id [b], .order (.ofStatus o .submitted "" time),
          .order (Fills.eventOf o direction e)].Sublist c.state.events) ∧
        ∀ es' y fs, es = es' ++ y :: fs → y.call = .fill e → Open (ds ++ x :: es') b o →
          y.told = x.told ∧ (x.told ++ y.told).Sublist c.state.events) ∧
      ((∀ b o, Open ds b o → ¬ e.Names b) →
        ∃ host : Host, host.OneId ∧ x.report = .matched
          (((e.algoId?.bind host.orderOf).or (host.orderOf e.orderId)).map fun o =>
            Fills.eventOf o direction e))) ∧
    ∀ futures fs e n, Execution.ofJson futures (.object fs) = .ok e →
      Json.Sole fs "i" (.ofNat n) ∨ 0 < n ∧ Json.Gives fs "ai" n → e.Names (Text.ofNat n) := by
  obtain ⟨f, hordered⟩ := h.ordered
  refine ⟨?_, ?_, ?_, fun futures fs e n => Execution.names_of_ofJson⟩
  · intro d hd o hcall hagreed
    obtain ⟨f₀, f₁, hdoes⟩ := hordered.kept.does hd
    rcases after_place hcall hdoes with ⟨hno, -⟩ | ⟨b, hplaces, hassigned, -⟩
    · exact absurd hagreed hno
    · obtain ⟨n, rfl⟩ := number_of_mem_assignedIds hassigned
      exact ⟨n, hplaces, hassigned⟩
  · intro hfree
    rw [hordered.free hfree]
    exact hordered.kept.mirrors hown
  · intro ds x es e direction hdeals hcall hside
    have hkept := hordered.kept
    have htold := hordered.told
    rw [hdeals] at hown hkept htold
    obtain ⟨f', hupTo⟩ := hkept.upTo
    have hownUpTo : OwnIds (ds ++ [x]) := by
      rw [List.append_cons] at hown
      exact hown.before
    refine ⟨?_, fun hnone => hupTo.fill_other hownUpTo hcall hside hnone⟩
    intro b o hopen hnames
    obtain ⟨hreport, hevent⟩ := hupTo.fill_open hownUpTo hcall hside hopen hnames
    refine ⟨rfl, hreport, hevent, ?_, ?_⟩
    · obtain ⟨xs, p, es', rfl, hplaces, -⟩ := hopen
      obtain ⟨time, hfirst⟩ := hplaces.told
      refine ⟨time, List.Sublist.trans ?_ htold⟩
      have hp : p ∈ xs ++ p :: es' := List.mem_append_right _ List.mem_cons_self
      have hboth : (p.told ++ x.told).Sublist (toldBy (xs ++ p :: es' ++ x :: es)) :=
        told_append_sublist hp
      rw [hfirst, hevent] at hboth
      exact hboth
    · rintro es' y fs rfl hcall' hopen'
      rw [← List.cons_append, ← List.append_assoc] at hkept hown htold
      obtain ⟨f'', hupTo'⟩ := hkept.upTo
      rw [List.append_cons] at hown
      obtain ⟨-, hevent'⟩ := hupTo'.fill_open hown.before hcall' hside hopen' hnames
      have hx : x ∈ ds ++ x :: es' := List.mem_append_right _ List.mem_cons_self
      exact ⟨hevent'.trans hevent.symm, (told_append_sublist hx).trans htold⟩

/-- A desk on the spot market, where one symbol is listed. -/
def etherDesk : Desk :=
  ⟨⟨⟨"binance-spot", some ⟨"key", "secret", none⟩, .standard⟩,
    ⟨.spot, .empty, ⟨[("ETHUSDT", "ETHUSDT")]⟩⟩⟩, .readOnly .binance, .standard⟩

/-- An order to buy two. -/
def etherOrder : Order :=
  .atMarket 7 ⟨"ETHUSDT", .crypto, "binance"⟩ .buy ((Decimal.ofInt? 2).getD .zero) .epoch

/-- The exchange accepts it. -/
def etherAnswer (_ : HttpRequest) : Outcome HttpResponse :=
  .ok ⟨200, "\x7b\"orderId\":42,\"symbol\":\"ETHUSDT\",\"origQty\":\"2\",\"status\":\"NEW\"," ++
    "\"type\":\"MARKET\",\"side\":\"BUY\"\x7d"⟩

/-- One of the two was bought. -/
def etherFill : Execution :=
  ⟨"42", none, "ETHUSDT", "TRADE", "PARTIALLY_FILLED", 1000, (Decimal.ofInt? 3000).getD .zero,
    (Decimal.ofInt? 1).getD .zero, "BUY", .zero, none⟩

/-- The order is placed, and then the execution comes. -/
def etherRun : Option ((Report × List (HttpRequest × Outcome HttpResponse) × DeskState) ×
    Report × List (HttpRequest × Outcome HttpResponse) × DeskState) :=
  (Crew.alone etherAnswer 0 ((OrderCall.place etherOrder).deed etherDesk)
    (.start ⟨1, 100⟩ 0)).bind fun r =>
      (Crew.alone etherAnswer 1 ((OrderCall.fill etherFill).deed etherDesk) r.2.2).map
        fun r' => (r, r')

theorem etherRun_eq : (etherRun.map fun p =>
    ((match p.1.1 with
      | .placed (.ok true) => true
      | _ => false), assignedIds p.1.2.1, assignedIds p.2.2.1, p.2.2.2.orderLock)) =
    some (true, ["42"], [], none) := by decide +kernel

theorem fills_find_orders_ether :
    ∃ c time, Crew.Reached etherDesk c ∧ OwnIds c.deals ∧
      c.deals.map Deal.call = [.place etherOrder, .fill etherFill] ∧
      c.state.orderLock = none ∧ Mirrors c.state.fills c.deals ∧
      [Event.orderIds 7 ["42"], .order (.ofStatus etherOrder .submitted "" time),
        .order (Fills.eventOf etherOrder .buy etherFill)].Sublist c.state.events := by
  obtain ⟨⟨r, r'⟩, hrun, hfacts⟩ := Option.map_eq_some_iff.mp etherRun_eq
  obtain ⟨r₀, hplace, hfill⟩ := Option.bind_eq_some_iff.mp hrun
  obtain ⟨r₁, hfill, heq⟩ := Option.map_eq_some_iff.mp hfill
  cases heq
  obtain ⟨hagreed, hids, hnoIds, hlock⟩ :
      (match r.1 with
        | .placed (.ok true) => true
        | _ => false) = true ∧ assignedIds r.2.1 = ["42"] ∧ assignedIds r'.2.1 = [] ∧
        r'.2.2.orderLock = none := by
    simpa only [Prod.mk.injEq] using hfacts
  have hplaced : r.1 = .placed (.ok true) := by
    split at hagreed
    · assumption
    · cases hagreed
  have hstart : Crew.Reached etherDesk (Crew.start (.start ⟨1, 100⟩ 0)) := by
    refine .start rfl rfl ?_
    intro id o h
    cases h
  obtain ⟨c, told, hreached, hstate, hlength, hdeals⟩ := hstart.call _ hplace
  rw [← hstate] at hfill
  have hmember : c.members.length = 1 := hlength
  rw [← hmember] at hfill
  obtain ⟨c', told', hreached', hstate', -, hdeals'⟩ := hreached.call _ hfill
  rw [hdeals] at hdeals'
  have hown : OwnIds c'.deals := by
    rw [hdeals']
    refine ⟨List.pairwise_pair.mpr fun b _ => ?_, ?_⟩
    · rw [Deal.assigned, hnoIds]
      exact List.not_mem_nil
    · intro x hx e a hcall halgo
      rcases List.mem_pair.mp hx with rfl | rfl
      · cases hcall
      · cases hcall
        cases halgo
  obtain ⟨hplaces, hkept, hfills, -⟩ := fills_find_orders hreached' hown
  have hmem : (⟨.place etherOrder, r.1, r.2.1, told⟩ : Deal) ∈ c'.deals := by
    rw [hdeals']
    exact List.mem_cons_self
  obtain ⟨n, hplaces, hassigned⟩ := hplaces _ hmem etherOrder rfl hplaced
  rw [Deal.assigned, hids, List.mem_singleton] at hassigned
  rw [hassigned] at hplaces
  have hopen : Open [⟨.place etherOrder, r.1, r.2.1, told⟩] "42" etherOrder :=
    ⟨[], _, [], rfl, hplaces, List.forall_mem_nil _⟩
  obtain ⟨-, -, -, ⟨time, hsublist⟩, -⟩ := (hfills _ _ [] etherFill .buy hdeals' rfl
    (by decide)).1 "42" etherOrder hopen (Or.inr rfl)
  have hfree : c'.state.orderLock = none := by
    rw [hstate']
    exact hlock
  exact ⟨c', time, hreached', hown, by rw [hdeals']; rfl, hfree, hkept hfree, hsublist⟩

end OrderDesk.Orders
