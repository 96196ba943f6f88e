import OrderDesk.Proofs.Orders.Section

/-!
# The lock on orders

At any moment of a run at most one member is at work under the lock; all others wait for it, are
through, or broke down.  Whenever the lock is free, the orders that are kept are those that the
calls which came to their ends left, one after another, as if they had been made one at a time
(`Kept`).  The host was told what these calls told it, in the same order, with other things in
between.

`Crew.Ordered` says this of a crew, together with what is known of the member that has the lock:
the rest of its work still ensures what the call does (`Act.Ensures.move`).
-/

namespace OrderDesk.Orders

/-- The orders that are kept after some calls, one at a time. -/
inductive Kept : List Deal → Fills → Prop
  | start : Kept [] .empty
  | deal {ds : List Deal} {f f' : Fills} {d : Deal} : Kept ds f →
      d.call.Does f ⟨d.asked, d.told, f'⟩ d.report → Kept (ds ++ [d]) f'

/-- What some calls told the host. -/
def toldBy (ds : List Deal) : List Event := ds.flatMap Deal.told

theorem toldBy_append (ds es : List Deal) : toldBy (ds ++ es) = toldBy ds ++ toldBy es :=
  List.flatMap_append

theorem told_sublist {ds : List Deal} {d : Deal} (h : d ∈ ds) : d.told.Sublist (toldBy ds) := by
  rw [toldBy, List.flatMap_def]
  exact List.sublist_flatten_of_mem (List.mem_map_of_mem h)

/-- What an earlier call told comes before what a later one told. -/
theorem told_append_sublist {ds es : List Deal} {d x : Deal} (h : d ∈ ds) :
    (d.told ++ x.told).Sublist (toldBy (ds ++ x :: es)) := by
  have hx : x ∈ x :: es := List.mem_cons_self
  rw [toldBy_append]
  exact (told_sublist h).append (told_sublist hx)

/-- A member that does not have the lock: it waits for it, is through, or broke down. -/
def Outside (d : Desk) (w : Work) : Prop :=
  (w.rest = w.call.deed d ∧ w.asked = [] ∧ w.told = []) ∨ (∃ report, w.rest = .done report) ∨
    ∃ cause, w.rest = .halt cause

/-- A member that has the lock; `f` are the orders that were kept when it took it. -/
def Inside (f : Fills) (w : Work) (now : Fills) : Prop :=
  ∃ x : Deed Report, w.rest = x.bind leave ∧
    x.Ensures (underLock f) (fun k report => w.call.Does f k report) ⟨w.asked, w.told, now⟩

namespace Crew

/-- The members of a crew do not get in each other's way; `f` are the orders that were kept when
the lock was free last. -/
structure Ordered (d : Desk) (c : Crew) (f : Fills) : Prop where
  kept : Kept c.deals f
  host : c.state.host.OneId
  free : c.state.orderLock = none → c.state.fills = f
  outside : ∀ i w, c.members[i]? = some w → c.state.orderLock ≠ some i → Outside d w
  inside : ∀ i, c.state.orderLock = some i → ∃ w, c.members[i]? = some w ∧
    Inside f w c.state.fills ∧ (toldBy c.deals ++ w.told).Sublist c.state.events
  told : (toldBy c.deals).Sublist c.state.events

variable {d : Desk} {c : Crew} {f : Fills}

theorem ordered_start {s : DeskState} (hlock : s.orderLock = none) (hfills : s.fills = .empty)
    (hhost : s.host.OneId) : (start s).Ordered d .empty where
  kept := .start
  host := hhost
  free := fun _ => hfills
  outside := by intro i w hw; cases hw
  inside := by
    intro i hi
    rw [start, hlock] at hi
    cases hi
  told := List.nil_sublist _

/-! ## 1. Steps outside the lock -/

theorem Ordered.join (h : c.Ordered d f) (call : OrderCall) :
    ({ c with members := c.members ++ [⟨call, call.deed d, [], []⟩] } : Crew).Ordered d f where
  kept := h.kept
  host := h.host
  free := h.free
  outside := by
    intro i w hw hi
    rcases Nat.lt_or_ge i c.members.length with hlt | hge
    · rw [List.getElem?_append_left hlt] at hw
      exact h.outside i w hw hi
    · rw [List.getElem?_append_right hge] at hw
      obtain rfl := List.mem_singleton.mp (List.mem_of_getElem? hw)
      exact Or.inl ⟨rfl, rfl, rfl⟩
  inside := by
    intro i hi
    obtain ⟨w, hw, hinside, htold⟩ := h.inside i hi
    obtain ⟨hlt, -⟩ := List.getElem?_eq_some_iff.mp hw
    exact ⟨w, by rw [List.getElem?_append_left hlt]; exact hw, hinside, htold⟩
  told := h.told

theorem Ordered.elsewhere (h : c.Ordered d f) {s : DeskState}
    (hlock : s.orderLock = c.state.orderLock) (hfills : s.fills = c.state.fills)
    (hevents : c.state.events <+: s.events) (hhost : s.host.OneId) :
    ({ c with state := s } : Crew).Ordered d f where
  kept := h.kept
  host := hhost
  free := by
    intro hfree
    rw [hfills]
    exact h.free (hlock.symm.trans hfree)
  outside := by
    intro i w hw hi
    exact h.outside i w hw (by rw [← hlock]; exact hi)
  inside := by
    intro i hi
    obtain ⟨w, hw, hinside, htold⟩ := h.inside i (hlock.symm.trans hi)
    exact ⟨w, hw, by rw [hfills]; exact hinside, htold.trans hevents.sublist⟩
  told := h.told.trans hevents.sublist

/-! ## 2. Steps under the lock -/

theorem reportOf_bind_leave (x : Deed Report) : reportOf (x.bind leave) = none := by
  cases x <;> rfl

theorem isBroken_bind_leave (x : Deed Report) : isBroken (x.bind leave) = isBroken x := by
  cases x <;> rfl

/-- After a change of one member the others are as they were. -/
theorem outside_set {i : Nat} {w' : Work} (hw' : Outside d w')
    (hothers : ∀ (j : Nat) (w : Work), c.members[j]? = some w → j ≠ i → Outside d w) :
    ∀ (j : Nat) (w : Work), (c.members.set i w')[j]? = some w → Outside d w := by
  intro j w hw
  by_cases hj : i = j
  · subst hj
    obtain ⟨hlt, -⟩ := List.getElem?_eq_some_iff.mp hw
    rw [List.length_set] at hlt
    rw [List.getElem?_set_self hlt] at hw
    obtain rfl := Option.some.inj hw
    exact hw'
  · rw [List.getElem?_set_ne hj] at hw
    exact hothers j w hw (Ne.symm hj)

/-- **A member that has the lock and is not through with its work.**  It goes on with what still
ensures the same, or it broke down before it changed anything and gives the lock back. -/
theorem Ordered.afterWork (h : c.Ordered d f) {i : Nat} {w : Work} {t : Act.Trace}
    {s : DeskState} {x : Deed Report} (hw : c.members[i]? = some w)
    (hothers : ∀ (j : Nat) (w' : Work), c.members[j]? = some w' → j ≠ i → Outside d w')
    (htold : (toldBy c.deals ++ w.told).Sublist c.state.events) (hlock : s.orderLock = some i)
    (hhost : s.host = c.state.host) (hevents : c.state.events <+: s.events)
    (hx : x.Ensures (underLock f) (fun k report => w.call.Does f k report)
      ⟨w.asked ++ askedIn t, w.told ++ s.events.drop c.state.events.length, s.fills⟩) :
    (c.afterMove i w t (x.bind leave) s).Ordered d f := by
  obtain ⟨hlt, -⟩ := List.getElem?_eq_some_iff.mp hw
  have hmore : (toldBy c.deals ++ (w.told ++ s.events.drop c.state.events.length)).Sublist
      s.events := by
    obtain ⟨more, hevents⟩ := hevents
    rw [← hevents, List.drop_left, ← List.append_assoc]
    exact htold.append (List.Sublist.refl more)
  have hdeals : (c.afterMove i w t (x.bind leave) s).deals = c.deals := by
    simp only [afterMove, reportOf_bind_leave, Option.toList_none, List.map_nil, List.append_nil]
  cases hbroken : isBroken x with
  | true =>
    have hstate : (c.afterMove i w t (x.bind leave) s).state = withoutLock s i := by
      simp only [afterMove, isBroken_bind_leave, hbroken, if_true]
    have hfree : (withoutLock s i).orderLock = none := if_pos hlock
    obtain ⟨cause, rfl⟩ : ∃ cause, x = .halt cause := by
      cases x with
      | halt cause => exact ⟨cause, rfl⟩
      | _ => cases hbroken
    exact {
      kept := by rw [hdeals]; exact h.kept
      host := by rw [hstate]; exact hhost ▸ h.host
      free := by rw [hstate]; exact fun _ => hx
      outside := fun j w' hw' _ =>
        outside_set (Or.inr (Or.inr ⟨cause, rfl⟩)) hothers j w' hw'
      inside := by
        intro j hj
        rw [hstate, hfree] at hj
        cases hj
      told := by rw [hdeals, hstate]; exact h.told.trans hevents.sublist }
  | false =>
    have hstate : (c.afterMove i w t (x.bind leave) s).state = s := by
      simp only [afterMove, isBroken_bind_leave, hbroken, Bool.false_eq_true, if_false]
    exact {
      kept := by rw [hdeals]; exact h.kept
      host := by rw [hstate, hhost]; exact h.host
      free := by
        intro hfree
        rw [hstate, hlock] at hfree
        cases hfree
      outside := by
        intro j w' hw' hj
        have hne : i ≠ j := by
          rintro rfl
          exact hj (by rw [hstate]; exact hlock)
        have hw' : (c.members.set i _)[j]? = some w' := hw'
        rw [List.getElem?_set_ne hne] at hw'
        exact hothers j w' hw' (Ne.symm hne)
      inside := by
        intro j hj
        rw [hstate, hlock] at hj
        obtain rfl := Option.some.inj hj
        refine ⟨_, List.getElem?_set_self hlt, ⟨x, rfl, ?_⟩, ?_⟩
        · rw [hstate]
          exact hx
        · rw [hdeals, hstate]
          exact hmore
      told := by rw [hdeals, hstate]; exact h.told.trans hevents.sublist }

/-- A move of a piece of work is a move of its first part, unless that is over. -/
theorem move_bind {x y : Deed Report} {s s' : DeskState} {t : Act.Trace}
    (h : Act.Move (x.bind leave) s t y s') :
    (∃ report, x = .done report ∧ t = .changed ∧ y = .done report ∧
      s' = { s with orderLock := none }) ∨
    ∃ x', Act.Move x s t x' s' ∧ y = x'.bind leave := by
  rcases Act.move_bind h with ⟨report, rfl, hleave⟩ | hwork
  · cases hleave with
    | access => exact Or.inl ⟨report, rfl, rfl, rfl, rfl⟩
  · exact Or.inr hwork

/-- What a member knows after a move is what it keeps account of. -/
theorem after_underLock {k : Section} {s s' : DeskState} {t : Act.Trace}
    (hk : s.fills = k.fills) (hsame : s' = s ∨ t = .changed) :
    Act.after (underLock f) k s s' t =
      ⟨k.asked ++ askedIn t, k.told ++ s'.events.drop s.events.length, s'.fills⟩ := by
  cases t with
  | changed => simp only [Act.after, underLock, askedIn, List.append_nil]
  | asked r o =>
    obtain rfl : s' = s := hsame.resolve_right Act.Trace.noConfusion
    simp only [Act.after, underLock, askedIn, List.drop_length, List.append_nil, hk]
  | silent =>
    obtain rfl : s' = s := hsame.resolve_right Act.Trace.noConfusion
    simp only [Act.after, askedIn, List.drop_length, List.append_nil, hk]

/-- **A member that is through with its work** gives the lock back, and the call came to its
end. -/
theorem Ordered.afterUnlock (h : c.Ordered d f) {i : Nat} {w : Work} {report : Report}
    (hothers : ∀ (j : Nat) (w' : Work), c.members[j]? = some w' → j ≠ i → Outside d w')
    (htold : (toldBy c.deals ++ w.told).Sublist c.state.events)
    (hdoes : w.call.Does f ⟨w.asked, w.told, c.state.fills⟩ report) :
    (c.afterMove i w .changed (.done report)
      { c.state with actor := i, orderLock := none }).Ordered d c.state.fills := by
  have hdeals : (c.afterMove i w .changed (.done report)
      { c.state with actor := i, orderLock := none }).deals =
        c.deals ++ [⟨w.call, report, w.asked, w.told⟩] := by
    simp only [afterMove, reportOf, askedIn, Option.toList_some, List.map_cons, List.map_nil,
      List.drop_length, List.append_nil]
  have hmore : (toldBy (c.deals ++ [⟨w.call, report, w.asked, w.told⟩])).Sublist
      c.state.events := by
    rw [toldBy_append]
    show (toldBy c.deals ++ (w.told ++ [])).Sublist c.state.events
    rw [List.append_nil]
    exact htold
  exact {
    kept := by rw [hdeals]; exact h.kept.deal hdoes
    host := h.host
    free := fun _ => rfl
    outside := fun j w' hw' _ => outside_set (Or.inr (Or.inl ⟨report, rfl⟩)) hothers j w' hw'
    inside := nofun
    told := by rw [hdeals]; exact hmore }

/-- **A move of one member.** -/
theorem Ordered.move (h : c.Ordered d f) {i : Nat} {w : Work} {t : Act.Trace}
    {rest : Deed Report} {s : DeskState} (hw : c.members[i]? = some w)
    (hmove : Act.Move w.rest { c.state with actor := i } t rest s) :
    ∃ f', (c.afterMove i w t rest s).Ordered d f' := by
  by_cases hi : c.state.orderLock = some i
  · have hothers : ∀ (j : Nat) (w' : Work), c.members[j]? = some w' → j ≠ i → Outside d w' := by
      intro j w' hw' hj
      refine h.outside j w' hw' ?_
      rw [hi]
      exact fun heq => hj (Option.some.inj heq).symm
    obtain ⟨w', hw', ⟨x, hrest, hx⟩, htold⟩ := h.inside i hi
    obtain rfl := Option.some.inj (hw.symm.trans hw')
    rw [hrest] at hmove
    rcases move_bind hmove with ⟨report, rfl, rfl, rfl, rfl⟩ | ⟨x', hwork, rfl⟩
    · exact ⟨_, h.afterUnlock hothers htold hx⟩
    · have hmeets : (underLock f).meets ⟨w.asked, w.told, c.state.fills⟩
          { c.state with actor := i } := ⟨rfl, h.host⟩
      obtain ⟨hx', hstate⟩ := hx.move hmeets hwork fun _ _ _ => trivial
      rw [after_underLock rfl (hstate.imp id And.left)] at hx'
      have hallows : (underLock f).allows { c.state with actor := i } s := by
        rcases hstate with rfl | ⟨-, hallows⟩
        · exact ⟨rfl, rfl, List.prefix_refl _⟩
        · exact hallows
      obtain ⟨hlock, hhost, hevents⟩ := hallows
      exact ⟨f, h.afterWork hw hothers htold (hlock.trans hi) hhost hevents hx'⟩
  · rcases h.outside i w hw hi with ⟨hrest, hasked, htold⟩ | ⟨report, hrest⟩ | ⟨cause, hrest⟩
    · -- it waited for the lock, which it finds free and takes
      rw [hrest, OrderCall.deed_eq] at hmove
      cases hmove with
      | ready hgoal =>
        have hfree : c.state.orderLock = none := Option.isNone_iff_eq_none.mp hgoal
        refine ⟨f, h.afterWork (x := w.call.work d) hw ?_ ?_ rfl rfl (List.prefix_refl _) ?_⟩
        · intro j w' hw' _
          refine h.outside j w' hw' ?_
          rw [hfree]
          exact nofun
        · rw [htold, List.append_nil]
          exact h.told
        · have hwork := OrderCall.ensures_work (f := f) d w.call
          rw [hasked, htold]
          dsimp only [askedIn]
          rw [List.drop_length, h.free hfree]
          exact hwork
    · rw [hrest] at hmove
      cases hmove
    · rw [hrest] at hmove
      cases hmove

/-! ## 3. Runs -/

/-- **The members of a crew never get in each other's way**, whatever run led to it. -/
theorem Reached.ordered (h : Reached d c) : ∃ f, c.Ordered d f := by
  induction h with
  | start hlock hfills hhost => exact ⟨.empty, ordered_start hlock hfills hhost⟩
  | step _ hstep ih =>
    obtain ⟨f, hordered⟩ := ih
    cases hstep with
    | join call => exact ⟨f, hordered.join call⟩
    | move hw hmove => exact hordered.move hw hmove
    | elsewhere hlock hfills hevents hhost =>
      exact ⟨f, hordered.elsewhere hlock hfills hevents hhost⟩

end Crew
end OrderDesk.Orders
