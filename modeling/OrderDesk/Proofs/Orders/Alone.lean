import OrderDesk.Proofs.Orders.Crew

/-!
# A call left alone

The runs of a crew leave the order of steps open, and the answers of the exchange.  Where nobody
else takes a step and every request has its answer, a run can be followed to the end of a call
(`Crew.alone`); it is one of the runs of the crew (`Reached.call`).
-/

namespace OrderDesk.Orders.Crew

/-- The procedure of a member that is left alone, while requests are answered like this: its
report, what it asked, and the state that it leaves.  It takes the first of several ways. -/
abbrev alone (answer : HttpRequest → Outcome HttpResponse) (member : Nat) (x : Deed Report)
    (s : DeskState) : Option (Report × List (HttpRequest × Outcome HttpResponse) × DeskState) :=
  Deed.alone? (fun _ => 0) answer member x s

variable {d : Desk} {answer : HttpRequest → Outcome HttpResponse} {i : Nat} {report : Report}
  {asked : List (HttpRequest × Outcome HttpResponse)} {t : DeskState}

/-- A crew in which a call came to its end, after what it had asked before. -/
def Finished (d : Desk) (c : Crew) (w : Work) (report : Report)
    (asked : List (HttpRequest × Outcome HttpResponse)) (t : DeskState) : Prop :=
  ∃ c' told, Reached d c' ∧ c'.state = t ∧ c'.members.length = c.members.length ∧
    c'.deals = c.deals ++ [⟨w.call, report, w.asked ++ asked, told⟩]

/-- **A member that is left alone comes to its end** in some run. -/
theorem Reached.finished {c : Crew} {w : Work} (h : Reached d c) (hw : c.members[i]? = some w)
    (hnot : reportOf w.rest = none) (halone : Deed.Alone i w.rest c.state report asked t) :
    Finished d c w report asked t := by
  generalize hrest : w.rest = x at hnot halone
  generalize hs : c.state = s at halone
  induction halone generalizing c w with
  | done report s => cases hnot
  | @move x rest s s₁ t trace report asked hmove halone ih =>
    subst hrest hs
    have hreached := h.step (.move hw hmove)
    obtain ⟨hlt, -⟩ := List.getElem?_eq_some_iff.mp hw
    have hbroken : isBroken rest = false := by
      cases halone with
      | done => rfl
      | move hmove => cases hmove <;> rfl
    have hstate : (c.afterMove i w trace rest s₁).state = s₁ := by
      simp only [afterMove, hbroken, Bool.false_eq_true, if_false]
    have hlength : (c.afterMove i w trace rest s₁).members.length = c.members.length :=
      List.length_set
    cases hreport : reportOf rest with
    | some report' =>
      cases halone with
      | done =>
        refine ⟨_, w.told ++ s₁.events.drop c.state.events.length, hreached, hstate, hlength, ?_⟩
        rw [List.append_nil]
        rfl
      | move hmove => cases hmove <;> cases hreport
    | none =>
      obtain ⟨c', told, hreached', ht, hlength', hdeals⟩ :=
        ih hreached (List.getElem?_set_self hlt) rfl hreport hstate
      refine ⟨c', told, hreached', ht, hlength'.trans hlength, ?_⟩
      rw [hdeals, ← List.append_assoc]
      simp only [afterMove, hreport, Option.toList_none, List.map_nil, List.append_nil]

/-- **A call that is left alone comes to its end** in some run. -/
theorem Reached.call {c : Crew} (h : Reached d c) (call : OrderCall)
    (halone : alone answer c.members.length (call.deed d) c.state = some (report, asked, t)) :
    ∃ c' told, Reached d c' ∧ c'.state = t ∧ c'.members.length = c.members.length + 1 ∧
      c'.deals = c.deals ++ [⟨call, report, asked, told⟩] := by
  have hjoined := h.step (.join call)
  have hmember : (c.members ++ [(⟨call, call.deed d, [], []⟩ : Work)])[c.members.length]? =
      some ⟨call, call.deed d, [], []⟩ := by
    rw [List.getElem?_append_right (Nat.le_refl _), Nat.sub_self]
    rfl
  have hnot : reportOf (call.deed d) = none := by
    rw [OrderCall.deed_eq]
    rfl
  obtain ⟨c', told, hreached, hstate, hlength, hdeals⟩ :=
    hjoined.finished hmember hnot (Deed.alone_of_alone? halone)
  refine ⟨c', told, hreached, hstate, ?_, hdeals⟩
  rw [hlength]
  exact List.length_append

/-- A desk at its start, without a host. -/
theorem reached_start (d : Desk) (limits : PoolLimits) (wall : Nat) :
    Reached d (start (.start limits wall)) := by
  refine .start rfl rfl ?_
  intro id o h
  cases h

end OrderDesk.Orders.Crew
