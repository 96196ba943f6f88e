import OrderDesk.Desk.State
import OrderDesk.Proofs.Ensures

/-!
# Procedures left alone

What comes of a procedure of the desk depends on what others do meanwhile, and on the answers of the
exchange.  Where nobody else takes a step, it goes from its first move to its last (`Deed.Alone`);
and where every request has its answer, it can be followed to its end (`Deed.alone?`).

A procedure that is left alone is left alone in some run, whatever else a run is about: each of its
moves is a step there.  So every notion of a run has one lemma, by induction on the moves.
-/

namespace OrderDesk

/-- What was asked in a move. -/
def askedIn : Act.Trace → List (HttpRequest × Outcome HttpResponse)
  | .asked r o => [(r, o)]
  | .changed | .silent => []

namespace Deed

variable {α : Type}

/-- A procedure from its first move to its last, while nobody else takes a step: its value, what it
asked, and the state that it leaves. -/
inductive Alone (actor : Nat) :
    Deed α → DeskState → α → List (HttpRequest × Outcome HttpResponse) → DeskState → Prop
  | done (a : α) (s : DeskState) : Alone actor (.done a) s a [] s
  | move {x y : Deed α} {s s₁ s' : DeskState} {t : Act.Trace} {a : α}
      {asked : List (HttpRequest × Outcome HttpResponse)} :
      Act.Move x { s with actor } t y s₁ → Alone actor y s₁ a asked s' →
      Alone actor x s a (askedIn t ++ asked) s'

/-- Follows a procedure that is left alone, while requests are answered like this.  Of several ways
it takes the one that is named; it does not come to an end where it would have to wait for
others. -/
def alone? (way : Nat → Nat) (answer : HttpRequest → Outcome HttpResponse) (actor : Nat) :
    Deed α → DeskState → Option (α × List (HttpRequest × Outcome HttpResponse) × DeskState)
  | .done a, s => some (a, [], s)
  | .halt _, _ => none
  | .access set next, s =>
    let s := { s with actor }
    alone? way answer actor (next s) (set s)
  | .ask r next, s =>
    (alone? way answer actor (next (answer r)) { s with actor }).map
      fun (a, asked, t) => (a, (r, answer r) :: asked, t)
  | .wait limit goal set next, s =>
    let s := { s with actor }
    if goal s then alone? way answer actor (next true) (set s)
    else if limit.isSome then alone? way answer actor (next false) s
    else none
  | .choose ways next, s =>
    if way ways < ways then alone? way answer actor (next (way ways)) { s with actor } else none

/-- **What is followed are moves.** -/
theorem alone_of_alone? {way : Nat → Nat} {answer : HttpRequest → Outcome HttpResponse}
    {actor : Nat} {x : Deed α} {s s' : DeskState} {a : α}
    {asked : List (HttpRequest × Outcome HttpResponse)}
    (h : alone? way answer actor x s = some (a, asked, s')) : Alone actor x s a asked s' := by
  induction x generalizing s asked with
  | done b =>
    cases h
    exact .done _ _
  | halt cause => cases h
  | access set next ih => exact .move (.access set next _) (ih _ h)
  | ask r next ih =>
    obtain ⟨⟨a', asked', t⟩, hnext, heq⟩ := Option.map_eq_some_iff.mp h
    cases heq
    exact .move (.ask r next (answer r) _) (ih _ hnext)
  | wait limit goal set next ih =>
    rw [alone?] at h
    split at h
    · rename_i hgoal
      exact .move (.ready hgoal) (ih true h)
    · cases limit with
      | none => cases h
      | some nanos => exact .move (.late _) (ih false h)
  | choose ways next ih =>
    rw [alone?] at h
    split at h
    · rename_i hways
      exact .move (.way _ hways) (ih _ h)
    · cases h

end Deed
end OrderDesk
