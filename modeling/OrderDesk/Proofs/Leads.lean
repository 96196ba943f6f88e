import OrderDesk.Proofs.Keeping

/-!
# Wherever a procedure may get to

A move leads from a procedure to what is left of it.  `Act.Leads` follows any number of moves, each
of which may meet any state of some kind: nothing is said of what others do in between.

What a procedure keeps to is still kept to by all that may be left of it (`Keeps.leads`).  Something
that has to hold of each step as it stands, and not only of what the steps come to, is shown by
`Act.Throughout`, which again is a recursion over the tree.
-/

namespace OrderDesk.Act

variable {σ κ α : Type} {J : σ → Prop}

/-- What may be left of a procedure after some moves, each of them in a state of this kind. -/
inductive Leads (J : σ → Prop) : Act σ α → Act σ α → Prop
  | refl (x : Act σ α) : Leads J x x
  | head {x y z : Act σ α} {s s' : σ} {t : Trace} : J s → Move x s t y s' → Leads J y z →
      Leads J x z

/-- Something holds of a procedure and of all that may be left of it. -/
def Throughout (J : σ → Prop) (P : Act σ α → Prop) : Act σ α → Prop
  | done a => P (done a)
  | halt cause => P (halt cause)
  | access set next => P (access set next) ∧ ∀ s, J s → Throughout J P (next s)
  | ask r next => P (ask r next) ∧ ∀ o, Throughout J P (next o)
  | wait limit goal set next => P (wait limit goal set next) ∧ Throughout J P (next false) ∧
      ∀ s, J s → goal s = true → Throughout J P (next true)
  | choose ways next => P (choose ways next) ∧ ∀ i < ways, Throughout J P (next i)

variable {P : Act σ α → Prop} {x y : Act σ α}

theorem Throughout.here (h : x.Throughout J P) : P x := by
  cases x with
  | done a => exact h
  | halt cause => exact h
  | _ => exact h.1

theorem Throughout.move {s s' : σ} {t : Trace} (h : x.Throughout J P) (hs : J s)
    (hmove : Move x s t y s') : y.Throughout J P := by
  cases hmove with
  | access set next => exact h.2 s hs
  | ask r next o => exact h.2 o
  | ready hgoal => exact h.2.2 s hs hgoal
  | late => exact h.2.1
  | way _ hi => exact h.2 _ hi

theorem Throughout.leads (h : x.Throughout J P) (hleads : x.Leads J y) : P y := by
  induction hleads with
  | refl x => exact h.here
  | head hs hmove _ ih => exact ih (h.move hs hmove)

/-- **What is left of a procedure still keeps to the same**, with what is known by then. -/
theorem Keeps.leads {W : Watch σ κ} {post : κ → α → Prop} {k : κ} (h : x.Keeps W post k)
    (hmeets : ∀ k s, J s → W.meets k s) (hanswers : ∀ r o, W.answers r o) (hleads : x.Leads J y) :
    ∃ k', y.Keeps W post k' := by
  induction hleads generalizing k with
  | refl x => exact ⟨k, h⟩
  | head hs hmove _ ih =>
    obtain ⟨k', hnext, -⟩ := h.move (hmeets k _ hs) hmove fun r o _ => hanswers r o
    exact ih hnext

/-- The first request that a procedure gets to if it meets this state again and again, does not wait
for longer than it has to, and takes the last of several ways. -/
def reaches? (s : σ) : Act σ α → Option HttpRequest
  | done _ | halt _ => none
  | access _ next => (next s).reaches? s
  | ask r _ => some r
  | wait limit goal _ next =>
    if goal s then (next true).reaches? s
    else if limit.isSome then (next false).reaches? s
    else none
  | choose ways next => if 0 < ways then (next (ways - 1)).reaches? s else none

/-- **What is reached is reached by moves.** -/
theorem leads_of_reaches? {s : σ} {q : HttpRequest} (hs : J s) (h : x.reaches? s = some q) :
    ∃ next, x.Leads J (.ask q next) := by
  induction x with
  | done a => cases h
  | halt cause => cases h
  | access set next ih =>
    obtain ⟨rest, hrest⟩ := ih s h
    exact ⟨rest, .head hs (.access set next s) hrest⟩
  | ask r next ih =>
    cases h
    exact ⟨next, .refl _⟩
  | wait limit goal set next ih =>
    rw [reaches?] at h
    split at h
    · rename_i hgoal
      obtain ⟨rest, hrest⟩ := ih true h
      exact ⟨rest, .head hs (.ready hgoal) hrest⟩
    · cases limit with
      | none => cases h
      | some nanos =>
        obtain ⟨rest, hrest⟩ := ih false h
        exact ⟨rest, .head hs (.late s) hrest⟩
  | choose ways next ih =>
    rw [reaches?] at h
    split at h
    · rename_i hways
      obtain ⟨rest, hrest⟩ := ih _ h
      exact ⟨rest, .head hs (.way s (Nat.sub_lt hways Nat.one_pos)) hrest⟩
    · cases h

end OrderDesk.Act
