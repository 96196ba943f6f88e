import OrderDesk.Act

/-!
# Procedures, one after another

The laws of `Act.bind`, and what it means that a procedure which neither asks nor waits was
carried out from its first step to its last (`Act.Ends`).  Such a procedure is one step for
everybody else as long as it reads and changes the state only once.
-/

namespace OrderDesk.Act

variable {σ α β γ : Type}

/-! ## 1. The laws of `bind` -/

@[simp] theorem done_bind (a : α) (f : α → Act σ β) : (done a).bind f = f a := rfl

@[simp] theorem halt_bind (c : Overflow) (f : α → Act σ β) :
    (halt c : Act σ α).bind f = halt c := rfl

@[simp] theorem access_bind (set : σ → σ) (next : σ → Act σ α) (f : α → Act σ β) :
    (access set next).bind f = access set fun s => (next s).bind f := rfl

@[simp] theorem ask_bind (r : HttpRequest) (next : Outcome HttpResponse → Act σ α)
    (f : α → Act σ β) : (ask r next).bind f = ask r fun o => (next o).bind f := rfl

@[simp] theorem wait_bind (limit : Option Nat) (goal : σ → Bool) (set : σ → σ)
    (next : Bool → Act σ α) (f : α → Act σ β) :
    (wait limit goal set next).bind f = wait limit goal set fun b => (next b).bind f := rfl

@[simp] theorem choose_bind (ways : Nat) (next : Nat → Act σ α) (f : α → Act σ β) :
    (choose ways next).bind f = choose ways fun n => (next n).bind f := rfl

/-- Three procedures in a row, whichever two are taken together. -/
theorem bind_assoc (x : Act σ α) (f : α → Act σ β) (g : β → Act σ γ) :
    (x.bind f).bind g = x.bind fun a => (f a).bind g := by
  induction x with
  | done a => rfl
  | halt c => rfl
  | access set next ih => simp only [access_bind, ih]
  | ask r next ih => simp only [ask_bind, ih]
  | wait limit goal set next ih => simp only [wait_bind, ih]
  | choose ways next ih => simp only [choose_bind, ih]

/-- A procedure, and then nothing. -/
theorem bind_done (x : Act σ α) : x.bind done = x := by
  induction x with
  | done a => rfl
  | halt c => rfl
  | access set next ih => simp only [access_bind, ih]
  | ask r next ih => simp only [ask_bind, ih]
  | wait limit goal set next ih => simp only [wait_bind, ih]
  | choose ways next ih => simp only [choose_bind, ih]

/-- What is known to succeed or to fail needs no step. -/
theorem ofOutcome_ok_andThen (a : α) (f : α → Act σ (Outcome β)) :
    (ofOutcome (.ok a)).andThen f = f a := rfl

/-! ## 2. Procedures without company -/

/-- A procedure that neither asks nor waits, from its first step to its last: the value it ends
with, and the state it leaves. -/
inductive Ends : Act σ α → σ → α → σ → Prop
  | done (a : α) (s : σ) : Ends (.done a) s a s
  | access {set : σ → σ} {next : σ → Act σ α} {s t : σ} {a : α} :
      Ends (next s) (set s) a t → Ends (.access set next) s a t

theorem ends_done_iff {a b : α} {s t : σ} : (done a : Act σ α).Ends s b t ↔ b = a ∧ t = s := by
  constructor
  · intro h
    cases h
    exact ⟨rfl, rfl⟩
  · rintro ⟨rfl, rfl⟩
    exact .done _ _

theorem ends_access_iff {set : σ → σ} {next : σ → Act σ α} {s t : σ} {a : α} :
    (access set next).Ends s a t ↔ (next s).Ends (set s) a t := by
  constructor
  · intro h
    cases h
    assumption
  · exact .access

/-- Carries out a procedure that neither asks nor waits. -/
def outcome? : Act σ α → σ → Option (α × σ)
  | done a, s => some (a, s)
  | access set next, s => (next s).outcome? (set s)
  | halt _, _ | ask _ _, _ | wait _ _ _ _, _ | choose _ _, _ => none

theorem ends_of_outcome? {x : Act σ α} {s t : σ} {a : α} (h : x.outcome? s = some (a, t)) :
    x.Ends s a t := by
  induction x generalizing s with
  | done b =>
    cases h
    exact .done _ _
  | access set next ih => exact .access (ih s h)
  | halt _ | ask _ _ _ | wait _ _ _ _ _ | choose _ _ _ => cases h

theorem not_ends_halt {c : Overflow} {s t : σ} {a : α} : ¬ (halt c : Act σ α).Ends s a t :=
  nofun

end OrderDesk.Act
