import OrderDesk.Proofs.Rest.Course

/-!
# Policies of patience

A policy says how often a request may be sent again and by how much the pause grows.  The pauses are
worked out before the first attempt, all of them, whether or not they are ever waited out.  So a
policy whose last pause is too long to be a length of time lets nothing out at all: every request
breaks off on the spot, although the first attempt does not wait for anything.

What settings are checked for is only that there is an attempt.  That is enough just where the last
pause is in range (`RetryPolicy.Workable`), and nothing else decides it: with such a policy all
pauses are what they should be, and every request that can be prepared is sent, unless the desk is
cancelled before (`first_attempt_sent`).
-/

namespace OrderDesk

/-! ## 1. Multiples of a length of time -/

namespace Span

/-- Where lengths of time end, in nanoseconds. -/
def bound : Nat := Word.bound64 * 1000000000

theorem toNanos_of_ofNanos? {n : Nat} {s : Span} (h : ofNanos? n = some s) : s.toNanos = n := by
  unfold ofNanos? at h
  split at h
  · obtain rfl := Option.some.inj h
    exact Nat.div_add_mod' n 1000000000
  · cases h

theorem isSome_ofNanos?_iff {n : Nat} : (ofNanos? n).isSome = true ↔ n < bound := by
  have hdiv : n / 1000000000 < Word.bound64 ↔ n < bound := Nat.div_lt_iff_lt_mul (by decide)
  unfold ofNanos?
  split
  · rename_i hlt
    exact iff_of_true rfl (hdiv.mp hlt)
  · rename_i hge
    exact iff_of_false Bool.false_ne_true (mt hdiv.mpr hge)

/-- A multiple that is in range is what it should be. -/
theorem toNanos_of_times? {s t : Span} {n : Nat} (h : s.times? n = some t) :
    t.toNanos = n * s.toNanos := by
  rw [toNanos_of_ofNanos? h, Nat.mul_comm]

theorem isSome_times?_iff {s : Span} {n : Nat} :
    (s.times? n).isSome = true ↔ n * s.toNanos < bound := by
  rw [times?, isSome_ofNanos?_iff, Nat.mul_comm]

/-- **Multiples are in range up to some number**: with one of them so are the smaller ones. -/
theorem isSome_times?_of_le {s : Span} {m n : Nat} (hle : m ≤ n) (h : (s.times? n).isSome = true) :
    (s.times? m).isSome = true :=
  isSome_times?_iff.mpr
    (Nat.lt_of_le_of_lt (Nat.mul_le_mul_right _ hle) (isSome_times?_iff.mp h))

/-- Multiples that are all in range, one after the other. -/
theorem mapM_times?_eq_some {s : Span} {ns : List Nat}
    (h : ∀ n ∈ ns, (s.times? (n + 1)).isSome = true) :
    ∃ ts, ns.mapM (fun n => s.times? (n + 1)) = some ts ∧
      ts.map toNanos = ns.map fun n => (n + 1) * s.toNanos := by
  induction ns with
  | nil => exact ⟨[], rfl, rfl⟩
  | cons n ns ih =>
    obtain ⟨hfirst, hrest⟩ := List.forall_mem_cons.mp h
    obtain ⟨t, ht⟩ := Option.isSome_iff_exists.mp hfirst
    obtain ⟨ts, hts, hlengths⟩ := ih hrest
    refine ⟨t :: ts, ?_, ?_⟩
    · rw [List.mapM_cons, ht, hts]
      rfl
    · rw [List.map_cons, List.map_cons, toNanos_of_times? ht, hlengths]

/-- One that is out of range spoils all of them. -/
theorem mapM_times?_eq_none {s : Span} {ns : List Nat} {n : Nat} (hmem : n ∈ ns)
    (h : s.times? (n + 1) = none) : ns.mapM (fun n => s.times? (n + 1)) = none := by
  induction ns with
  | nil => cases hmem
  | cons first ns ih =>
    rw [List.mapM_cons]
    rcases List.mem_cons.mp hmem with rfl | hlater
    · rw [h]
      rfl
    · rw [ih hlater]
      cases s.times? (first + 1) <;> rfl

end Span

/-! ## 2. The pauses of a policy -/

namespace RetryPolicy

variable {p : RetryPolicy}

/-- The last pause is in range. -/
def Workable (p : RetryPolicy) : Prop := (p.attempts - 1) * p.step.toNanos < Span.bound

instance (p : RetryPolicy) : Decidable p.Workable := Nat.decLt _ _

/-- How long the pauses should be: one step, two steps, and so on. -/
def lengths (p : RetryPolicy) : List Nat :=
  (List.range (p.attempts - 1)).map fun i => (i + 1) * p.step.toNanos

example : standard.lengths = [1000000000, 2000000000, 3000000000, 4000000000] := by decide

/-- **The pauses of a policy can be worked out just if it is workable**, and are then what they
should be. -/
theorem schedule?_of_workable (h : p.Workable) :
    ∃ pauses, p.schedule? = some pauses ∧ pauses.map Span.toNanos = p.lengths := by
  refine Span.mapM_times?_eq_some fun i hi => ?_
  have hle : i + 1 ≤ p.attempts - 1 := List.mem_range.mp hi
  exact Span.isSome_times?_of_le hle (Span.isSome_times?_iff.mpr h)

theorem schedule?_of_not_workable (h : ¬p.Workable) : p.schedule? = none := by
  have hpositive : 0 < p.attempts - 1 := by
    refine Nat.pos_of_ne_zero fun hzero => h ?_
    rw [Workable, hzero, Nat.zero_mul]
    decide
  have hlast : p.attempts - 1 - 1 ∈ List.range (p.attempts - 1) :=
    List.mem_range.mpr (Nat.sub_lt hpositive Nat.one_pos)
  refine Span.mapM_times?_eq_none hlast ?_
  rw [Nat.sub_add_cancel hpositive]
  exact Option.not_isSome_iff_eq_none.mp (mt Span.isSome_times?_iff.mp h)

/-- What is looked at before the first attempt. -/
theorem fits_iff : p.fits = true ↔ p.Workable := by
  rw [fits, Bool.or_eq_true, decide_eq_true_iff, Span.isSome_times?_iff]
  refine ⟨fun h => h.elim (fun hone => ?_) id, Or.inr⟩
  rw [Workable, Nat.sub_eq_zero_of_le hone, Nat.zero_mul]
  decide

end RetryPolicy

/-! ## 3. What comes of a request -/

namespace Rest

/-- What is known of a call on its way: whether a request went out, and whether the desk was found
cancelled. -/
structure Departure where
  sent : Bool
  stopped : Bool

/-- Before the first step of a call. -/
def Departure.start : Departure := ⟨false, false⟩

/-- Numbers stay within their ranges.  Nothing but attempts at the call may be sent, and nothing may
break off before one was. -/
def outgoing (r : Rest) (c : Call) : Watch DeskState Departure where
  meets _ s := s.InRange
  answers _ _ := True
  allows _ _ := True
  changed k s _ := { k with stopped := k.stopped || s.cancelled }
  heard k _ _ := { k with sent := true }
  halfway k := k.sent = true
  passed k _ := k
  sends _ q := ∃ stamp, r.Carries c stamp q

/-- A request went out, unless the call was given up because the desk was cancelled before. -/
def WentOut (k : Departure) (o : Outcome HttpResponse) : Prop :=
  k.sent = true ∨ (k.stopped = true ∧ o = .error .cancelled)

variable {r : Rest} {c : Call}

theorem WentOut.changed {k : Departure} {s s' : DeskState} {o : Outcome HttpResponse}
    (h : WentOut k o) : WentOut ((outgoing r c).changed k s s') o := by
  rcases h with hsent | ⟨hstopped, ho⟩
  · exact Or.inl hsent
  · exact Or.inr ⟨by simp [outgoing, hstopped], ho⟩

theorem wentOut_of_cancelled {k : Departure} {s s' : DeskState} (h : s.cancelled = true) :
    WentOut ((outgoing r c).changed k s s') (.error .cancelled) :=
  Or.inr ⟨by simp [outgoing, h], rfl⟩

theorem carries_of_prepared (h : c.Preparable r) {stamp : Nat} {q : HttpRequest}
    (hq : c.prepared r stamp = .ok q) : r.Carries c stamp q := by
  obtain ⟨q', hq', hcarries⟩ := exists_prepared h stamp
  obtain rfl := Except.ok.inj (hq'.symm.trans hq)
  exact hcarries

/-- A workable policy does not stand in the way of a call. -/
theorem course_outgoing (h : c.Preparable r) (hworkable : r.retry.Workable) :
    Course (outgoing r c) r c (fun _ => True) WentOut where
  timeless := fun _ _ => rfl
  passing := fun _ _ _ => ⟨trivial, trivial⟩
  jam := fun _ hs hjam => absurd (hjam.symm.trans hs.1) Bool.false_ne_true
  stamping := fun _ _ => ⟨trivial, trivial⟩
  overrun := fun _ hs hout => absurd (hout.symm.trans hs.2) Bool.false_ne_true
  unfit := fun _ hunfit =>
    absurd (hunfit.symm.trans (RetryPolicy.fits_iff.mpr hworkable)) Bool.false_ne_true
  refused := fun _ hrefused => absurd hrefused (not_refused h)
  sealed := fun _ _ _ hq => ⟨_, carries_of_prepared h hq⟩
  plain := fun _ _ hq => ⟨_, carries_of_prepared h hq⟩
  answered := fun _ _ _ => Or.inl rfl
  again := fun _ _ _ _ => trivial
  cancelled := fun _ _ hcancelled => wentOut_of_cancelled hcancelled
  lost := fun hpost _ => ⟨trivial, hpost.changed, wentOut_of_cancelled⟩

/-- A policy that is not workable lets nothing out. -/
theorem deed_of_not_workable (h : ¬r.retry.Workable) : c.deed r = .halt .spanProduct := by
  unfold Call.deed execute
  rw [if_neg (mt RetryPolicy.fits_iff.mp h)]

/-- **A policy works just if its last pause is in range.**  Settings that passed their check allow
for an attempt.  If the policy is workable, then its pauses are what they should be, and a call goes
out, whatever others do with the state meanwhile and whatever comes back.  If not, then there are no
pauses, and no call ever takes its first step. -/
theorem first_attempt_sent (s : Settings) (surface : Surface) (h : s.validate = .ok ()) :
    let r := ofSettings s surface
    1 ≤ s.retry.attempts ∧
      (s.retry.Workable →
        (∃ pauses, s.retry.schedule? = some pauses ∧
          pauses.map Span.toNanos = s.retry.lengths) ∧
        ∀ c : Call, c.Preparable r → (c.deed r).Upholds (outgoing r c) WentOut .start) ∧
      (¬s.retry.Workable →
        s.retry.schedule? = none ∧ ∀ c : Call, c.deed r = .halt .spanProduct) := by
  intro r
  refine ⟨?_, fun hworkable => ⟨RetryPolicy.schedule?_of_workable hworkable, fun c hc => ?_⟩,
    fun hworkable => ⟨RetryPolicy.schedule?_of_not_workable hworkable, fun c => ?_⟩⟩
  · refine Nat.pos_of_ne_zero fun hzero => ?_
    rw [Settings.validate, if_pos hzero] at h
    split at h <;> cases h
  · exact (course_outgoing hc hworkable).upholds_execute trivial
  · exact deed_of_not_workable hworkable

/-- Settings for public data with a number of attempts, each of which waits longer by as much as a
number of milliseconds can say. -/
def eager (attempts : Nat) : Settings :=
  { Settings.readOnly .binance with
    retry := ⟨attempts, Span.ofMillis (Word.bound64 - 1) (by decide)⟩ }

/-- The longest policy with such a step that works. -/
theorem first_attempt_sent_longest :
    (eager 1001).validate = .ok () ∧ (eager 1001).retry.Workable ∧
      ∀ surface, ((⟨"GET", "/p", [], .open⟩ : Call).deed (ofSettings (eager 1001) surface)).Upholds
        (outgoing (ofSettings (eager 1001) surface) ⟨"GET", "/p", [], .open⟩) WentOut .start := by
  have hvalid : (eager 1001).validate = .ok () := rfl
  have hworkable : (eager 1001).retry.Workable := by decide
  exact ⟨hvalid, hworkable, fun surface =>
    ((first_attempt_sent (eager 1001) surface hvalid).2.1 hworkable).2 _ (Or.inl rfl)⟩

/-- One attempt more, and settings that pass their check let nothing out. -/
theorem validated_policy_unworkable :
    (eager 1002).validate = .ok () ∧ (eager 1002).retry.schedule? = none ∧
      ∀ surface, (⟨"GET", "/p", [], .open⟩ : Call).deed (ofSettings (eager 1002) surface) =
        .halt .spanProduct := by
  have hunworkable : ¬(eager 1002).retry.Workable := by decide
  exact ⟨rfl, RetryPolicy.schedule?_of_not_workable hunworkable,
    fun surface => deed_of_not_workable hunworkable⟩

end Rest
end OrderDesk
