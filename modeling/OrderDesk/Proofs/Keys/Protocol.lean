import OrderDesk.Proofs.Keys.Calls

/-!
# The protocol of the listen keys

In every run in which the host is considerate, whatever is seen is in order
(`Reached.keeps_protocol`): sockets are opened under the key that was handed out last, keys are
extended while their socket is open, and before another key is asked for, one that is to be replaced
was released.  From a call to connect that succeeded until the host thinks of leaving, the desk is
connected and its supervisor goes on, whatever fails; and once the host has gone, no key is stored,
the desk is not connected, and nothing is asked about keys.

A desk that was disposed of may still hand out keys.  A host that connects to it twice is not
considerate (`Considerate`), and may see a socket opened under the former of two keys
(`former_key_dialed`).
-/

namespace OrderDesk.Keys

variable {d : Desk} {l l' : Line}

/-! ## 1. Lines in order -/

/-- While a call is under way, the log knows of it. -/
def Heeds (d : Desk) (l : Line) : Prop :=
  ∀ c x, l.caller = some (c, x) →
    if c = .connect then (l.known d).ledger.parted = false else linked l.log = false

/-- A line in order. -/
structure Regular (d : Desk) (l : Line) : Prop where
  orderly : Orderly d .blank l.log
  heeds : Heeds d l
  staffed : Staffed d l

/-- **What is not the host's doing leaves a line in order.** -/
theorem Regular.work (h : Regular d l) (hwork : DeskStep d l l') : Regular d l' := by
  have hgoes : Proceeds d l l' → l'.caller = l.caller → Staffed d l' → Regular d l' := by
    intro hproceeds hcaller hstaffed
    refine ⟨hproceeds.orderly h.orderly, fun c x hx => ?_, hstaffed⟩
    rw [hproceeds.parted, hproceeds.linked]
    exact h.heeds c x (hcaller ▸ hx)
  cases h.staffed with
  | vacant hvacant hseeks =>
    obtain ⟨hvacant', hproceeds, hcaller, hknown, hcancelled⟩ := hvacant.work hwork
    refine hgoes hproceeds hcaller (.vacant hvacant' fun m hm => ?_)
    rw [hknown, hcancelled]
    exact hseeks m (hcaller ▸ hm)
  | manned i hmanned hcall hlinked =>
    obtain ⟨hmanned', hproceeds, hcaller⟩ := hmanned.work hwork
    refine hgoes hproceeds hcaller (.manned i hmanned' ?_ ?_)
    · rw [hcaller, hproceeds.disposed]
      exact hcall
    · rw [hcaller, hproceeds.linked]
      exact hlinked
  | leaving i c hmanned hc hcall =>
    obtain ⟨hmanned', hproceeds, hcaller⟩ := hmanned.work hwork
    exact hgoes hproceeds hcaller (.leaving i c hmanned' hc (hcaller.trans hcall))

/-! ## 2. Calls that begin and come back -/

theorem linked_concat (log : List Sight) (e : Sight) :
    linked (log ++ [e]) = link (linked log) e := by
  unfold linked
  rw [List.foldl_append]
  rfl

/-- What the host does leaves the supervisor at work. -/
theorem Manned.of_host (h : Manned d l i false) (caller : Option (HostCall × Trial Unit))
    {e : Sight} (hsame : (l.known d).ledger.note d e = (l.known d).ledger) :
    Manned d { l with caller, log := l.log ++ [e] } i false := by
  have hknown : Line.known d { l with caller, log := l.log ++ [e] } = l.known d := by
    rw [known_of_log (l := l) rfl]
    exact congrArg (Known.mk · l.state.listenKey) hsame
  obtain ⟨sup, hsession, herrand, hlog⟩ := h.serves
  refine ⟨h.current, h.retired, h.free, ⟨sup, hsession, ?_, fun hend => ?_⟩, ?_, nofun, ?_,
    h.signed⟩
  · rw [hknown]
    exact herrand
  · exact (hlog hend).imp_right (List.mem_append_left _)
  · rw [hknown]
    exact h.present
  · rw [hknown]
    exact h.disposed

/-- **A call begins.**  The host does not connect twice to a desk that it disposed of. -/
theorem Regular.call (h : Regular d l) (c : HostCall) (hcaller : l.caller = none)
    (hconsiderate : c = .connect → (l.known d).ledger.disposed = true → linked l.log = false) :
    Regular d { l with caller := some (c, c.deed d), log := l.log ++ [.called c] } where
  orderly := orderly_append.mpr ⟨h.orderly, trivial, trivial⟩
  heeds := by
    rintro _ _ ⟨⟩
    rw [known_of_log (l := l) rfl, linked_concat]
    cases c with
    | connect => rfl
    | disconnect => rfl
    | dispose => rfl
  staffed := by
    cases h.staffed with
    | vacant hvacant hseeks =>
      have hgone : l.state.cancelled = true → (l.known d).ledger.disposed = true :=
        fun hcancelled => (hvacant.settled hcancelled).resolve_right
          fun ⟨_, hdone⟩ => nomatch hcaller.symm.trans hdone
      refine .vacant (hvacant.of_log _ rfl rfl ?_ ?_ ?_ ?_) ?_
      · cases c <;> exact ⟨hvacant.unbound.socket, hvacant.unbound.paid⟩
      · rw [linked_concat, hvacant.unlinked]
        cases c <;> rfl
      · cases c with
        | connect => exact nofun
        | disconnect => exact hvacant.forgotten
        | dispose => exact hvacant.forgotten
      · cases c <;> exact fun hcancelled => Or.inl (hgone hcancelled)
      · rintro _ ⟨⟩
        exact .fresh c
    | manned i hmanned hcall hlinked =>
      refine .manned i (hmanned.of_host _ ?_) ?_ nofun
      · cases c with
        | connect =>
          -- the host has not gone, and it is no news that it is here
          show { (l.known d).ledger with parted := false } = (l.known d).ledger
          rw [← hmanned.present]
        | disconnect => rfl
        | dispose => rfl
      · rintro _ _ ⟨⟩
        refine Or.inl ⟨rfl, ?_⟩
        rintro rfl
        -- the call that started the supervisor stands
        rw [known_of_log (l := l) rfl]
        refine Bool.eq_false_iff.mpr fun hdisposed => ?_
        exact Bool.false_ne_true ((hconsiderate rfl hdisposed).symm.trans (hlinked hcaller))
    | leaving i c' hmanned hc hcall => cases hcaller.symm.trans hcall

/-- **A call comes back.** -/
theorem Regular.back (h : Regular d l) {c : HostCall} {o : Outcome Unit}
    (hcaller : l.caller = some (c, .done o)) :
    Regular d { l with caller := none, log := l.log ++ [.returned c o] } where
  orderly := orderly_append.mpr ⟨h.orderly, trivial, trivial⟩
  heeds := nofun
  staffed := by
    cases h.staffed with
    | vacant hvacant hseeks =>
      have hback := (hseeks _ hcaller).back
      refine .vacant (hvacant.of_log _ rfl rfl ?_ ?_ ?_ ?_) nofun
      · cases c <;> exact ⟨hvacant.unbound.socket, hvacant.unbound.paid⟩
      · rw [linked_concat, hvacant.unlinked]
        rcases hback with ⟨rfl, e, rfl⟩ | ⟨hc, -⟩
        · rfl
        · cases c with
          | connect => exact absurd rfl hc
          | disconnect => rfl
          | dispose => rfl
      · rcases hback with ⟨rfl, e, rfl⟩ | ⟨-, hstored⟩
        · exact hvacant.forgotten
        · exact fun _ => hstored
      · intro hcancelled
        rcases hvacant.settled hcancelled with hdisposed | ⟨o', hdone⟩
        · cases c with
          | dispose => exact Or.inl rfl
          | connect => exact Or.inl hdisposed
          | disconnect => exact Or.inl hdisposed
        · obtain ⟨rfl, -⟩ := Prod.mk.inj (Option.some.inj (hcaller.symm.trans hdone))
          exact Or.inl rfl
    | manned i hmanned hcall hlinked =>
      rcases hcall c _ hcaller with ⟨hfresh, -⟩ | ⟨rfl, hdone⟩
      · cases c <;> cases hfresh
      · cases hdone
        exact .manned i (hmanned.of_host _ rfl) nofun fun _ => linked_concat _ _
    | leaving i c' hmanned hc hcall => cases hcaller.symm.trans hcall

/-- A call halts. -/
theorem Regular.collapse (h : Regular d l) {c : HostCall} {cause : Overflow}
    (hcaller : l.caller = some (c, .halt cause)) :
    Regular d ⟨leaveLocks 0 l.state, none, l.errands, l.log ++ [.collapsed c]⟩ where
  orderly := orderly_append.mpr ⟨h.orderly, trivial, trivial⟩
  heeds := nofun
  staffed := by
    cases h.staffed with
    | vacant hvacant hseeks =>
      refine .vacant (hvacant.of_log _ rfl rfl ⟨hvacant.unbound.socket, hvacant.unbound.paid⟩
        ((linked_concat _ _).trans hvacant.unlinked) hvacant.forgotten fun hcancelled => ?_) nofun
      refine Or.inl ((hvacant.settled hcancelled).resolve_right fun ⟨_, hdone⟩ => ?_)
      cases hcaller.symm.trans hdone
    | manned i hmanned hcall hlinked =>
      rcases hcall c _ hcaller with ⟨hfresh, -⟩ | ⟨-, hdone⟩
      · cases c <;> cases hfresh
      · cases hdone
    | leaving i c' hmanned hc hcall => cases hcaller.symm.trans hcall

/-! ## 3. Runs -/

/-- **What the host does leaves a line in order.** -/
theorem Regular.host (h : Regular d l) (hstep : HostStep d l l')
    (hconsiderate : Considerate d l'.log) : Regular d l' := by
  cases hstep with
  | call c hcaller =>
    refine h.call c hcaller ?_
    rintro rfl
    exact hconsiderate l.log [] rfl
  | back hcaller => exact h.back hcaller
  | collapse hcaller => exact h.collapse hcaller
  | @move c x x' t s hcaller hmove =>
    have hheeds := h.heeds c x hcaller
    have hmoved : Orderly d (l.known d).ledger (sightsOf t) ∧
        Staffed d ⟨s, some (c, x'), l.errands, l.log ++ sightsOf t⟩ := by
      cases h.staffed with
      | vacant hvacant hseeks =>
        refine hvacant.call hcaller (hseeks _ hcaller) (fun hc => ?_) hmove
        rwa [if_pos hc] at hheeds
      | manned i hmanned hcall hlinked =>
        rcases hcall c x hcaller with ⟨rfl, hdisposed⟩ | ⟨-, rfl⟩
        · refine hmanned.call hdisposed (fun hc => ?_) hmove
          rwa [if_neg hc] at hheeds
        · cases hmove
      | leaving i c' hmanned hc hcall =>
        obtain ⟨rfl, rfl⟩ := Prod.mk.inj (Option.some.inj (hcaller.symm.trans hcall))
        exact hmanned.leave hc hmove
    obtain ⟨horderly, hstaffed⟩ := hmoved
    have hproceeds : Proceeds d l ⟨s, some (c, x'), l.errands, l.log ++ sightsOf t⟩ :=
      ⟨_, rfl, horderly, isCall_sightsOf t⟩
    refine ⟨hproceeds.orderly h.orderly, ?_, hstaffed⟩
    rintro _ _ ⟨⟩
    rw [hproceeds.parted, hproceeds.linked]
    exact hheeds

/-- Every step leaves what is in the log. -/
theorem DeskStep.log_grows (h : DeskStep d l l') : l.log <+: l'.log := by
  cases h with
  | begin => exact List.prefix_rfl
  | elsewhere => exact List.prefix_rfl
  | _ => exact List.prefix_append _ _

theorem HostStep.log_grows (h : HostStep d l l') : l.log <+: l'.log := by
  cases h with
  | collapse => exact List.prefix_append _ _
  | _ => exact List.prefix_append _ _

theorem Reached.regular (h : Reached d l) (hconsiderate : Considerate d l.log) : Regular d l := by
  induction h with
  | @start s hsessions hcurrent hkey hcancelled =>
    refine ⟨trivial, nofun, .vacant ⟨hcurrent, fun j => ?_, fun _ => rfl, ⟨rfl, rfl⟩, rfl,
      fun _ => hkey, fun hc => ?_⟩ nofun⟩
    · unfold Desk.isOver
      rw [hsessions]
      rfl
    · cases hcancelled.symm.trans hc
  | work _ hwork ih => exact (ih (hconsiderate.earlier hwork.log_grows)).work hwork
  | host _ hstep ih =>
    exact (ih (hconsiderate.earlier hstep.log_grows)).host hstep hconsiderate

/-! ## 4. The protocol -/

/-- **The protocol of the listen keys**, in every run in which the host is considerate.

* Whatever is seen is in order after what was seen before it (`Ledger.Fits`): a socket is opened
  under the key that was handed out last; a key is extended while the socket is open that was opened
  under it; a key that is to be replaced is given back before another one is asked for; and after
  the host has gone there is neither a request about keys nor a socket, until it connects again.
* From a call to connect that succeeded until the host thinks of leaving, the desk is connected, and
  its supervisor goes on, unless an errand of it halts: no failure is the end of it.  This is so
  until the host has disposed of the desk.
* After the host has gone, no key is stored and the desk is not connected. -/
theorem Reached.keeps_protocol (h : Reached d l) (hconsiderate : Considerate d l.log) :
    (∀ pre e post, l.log = pre ++ e :: post → (Ledger.ofLog d pre).Fits d e) ∧
    (linked l.log = true → (Ledger.ofLog d l.log).disposed = false → l.state.isConnected = true ∧
      ∃ i session, l.state.current = some i ∧ l.state.sessions[i]? = some session ∧
        (session.supervisor.phase = .ended → Sight.crashed i ∈ l.log)) ∧
    ((Ledger.ofLog d l.log).parted = true →
      l.state.listenKey = none ∧ l.state.isConnected = false) := by
  obtain ⟨horderly, -, hstaffed⟩ := h.regular hconsiderate
  refine ⟨fun pre e post hlog => ?_, fun hlinked hdisposed => ?_, fun hparted => ?_⟩
  · rw [hlog] at horderly
    exact horderly.fits
  · cases hstaffed with
    | vacant hvacant _ => cases hvacant.unlinked.symm.trans hlinked
    | manned i hmanned _ _ =>
      obtain ⟨sup, hsession, -, hended⟩ := hmanned.serves
      rw [hmanned.uncancelled hdisposed] at hended
      exact ⟨hmanned.isConnected hdisposed, i, _, hmanned.current, hsession,
        fun hphase => (hended hphase).resolve_left Bool.false_ne_true⟩
    | leaving i c hmanned _ _ => cases (hmanned.unlinked rfl).symm.trans hlinked
  · cases hstaffed with
    | vacant hvacant _ => exact ⟨hvacant.forgotten hparted, hvacant.isConnected⟩
    | manned i hmanned _ _ => cases hmanned.present.symm.trans hparted
    | leaving i c hmanned _ _ => cases hmanned.present.symm.trans hparted

/-! ## 5. Calls left alone -/

section Alone

open Sessions

variable {c : HostCall} {x : Trial Unit} {s : DeskState} {a : Outcome Unit}
  {answer : HttpRequest → Outcome HttpResponse}
  {asked : List (HttpRequest × Outcome HttpResponse)}

/-- What can be seen of requests. -/
def requests (asked : List (HttpRequest × Outcome HttpResponse)) : List Sight :=
  asked.map fun p => .asked p.1 p.2

/-- What can be seen of a call that is left alone. -/
def conversation (c : HostCall) (r : Passed) : List Sight :=
  .called c :: (requests r.2.1 ++ [.returned c r.1])

theorem requests_askedIn (t : Act.Trace) : requests (askedIn t) = sightsOf t := by
  cases t <;> rfl

/-- **A call that is left alone comes to its end** in some run. -/
theorem Reached.through (h : Reached d l) (hcaller : l.caller = some (c, x))
    (halone : Deed.Alone 0 x l.state a asked s) :
    Reached d ⟨s, some (c, .done a), l.errands, l.log ++ requests asked⟩ := by
  generalize hs : l.state = s₀ at halone
  induction halone generalizing l with
  | done a s =>
    subst hs
    rw [requests, List.map_nil, List.append_nil, ← hcaller]
    exact h
  | move hmove _ ih =>
    subst hs
    have hrest := ih (h.host (.move hcaller hmove)) rfl rfl
    rw [← requests_askedIn, List.append_assoc, requests, requests, ← List.map_append] at hrest
    exact hrest

/-- A call begins, is left alone, and comes back. -/
theorem Reached.served {r : Passed} (h : Reached d l) (hcaller : l.caller = none)
    (halone : alone answer 0 (c.deed d) l.state = some r) :
    Reached d ⟨r.2.2, none, l.errands, l.log ++ conversation c r⟩ := by
  have hthrough := (h.host (.call c hcaller)).through rfl (Deed.alone_of_alone? halone)
  have hdone := hthrough.host (.back rfl)
  simp only [List.append_assoc] at hdone
  exact hdone

/-- A desk with keys at its start. -/
theorem reached_start : Reached keyedDesk ⟨.start ⟨1, 100⟩ 0, none, fun _ => none, []⟩ :=
  .start rfl rfl rfl rfl

/-- A call to connect that is left alone starts a supervisor under the key that was handed out. -/
theorem connected_eq : ((alone (keyedAnswer "first") 0 (HostCall.connect.deed keyedDesk)
    (.start ⟨1, 100⟩ 0)).map fun r =>
      (r.2.2.sessions, linked (conversation .connect r),
        (Ledger.ofLog keyedDesk (conversation .connect r)).disposed)) =
    some ([⟨.start "first", false⟩], true, false) := by decide +kernel

/-- In some run the host connects, and then the socket is opened. -/
theorem keeps_protocol_opened : ∃ l pre, Reached keyedDesk l ∧ Considerate keyedDesk l.log ∧
    l.log = pre ++ [.opened (keyedDesk.accountAddress "first")] ∧
    (Ledger.ofLog keyedDesk pre).Fits keyedDesk (.opened (keyedDesk.accountAddress "first")) ∧
    linked l.log = true ∧ (Ledger.ofLog keyedDesk l.log).disposed = false ∧
    l.state.isConnected = true := by
  obtain ⟨r, halone, hkept⟩ := Option.map_eq_some_iff.mp connected_eq
  simp only [Prod.mk.injEq] at hkept
  obtain ⟨hsessions, hlinked, hdisposed⟩ := hkept
  have hsession : r.2.2.sessions[0]? = some ⟨.start "first", false⟩ := by rw [hsessions]; rfl
  have hopened := (reached_start.served rfl halone).work
    (@DeskStep.outside keyedDesk _ 0 .opened trivial)
  have hlog := congrArg (conversation .connect r ++ ·)
    (sightsAt_supervisorStep keyedDesk .opened hsession)
  have hlinked' := (congrArg linked hlog).trans ((linked_concat _ _).trans hlinked)
  have hdisposed' := (congrArg (fun log => (Ledger.ofLog keyedDesk log).disposed) hlog).trans
    ((congrArg Ledger.disposed (Ledger.ofLog_append _ _ _)).trans hdisposed)
  have hconsiderate := considerate_of_not_disposed hdisposed'
  obtain ⟨hfits, hconnected, -⟩ := hopened.keeps_protocol hconsiderate
  exact ⟨_, _, hopened, hconsiderate, hlog, hfits _ _ [] hlog, hlinked', hdisposed',
    (hconnected hlinked' hdisposed').1⟩

/-- The host disposes of a desk, and connects to it twice; every request has its answer. -/
def lateCalls : Option (Passed × Passed × Passed) :=
  (alone (keyedAnswer "none") 0 (HostCall.dispose.deed keyedDesk) (.start ⟨1, 100⟩ 0)).bind
    fun r₁ =>
      (alone (keyedAnswer "first") 0 (HostCall.connect.deed keyedDesk) r₁.2.2).bind fun r₂ =>
        (alone (keyedAnswer "second") 0 (HostCall.connect.deed keyedDesk) r₂.2.2).map
          fun r₃ => (r₁, r₂, r₃)

/-- What can be seen of these calls. -/
def lateLog (r : Passed × Passed × Passed) : List Sight :=
  conversation .dispose r.1 ++ conversation .connect r.2.1 ++ conversation .connect r.2.2

theorem lateCalls_eq : (lateCalls.map fun r =>
    (r.2.2.2.2.sessions, linked (lateLog r), r.2.2.2.2.isConnected,
      (Ledger.ofLog keyedDesk (lateLog r)).key)) =
    some ([⟨.start "first", false⟩, ⟨.start "second", false⟩], true, false, some "second") := by
  decide +kernel

/-- **Where the host connects twice to a desk that it disposed of**, both calls may succeed without
the desk being connected, and then a socket may be opened under the former of two keys.  And a key
with an ampersand is extended by a request that names another key. -/
theorem former_key_dialed :
    (∃ l l', Reached keyedDesk l ∧ linked l.log = true ∧ l.state.isConnected = false ∧
      Reached keyedDesk l' ∧ l'.log = l.log ++ [.opened (keyedDesk.accountAddress "first")] ∧
      (Ledger.ofLog keyedDesk l.log).key = some "second" ∧
      ¬ (Ledger.ofLog keyedDesk l.log).Fits keyedDesk
        (.opened (keyedDesk.accountAddress "first"))) ∧
    canonicalQuery (naming "a&b=c") = canonicalQuery (naming "a" ++ [("b", "c")]) := by
  refine ⟨?_, by decide⟩
  obtain ⟨⟨r₁, r₂, r₃⟩, hcalls, hkept⟩ := Option.map_eq_some_iff.mp lateCalls_eq
  obtain ⟨_, hfirst, hrest⟩ := Option.bind_eq_some_iff.mp hcalls
  obtain ⟨_, hsecond, hrest⟩ := Option.bind_eq_some_iff.mp hrest
  obtain ⟨_, hthird, heq⟩ := Option.map_eq_some_iff.mp hrest
  cases heq
  simp only [Prod.mk.injEq] at hkept
  obtain ⟨hsessions, hlinked, hconnected, hkey⟩ := hkept
  have hcalled := ((reached_start.served rfl hfirst).served rfl hsecond).served rfl hthird
  have hopened := hcalled.work (@DeskStep.outside keyedDesk _ 0 .opened trivial)
  have hsession : r₃.2.2.sessions[0]? = some ⟨.start "first", false⟩ := by rw [hsessions]; rfl
  have hlog := congrArg (lateLog (r₁, r₂, r₃) ++ ·)
    (sightsAt_supervisorStep keyedDesk .opened hsession)
  refine ⟨_, _, hcalled, hlinked, hconnected, hopened, hlog, hkey, ?_⟩
  rintro ⟨-, key, hlatest, haddress⟩
  obtain rfl := Option.some.inj (hkey.symm.trans hlatest)
  exact absurd haddress (by decide)

end Alone

end OrderDesk.Keys
