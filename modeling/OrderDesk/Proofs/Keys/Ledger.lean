import OrderDesk.Desk.Session
import OrderDesk.Proofs.Keeping
import OrderDesk.Proofs.Rest.Reports
import OrderDesk.Proofs.Rest.Signatures

/-!
# The ledger of the listen keys

What can be seen from outside of a desk and its account's stream is a log: the calls of the host and
their ends, the requests and what came back, sockets that are opened and closed, keys that are to be
replaced.  Whoever reads the log can keep a ledger (`Ledger`): the key that was handed out last, the
socket that is open, the key that still has to be released, whether the host has gone, and whether
it has disposed of the desk.

The ledger says which requests about keys are in order (`Ledger.Admits`):

* none is sent after the host has gone, until it connects again;
* a key is extended only while the socket is open that was opened under it;
* no key is asked for before one that is to be replaced was released.

The last rule is for keys that were to be replaced before the host disposed of the desk: after that,
a release may be given up before anything is sent.

This module has the rules, and one lemma for each procedure that has to do with keys: it keeps to
the rules, and what the ledger and the stored key are after it.
-/

namespace OrderDesk.Keys

/-! ## 1. What can be seen -/

/-- What the host asks about its session. -/
inductive HostCall where
  | connect
  | disconnect
  | dispose
deriving DecidableEq

/-- The procedure of a call. -/
def HostCall.deed (d : Desk) : HostCall → Trial Unit
  | connect => d.connect
  | disconnect => d.disconnect
  | dispose => d.dispose

/-- What can be seen of a desk.

* `called`, `returned`, `collapsed`: a call of the host begins and ends, or its procedure halts;
* `asked`: a request about the session, and what came back;
* `opened`, `refused`: an attempt to open a socket, and its address;
* `closed`: the socket is closed;
* `recycled`: key and socket are to be replaced;
* `crashed`: the procedure of a supervisor halts, which is its end. -/
inductive Sight where
  | called (c : HostCall)
  | returned (c : HostCall) (o : Outcome Unit)
  | collapsed (c : HostCall)
  | asked (q : HttpRequest) (o : Outcome HttpResponse)
  | opened (address : String)
  | refused (address : String)
  | closed
  | recycled (key : String)
  | crashed (index : Nat)

/-- What is known from the log: the key that was handed out last, the address of the open socket,
the key that is still to be released, whether the host has gone, and whether it has disposed of the
desk. -/
structure Ledger where
  key : Option String
  socket : Option String
  owed : Option String
  parted : Bool
  disposed : Bool

variable (d : Desk)

/-- The parameter that names a key. -/
def naming (key : String) : Parameters := [("listenKey", key)]

/-- The key that an answer hands out. -/
def handedOut (q : HttpRequest) (o : Outcome HttpResponse) : Option String :=
  if q.path = d.surface.listenKeyPath ∧ q.method = "POST" then
    match o with
    | .ok a =>
      match a.decode d.retry.attempts Wire.listenKey with
      | .ok key => some key
      | .error _ => none
    | .error _ => none
  else none

/-- Whether a request gives a key back. -/
def givesBack (q : HttpRequest) (key : String) : Bool :=
  q.path = d.surface.listenKeyPath && q.method = "DELETE" && q.query = canonicalQuery (naming key)

namespace Ledger

/-- A ledger with no entries. -/
def blank : Ledger := ⟨none, none, none, false, false⟩

/-- Enters what was seen. -/
def note (t : Ledger) : Sight → Ledger
  | .called .connect => { t with parted := false }
  | .returned .disconnect _ => { t with parted := true }
  | .returned .dispose _ => { t with parted := true, disposed := true }
  | .asked q o =>
    { t with
      key := (handedOut d q o).or t.key
      owed := t.owed.filter fun key => !givesBack d q key }
  | .opened address => { t with socket := some address }
  | .closed => { t with socket := none }
  | .recycled key => { t with owed := if t.disposed then none else some key }
  | .crashed _ => { t with socket := none, owed := none }
  | .called _ | .returned .connect _ | .collapsed _ | .refused _ => t

/-- The ledger of a log. -/
def ofLog (log : List Sight) : Ledger := log.foldl (note d) blank

theorem ofLog_append (log es : List Sight) :
    ofLog d (log ++ es) = es.foldl (note d) (ofLog d log) := List.foldl_append

/-- A request is in order. -/
structure Admits (t : Ledger) (q : HttpRequest) : Prop where
  present : t.parted = false
  create : q.method = "POST" → t.owed = none
  extend : q.method = "PUT" → ∃ key, q.query = canonicalQuery (naming key) ∧
    t.socket = some (d.accountAddress key)

/-- What is seen is in order. -/
def Fits (t : Ledger) : Sight → Prop
  | .asked q _ => q.path = d.surface.listenKeyPath → t.Admits d q
  | .opened address | .refused address =>
    t.parted = false ∧ ∃ key, t.key = some key ∧ address = d.accountAddress key
  | _ => True

end Ledger

/-! ## 2. The watch -/

/-- What a procedure about keys knows: the ledger, and the key that the desk has stored. -/
structure Known where
  ledger : Ledger
  stored : Option String

/-- The watch of whoever has to do with keys, on a desk that is cancelled or not.  Nobody else does,
and the others neither start nor end anything. -/
def watch (cancelled : Bool) : Watch DeskState Known where
  meets k s := s.listenKey = k.stored ∧ s.cancelled = cancelled
  answers _ _ := True
  allows s s' := s'.sessions = s.sessions ∧ s'.current = s.current ∧ s'.cancelled = s.cancelled
  changed k _ s' := { k with stored := s'.listenKey }
  heard k q o := { k with ledger := k.ledger.note d (.asked q o) }
  halfway _ := True
  passed k _ := k
  sends k q := q.path = d.surface.listenKeyPath → k.ledger.Admits d q

variable {d : Desk} {b : Bool} {k : Known} {α : Type}

/-- A step that leaves the stored key alone teaches nothing. -/
theorem of_stored {P : Known → Prop} {s s' : DeskState} (hmeets : (watch d b).meets k s)
    (h : s'.listenKey = s.listenKey) (hk : P k) : P ((watch d b).changed k s s') := by
  have hsame : (watch d b).changed k s s' = k := by
    show Known.mk k.ledger s'.listenKey = k
    rw [h, hmeets.1]
  rw [hsame]
  exact hk

/-- **A request is in order** if each attempt is, and what is known after the last answer is known
at the end.  What holds before each attempt has to survive a plea for patience. -/
theorem keeps_deed {c : Rest.Call} (before : Known → Prop)
    (post : Known → Outcome HttpResponse → Prop) (hk : before k)
    (hsends : ∀ {k stamp q}, before k → c.prepared d.toRest stamp = .ok q →
      q.path = d.surface.listenKeyPath → k.ledger.Admits d q)
    (hrefused : ∀ {k e}, before k → b = true ∨ c.LacksKey d.toRest → post k (.error e))
    (hanswered : ∀ {k stamp q o}, before k → c.prepared d.toRest stamp = .ok q →
      post ((watch d b).heard k q o) o)
    (hagain : ∀ {k stamp q a}, before k → c.prepared d.toRest stamp = .ok q →
      a.isThrottled = true → before ((watch d b).heard k q (.ok a)))
    (hlost : ∀ {k o}, post k o → b = true → post k (.error .cancelled)) :
    (c.deed d.toRest).Keeps (watch d b) post k := by
  suffices hcourse : Rest.Course (watch d b) d.toRest c before post from
    (hcourse.upholds_execute hk).keeps
  refine
    { timeless := fun _ _ => rfl, passing := ?_, jam := fun _ _ _ => trivial, stamping := ?_,
      overrun := fun _ _ _ => trivial, unfit := fun _ _ => trivial, refused := ?_, sealed := ?_,
      plain := fun hk _ hq => hsends hk hq, answered := fun hk hq _ => hanswered hk hq,
      again := fun hk hq _ hasks => hagain hk hq hasks, cancelled := ?_, lost := ?_ }
  · exact fun gate hk hs => ⟨⟨rfl, rfl, rfl⟩, of_stored hs rfl hk⟩
  · exact fun hk hs => ⟨⟨rfl, rfl, rfl⟩, of_stored hs rfl hk⟩
  · exact fun hk he => hrefused hk (Or.inr (Rest.keyless_of_prepared he).1)
  · exact fun hk hs _ hq => of_stored (P := fun k => (watch d b).sends k _) hs rfl (hsends hk hq)
  · intro k s hk hs hcancelled
    exact of_stored (P := fun k => post k _) hs rfl
      (hrefused hk (Or.inl (hs.2.symm.trans hcancelled)))
  · intro k s o hpost hs
    refine ⟨⟨rfl, rfl, rfl⟩, of_stored (P := fun k => post k o) hs rfl hpost, fun hcancelled => ?_⟩
    exact of_stored (P := fun k => post k _) hs rfl (hlost hpost (hs.2.symm.trans hcancelled))

/-! ## 3. The procedures -/

/-- What is done under the lock is as much in order as without it. -/
theorem keeps_withKey {x : Deed α} {post : Known → α → Prop} (h : x.Keeps (watch d b) post k) :
    (Deed.withKey x).Keeps (watch d b) post k := by
  refine (Act.keeps_bind _ _).mpr ⟨nofun, fun s hs _ => ⟨⟨rfl, rfl, rfl⟩, ?_⟩⟩
  refine of_stored (P := fun k => (x.bind fun a => Deed.unlockKey.bind fun _ => .done a).Keeps
    (watch d b) post k) hs rfl ((Act.keeps_bind _ _).mpr (h.mono fun k a hpost s hs => ?_))
  exact ⟨⟨rfl, rfl, rfl⟩, of_stored (P := fun k => post k a) hs rfl hpost⟩

/-- A request, and what is read of its answer. -/
theorem keeps_read {c : Rest.Call} {decode : Json → Decoded α} {post : Known → Outcome α → Prop}
    (h : (c.deed d.toRest).Keeps (watch d b)
      (fun k o => post k (o.bind fun a => a.decode d.retry.attempts decode)) k) :
    (c.read d.toRest decode).Keeps (watch d b) post k := by
  refine Act.Keeps.andThen (h.mono fun k o ho => ?_)
  cases o with
  | error e => exact ho
  | ok a => exact ho

section Answers

variable {t : Ledger} {q : HttpRequest} {o : Outcome HttpResponse} {a : HttpResponse}

/-- A request about keys. -/
def keyCall (d : Desk) (method : String) (ps : Parameters) : Rest.Call :=
  ⟨method, d.surface.listenKeyPath, ps, .key⟩

theorem query_of_prepared {method : String} {ps : Parameters} {stamp : Nat}
    (hpost : method ≠ "POST") (h : (keyCall d method ps).prepared d.toRest stamp = .ok q) :
    q.query = canonicalQuery ps := by
  have hsends := Rest.sends_of_prepared h
  have hmethod : q.method ≠ "POST" := fun heq => hpost (hsends.method.symm.trans heq)
  have hcontent := hsends.content
  cases hsigner : d.signer with
  | none =>
    rw [hsigner] at hcontent
    exact hcontent.elim
  | some signer =>
    rw [hsigner] at hcontent
    obtain ⟨-, hbears⟩ := hcontent
    unfold HttpRequest.Bears at hbears
    rw [if_neg hmethod] at hbears
    exact hbears.1

/-- Only a posted request hands out keys. -/
theorem handedOut_of_method (h : q.method ≠ "POST") : handedOut d q o = none :=
  if_neg fun hq => h hq.2

/-- A plea for patience hands out no key. -/
theorem handedOut_throttled (h : a.isThrottled = true) : handedOut d q (.ok a) = none := by
  simp [handedOut, HttpResponse.decode, h]

/-- What a request neither hands out nor gives back stands in the ledger as before. -/
theorem note_asked (hkey : handedOut d q o = none)
    (howed : ∀ key, t.owed = some key → givesBack d q key = false) : t.note d (.asked q o) = t := by
  have hsame : t.owed.filter (fun key => !givesBack d q key) = t.owed := by
    cases hkey : t.owed with
    | none => rfl
    | some key => simp [howed key hkey]
  simp only [Ledger.note, hkey, Option.none_or, hsame]

end Answers

/-- **A new key** is stored as it is handed out. -/
theorem keeps_createListenKey (hparted : k.ledger.parted = false) (howed : k.ledger.owed = none) :
    d.createListenKey.Keeps (watch d b) (fun k' o =>
      k'.ledger = { k.ledger with key := k'.ledger.key } ∧
        ∀ key, o = .ok key → k'.stored = some key ∧ k'.ledger.key = some key) k := by
  refine keeps_withKey (Act.Keeps.andThen (keeps_read (c := keyCall d "POST" [])
    ((keeps_deed (· = k) (fun k' o =>
      k'.ledger = { k.ledger with key := k'.ledger.key } ∧
        ∀ a key, o = .ok a → a.decode d.retry.attempts Wire.listenKey = .ok key →
          k'.ledger.key = some key) rfl ?_ ?_ ?_ ?_ ?_).mono ?_)))
  · rintro _ stamp q rfl hq -
    have hmethod : q.method = "POST" := (Rest.sends_of_prepared hq).method
    exact ⟨hparted, fun _ => howed, fun hput => absurd (hmethod.symm.trans hput) (by decide)⟩
  · rintro _ e rfl -
    exact ⟨rfl, nofun⟩
  · -- whatever is answered, nothing but the latest key changes
    rintro _ stamp q o rfl hq
    refine ⟨by simp [watch, Ledger.note, howed], ?_⟩
    rintro a key rfl hkey
    obtain ⟨hmethod, hpath, -⟩ := Rest.sends_of_prepared hq
    have hhanded : handedOut d q (.ok a) = some key := by
      unfold handedOut
      rw [if_pos ⟨hpath, hmethod⟩]
      simp only [hkey]
    simp [watch, Ledger.note, hhanded]
  · rintro k stamp q a rfl hq hasks
    have hnote := note_asked (d := d) (t := k.ledger) (handedOut_throttled (q := q) hasks)
      (fun key hkey => by rw [howed] at hkey; cases hkey)
    exact congrArg (Known.mk · k.stored) hnote
  · exact fun hpost _ => ⟨hpost.1, nofun⟩
  · rintro k' o ⟨hledger, hhanded⟩
    cases o with
    | error e => exact ⟨hledger, nofun⟩
    | ok a =>
      dsimp only [Except.bind]
      cases hkey : a.decode d.retry.attempts Wire.listenKey with
      | error e => exact ⟨hledger, nofun⟩
      | ok key =>
        intro s hs
        refine ⟨⟨rfl, rfl, rfl⟩, hledger, ?_⟩
        rintro _ ⟨⟩
        exact ⟨rfl, hhanded a key rfl hkey⟩

/-- A request that the ledger takes no note of. -/
theorem keeps_unnoticed {c : Rest.Call}
    (hsends : ∀ {stamp q}, c.prepared d.toRest stamp = .ok q →
      q.path = d.surface.listenKeyPath → k.ledger.Admits d q)
    (hnote : ∀ {stamp q o}, c.prepared d.toRest stamp = .ok q →
      k.ledger.note d (.asked q o) = k.ledger) :
    (c.deed d.toRest).Keeps (watch d b) (fun k' _ => k' = k) k := by
  refine keeps_deed (· = k) _ rfl ?_ ?_ ?_ ?_ ?_
  · rintro _ stamp q rfl hq
    exact hsends hq
  · exact fun hk _ => hk
  · rintro k stamp q o rfl hq
    exact congrArg (Known.mk · k.stored) (hnote hq)
  · rintro k stamp q a rfl hq -
    exact congrArg (Known.mk · k.stored) (hnote hq)
  · exact fun hpost _ => hpost

/-- **The key that is extended** is the one whose socket is open. -/
theorem keeps_extendListenKey (hparted : k.ledger.parted = false) {key : String}
    (hstored : k.stored = some key) (hsocket : k.ledger.socket = some (d.accountAddress key)) :
    d.extendListenKey.Keeps (watch d b) (fun k' _ => k' = k) k := by
  refine keeps_withKey fun s hs => ⟨⟨rfl, rfl, rfl⟩, ?_⟩
  refine of_stored (P := Act.Keeps _ _ _) hs rfl ?_
  have hkey : s.listenKey = some key := hs.1.trans hstored
  dsimp only
  rw [hkey]
  have hmethod : ∀ {stamp q}, (keyCall d "PUT" (naming key)).prepared d.toRest stamp = .ok q →
      q.method = "PUT" := fun hq => (Rest.sends_of_prepared hq).method
  refine Act.Keeps.andThen (keeps_read (c := keyCall d "PUT" (naming key))
    ((keeps_unnoticed (fun hq _ => ?_) fun hq => ?_).mono ?_))
  · exact ⟨hparted, fun hpost => absurd ((hmethod hq).symm.trans hpost) (by decide),
      fun _ => ⟨key, query_of_prepared (by decide) hq, hsocket⟩⟩
  · refine note_asked (handedOut_of_method (by rw [hmethod hq]; decide)) fun key _ => ?_
    simp [givesBack, hmethod hq]
  · rintro k' o rfl
    cases o with
    | error e => rfl
    | ok a =>
      dsimp only [Except.bind]
      split <;> rfl

/-- **A key that is released** is forgotten, and what was owed is no longer. -/
theorem keeps_releaseListenKey (hparted : k.ledger.parted = true → k.stored = none)
    (howed : k.ledger.owed = none ∨
      b = false ∧ d.signer.isSome = true ∧ k.ledger.owed = k.stored) :
    d.releaseListenKey.Keeps (watch d b)
      (fun k' _ => k'.stored = none ∧ k'.ledger = { k.ledger with owed := none }) k := by
  refine keeps_withKey fun s hs => ⟨⟨rfl, rfl, rfl⟩, ?_⟩
  dsimp only
  rw [hs.1]
  cases hstored : k.stored with
  | none =>
    have hnone : k.ledger.owed = none := howed.elim id fun h => h.2.2.trans hstored
    refine ⟨rfl, ?_⟩
    show k.ledger = { k.ledger with owed := none }
    rw [← hnone]
  | some key =>
    have hpresent : k.ledger.parted = false := by
      cases hp : k.ledger.parted with
      | false => rfl
      | true => cases (hparted hp).symm.trans hstored
    have hmethod : ∀ {stamp q}, (keyCall d "DELETE" (naming key)).prepared d.toRest stamp = .ok q →
        q.method = "DELETE" := fun hq => (Rest.sends_of_prepared hq).method
    -- the debt is paid with the first attempt
    let paid : Ledger := { k.ledger with owed := none }
    let before : Known → Prop := fun k' => k'.stored = none ∧ (k'.ledger = paid ∨
      b = false ∧ d.signer.isSome = true ∧ k'.ledger = { k.ledger with owed := some key })
    have hpaid : ∀ {k' : Known} {stamp q o}, before k' →
        (keyCall d "DELETE" (naming key)).prepared d.toRest stamp = .ok q →
        k'.ledger.note d (.asked q o) = paid := by
      intro k' stamp q o hk' hq
      have hnone : handedOut d q o = none := handedOut_of_method (by rw [hmethod hq]; decide)
      have hgives : givesBack d q key = true := by
        have hpath : q.path = d.surface.listenKeyPath := (Rest.sends_of_prepared hq).path
        simp [givesBack, hpath, hmethod hq, query_of_prepared (by decide) hq]
      rcases hk'.2 with hledger | ⟨-, -, hledger⟩
      · rw [hledger]
        exact note_asked hnone nofun
      · rw [hledger]
        simp [Ledger.note, hnone, hgives, paid]
    refine Act.Keeps.andThen (keeps_read (c := keyCall d "DELETE" (naming key))
      ((keeps_deed before (fun k' _ => k'.stored = none ∧ k'.ledger = paid)
        ⟨rfl, ?_⟩ ?_ ?_ ?_ ?_ ?_).mono ?_))
    · rcases howed with hnone | ⟨hb, hsigner, hsome⟩
      · exact Or.inl (show k.ledger = { k.ledger with owed := none } by rw [← hnone])
      · refine Or.inr ⟨hb, hsigner, ?_⟩
        show k.ledger = { k.ledger with owed := some key }
        rw [← hstored, ← hsome]
    · intro k' stamp q hk' hq _
      have hpresent' : k'.ledger.parted = false := by
        rcases hk'.2 with hledger | ⟨-, -, hledger⟩ <;> rw [hledger] <;> exact hpresent
      exact ⟨hpresent', fun hpost => absurd ((hmethod hq).symm.trans hpost) (by decide),
        fun hput => absurd ((hmethod hq).symm.trans hput) (by decide)⟩
    · rintro k' e ⟨hnone, hledger⟩ hreason
      -- a desk with keys that is not cancelled does not give up before it has sent anything
      refine ⟨hnone, hledger.resolve_right ?_⟩
      rintro ⟨hb, hsigner, -⟩
      rcases hreason with htrue | hlacks
      · exact Bool.false_ne_true (hb.symm.trans htrue)
      · rw [hlacks.2] at hsigner
        cases hsigner
    · exact fun hk' hq => ⟨hk'.1, hpaid hk' hq⟩
    · exact fun hk' hq _ => ⟨hk'.1, Or.inl (hpaid hk' hq)⟩
    · exact fun hpost _ => hpost
    · intro k' o hpost
      cases o with
      | error e => exact hpost
      | ok a =>
        dsimp only [Except.bind]
        split <;> exact hpost

/-- The clock of the exchange has nothing to do with keys. -/
theorem keeps_syncClock : d.syncClock.Keeps (watch d b) (fun k' _ => k' = k) k := by
  have hpath : d.surface.timePath ≠ d.surface.listenKeyPath := by
    cases d.surface <;> decide
  have hother : ∀ {stamp q},
      Rest.Call.prepared d.toRest ⟨"GET", d.surface.timePath, [], .open⟩ stamp = .ok q →
      q.path ≠ d.surface.listenKeyPath := by
    intro stamp q hq
    rw [(Rest.sends_of_prepared hq).path]
    exact hpath
  refine Act.Keeps.andThen (keeps_read (c := ⟨"GET", d.surface.timePath, [], .open⟩)
    ((keeps_unnoticed (fun hq hkey => absurd hkey (hother hq)) fun hq => ?_).mono ?_))
  · refine note_asked (if_neg fun h => hother hq h.1) fun key _ => ?_
    simp [givesBack, hother hq]
  · rintro k' o rfl
    cases o with
    | error e => rfl
    | ok a =>
      dsimp only [Except.bind]
      cases a.decode d.retry.attempts Wire.serverTime with
      | error e => rfl
      | ok time =>
        refine fun s hs => ⟨⟨rfl, rfl, rfl⟩, of_stored (P := Act.Keeps _ _ _) hs rfl ?_⟩
        dsimp only
        split
        · trivial
        · exact fun s hs => ⟨⟨rfl, rfl, rfl⟩, of_stored (P := (· = k')) hs rfl rfl⟩

/-- Executions have nothing to do with keys. -/
theorem keeps_fill (e : Execution) :
    (Desk.fill e).Keeps (watch d b) (fun k' _ => k' = k) k := by
  have hget : ∀ {f : DeskState → Option OrderEvent × DeskState},
      (∀ s, (f s).2.listenKey = s.listenKey ∧ (watch d b).allows s (f s).2) →
      (Act.modifyGet f).Keeps (watch d b) (fun k' _ => k' = k) k :=
    fun h s hs => ⟨(h s).2, of_stored (P := (· = k)) hs (h s).1 rfl⟩
  have hmatching : (Desk.matching e).Keeps (watch d b) (fun k' _ => k' = k) k := by
    refine hget fun s => ?_
    split <;> exact ⟨rfl, rfl, rfl, rfl⟩
  refine (Act.keeps_bind _ _).mpr ⟨nofun, fun s hs _ => ⟨⟨rfl, rfl, rfl⟩, ?_⟩⟩
  refine of_stored (P := Act.Keeps _ _ _) hs rfl ((Act.keeps_bind _ _).mpr (hmatching.mono ?_))
  rintro k' event rfl s hs
  exact ⟨⟨rfl, rfl, rfl⟩, of_stored (P := (· = k')) hs rfl rfl⟩

/-- What ends the connections of the market has nothing to do with keys. -/
theorem keeps_stop : Feed.stop.Keeps (watch d b) (fun k' _ => k' = k) k := by
  refine fun s hs => ⟨⟨rfl, rfl, rfl⟩, nofun, fun s' hs' _ => ⟨⟨rfl, rfl, rfl⟩, ?_⟩⟩
  exact of_stored (P := (· = k)) hs' rfl (of_stored (P := (· = k)) hs rfl rfl)

end OrderDesk.Keys
