import OrderDesk.Desk.Orders
import OrderDesk.Proofs.Amounts
import OrderDesk.Proofs.Keeping
import OrderDesk.Proofs.Paging
import OrderDesk.Proofs.Rest.Signatures

/-!
# Parameters, read back

The parameters of a request are written one after another with an ampersand between two of them and
an equals sign between a name and its value.  Nothing is escaped.  Whoever takes the text apart at
its ampersands, and each piece at its first equals sign, gets the same parameters back just if no
value has an ampersand in it (`Parameters.ofText_canonicalQuery_iff`); an equals sign in a value
does no harm.

What the desk writes itself has none: names, words, numbers and amounts.  Some texts come from
elsewhere, though: wire symbols from the listing, the ids of orders from the host, and the key of
the account's stream from the exchange (`Client.Cites`).  So a request tells its parameters just if
there is no ampersand in any of these (`parameters_read_back`), and this is so of every request that
leaves when an order is placed or cancelled, when a history is read, and when the key is extended or
released, with what is added to sign it.

An id with an ampersand in it turns into further parameters that are signed with the others
(`crafted_id_read_as_more`).
-/

namespace OrderDesk

/-! ## 1. Texts of parameters -/

namespace Parameters

/-- A parameter, taken apart at its first equals sign. -/
def ofPiece (piece : List Char) : String × String :=
  (String.ofList (piece.takeWhile (· ≠ '=')), String.ofList (piece.dropWhile (· ≠ '=')).tail)

/-- The parameters of a text, taken apart at its ampersands. -/
def ofText (text : String) : Parameters :=
  if text.isEmpty then [] else (text.toList.splitOn '&').map ofPiece

example : ofText "orderId=a=b&symbol=" = [("orderId", "a=b"), ("symbol", "")] := by decide

/-- Neither of the separators stands in a name. -/
def IsName (name : String) : Prop := '&' ∉ name.toList ∧ '=' ∉ name.toList

instance : DecidablePred IsName := fun _ => inferInstanceAs (Decidable (_ ∧ _))

/-- A parameter that can be told apart from its neighbours. -/
def IsApart (p : String × String) : Prop := IsName p.1 ∧ '&' ∉ p.2.toList

instance : DecidablePred IsApart := fun _ => inferInstanceAs (Decidable (_ ∧ _))

theorem ofPiece_eq {p : String × String} (h : IsName p.1) :
    ofPiece (p.1 ++ "=" ++ p.2).toList = p := by
  have hlist : (p.1 ++ "=" ++ p.2).toList = p.1.toList ++ '=' :: p.2.toList := by
    simp [String.toList_append]
  have hname : ∀ c ∈ p.1.toList, decide (c ≠ '=') = true := fun c hc =>
    decide_eq_true fun heq => h.2 (heq ▸ hc)
  rw [ofPiece, hlist, List.takeWhile_append_of_pos hname, List.dropWhile_append_of_pos hname]
  simp

/-- What stands between two separators is without them. -/
theorem notMem_of_mem_splitOn {c : Char} {cs piece : List Char} (h : piece ∈ cs.splitOn c) :
    c ∉ piece := by
  induction cs generalizing piece with
  | nil =>
    rw [List.splitOn_nil, List.mem_singleton] at h
    rw [h]
    exact List.not_mem_nil
  | cons first rest ih =>
    rw [List.splitOn_cons_eq_if_modifyHead] at h
    split at h
    · rcases List.mem_cons.mp h with rfl | hrest
      · exact List.not_mem_nil
      · exact ih hrest
    · rename_i hother
      obtain ⟨head, tail, hsplit⟩ := List.exists_cons_of_ne_nil (List.splitOn_ne_nil c rest)
      rw [hsplit, List.modifyHead_cons] at h
      rcases List.mem_cons.mp h with rfl | htail
      · have hhead : c ∉ head := ih (hsplit ▸ List.mem_cons_self)
        intro hmem
        rcases List.mem_cons.mp hmem with heq | hmem
        · exact hother (beq_iff_eq.mpr heq.symm)
        · exact hhead hmem
      · exact ih (hsplit ▸ List.mem_cons_of_mem _ htail)

/-- No value that is read has an ampersand in it. -/
theorem notMem_of_mem_ofText {text : String} {p : String × String} (h : p ∈ ofText text) :
    '&' ∉ p.2.toList := by
  unfold ofText at h
  split at h
  · cases h
  · obtain ⟨piece, hpiece, rfl⟩ := List.mem_map.mp h
    rw [ofPiece, String.toList_ofList]
    intro hmem
    exact notMem_of_mem_splitOn hpiece
      (((List.tail_sublist _).trans (List.dropWhile_sublist _)).mem hmem)

/-- Parameters that can be told apart are read back. -/
theorem ofText_canonicalQuery {ps : Parameters} (h : ∀ p ∈ ps, IsApart p) :
    ofText (canonicalQuery ps) = ps := by
  cases ps with
  | nil => rfl
  | cons first rest =>
    have hpieces := Signer.splitOn_canonicalQuery (List.cons_ne_nil first rest) fun p hp =>
      ⟨(h p hp).1.1, (h p hp).2⟩
    have hsome : (canonicalQuery (first :: rest)).isEmpty = false := by
      cases hempty : (canonicalQuery (first :: rest)).isEmpty with
      | false => rfl
      | true =>
        rw [String.isEmpty_iff.mp hempty] at hpieces
        have hlength := congrArg (List.map List.length) hpieces
        simp [String.toList_append] at hlength
    rw [ofText, hsome, hpieces, List.map_map]
    exact (List.map_congr_left fun p hp => ofPiece_eq (h p hp).1).trans (List.map_id _)

/-- **Parameters are read back just if no value has an ampersand in it.** -/
theorem ofText_canonicalQuery_iff {ps : Parameters} (hnames : ∀ p ∈ ps, IsName p.1) :
    ofText (canonicalQuery ps) = ps ↔ ∀ p ∈ ps, '&' ∉ p.2.toList := by
  constructor
  · intro h p hp
    rw [← h] at hp
    exact notMem_of_mem_ofText hp
  · exact fun h => ofText_canonicalQuery fun p hp => ⟨hnames p hp, h p hp⟩

/-! ## 2. Texts from elsewhere -/

/-- Parameters that cite texts from elsewhere: all else in them can be told apart. -/
structure Cite (ps : Parameters) (texts : List String) : Prop where
  names : ∀ p ∈ ps, IsName p.1
  others : ∀ p ∈ ps, p.2 ∈ texts ∨ '&' ∉ p.2.toList
  cited : ∀ t ∈ texts, ∃ p ∈ ps, p.2 = t

theorem Cite.notMem_iff {ps : Parameters} {texts : List String} (h : ps.Cite texts) :
    (∀ p ∈ ps, '&' ∉ p.2.toList) ↔ ∀ t ∈ texts, '&' ∉ t.toList := by
  constructor
  · intro hps t ht
    obtain ⟨p, hp, rfl⟩ := h.cited t ht
    exact hps p hp
  · exact fun htexts p hp => (h.others p hp).elim (htexts _) id

/-- A parameter that cites a text, among others. -/
theorem Cite.cons {ps : Parameters} {texts : List String} (h : ps.Cite texts) {name : String}
    (hname : IsName name) (text : String) : Cite ((name, text) :: ps) (text :: texts) where
  names := List.forall_mem_cons.mpr ⟨hname, h.names⟩
  others := List.forall_mem_cons.mpr ⟨Or.inl List.mem_cons_self,
    fun p hp => (h.others p hp).imp_left (List.mem_cons_of_mem _)⟩
  cited := List.forall_mem_cons.mpr ⟨⟨_, List.mem_cons_self, rfl⟩, fun t ht =>
    (h.cited t ht).imp fun _ hp => ⟨List.mem_cons_of_mem _ hp.1, hp.2⟩⟩

/-- Parameters that cite nothing. -/
theorem cite_nil {ps : Parameters} (h : ∀ p ∈ ps, IsApart p) : ps.Cite [] where
  names p hp := (h p hp).1
  others p hp := Or.inr (h p hp).2
  cited := List.forall_mem_nil _

end Parameters

open Parameters (IsName IsApart)

theorem Parameters.isApart_ofInt {name : String} (hname : IsName name) (n : Int) :
    IsApart (name, Text.ofInt n) :=
  ⟨hname, Text.notMem_ofInt (by decide) (by decide) n⟩

theorem Parameters.isApart_ofNat {name : String} (hname : IsName name) (n : Nat) :
    IsApart (name, Text.ofNat n) :=
  ⟨hname, by rw [Text.toList_ofNat]; exact Text.notMem_natDigits (by decide) n⟩

/-- Nothing but digits, a sign and a point stands in plain notation. -/
theorem Decimal.PlainNotation.notMem {text : String} {c : Char} (h : PlainNotation text)
    (hdigit : Text.digit? c = none) (hminus : c ≠ '-') (hpoint : c ≠ '.') : c ∉ text.toList := by
  obtain ⟨sign, whole, places, htext, hsign, ⟨-, hwhole⟩, hplaces⟩ := h
  have hdigits : ∀ {cs : List Char}, (∀ d ∈ cs, (Text.digit? d).isSome = true) → c ∉ cs := by
    intro cs hcs hmem
    have hsome := hcs c hmem
    rw [hdigit] at hsome
    cases hsome
  rw [htext]
  intro hmem
  rcases List.mem_append.mp hmem with hmem | hmem
  · rcases List.mem_append.mp hmem with hmem | hmem
    · rcases hsign with rfl | rfl
      · cases hmem
      · exact hminus (List.mem_singleton.mp hmem)
    · exact hdigits hwhole hmem
  · rcases hplaces with rfl | ⟨digits, rfl, -, hall⟩
    · cases hmem
    · rcases List.mem_cons.mp hmem with heq | hmem
      · exact hpoint heq
      · exact hdigits hall hmem

theorem Parameters.isApart_amountText {name : String} (hname : IsName name) (d : Decimal) :
    IsApart (name, OrderRequest.amountText d) :=
  ⟨hname, (Decimal.plainNotation_toText _).notMem (by decide) (by decide) (by decide)⟩

namespace OrderRequest

variable {s : Surface} {o : Order} {symbol : String} {reference : Option Decimal}

theorem isApart_stopParameters (s : Surface) (stop : Decimal) :
    ∀ p ∈ stopParameters s stop, IsApart p := by
  unfold stopParameters
  split
  · exact List.forall_mem_cons.mpr ⟨by decide,
      List.forall_mem_singleton.mpr (Parameters.isApart_amountText (by decide) stop)⟩
  · exact List.forall_mem_singleton.mpr (Parameters.isApart_amountText (by decide) stop)

/-- The desk's own words can be told apart. -/
theorem isApart_wireName (t : TimeInForce) : IsApart ("timeInForce", t.wireName) := by
  cases t <;> decide

theorem isApart_limitType (f : StopFamily) (s : Surface) : IsApart ("type", f.limitType s) := by
  unfold StopFamily.limitType
  cases f <;> cases s.isFutures <;> decide

theorem isApart_kindParameters {own : Parameters} (h : kindParameters s o reference = .ok own) :
    ∀ p ∈ own, IsApart p := by
  have hprice : ∀ price, IsApart ("price", amountText price) :=
    Parameters.isApart_amountText (by decide)
  unfold kindParameters at h
  split at h
  · cases h
    exact List.forall_mem_singleton.mpr (by decide)
  · split at h
    · cases h
      exact List.forall_mem_cons.mpr ⟨by decide, List.forall_mem_singleton.mpr (hprice _)⟩
    · cases h
      refine List.forall_mem_cons.mpr ⟨by decide, List.forall_mem_cons.mpr ⟨?_,
        List.forall_mem_singleton.mpr (hprice _)⟩⟩
      split
      · decide
      · exact isApart_wireName _
  · split at h
    · cases h
    · cases husable : usableReference reference with
      | error e =>
        rw [husable] at h
        cases h
      | ok anchor =>
        rw [husable] at h
        cases h
        exact List.forall_mem_cons.mpr ⟨isApart_limitType _ _, List.forall_mem_cons.mpr
          ⟨isApart_wireName _, List.forall_mem_cons.mpr
            ⟨hprice _, isApart_stopParameters _ _⟩⟩⟩
  · split at h
    · cases husable : usableReference reference with
      | error e =>
        rw [husable] at h
        cases h
      | ok anchor =>
        rw [husable] at h
        cases h
        refine List.forall_mem_cons.mpr ⟨?_, isApart_stopParameters _ _⟩
        cases StopFamily.classify o.direction _ anchor <;> decide
    · cases h

/-- **A request for an order cites its symbol and nothing else.** -/
theorem cite_build {request : OrderRequest} (h : build s o symbol reference = .ok request) :
    request.parameters.Cite [symbol] := by
  unfold build at h
  cases hown : kindParameters s o reference with
  | error e =>
    rw [hown] at h
    cases h
  | ok own =>
    rw [hown] at h
    cases h
    have hmargin : ∀ p ∈ marginParameters s, IsApart p := by
      unfold marginParameters
      split
      · decide
      · exact List.forall_mem_nil _
    have hside : IsApart ("side", o.direction.wireName) := by
      cases o.direction <;> decide
    refine (Parameters.cite_nil ?_).cons (by decide) symbol
    exact List.forall_mem_cons.mpr ⟨Parameters.isApart_amountText (by decide) _,
      List.forall_mem_cons.mpr ⟨hside,
        List.forall_mem_append.mpr ⟨isApart_kindParameters hown, hmargin⟩⟩⟩

end OrderRequest

/-- The calls that cite texts from elsewhere, with these texts. -/
inductive Client.Cites (c : Client) : Rest.Call → (texts : List String) → Prop
  | price (symbol : String) :
      Cites c ⟨"GET", c.surface.pricePath, [("symbol", symbol)], .open⟩ [symbol]
  | order {o : Order} {symbol : String} {reference : Option Decimal} {request : OrderRequest} :
      OrderRequest.build c.surface o symbol reference = .ok request →
      Cites c ⟨"POST", request.path, request.parameters, .signed⟩ [symbol]
  | cancel (symbol brokerId : String) :
      Cites c ⟨"DELETE", c.surface.orderPath, [("symbol", symbol), ("orderId", brokerId)], .signed⟩
        [symbol, brokerId]
  | cancelApart {path : String} (brokerId : String) : c.surface.algoOrderPath? = some path →
      Cites c ⟨"DELETE", path, [("algoId", brokerId)], .signed⟩ [brokerId]
  | bars {r : Resolution} {interval : String} (symbol : String) (start finish : Int)
      (limit : Nat) : r.interval? = some interval →
      Cites c ⟨"GET", c.surface.barsPath, [("symbol", symbol), ("interval", interval),
        ("startTime", Text.ofInt start), ("endTime", Text.ofInt finish),
        ("limit", Text.ofNat limit)], .open⟩ [symbol]
  | extend (key : String) :
      Cites c ⟨"PUT", c.surface.listenKeyPath, [("listenKey", key)], .key⟩ [key]
  | release (key : String) :
      Cites c ⟨"DELETE", c.surface.listenKeyPath, [("listenKey", key)], .key⟩ [key]

/-- **Such a call cites these texts and nothing else.** -/
theorem Client.Cites.cite {c : Client} {call : Rest.Call} {texts : List String}
    (h : c.Cites call texts) : call.parameters.Cite texts := by
  have hnone : Parameters.Cite [] [] := Parameters.cite_nil (List.forall_mem_nil _)
  cases h with
  | price symbol => exact hnone.cons (by decide) symbol
  | order hbuild => exact OrderRequest.cite_build hbuild
  | cancel symbol brokerId => exact (hnone.cons (by decide) brokerId).cons (by decide) symbol
  | cancelApart brokerId _ => exact hnone.cons (by decide) brokerId
  | @bars r interval symbol start finish limit hinterval =>
    have hword : IsApart ("interval", interval) := by
      cases r <;> cases hinterval <;> decide
    refine (Parameters.cite_nil ?_).cons (by decide) symbol
    exact List.forall_mem_cons.mpr ⟨hword, List.forall_mem_cons.mpr
      ⟨Parameters.isApart_ofInt (by decide) start, List.forall_mem_cons.mpr
        ⟨Parameters.isApart_ofInt (by decide) finish, List.forall_mem_singleton.mpr
          (Parameters.isApart_ofNat (by decide) limit)⟩⟩⟩
  | extend key | release key => exact hnone.cons (by decide) key

/-! ## 3. Requests as they leave -/

namespace HttpRequest

/-- The text of the parameters, wherever it stands. -/
def carried (q : HttpRequest) : String := if q.method = "POST" then q.body.getD "" else q.query

/-- The names of what is added to sign a request. -/
def sealNames : List String := ["recvWindow", "timestamp", "signature"]

/-- A request tells these parameters: they are read off it, with nothing behind them but what is
added to sign it. -/
def Tells (q : HttpRequest) (ps : Parameters) : Prop :=
  ∃ added, Parameters.ofText q.carried = ps ++ added ∧ ∀ p ∈ added, p.1 ∈ sealNames

theorem Bears.carried_eq {q : HttpRequest} {text : String} (h : q.Bears text) :
    q.carried = text := by
  unfold Bears at h
  unfold carried
  split at h
  · rename_i hpost
    rw [if_pos hpost, h.2]
    split
    · rename_i hempty
      exact (String.isEmpty_iff.mp hempty).symm
    · rfl
  · rename_i hother
    rw [if_neg hother, h.1]

end HttpRequest

/-- What is added to sign a request can be told apart. -/
theorem Signer.isApart_sealing (s : Signer) (ps : Parameters) (stamp : Nat) (bytes : List UInt8) :
    ∃ added, s.covered ps stamp ++ [("signature", Digest.hex bytes)] = ps ++ added ∧
      ∀ p ∈ added, IsApart p ∧ p.1 ∈ HttpRequest.sealNames := by
  have hwindow : "recvWindow" ∈ HttpRequest.sealNames := by decide
  have hstamp : "timestamp" ∈ HttpRequest.sealNames := by decide
  have hhash : "signature" ∈ HttpRequest.sealNames := by decide
  have hname : IsName "signature" := by decide
  refine ⟨_, by rw [covered, List.append_assoc, List.append_assoc], ?_⟩
  refine List.forall_mem_append.mpr ⟨?_, List.forall_mem_cons.mpr
    ⟨⟨Parameters.isApart_ofNat (by decide) stamp, hstamp⟩,
      List.forall_mem_singleton.mpr ⟨⟨hname, notMem_hex (by decide) bytes⟩, hhash⟩⟩⟩
  cases s.receiveWindow with
  | none => exact List.forall_mem_nil _
  | some window =>
    exact List.forall_mem_singleton.mpr ⟨Parameters.isApart_ofNat (by decide) window, hwindow⟩

namespace Rest

variable {r : Rest} {call : Call} {stamp : Nat} {q : HttpRequest} {texts : List String}

/-- **A request carries the parameters of its call**, and what is added to sign it. -/
theorem Sends.exists_carried (h : r.Sends call stamp q) :
    ∃ added, q.carried = canonicalQuery (call.parameters ++ added) ∧
      ∀ p ∈ added, IsApart p ∧ p.1 ∈ HttpRequest.sealNames := by
  have hplain : q.Bears (canonicalQuery call.parameters) → ∃ added,
      q.carried = canonicalQuery (call.parameters ++ added) ∧
        ∀ p ∈ added, IsApart p ∧ p.1 ∈ HttpRequest.sealNames := fun hbears =>
    ⟨[], by rw [hbears.carried_eq, List.append_nil], List.forall_mem_nil _⟩
  have hcontent := h.content
  cases haccess : call.access with
  | «open» =>
    rw [haccess] at hcontent
    exact hplain hcontent.2
  | key =>
    rw [haccess] at hcontent
    cases hsigner : r.signer with
    | none =>
      rw [hsigner] at hcontent
      exact hcontent.elim
    | some s =>
      rw [hsigner] at hcontent
      exact hplain hcontent.2
  | signed =>
    rw [haccess] at hcontent
    cases hsigner : r.signer with
    | none =>
      rw [hsigner] at hcontent
      exact hcontent.elim
    | some s =>
      rw [hsigner] at hcontent
      have hcovers := hcontent.2
      obtain ⟨added, hadded, hapart⟩ := s.isApart_sealing call.parameters stamp
        (Digest.hmac s.secret.toUTF8.toList
          (canonicalQuery (s.covered call.parameters stamp)).toUTF8.toList)
      refine ⟨added, ?_, hapart⟩
      rw [← hadded, Signer.canonicalQuery_snoc (s.covered_ne_nil _ _), String.append_assoc]
      unfold HttpRequest.carried
      by_cases hpost : q.method = "POST"
      · rw [if_pos hpost, (hcovers.posted hpost).2, String.append_assoc]
        rfl
      · rw [if_neg hpost, (hcovers.queried hpost).2, String.append_assoc]
        rfl

/-- **A request tells the parameters of its call just if no text that it cites has an ampersand in
it.** -/
theorem Sends.tells_iff (h : r.Sends call stamp q) (hcite : call.parameters.Cite texts) :
    q.Tells call.parameters ↔ ∀ t ∈ texts, '&' ∉ t.toList := by
  rw [← hcite.notMem_iff]
  constructor
  · rintro ⟨added, hread, -⟩ p hp
    have hmem : p ∈ Parameters.ofText q.carried := by
      rw [hread]
      exact List.mem_append_left _ hp
    exact Parameters.notMem_of_mem_ofText hmem
  · intro hfree
    obtain ⟨added, hcarried, hadded⟩ := h.exists_carried
    refine ⟨added, ?_, fun p hp => (hadded p hp).2⟩
    rw [hcarried]
    refine Parameters.ofText_canonicalQuery (List.forall_mem_append.mpr ⟨fun p hp => ?_,
      fun p hp => (hadded p hp).1⟩)
    exact ⟨hcite.names p hp, hfree p hp⟩

end Rest

/-! ## 4. What is asked -/

/-- The watch that looks at the requests and at nothing else. -/
def asking (P : HttpRequest → Prop) : Watch DeskState Unit where
  meets _ _ := True
  answers _ _ := True
  allows _ _ := True
  changed k _ _ := k
  heard k _ _ := k
  halfway _ := True
  passed k _ := k
  sends _ q := P q

/-- Whatever happens, all requests of a procedure are like this. -/
def Act.Asks {α : Type} (P : HttpRequest → Prop) (x : Deed α) : Prop :=
  x.Keeps (asking P) (fun _ _ => True) ()

section Asking

variable {P : HttpRequest → Prop} {α β κ : Type}

theorem Act.Asks.bind {x : Deed α} {f : α → Deed β} (hx : x.Asks P) (hf : ∀ a, (f a).Asks P) :
    (x.bind f).Asks P :=
  (Act.keeps_bind _ _).mpr (hx.mono fun _ a _ => hf a)

theorem Act.Asks.andThen {x : Trial α} {f : α → Trial β} (hx : x.Asks P)
    (hf : ∀ a, (f a).Asks P) : (x.andThen f).Asks P := by
  refine Asks.bind hx fun o => ?_
  cases o with
  | ok a => exact hf a
  | error e => exact trivial

/-- Who keeps to a watch that everybody meets asks what may be sent. -/
theorem Act.Keeps.asks {W : Watch DeskState κ} (hmeets : ∀ k s, W.meets k s)
    (hanswers : ∀ q o, W.answers q o) (hsends : ∀ k q, W.sends k q → P q)
    {post : κ → α → Prop} {x : Deed α} {k : κ} (h : x.Keeps W post k) : x.Asks P := by
  induction x generalizing k with
  | done a => exact trivial
  | halt cause => exact trivial
  | access set next ih => exact fun s _ => ⟨trivial, ih s (h s (hmeets k s)).2⟩
  | ask q next ih => exact ⟨hsends k q h.1, fun o _ => ih o (h.2 o (hanswers q o))⟩
  | wait limit goal set next ih =>
    exact ⟨fun nanos hlimit => ih false (h.1 nanos hlimit),
      fun s _ hgoal => ⟨trivial, ih true (h.2 s (hmeets k s) hgoal).2⟩⟩
  | choose ways next ih => exact fun i hi => ih i (h i hi)

/-- The requests of a call. -/
theorem Rest.asks_deed {r : Rest} {call : Rest.Call} (h : ∀ stamp q, r.Sends call stamp q → P q) :
    (call.deed r).Asks P :=
  (Rest.upholds_sending r call ⟨0, false, false⟩).keeps.asks (fun _ _ => trivial)
    (fun _ _ => trivial) fun k q => h k.last q

theorem Rest.asks_request {r : Rest} {method path : String} {ps : Parameters} {access : Access}
    {decode : Json → Decoded α}
    (h : ∀ stamp q, r.Sends ⟨method, path, ps, access⟩ stamp q → P q) :
    (r.request method path ps access decode).Asks P :=
  Act.Asks.andThen (Rest.asks_deed h) fun _ => trivial

theorem Client.asks_submit {c : Client} {method path : String} {ps : Parameters}
    (h : ∀ stamp q, c.toRest.Sends ⟨method, path, ps, .signed⟩ stamp q → P q) :
    (c.submit method path ps).Asks P :=
  Act.Asks.andThen (Rest.asks_deed h) fun _ => trivial

/-- Locks are no requests. -/
theorem asks_withOrders {x : Deed α} (h : x.Asks P) : (Deed.withOrders x).Asks P :=
  Act.Asks.bind ⟨nofun, fun _ _ _ => ⟨trivial, trivial⟩⟩ fun _ =>
    h.bind fun _ _ _ => ⟨trivial, trivial⟩

theorem asks_withKey {x : Deed α} (h : x.Asks P) : (Deed.withKey x).Asks P :=
  Act.Asks.bind ⟨nofun, fun _ _ _ => ⟨trivial, trivial⟩⟩ fun _ =>
    h.bind fun _ _ _ => ⟨trivial, trivial⟩

end Asking

namespace Client

/-- A request of a client that cites texts of this origin, and tells its parameters just if there
is no ampersand in them. -/
def Quotes (c : Client) (origin : String → Prop) (q : HttpRequest) : Prop :=
  ∃ call texts stamp, c.Cites call texts ∧ (∀ t ∈ texts, origin t) ∧
    c.toRest.Sends call stamp q ∧ (q.Tells call.parameters ↔ ∀ t ∈ texts, '&' ∉ t.toList)

variable {c : Client} {call : Rest.Call} {texts : List String} {origin : String → Prop}

theorem Cites.quotes (h : c.Cites call texts) (horigin : ∀ t ∈ texts, origin t) (stamp : Nat)
    (q : HttpRequest) (hsends : c.toRest.Sends call stamp q) : c.Quotes origin q :=
  ⟨call, texts, stamp, h, horigin, hsends, hsends.tells_iff h.cite⟩

theorem asks_price {symbol : String} (h : origin symbol) :
    (c.price symbol).Asks (c.Quotes origin) := by
  refine Act.Asks.andThen (Rest.asks_request
    ((Cites.price symbol).quotes (List.forall_mem_singleton.mpr h))) fun j => ?_
  split <;> exact trivial

theorem asks_placeOrder (c : Client) (o : Order) (known : Option Decimal)
    (horigin : ∀ t, c.listing.wireSymbol o.instrument = .ok t → origin t) :
    (c.placeOrder o known).Asks (c.Quotes origin) := by
  unfold placeOrder
  cases hsymbol : c.listing.wireSymbol o.instrument with
  | error e => exact trivial
  | ok symbol =>
    have hown := horigin symbol hsymbol
    rw [Act.ofOutcome_ok_andThen]
    refine Act.Asks.andThen ?_ fun reference => ?_
    · unfold reference
      split
      · split
        · exact trivial
        · exact Act.Asks.andThen (asks_price hown) fun _ => trivial
      · exact trivial
    · cases hbuild : OrderRequest.build c.surface o symbol reference with
      | error e => exact trivial
      | ok request =>
        rw [Act.ofOutcome_ok_andThen]
        refine Act.Asks.andThen (asks_submit
          ((Cites.order hbuild).quotes (List.forall_mem_singleton.mpr hown))) fun v => ?_
        cases v with
        | rejected cause => exact fun _ _ => ⟨trivial, trivial⟩
        | accepted body =>
          dsimp only
          cases acknowledged body with
          | error e => exact trivial
          | ok placed => exact fun _ _ => ⟨trivial, trivial⟩

theorem asks_cancelOrder (c : Client) (o : Order)
    (horigin : ∀ t, c.listing.wireSymbol o.instrument = .ok t ∨ o.brokerIds.head? = some t →
      origin t) : (c.cancelOrder o).Asks (c.Quotes origin) := by
  have hcites : ∀ target, c.cancellation o = .ok target → ∃ texts,
      c.Cites ⟨"DELETE", target.1, target.2, .signed⟩ texts ∧ ∀ t ∈ texts, origin t := by
    intro target htarget
    unfold cancellation at htarget
    split at htarget
    · cases htarget
    · rename_i brokerId rest hids
      have hid : origin brokerId := horigin brokerId (Or.inr (by rw [hids]; rfl))
      split at htarget
      · rename_i path stop hpath hstop
        cases htarget
        exact ⟨_, .cancelApart brokerId hpath, List.forall_mem_singleton.mpr hid⟩
      · cases hsymbol : c.listing.wireSymbol o.instrument with
        | error e =>
          rw [hsymbol] at htarget
          cases htarget
        | ok symbol =>
          rw [hsymbol] at htarget
          cases htarget
          exact ⟨_, .cancel symbol brokerId, List.forall_mem_cons.mpr
            ⟨horigin symbol (Or.inl hsymbol), List.forall_mem_singleton.mpr hid⟩⟩
  unfold cancelOrder
  cases htarget : c.cancellation o with
  | error e => exact trivial
  | ok target =>
    obtain ⟨texts, hcited, htexts⟩ := hcites target htarget
    rw [Act.ofOutcome_ok_andThen]
    refine Act.Asks.andThen (asks_submit (hcited.quotes htexts)) fun v => ?_
    cases v <;> exact fun _ _ => ⟨trivial, trivial⟩

/-- The pages of a history.  The induction is on the number of pages that may still be read. -/
theorem asks_readPages (c : Client) (wanted : Option Nat) {resolution : Resolution} {fuel : Nat}
    {h : HistoryCursor} (hinterval : resolution.interval? = some h.interval)
    (horigin : origin h.symbol) (bars : List Bar) :
    (c.readPages wanted fuel h bars).Asks (c.Quotes origin) := by
  induction fuel generalizing h bars with
  | zero => exact trivial
  | succ fuel ih =>
    unfold readPages
    split
    · exact trivial
    split
    · exact trivial
    refine Act.Asks.bind (Rest.asks_request ((Cites.bars h.symbol h.cursor h.finish h.limit
      hinterval).quotes (List.forall_mem_singleton.mpr horigin))) fun answer => ?_
    cases answer with
    | error cause => exact trivial
    | ok rows =>
      dsimp only
      cases hpage : h.page rows with
      | last | outOfRange => exact trivial
      | more new next =>
        obtain ⟨cursor, rfl, -⟩ := HistoryCursor.page_eq_more hpage
        have hnext : ∀ bars, (c.readPages wanted fuel { h with cursor } bars).Asks
            (c.Quotes origin) := ih (h := { h with cursor }) hinterval horigin
        dsimp only
        split
        · split
          · exact trivial
          · exact hnext _
        · exact hnext _

theorem asks_history (c : Client) (r : HistoryRequest) (wanted : Option Nat)
    (horigin : ∀ t, c.listing.wireSymbol r.instrument = .ok t → origin t) :
    (c.history r wanted).Asks (c.Quotes origin) := by
  unfold history
  cases hcursor : HistoryCursor.ofRequest c.listing r with
  | error e => exact trivial
  | ok h =>
    rw [Act.ofOutcome_ok_andThen]
    refine Act.Asks.bind ?_ fun _ => trivial
    unfold HistoryCursor.ofRequest at hcursor
    split at hcursor
    · cases hcursor
    split at hcursor
    · cases hcursor
    split at hcursor
    · cases hcursor
    · rename_i interval hinterval
      cases hsymbol : c.listing.wireSymbol r.instrument with
      | error e =>
        rw [hsymbol] at hcursor
        cases hcursor
      | ok symbol =>
        rw [hsymbol] at hcursor
        cases hcursor
        exact asks_readPages c wanted hinterval (horigin symbol hsymbol) []

theorem asks_extendListenKey (c : Client) : c.extendListenKey.Asks (c.Quotes fun _ => True) := by
  refine asks_withKey fun s _ => ⟨trivial, ?_⟩
  dsimp only
  split
  · exact trivial
  · rename_i key _
    exact Act.Asks.andThen (Rest.asks_request ((Cites.extend key).quotes fun _ _ => trivial))
      fun _ => trivial

theorem asks_releaseListenKey (c : Client) : c.releaseListenKey.Asks (c.Quotes fun _ => True) := by
  refine asks_withKey fun s _ => ⟨trivial, ?_⟩
  dsimp only
  split
  · exact trivial
  · rename_i key _
    exact Act.Asks.andThen (Rest.asks_request ((Cites.release key).quotes fun _ _ => trivial))
      fun _ => trivial

end Client

/-! ## 5. The calls of the host -/

namespace Desk

theorem asks_place (d : Desk) (o : Order) : (d.place o).Asks (d.toClient.Quotes fun t =>
    d.listing.wireSymbol o.instrument = .ok t) := by
  refine asks_withOrders fun s _ => ⟨trivial, ?_⟩
  refine Act.Asks.andThen (d.toClient.asks_placeOrder o _ fun _ => id) fun brokerId => ?_
  cases brokerId with
  | none => exact trivial
  | some brokerId => exact fun _ _ => ⟨trivial, trivial⟩

theorem asks_cancel (d : Desk) (o : Order) : (d.cancel o).Asks (d.toClient.Quotes fun t =>
    d.listing.wireSymbol o.instrument = .ok t ∨ o.brokerIds.head? = some t) := by
  refine asks_withOrders (Act.Asks.andThen (d.toClient.asks_cancelOrder o fun _ => id) ?_)
  intro agreed
  cases agreed with
  | false => exact trivial
  | true => exact fun _ _ => ⟨trivial, trivial⟩

theorem asks_history (d : Desk) (r : HistoryRequest) (wanted : Option Nat) :
    (d.history r wanted).Asks (d.toClient.Quotes fun t =>
      d.listing.wireSymbol r.instrument = .ok t) := by
  refine Act.Asks.bind (d.toClient.asks_history r wanted fun _ => id) fun outcome => ?_
  split
  · exact fun _ _ => ⟨trivial, trivial⟩
  · exact trivial

/-- **Parameters are read back just if no text from elsewhere has an ampersand in it**: the symbol,
the id of the order, the key of the stream.  This is so of every call that cites such texts, and of
every request that leaves when an order is placed or cancelled, when a history is read, and when the
key is extended or released, whatever comes back and whatever others do meanwhile. -/
theorem parameters_read_back (d : Desk) :
    (∀ call texts, d.toClient.Cites call texts →
      (Parameters.ofText (canonicalQuery call.parameters) = call.parameters ↔
        ∀ t ∈ texts, '&' ∉ t.toList)) ∧
    (∀ o, (d.place o).Asks (d.toClient.Quotes fun t =>
      d.listing.wireSymbol o.instrument = .ok t)) ∧
    (∀ o, (d.cancel o).Asks (d.toClient.Quotes fun t =>
      d.listing.wireSymbol o.instrument = .ok t ∨ o.brokerIds.head? = some t)) ∧
    (∀ r wanted, (d.history r wanted).Asks (d.toClient.Quotes fun t =>
      d.listing.wireSymbol r.instrument = .ok t)) ∧
    d.extendListenKey.Asks (d.toClient.Quotes fun _ => True) ∧
    d.releaseListenKey.Asks (d.toClient.Quotes fun _ => True) := by
  refine ⟨fun call texts hcites => ?_, d.asks_place, d.asks_cancel, d.asks_history,
    d.asks_extendListenKey, d.asks_releaseListenKey⟩
  rw [Parameters.ofText_canonicalQuery_iff hcites.cite.names, hcites.cite.notMem_iff]

end Desk

namespace Client

/-- A client on the spot market, where one symbol is listed. -/
def etherClient : Client :=
  ⟨⟨"binance-spot", some ⟨"key", "secret", none⟩, .standard⟩,
    ⟨.spot, .empty, ⟨[("ETHUSDT", "ETHUSDT")]⟩⟩⟩

/-- An order whose id goes on after an ampersand. -/
def craftedOrder : Order :=
  { Order.atMarket 7 ⟨"ETHUSDT", .crypto, "binance"⟩ .buy .zero .epoch with
    brokerIds := ["42&symbol=BTCUSDT"] }

/-- An id is read as a shorter one and a further parameter. -/
theorem crafted_id_read_as_more :
    ∃ path ps, etherClient.cancellation craftedOrder = .ok (path, ps) ∧
      ps = [("symbol", "ETHUSDT"), ("orderId", "42&symbol=BTCUSDT")] ∧
      Parameters.ofText (canonicalQuery ps) =
        [("symbol", "ETHUSDT"), ("orderId", "42"), ("symbol", "BTCUSDT")] ∧
      Parameters.ofText (canonicalQuery ps) ≠ ps :=
  ⟨"/api/v3/order", _, by decide +kernel, rfl, by decide +kernel, by decide +kernel⟩

end Client
end OrderDesk
