import OrderDesk.Proofs.Digits
import OrderDesk.Proofs.Rest.Course

/-!
# What a signature covers

The text of a signed request is put together twice: once to be hashed and once to be sent.  Both
times it is the parameters of the caller, the window within which the request may arrive if one is
set, and the stamp, each but the first after an ampersand (`Signer.covered`); what is sent goes on
with the hash of just that text (`Signer.Covers`).  What is added ends in digits after an equals
sign each, so that the parameters of the caller can be read off from the end
(`Signer.Covers.canonicalQuery_eq`).

Every request that leaves is of this form if it is signed, carries the key and nothing else that is
added if it needs the key only, and carries neither if it asks for open data (`Rest.Sends`).  Where
there is nothing to sign with, a request that needs the key is not sent at all
(`signature_covers_request`).
-/

namespace OrderDesk

/-! ## 1. The text that is hashed -/

namespace Signer

/-- The parameters that a signature covers. -/
def covered (s : Signer) (ps : Parameters) (stamp : Nat) : Parameters :=
  ps ++ (s.receiveWindow.map fun window => ("recvWindow", Text.ofNat window)).toList ++
    [("timestamp", Text.ofNat stamp)]

example : canonicalQuery (covered ⟨"key", "secret", some 5000⟩ [] 7) =
    "recvWindow=5000&timestamp=7" := by decide

/-- Three texts of parameters in a row, whichever two are joined first. -/
theorem joined_assoc {first second : String} (third : String) (h : second ≠ "") :
    joined (joined first second) third = joined first (joined second third) := by
  have hsecond : second.isEmpty = false := String.isEmpty_eq_false_iff.mpr h
  cases hfirst : first.isEmpty with
  | true => simp only [joined, hfirst, if_true]
  | false =>
    have hboth : (first ++ ("&" ++ second)).isEmpty = false := by
      rw [String.isEmpty_eq_false_iff]
      simp [String.append_eq_empty_iff]
    simp only [joined, hfirst, hsecond, Bool.false_eq_true, if_false, String.append_assoc, hboth]

theorem joined_extendPayload {first second : String} (h : second ≠ "") (ps : Parameters) :
    joined first (extendPayload second ps) = extendPayload (joined first second) ps := by
  induction ps generalizing second with
  | nil => rfl
  | cons p ps ih =>
    have hnext : joined second (p.1 ++ "=" ++ p.2) ≠ "" := by
      rw [joined, String.isEmpty_eq_false_iff.mpr h]
      simp [String.append_eq_empty_iff]
    have hstep := ih hnext
    rw [← joined_assoc _ h] at hstep
    exact hstep

/-- Joining the texts of parameters is writing down all of them. -/
theorem joined_canonicalQuery_cons (ps : Parameters) (q : String × String) (qs : Parameters) :
    joined (canonicalQuery ps) (canonicalQuery (q :: qs)) = canonicalQuery (ps ++ q :: qs) := by
  have hone : canonicalQuery [q] = q.1 ++ "=" ++ q.2 := by
    simp only [canonicalQuery, List.map_cons, List.map_nil, String.intercalate_singleton]
  have hne : canonicalQuery [q] ≠ "" := by
    rw [hone]
    simp [String.append_eq_empty_iff]
  have hcons : canonicalQuery (q :: qs) = extendPayload (canonicalQuery [q]) qs := by
    rw [extendPayload_canonicalQuery]
    rfl
  rw [hcons, joined_extendPayload hne, hone, joined_canonicalQuery, extendPayload_canonicalQuery,
    List.append_assoc]
  rfl

variable (s : Signer) (ps : Parameters) (stamp : Nat)

/-- **What is hashed is the text of the covered parameters.** -/
theorem signedText_canonicalQuery :
    s.signedText (canonicalQuery ps) stamp = canonicalQuery (s.covered ps stamp) := by
  unfold signedText covered stamps
  cases s.receiveWindow with
  | none =>
    simp only [Option.map_none, Option.toList_none, List.append_nil]
    exact joined_canonicalQuery_cons ..
  | some window =>
    simp only [Option.map_some, Option.toList_some, List.append_assoc, List.cons_append,
      List.nil_append]
    exact joined_canonicalQuery_cons ..

/-- The parameters that are sent are those that are covered, and the hash. -/
theorem append_appended (payload : String) : ps ++ s.appended payload stamp =
    s.covered ps stamp ++ [("signature", s.signature (s.signedText payload stamp))] := by
  unfold appended covered stamps
  cases s.receiveWindow with
  | none => simp only [Option.map_none, Option.toList_none, List.append_nil, List.append_assoc]
  | some window =>
    simp only [Option.map_some, Option.toList_some, List.append_assoc, List.cons_append,
      List.nil_append]

omit s ps stamp in
/-- A further parameter stands after an ampersand, unless it is the first. -/
theorem canonicalQuery_snoc {qs : Parameters} (hne : qs ≠ []) (p : String × String) :
    canonicalQuery (qs ++ [p]) = canonicalQuery qs ++ "&" ++ (p.1 ++ "=" ++ p.2) := by
  obtain ⟨first, rest, rfl⟩ := List.exists_cons_of_ne_nil hne
  simp only [canonicalQuery, List.map_append, List.map_cons, List.map_nil]
  exact intercalate_snoc ..

theorem covered_ne_nil : s.covered ps stamp ≠ [] := by
  simp [covered]

/-- Parameters without ampersands are told apart by the ampersands between them: there is none
before the first, none after the last, and just one between two. -/
theorem splitOn_canonicalQuery {qs : Parameters} (hne : qs ≠ [])
    (h : ∀ q ∈ qs, '&' ∉ q.1.toList ∧ '&' ∉ q.2.toList) :
    (canonicalQuery qs).toList.splitOn '&' = qs.map fun q => (q.1 ++ "=" ++ q.2).toList := by
  rw [canonicalQuery, String.toList_intercalate, List.map_map]
  refine List.splitOn_intercalate '&' ?_ (by simpa using hne)
  intro piece hpiece
  obtain ⟨q, hq, rfl⟩ := List.mem_map.mp hpiece
  obtain ⟨hname, hvalue⟩ := h q hq
  simp only [Function.comp, String.toList_append, List.mem_append, not_or]
  exact ⟨⟨hname, by decide⟩, hvalue⟩

/-- A request carries the covered parameters and their hash, in its body if it is posted and in its
query otherwise.

* `hashed`: the text of the covered parameters is the one that was hashed;
* `posted`, `queried`: it stands where the verb wants it and nowhere else, with its hash behind it;
* `pieces`: as long as the parameters have no ampersands of their own, those in the text stand
  between two parameters. -/
structure Covers (s : Signer) (ps : Parameters) (stamp : Nat) (q : HttpRequest) : Prop where
  hashed : s.signedText (canonicalQuery ps) stamp = canonicalQuery (s.covered ps stamp)
  posted : q.method = "POST" → q.query = "" ∧
    q.body = some (canonicalQuery (s.covered ps stamp) ++ "&signature=" ++
      Digest.hex (Digest.hmac s.secret.toUTF8.toList
        (canonicalQuery (s.covered ps stamp)).toUTF8.toList))
  queried : q.method ≠ "POST" → q.body = none ∧
    q.query = canonicalQuery (s.covered ps stamp) ++ "&signature=" ++
      Digest.hex (Digest.hmac s.secret.toUTF8.toList
        (canonicalQuery (s.covered ps stamp)).toUTF8.toList)
  pieces : (∀ p ∈ s.covered ps stamp, '&' ∉ p.1.toList ∧ '&' ∉ p.2.toList) →
    (canonicalQuery (s.covered ps stamp)).toList.splitOn '&' =
      (s.covered ps stamp).map fun p => (p.1 ++ "=" ++ p.2).toList

end Signer

/-! ## 2. The text that is sent -/

/-- The text of the parameters stands where the verb wants it, and nowhere else. -/
def HttpRequest.Bears (q : HttpRequest) (text : String) : Prop :=
  if q.method = "POST" then q.query = "" ∧ q.body = if text.isEmpty then none else some text
  else q.query = text ∧ q.body = none

theorem HttpRequest.bears_carrying (method path text : String) (headers : List (String × String)) :
    (HttpRequest.carrying method path text headers).Bears text := by
  unfold Bears
  rw [method_carrying]
  unfold carrying
  by_cases hpost : method = "POST"
  · simp only [hpost, if_true, and_self]
  · simp only [hpost, if_false, and_self]

theorem HttpRequest.headers_carrying (method path text : String)
    (headers : List (String × String)) :
    (HttpRequest.carrying method path text headers).headers = headers := by
  unfold carrying
  split <;> rfl

/-- **A signed request carries what was hashed**, and the hash. -/
theorem Signer.covers_carrying (s : Signer) (method path : String) (ps : Parameters) (stamp : Nat)
    (headers : List (String × String)) :
    s.Covers ps stamp (.carrying method path
      (extendPayload (canonicalQuery ps) (s.appended (canonicalQuery ps) stamp)) headers) := by
  have htext : extendPayload (canonicalQuery ps) (s.appended (canonicalQuery ps) stamp) =
      canonicalQuery (s.covered ps stamp) ++ "&signature=" ++
        Digest.hex (Digest.hmac s.secret.toUTF8.toList
          (canonicalQuery (s.covered ps stamp)).toUTF8.toList) := by
    rw [extendPayload_canonicalQuery, s.append_appended,
      Signer.canonicalQuery_snoc (s.covered_ne_nil ps stamp),
      s.signedText_canonicalQuery, String.append_assoc, String.append_assoc,
      show "&signature=" = "&" ++ ("signature" ++ "=") by decide, String.append_assoc,
      String.append_assoc]
    rfl
  have hfull : (extendPayload (canonicalQuery ps)
      (s.appended (canonicalQuery ps) stamp)).isEmpty = false := by
    rw [htext, String.isEmpty_eq_false_iff]
    simp [String.append_eq_empty_iff]
  have hbears := HttpRequest.bears_carrying method path
    (extendPayload (canonicalQuery ps) (s.appended (canonicalQuery ps) stamp)) headers
  unfold HttpRequest.Bears at hbears
  rw [hfull, htext] at hbears
  refine ⟨s.signedText_canonicalQuery ps stamp, fun hpost => ?_, fun hother => ?_, fun h => ?_⟩
  · rw [if_pos (htext ▸ hpost)] at hbears
    rw [htext]
    exact hbears
  · rw [if_neg (htext ▸ hother)] at hbears
    rw [htext]
    exact ⟨hbears.2, hbears.1⟩
  · exact splitOn_canonicalQuery (s.covered_ne_nil ps stamp) h

/-! ## 3. What a signed request tells -/

namespace Signer

/-- What is no digit does not stand in the text of a hash. -/
theorem notMem_hex {c : Char} (hdigit : ∀ d < 16, Text.hexChar d ≠ c) (bytes : List UInt8) :
    c ∉ (Digest.hex bytes).toList := by
  have hchar : ∀ n, Text.hexChar n ≠ c := fun n => by
    have hsame : Text.hexChar n = Text.hexChar (n % 16) := by
      simp only [Text.hexChar, Nat.mod_mod]
    rw [hsame]
    exact hdigit _ (Nat.mod_lt n (by decide))
  rw [Digest.hex, String.toList_ofList]
  intro hmem
  obtain ⟨b, -, hb⟩ := List.mem_flatMap.mp hmem
  simp only [List.mem_cons, List.not_mem_nil, or_false] at hb
  exact hb.elim (fun h => hchar _ h.symm) fun h => hchar _ h.symm

/-- The parameters before the last can be read off, as long as there is no equals sign in the value
of the last. -/
theorem canonicalQuery_snoc_injective {ps ps' : Parameters} {name value value' : String}
    (hps : ps ≠ []) (hps' : ps' ≠ []) (hvalue : '=' ∉ value.toList) (hvalue' : '=' ∉ value'.toList)
    (h : canonicalQuery (ps ++ [(name, value)]) = canonicalQuery (ps' ++ [(name, value')])) :
    canonicalQuery ps = canonicalQuery ps' := by
  rw [canonicalQuery_snoc hps, canonicalQuery_snoc hps'] at h
  have hlist : ((canonicalQuery ps).toList ++ '&' :: name.toList) ++ '=' :: value.toList =
      ((canonicalQuery ps').toList ++ '&' :: name.toList) ++ '=' :: value'.toList := by
    simpa [String.toList_append] using congrArg String.toList h
  obtain ⟨hbefore, -⟩ := Text.append_cons_injective_last hvalue hvalue' hlist
  exact String.toList_inj.mp (List.append_cancel_right hbefore)

/-- **A signed request tells the parameters of the caller**, whatever is in them and whatever the
stamp. -/
theorem Covers.canonicalQuery_eq {s : Signer} {ps ps' : Parameters} {stamp stamp' : Nat}
    {q : HttpRequest} (hq : q.method ≠ "POST") (hps : ps ≠ []) (hps' : ps' ≠ [])
    (h : s.Covers ps stamp q) (h' : s.Covers ps' stamp' q) :
    canonicalQuery ps = canonicalQuery ps' := by
  have hquery : ∀ {ps stamp}, s.Covers ps stamp q → q.query =
      canonicalQuery (s.covered ps stamp ++ [("signature", Digest.hex (Digest.hmac
        s.secret.toUTF8.toList (canonicalQuery (s.covered ps stamp)).toUTF8.toList))]) :=
    fun h => by
      rw [(h.queried hq).2, canonicalQuery_snoc (s.covered_ne_nil _ _), String.append_assoc,
        String.append_assoc]
      rfl
  have hcovered := canonicalQuery_snoc_injective (s.covered_ne_nil ps stamp)
    (s.covered_ne_nil ps' stamp') (notMem_hex (by decide) _) (notMem_hex (by decide) _)
    ((hquery h).symm.trans (hquery h'))
  have hnumber : ∀ n, '=' ∉ (Text.ofNat n).toList := fun n => by
    rw [Text.toList_ofNat]
    exact Text.notMem_natDigits (by decide) n
  have hwindow := canonicalQuery_snoc_injective (by simp [hps]) (by simp [hps']) (hnumber _)
    (hnumber _) hcovered
  cases hreceive : s.receiveWindow with
  | none =>
    rw [hreceive] at hwindow
    simpa using hwindow
  | some window =>
    rw [hreceive] at hwindow
    exact canonicalQuery_snoc_injective hps hps' (hnumber _) (hnumber _) hwindow

end Signer

namespace Rest

/-- What a request for a call looks like when it leaves. -/
structure Sends (r : Rest) (c : Call) (stamp : Nat) (q : HttpRequest) : Prop where
  method : q.method = c.method
  path : q.path = c.path
  content :
    match c.access, r.signer with
    | .open, _ => q.headers = [] ∧ q.Bears (canonicalQuery c.parameters)
    | .key, some s =>
      q.headers = [(Signer.keyHeader, s.apiKey)] ∧ q.Bears (canonicalQuery c.parameters)
    | .signed, some s =>
      q.headers = [(Signer.keyHeader, s.apiKey)] ∧ s.Covers c.parameters stamp q
    | .key, none | .signed, none => False

/-- Whether a call needs a key that there is none of. -/
def Call.LacksKey (r : Rest) (c : Call) : Prop := c.access ≠ .open ∧ r.signer = none

/-- The failure of a call that lacks a key. -/
def keyless : Fault := .authentication "Authentication required but no signer provided"

variable {r : Rest} {c : Call} {stamp : Nat}

/-- **A request that is ready looks like that.** -/
theorem sends_of_prepared {q : HttpRequest} (h : c.prepared r stamp = .ok q) :
    r.Sends c stamp q := by
  obtain ⟨method, path, ps, access⟩ := c
  unfold Call.prepared HttpRequest.prepare at h
  cases access with
  | «open» =>
    cases h
    exact ⟨HttpRequest.method_carrying .., HttpRequest.path_carrying ..,
      HttpRequest.headers_carrying .., HttpRequest.bears_carrying ..⟩
  | key =>
    cases hsigner : r.signer with
    | none =>
      rw [hsigner] at h
      cases h
    | some s =>
      rw [hsigner] at h
      cases h
      refine ⟨HttpRequest.method_carrying .., HttpRequest.path_carrying .., ?_⟩
      rw [hsigner]
      exact ⟨HttpRequest.headers_carrying .., HttpRequest.bears_carrying ..⟩
  | signed =>
    cases hsigner : r.signer with
    | none =>
      rw [hsigner] at h
      cases h
    | some s =>
      rw [hsigner] at h
      cases h
      refine ⟨HttpRequest.method_carrying .., HttpRequest.path_carrying .., ?_⟩
      rw [hsigner]
      exact ⟨HttpRequest.headers_carrying .., s.covers_carrying ..⟩

/-- Only where a key is lacking a request cannot be made ready. -/
theorem keyless_of_prepared {e : Fault} (h : c.prepared r stamp = .error e) :
    c.LacksKey r ∧ e = keyless := by
  obtain ⟨method, path, ps, access⟩ := c
  unfold Call.prepared HttpRequest.prepare at h
  cases access with
  | «open» => cases h
  | key =>
    cases hsigner : r.signer <;> rw [hsigner] at h <;> cases h
    exact ⟨⟨nofun, hsigner⟩, rfl⟩
  | signed =>
    cases hsigner : r.signer <;> rw [hsigner] at h <;> cases h
    exact ⟨⟨nofun, hsigner⟩, rfl⟩

/-- Where nothing is signed the stamp does not matter. -/
theorem Sends.of_not_sealed {stamp' : Nat} {q : HttpRequest} (hplain : c.isSealed r = false)
    (h : r.Sends c stamp q) : r.Sends c stamp' q := by
  refine ⟨h.method, h.path, ?_⟩
  have hcontent := h.content
  cases haccess : c.access with
  | «open» =>
    rw [haccess] at hcontent
    exact hcontent
  | key =>
    rw [haccess] at hcontent
    cases hsigner : r.signer with
    | none | some s =>
      rw [hsigner] at hcontent
      exact hcontent
  | signed =>
    rw [haccess] at hcontent
    cases hsigner : r.signer with
    | none =>
      rw [hsigner] at hcontent
      exact hcontent
    | some s => simp [Call.isSealed, haccess, hsigner] at hplain

/-- What is sent does not lack a key. -/
theorem Sends.not_lacksKey {q : HttpRequest} (h : r.Sends c stamp q) : ¬ c.LacksKey r := by
  rintro ⟨haccess, hsigner⟩
  have hcontent := h.content
  rw [hsigner] at hcontent
  cases hkind : c.access with
  | «open» => exact haccess hkind
  | key | signed =>
    rw [hkind] at hcontent
    exact hcontent

/-! ## 4. Every request that leaves -/

/-- What a request met on its way: the last stamp, whether the desk was cancelled, and whether a
number was out of range. -/
structure Encounters where
  last : Nat
  cancelled : Bool
  outOfRange : Bool

/-- Others may do with the state what they like, and anything may come back; what is sent is a
request for this call with the last stamp. -/
def sending (r : Rest) (c : Call) : Watch DeskState Encounters where
  meets _ _ := True
  answers _ _ := True
  allows _ _ := True
  changed k s s' := ⟨s'.nonce.last, k.cancelled || s.cancelled,
    k.outOfRange || !(s.gate.fits s.now && s.nonce.inRange s.clock)⟩
  heard k _ _ := k
  halfway k := k.outOfRange = true ∨ r.retry.fits = false
  passed k _ := k
  sends k q := r.Sends c k.last q

/-- What came of a request: without a signer, one that needs the key was refused, unless the desk
was cancelled before. -/
def Concluded (r : Rest) (c : Call) (k : Encounters) (o : Outcome HttpResponse) : Prop :=
  c.LacksKey r → o = .error keyless ∨ k.cancelled = true ∧ o = .error .cancelled

/-- A call is made ready unless it lacks a key, and then it looks as it should. -/
theorem sends_prepared (r : Rest) (c : Call) (stamp : Nat) :
    (c.LacksKey r ∧ c.prepared r stamp = .error keyless) ∨
      (¬ c.LacksKey r ∧ ∃ q, c.prepared r stamp = .ok q ∧ r.Sends c stamp q) := by
  cases hprepared : c.prepared r stamp with
  | error e =>
    obtain ⟨hlacks, rfl⟩ := keyless_of_prepared hprepared
    exact Or.inl ⟨hlacks, rfl⟩
  | ok q =>
    have hsends := sends_of_prepared hprepared
    exact Or.inr ⟨hsends.not_lacksKey, q, rfl, hsends⟩

/-- A request that lacks a key fails, and all that leaves looks as it should. -/
theorem upholds_sending (r : Rest) (c : Call) (k : Encounters) :
    (c.deed r).Upholds (sending r c) (Concluded r c) k := by
  have hcourse : Course (sending r c) r c (fun _ => True) (Concluded r c) := by
    refine { timeless := fun _ _ => rfl, passing := fun _ _ _ => ⟨trivial, trivial⟩, jam := ?_,
             stamping := fun _ _ => ⟨trivial, trivial⟩, overrun := ?_, unfit := ?_, refused := ?_,
             sealed := ?_, plain := ?_, answered := ?_, again := fun _ _ _ _ => trivial,
             cancelled := ?_, lost := ?_ }
    · intro k s _ _ hjam
      exact Or.inl (by simp [sending, hjam])
    · intro k s _ _ hout
      exact Or.inl (by simp [sending, hout])
    · exact fun _ hunfit => Or.inr hunfit
    · intro k stamp e _ hrefused _
      exact Or.inl (congrArg _ (keyless_of_prepared hrefused).2)
    · intro k s q _ _ _ hq
      exact sends_of_prepared hq
    · intro k q _ hplain hq
      exact (sends_of_prepared hq).of_not_sealed hplain
    · intro k q o stamp _ hq _ hlacks
      exact absurd hlacks (sends_of_prepared hq).not_lacksKey
    · intro k s _ _ hcancelled _
      exact Or.inr ⟨by simp [sending, hcancelled], rfl⟩
    · intro k s o hpost _
      refine ⟨trivial, fun hlacks => ?_, fun hcancelled _ => ?_⟩
      · refine (hpost hlacks).imp id fun hlost => ?_
        exact ⟨by simp [sending, hlost.1], hlost.2⟩
      · exact Or.inr ⟨by simp [sending, hcancelled], rfl⟩
  exact hcourse.upholds_execute trivial

/-- **The signature covers what is sent**: whatever the stamp, a call is made ready in the
prescribed form unless it lacks a key; and whatever a request meets on its way and whatever comes
back, all that leaves is of this form, and a request that lacks a key fails before anything is
sent. -/
theorem signature_covers_request (r : Rest) (c : Call) :
    (∀ stamp, (c.LacksKey r ∧ c.prepared r stamp = .error keyless) ∨
      (¬ c.LacksKey r ∧ ∃ q, c.prepared r stamp = .ok q ∧ r.Sends c stamp q)) ∧
    ∀ k, (c.deed r).Upholds (sending r c) (Concluded r c) k :=
  ⟨sends_prepared r c, upholds_sending r c⟩

end Rest
end OrderDesk
