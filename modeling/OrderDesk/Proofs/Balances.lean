import Mathlib.Data.List.Forall2
import OrderDesk.Client.Basic
import OrderDesk.Proofs.Fields
import OrderDesk.Proofs.Rest.Signatures
import OrderDesk.Proofs.Sums

/-!
# What an account holds

An account is a document that lists assets.  What the host sees of it is a line of cash for each
asset whose amount is not zero, in the order of the document.  The amount of an asset is what is
free and what is locked together on spot, the net amount on margin, and the wallet on futures.

The lines are worked out in two goes, one that leaves out the zeros and one that turns what is left
into cash, and in both a sum is formed anew.  So it has to be known of a sum, and not only of the
amounts that go into it, when it is a zero, when it is exact and when it does not exist
(`OrderDesk.Proofs.Sums`).  Nothing is lost: an amount that can be written down exactly is told
exactly, and any other as well as its places allow (`Tells`).

But one asset whose sum does not exist takes all others with it: there is no answer then, and no
error either, everything ends (`balances_reported`).  That can happen on spot only, where the
amounts are sums.
-/

namespace OrderDesk

open OrderDesk.Json

/-! ## 1. Entries and the lines that tell them -/

/-- An asset with its exact amount. -/
@[ext] structure Entry where
  asset : String
  amount : ℚ

/-- The amount does not fit, however many places are dropped. -/
def Entry.Excessive (e : Entry) : Prop := Decimal.limit ≤ |e.amount|

/-- A line of cash tells an entry.

* `exact`: nothing is lost if the amount can be written down;
* `near`: what is told is the nearest there is with its places. -/
structure Tells (e : Entry) (c : CashAmount) : Prop where
  currency : c.currency = e.asset
  exact : Decimal.Representable e.amount → c.amount.value = e.amount
  near : |c.amount.value - e.amount| ≤ 1 / 2 / 10 ^ c.amount.scale

namespace Balance

/-- The entry that a balance stands for. -/
def entry : Balance → Entry
  | spot asset free locked => ⟨asset, free.value + locked.value⟩
  | margin asset _ _ _ _ net => ⟨asset, net.value⟩
  | futures asset wallet _ => ⟨asset, wallet.value⟩

variable {b : Balance} {d : Decimal} {c : CashAmount}

/-- What is not a sum is never too much. -/
theorem not_excessive_value (asset : String) (d : Decimal) :
    ¬(⟨asset, d.value⟩ : Entry).Excessive :=
  not_le.mpr (Decimal.abs_value_lt_limit d)

theorem tells_value (asset : String) (d : Decimal) : Tells ⟨asset, d.value⟩ ⟨d, asset⟩ := by
  refine ⟨rfl, fun _ => rfl, ?_⟩
  rw [sub_self, abs_zero]
  positivity

theorem amount?_eq_none_iff : b.amount? = none ↔ b.entry.Excessive := by
  cases b with
  | spot asset free locked => exact Decimal.add?_eq_none_iff
  | margin asset _ _ _ _ net => exact iff_of_false nofun (not_excessive_value asset net)
  | futures asset wallet _ => exact iff_of_false nofun (not_excessive_value asset wallet)

/-- What is not too much has an amount. -/
theorem exists_amount? (h : ¬b.entry.Excessive) : ∃ d, b.amount? = some d :=
  Option.ne_none_iff_exists'.mp (mt amount?_eq_none_iff.mp h)

theorem isZero_amount?_iff (h : b.amount? = some d) : d.isZero = true ↔ b.entry.amount = 0 := by
  cases b with
  | spot asset free locked => exact Decimal.isZero_add?_iff h
  | margin asset _ _ _ _ net =>
    obtain rfl := Option.some.inj h
    exact Decimal.isZero_iff
  | futures asset wallet _ =>
    obtain rfl := Option.some.inj h
    exact Decimal.isZero_iff

/-- **A balance as cash tells its entry.** -/
theorem tells_cash? (h : b.cash? = some c) : Tells b.entry c := by
  obtain ⟨d, hamount, rfl⟩ := Option.map_eq_some_iff.mp h
  cases b with
  | spot asset free locked =>
    refine ⟨rfl, fun hsum => ?_, Decimal.abs_add?_sub_le hamount⟩
    obtain ⟨d', hsome, hvalue⟩ := Decimal.add?_exact hsum
    obtain rfl := Option.some.inj (hsome.symm.trans hamount)
    exact hvalue
  | margin asset _ _ _ _ net =>
    obtain rfl := Option.some.inj hamount
    exact tells_value asset net
  | futures asset wallet _ =>
    obtain rfl := Option.some.inj hamount
    exact tells_value asset wallet

end Balance

/-! ## 2. The lines of an account -/

/-- The entries that are shown. -/
def shownEntries (entries : List Entry) : List Entry := entries.filter (·.amount ≠ 0)

@[simp] theorem shownEntries_cons (e : Entry) (entries : List Entry) :
    shownEntries (e :: entries) =
      if e.amount = 0 then shownEntries entries else e :: shownEntries entries := by
  rw [shownEntries, List.filter_cons]
  by_cases hzero : e.amount = 0 <;> simp [hzero, shownEntries]

namespace Client

variable {bs : List Balance}

/-- The zeros cannot be left out if an amount does not exist. -/
theorem nonZero?_of_excessive (h : ∃ b ∈ bs, b.entry.Excessive) : nonZero? bs = none := by
  induction bs with
  | nil => simp at h
  | cons b bs ih =>
    unfold nonZero?
    cases hamount : b.amount? with
    | none => rfl
    | some d =>
      have hrest : ∃ b ∈ bs, b.entry.Excessive := by
        obtain ⟨b', hmem, hexcess⟩ := h
        rcases List.mem_cons.mp hmem with rfl | hlater
        · rw [← Balance.amount?_eq_none_iff, hamount] at hexcess
          cases hexcess
        · exact ⟨b', hlater, hexcess⟩
      rw [ih hrest]
      rfl

/-- **Just the zeros are left out**, and the others stay in their order. -/
theorem nonZero?_of_not_excessive (h : ∀ b ∈ bs, ¬b.entry.Excessive) :
    ∃ ls, nonZero? bs = some ls ∧ ls.map Balance.entry = shownEntries (bs.map Balance.entry) ∧
      ∀ b ∈ ls, ¬b.entry.Excessive := by
  induction bs with
  | nil => exact ⟨[], rfl, rfl, List.forall_mem_nil _⟩
  | cons b bs ih =>
    obtain ⟨hfirst, hrest⟩ := List.forall_mem_cons.mp h
    obtain ⟨ls, hls, hentries, hnone⟩ := ih hrest
    obtain ⟨d, hamount⟩ := Balance.exists_amount? hfirst
    have hzero := Balance.isZero_amount?_iff hamount
    unfold nonZero?
    rw [hamount, hls, List.map_cons, shownEntries_cons]
    by_cases hnothing : b.entry.amount = 0
    · rw [if_pos hnothing]
      exact ⟨ls, by simp [hzero.mpr hnothing], hentries, hnone⟩
    · rw [if_neg hnothing]
      refine ⟨b :: ls, by simp [mt hzero.mp hnothing], ?_, List.forall_mem_cons.mpr ⟨hfirst, hnone⟩⟩
      rw [List.map_cons, hentries]

/-- Lines that exist are turned into cash one by one. -/
theorem mapM_cash?_of_not_excessive (h : ∀ b ∈ bs, ¬b.entry.Excessive) :
    ∃ cs, bs.mapM Balance.cash? = some cs ∧ List.Forall₂ Tells (bs.map Balance.entry) cs := by
  induction bs with
  | nil => exact ⟨[], rfl, .nil⟩
  | cons b bs ih =>
    obtain ⟨hfirst, hrest⟩ := List.forall_mem_cons.mp h
    obtain ⟨cs, hcs, htells⟩ := ih hrest
    obtain ⟨d, hamount⟩ := Balance.exists_amount? hfirst
    have hcash : b.cash? = some ⟨d, b.asset⟩ := by rw [Balance.cash?, hamount]; rfl
    refine ⟨⟨d, b.asset⟩ :: cs, ?_, .cons (Balance.tells_cash? hcash) htells⟩
    rw [List.mapM_cons, hcash, hcs]
    rfl

end Client

/-! ## 3. Documents of accounts -/

namespace Surface

/-- The field of an account that lists its assets. -/
def assetsName : Surface → String
  | .spot | .usSpot => "balances"
  | .crossMargin => "userAssets"
  | .usdtFutures | .coinFutures => "assets"

/-- What an asset is worth by its record. -/
def Worth (s : Surface) (r : Record) (x : ℚ) : Prop :=
  match s with
  | .spot | .usSpot => ∃ free locked, r.Says 1 "free" Decimal.ofJsonString free ∧
      r.Says 2 "locked" Decimal.ofJsonString locked ∧ x = free.value + locked.value
  | .crossMargin => ∃ net, r.Says 5 "netAsset" Decimal.ofJsonString net ∧ x = net.value
  | .usdtFutures | .coinFutures =>
    ∃ wallet, r.Says 1 "walletBalance" Decimal.ofJsonString wallet ∧ x = wallet.value

/-- A document says an entry. -/
def Lists (s : Surface) (j : Json) (e : Entry) : Prop :=
  ∃ r, j.record? = some r ∧ r.Says 0 "asset" decodeString e.asset ∧ s.Worth r e.amount

/-- A document is an account of the surface and lists these entries. -/
def Sheet (s : Surface) (j : Json) (entries : List Entry) : Prop :=
  (∃ bs, Wire.balances s j = .ok bs) ∧ ∃ r js, j.record? = some r ∧
    r.Has 0 s.assetsName (.array js) ∧ List.Forall₂ s.Lists js entries

/-- The reader of an asset. -/
def readAsset : Surface → Json → Decoded Balance
  | .spot | .usSpot => Wire.spotBalance
  | .crossMargin => Wire.marginBalance
  | .usdtFutures | .coinFutures => Wire.futuresBalance

variable {s : Surface} {j : Json} {b : Balance} {bs : List Balance}

theorem lists_of_spotBalance (h : Wire.spotBalance j = .ok b) : Surface.spot.Lists j b.entry := by
  obtain ⟨r, r', hrecord, hread⟩ := reader_of_decodeRecord h
  obtain ⟨asset, hasset, hread⟩ := says_of_bind hread
  obtain ⟨free, hfree, hread⟩ := says_of_bind hread
  obtain ⟨locked, hlocked, hread⟩ := says_of_bind hread
  cases hread
  simp only [Record.says_rest] at hfree hlocked
  exact ⟨r, hrecord, hasset, free, locked, hfree, hlocked, rfl⟩

theorem lists_of_marginBalance (h : Wire.marginBalance j = .ok b) :
    Surface.crossMargin.Lists j b.entry := by
  obtain ⟨r, r', hrecord, hread⟩ := reader_of_decodeRecord h
  obtain ⟨asset, hasset, hread⟩ := says_of_bind hread
  obtain ⟨free, -, hread⟩ := says_of_bind hread
  obtain ⟨locked, -, hread⟩ := says_of_bind hread
  obtain ⟨borrowed, -, hread⟩ := says_of_bind hread
  obtain ⟨interest, -, hread⟩ := says_of_bind hread
  obtain ⟨net, hnet, hread⟩ := says_of_bind hread
  cases hread
  simp only [Record.says_rest] at hnet
  exact ⟨r, hrecord, hasset, net, hnet, rfl⟩

theorem lists_of_futuresBalance (h : Wire.futuresBalance j = .ok b) :
    Surface.usdtFutures.Lists j b.entry := by
  obtain ⟨r, r', hrecord, hread⟩ := reader_of_decodeRecord h
  obtain ⟨asset, hasset, hread⟩ := says_of_bind hread
  obtain ⟨wallet, hwallet, hread⟩ := says_of_bind hread
  obtain ⟨available, -, hread⟩ := says_of_bind hread
  cases hread
  simp only [Record.says_rest] at hwallet
  exact ⟨r, hrecord, hasset, wallet, hwallet, rfl⟩

/-- **An asset is read as what it says**, whatever shape its record has. -/
theorem lists_of_readAsset (h : s.readAsset j = .ok b) : s.Lists j b.entry := by
  cases s with
  | spot | usSpot => exact lists_of_spotBalance h
  | crossMargin => exact lists_of_marginBalance h
  | usdtFutures | coinFutures => exact lists_of_futuresBalance h

/-- A list is read item by item. -/
theorem forall₂_of_decodeList {α : Type} {decode : Json → Decoded α} {as : List α}
    (h : decodeList decode j = .ok as) :
    ∃ js, j = .array js ∧ List.Forall₂ (fun j a => decode j = .ok a) js as := by
  cases j with
  | array js =>
    refine ⟨js, rfl, ?_⟩
    have h : decodeItems decode js = .ok as := h
    induction js generalizing as with
    | nil =>
      cases h
      exact .nil
    | cons j js ih =>
      unfold decodeItems at h
      cases hfirst : decode j with
      | error e =>
        rw [hfirst] at h
        cases h
      | ok a =>
        rw [hfirst] at h
        cases hrest : decodeItems decode js with
        | error e =>
          rw [hrest] at h
          cases h
        | ok rest =>
          rw [hrest] at h
          cases h
          exact .cons hfirst (ih hrest hrest)
  | _ => cases h

/-- The assets of an account are those that its document lists. -/
theorem items_of_balances (h : Wire.balances s j = .ok bs) : ∃ r js, j.record? = some r ∧
    r.Has 0 s.assetsName (.array js) ∧
    List.Forall₂ (fun j b => s.readAsset j = .ok b) js bs := by
  have hlist : ∃ r, j.record? = some r ∧ r.Says 0 s.assetsName (decodeList s.readAsset) bs := by
    cases s with
    | spot | usSpot | crossMargin =>
      obtain ⟨r, r', hrecord, hread⟩ := reader_of_decodeRecord h
      exact ⟨r, hrecord, (says_of_required hread).1⟩
    | usdtFutures | coinFutures =>
      obtain ⟨account, haccount, rfl⟩ : ∃ account, Wire.futuresAccount j = .ok account ∧
          account.balances = bs := by
        cases haccount : Wire.futuresAccount j with
        | error e =>
          simp only [Wire.balances, haccount] at h
          cases h
        | ok account =>
          simp only [Wire.balances, haccount] at h
          exact ⟨account, rfl, Except.ok.inj h⟩
      obtain ⟨r, r', hrecord, hread⟩ := reader_of_decodeRecord haccount
      obtain ⟨bs', hfield, hread⟩ := says_of_bind hread
      obtain ⟨positions, -, hread⟩ := says_of_bind hread
      cases hread
      exact ⟨r, hrecord, hfield⟩
  obtain ⟨r, hrecord, j', hhas, hread⟩ := hlist
  obtain ⟨js, rfl, hitems⟩ := forall₂_of_decodeList hread
  exact ⟨r, js, hrecord, hhas, hitems⟩

/-- **Every document that can be read as an account has entries**, those of its balances. -/
theorem sheet_of_balances (h : Wire.balances s j = .ok bs) : s.Sheet j (bs.map Balance.entry) := by
  obtain ⟨r, js, hrecord, hhas, hitems⟩ := items_of_balances h
  refine ⟨⟨bs, h⟩, r, js, hrecord, hhas, List.forall₂_map_right_iff.mpr ?_⟩
  exact hitems.imp fun _ _ => lists_of_readAsset

theorem Worth.unique {r : Record} {x y : ℚ} (hx : s.Worth r x) (hy : s.Worth r y) : x = y := by
  cases s with
  | spot | usSpot =>
    obtain ⟨free, locked, hfree, hlocked, rfl⟩ := hx
    obtain ⟨free', locked', hfree', hlocked', rfl⟩ := hy
    rw [hfree.unique hfree', hlocked.unique hlocked']
  | crossMargin | usdtFutures | coinFutures =>
    obtain ⟨d, hd, rfl⟩ := hx
    obtain ⟨d', hd', rfl⟩ := hy
    rw [hd.unique hd']

theorem Lists.unique {e e' : Entry} (h : s.Lists j e) (h' : s.Lists j e') : e = e' := by
  obtain ⟨r, hrecord, hasset, hworth⟩ := h
  obtain ⟨r', hrecord', hasset', hworth'⟩ := h'
  obtain rfl := Option.some.inj (hrecord.symm.trans hrecord')
  exact Entry.ext (hasset.unique hasset') (hworth.unique hworth')

/-- **An account has one list of entries.** -/
theorem Sheet.unique {es es' : List Entry} (h : s.Sheet j es) (h' : s.Sheet j es') : es = es' := by
  obtain ⟨-, r, js, hrecord, hhas, hlists⟩ := h
  obtain ⟨-, r', js', hrecord', hhas', hlists'⟩ := h'
  obtain rfl := Option.some.inj (hrecord.symm.trans hrecord')
  obtain rfl := Json.array.inj (hhas.unique hhas')
  have hunique : Relator.RightUnique s.Lists := fun _ _ _ => Lists.unique
  exact hunique.forall₂ hlists hlists'

/-- Only sums can be too much. -/
theorem Sheet.not_excessive {es : List Entry} (hspot : s ≠ .spot) (husSpot : s ≠ .usSpot)
    (h : s.Sheet j es) : ∀ e ∈ es, ¬e.Excessive := by
  obtain ⟨-, r, js, -, -, hlists⟩ := h
  have hlist : ∀ {j e}, s.Lists j e → ¬e.Excessive := by
    rintro j ⟨asset, amount⟩ ⟨r, -, -, hworth⟩
    cases s with
    | spot => contradiction
    | usSpot => contradiction
    | crossMargin | usdtFutures | coinFutures =>
      obtain ⟨d, -, rfl⟩ := hworth
      exact Balance.not_excessive_value asset d
  induction hlists with
  | nil => exact List.forall_mem_nil _
  | cons hfirst _ ih => exact List.forall_mem_cons.mpr ⟨hlist hfirst, ih⟩

end Surface

/-! ## 4. What is shown of an account -/

/-- An answer is an account that lists these entries. -/
def Accounts (s : Surface) (o : Outcome HttpResponse) (entries : List Entry) : Prop :=
  ∃ a j, o = .ok a ∧ a.isSuccess = true ∧ Json.read a.body = .ok j ∧ s.Sheet j entries

/-- What the host sees of an answer: a failure if it is no account, and else a line for each entry
that is shown. -/
structure Shown (s : Surface) (o : Outcome HttpResponse) (out : Outcome (List CashAmount)) :
    Prop where
  fails : (∃ e, out = .error e) ↔ ¬∃ entries, Accounts s o entries
  tells : ∀ entries, Accounts s o entries → (∀ e ∈ entries, ¬e.Excessive) ∧
    ∃ cs, out = .ok cs ∧ List.Forall₂ Tells (shownEntries entries) cs

/-- Nobody cancels the desk and numbers stay within their ranges, and the last answer is known.  The
account is all that is asked for, and nothing may break off but where it lists too much. -/
def hearing (s : Surface) : Watch DeskState (Option (Outcome HttpResponse)) where
  meets _ t := t.cancelled = false ∧ t.InRange
  answers _ _ := True
  allows _ _ := True
  changed k _ _ := k
  heard _ _ o := some o
  halfway k := ∃ o entries, k = some o ∧ Accounts s o entries ∧ ∃ e ∈ entries, e.Excessive
  passed k _ := k
  sends _ q := q.method = "GET" ∧ q.path = s.accountPath

namespace Client

variable {c : Client} {s : Surface} {o : Outcome HttpResponse} {bs : List Balance}

/-- What is read from an answer are its entries. -/
theorem accounts_iff (attempts : Nat) {entries : List Entry} : Accounts s o entries ↔
    ∃ bs, (o.bind fun a => a.decode attempts (Wire.balances s)) = .ok bs ∧
      bs.map Balance.entry = entries := by
  constructor
  · rintro ⟨a, j, rfl, hsuccess, hread, hsheet⟩
    obtain ⟨bs, hbs⟩ := hsheet.1
    refine ⟨bs, HttpResponse.decode_eq_ok_iff.mpr ⟨hsuccess, ?_⟩,
      (Surface.sheet_of_balances hbs).unique hsheet⟩
    rw [decodeText, hread]
    simp only [hbs]
  · rintro ⟨bs, hbs, rfl⟩
    cases o with
    | error e => cases hbs
    | ok a =>
      obtain ⟨hsuccess, hread⟩ := HttpResponse.decode_eq_ok_iff.mp hbs
      unfold decodeText at hread
      split at hread
      · cases hread
      · rename_i j hdocument
        split at hread
        · rename_i bs' hbalances
          cases hread
          exact ⟨a, j, rfl, hsuccess, hdocument, Surface.sheet_of_balances hbalances⟩
        · cases hread

/-- **What can be read as an account is one.** -/
theorem accounts_of_decodeText {a : HttpResponse} (hsuccess : a.isSuccess = true)
    (hread : Json.decodeText (Wire.balances s) a.body = .ok bs) :
    Accounts s (.ok a) (bs.map Balance.entry) :=
  (accounts_iff 1).mpr
    ⟨bs, HttpResponse.decode_eq_ok_iff.mpr ⟨hsuccess, hread⟩, rfl⟩

/-- **The account is asked for**, and what comes of it is what the last answer says. -/
theorem upholds_getAccount (hsigner : c.signer.isSome = true) (hfits : c.retry.fits = true)
    (decode : Json → Decoded (List Balance)) :
    (getSigned c.toRest s.accountPath decode).Upholds (hearing s) (fun k out => ∃ o, k = some o ∧
      out = o.bind fun a => a.decode c.retry.attempts decode) none := by
  let call : Rest.Call := ⟨"GET", s.accountPath, [], .signed⟩
  have hcalm : Rest.Calm (hearing s) :=
    ⟨id, fun _ _ => trivial, fun _ _ _ => rfl, fun _ _ => rfl⟩
  have hsends : ∀ {k stamp q}, call.prepared c.toRest stamp = .ok q → (hearing s).sends k q := by
    intro k stamp q hq
    exact ⟨(Rest.sends_of_prepared hq).method, (Rest.sends_of_prepared hq).path⟩
  have hexecute : (call.deed c.toRest).Upholds (hearing s) (fun k o => k = some o) none :=
    hcalm.upholds_execute (Or.inr hsigner) hfits hsends (fun _ _ => rfl) none
  refine Act.Upholds.andThen (hexecute.mono ?_)
  rintro k o rfl
  cases o with
  | error e => exact ⟨.error e, rfl, rfl⟩
  | ok a => exact ⟨.ok a, rfl, rfl⟩

theorem shown_of_error {attempts : Nat} {e : Fault}
    (h : (o.bind fun a => a.decode attempts (Wire.balances s)) = .error e) :
    Shown s o (.error e) := by
  have hnone : ¬∃ entries, Accounts s o entries := by
    rintro ⟨entries, haccounts⟩
    obtain ⟨bs, hbs, -⟩ := (accounts_iff attempts).mp haccounts
    cases hbs.symm.trans h
  exact ⟨iff_of_true ⟨e, rfl⟩ hnone, fun entries haccounts => absurd ⟨entries, haccounts⟩ hnone⟩

theorem shown_of_ok {attempts : Nat} {cs : List CashAmount}
    (h : (o.bind fun a => a.decode attempts (Wire.balances s)) = .ok bs)
    (hnone : ∀ b ∈ bs, ¬b.entry.Excessive)
    (htells : List.Forall₂ Tells (shownEntries (bs.map Balance.entry)) cs) :
    Shown s o (.ok cs) := by
  refine ⟨iff_of_false nofun (not_not.mpr ⟨_, (accounts_iff attempts).mpr ⟨bs, h, rfl⟩⟩), ?_⟩
  intro entries haccounts
  obtain ⟨bs', hbs', rfl⟩ := (accounts_iff attempts).mp haccounts
  obtain rfl := Except.ok.inj (hbs'.symm.trans h)
  exact ⟨List.forall_mem_map.mpr hnone, cs, rfl, htells⟩

/-- **The account is turned into lines**, or everything ends where it lists too much. -/
theorem upholds_cash (hsigner : c.signer.isSome = true) (hfits : c.retry.fits = true) :
    c.cash.Upholds (hearing c.surface)
      (fun k out => ∃ o, k = some o ∧ Shown c.surface o out) none := by
  refine Act.Upholds.andThen (Act.Upholds.andThen ((upholds_getAccount hsigner hfits _).mono ?_))
  rintro k out ⟨o, rfl, rfl⟩
  cases hout : o.bind fun a => a.decode c.retry.attempts (Wire.balances c.surface) with
  | error e => exact ⟨o, rfl, shown_of_error hout⟩
  | ok bs =>
    dsimp only
    by_cases hexcess : ∃ b ∈ bs, b.entry.Excessive
    · rw [nonZero?_of_excessive hexcess]
      obtain ⟨b, hmem, hexcess⟩ := hexcess
      have haccounts := (accounts_iff c.retry.attempts).mpr ⟨bs, hout, rfl⟩
      exact ⟨o, _, rfl, haccounts, b.entry, List.mem_map_of_mem hmem, hexcess⟩
    · have hnone : ∀ b ∈ bs, ¬b.entry.Excessive := fun b hmem h => hexcess ⟨b, hmem, h⟩
      obtain ⟨ls, hls, hentries, hrest⟩ := nonZero?_of_not_excessive hnone
      obtain ⟨cs, hcs, htells⟩ := mapM_cash?_of_not_excessive hrest
      rw [hls]
      show (Act.lift (Act.orHalt .amountSum (ls.mapM Balance.cash?))).Upholds _ _ _
      rw [hcs]
      exact ⟨o, rfl, shown_of_ok hout hnone (hentries ▸ htells)⟩

/-- **Balances are told completely and exactly**, whatever the exchange answers and whatever others
do meanwhile.  An answer that is an account leads to one line for each entry that is not zero, in
order, and each tells its entry; any other answer is a failure.  Every document that can be read as
an account has entries, the numbers as they stand in it.  Just where the sum of what is free and
what is locked does not fit, on spot, everything ends instead. -/
theorem balances_reported (c : Client) (hsigner : c.signer.isSome = true)
    (hfits : c.retry.fits = true) :
    c.cash.Upholds (hearing c.surface)
        (fun k out => ∃ o, k = some o ∧ Shown c.surface o out) none ∧
      (∀ a bs, a.isSuccess = true → Json.decodeText (Wire.balances c.surface) a.body = .ok bs →
        ∃ entries, Accounts c.surface (.ok a) entries) ∧
      (c.surface ≠ .spot → c.surface ≠ .usSpot →
        ∀ o entries, Accounts c.surface o entries → ∀ e ∈ entries, ¬e.Excessive) := by
  refine ⟨upholds_cash hsigner hfits, fun a bs hsuccess hread => ?_,
    fun hspot husSpot o entries haccounts => ?_⟩
  · exact ⟨_, accounts_of_decodeText hsuccess hread⟩
  · obtain ⟨a, j, -, -, -, hsheet⟩ := haccounts
    exact hsheet.not_excessive hspot husSpot

/-- A client for a spot account. -/
def savingsClient : Client :=
  ⟨⟨"binance-spot", some ⟨"key", "secret", none⟩, RetryPolicy.standard⟩, Listing.ofSymbols .spot []⟩

theorem balances_reported_savings :
    savingsClient.signer.isSome = true ∧ savingsClient.retry.fits = true ∧
      savingsClient.cash.Upholds (hearing .spot)
        (fun k out => ∃ o, k = some o ∧ Shown .spot o out) none :=
  ⟨rfl, by decide, (balances_reported savingsClient rfl (by decide)).1⟩

/-- An account with one and a half of one asset, and one more of another than 96 bits can say. -/
def savings : String :=
  "\x7b\"balances\":[\x7b\"asset\":\"BTC\",\"free\":\"1\",\"locked\":\"0.5\"\x7d," ++
    "\x7b\"asset\":\"ETH\",\"free\":\"79228162514264337593543950335\",\"locked\":\"1\"\x7d]\x7d"

/-- The balances in it. -/
def savingsLines : List Balance :=
  [.spot "BTC" ((Decimal.ofInt? 1).getD .zero) ((Decimal.ofParts? 5 1).getD .zero),
    .spot "ETH" ((Decimal.ofInt? 79228162514264337593543950335).getD .zero)
      ((Decimal.ofInt? 1).getD .zero)]

/-- The document can be read as an account, but leads to no answer at all: not even the first asset
is told. -/
theorem excessive_savings :
    Json.decodeText (Wire.balances .spot) savings = .ok savingsLines ∧
      savingsClient.cash.Upholds (hearing .spot)
        (fun k _ => k ≠ some (.ok ⟨200, savings⟩)) none := by
  have hread : Json.decodeText (Wire.balances .spot) savings = .ok savingsLines := by
    decide +kernel
  have haccounts : Accounts .spot (.ok ⟨200, savings⟩) (savingsLines.map Balance.entry) :=
    accounts_of_decodeText (by decide) hread
  refine ⟨hread, (upholds_cash (c := savingsClient) rfl (by decide)).mono ?_⟩
  rintro k out ⟨o, rfl, hshown⟩ hsame
  obtain rfl := Option.some.inj hsame
  have hnone := (hshown.tells _ haccounts).1 _ (List.mem_map_of_mem (List.mem_of_mem_tail
    (List.mem_singleton_self _)))
  exact hnone (Balance.amount?_eq_none_iff.mp (by decide +kernel))

end Client
end OrderDesk
