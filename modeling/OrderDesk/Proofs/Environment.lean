import Mathlib
import OrderDesk.Proofs.Digits
import OrderDesk.Settings

/-!
# Settings that the environment supplies

Three variables of the environment are more than texts: the venue, the number of connections, and
the choice between tests and the live exchange.  What each of them denotes is said here without a
look at how it is read (`NamesVenue`, `Counts`, `Answers`).

The first two are read strictly: where such a variable is there, the settings have what it denotes,
and if it denotes nothing there are no settings.  The third is not: every text but `true`, a
misspelt one as well, stands for the live exchange, and nobody is told.  Both are one statement
(`environment_settles`), which says exactly which settings an environment supplies and exactly when
it supplies none; `misspelt_test_goes_live` is the harm that is done by the leniency.
-/

namespace OrderDesk

open OrderDesk.Text

/-! ## 1. What texts denote -/

/-- A name of a venue; capital and small ASCII letters are the same. -/
def NamesVenue (text : String) (v : Venue) : Prop :=
  ∃ known, (known, v) ∈ Venue.aliases ∧ sameAscii text known = true

/-- A positive number that fits a 64-bit word: digits, perhaps after a plus sign. -/
def Counts (text : String) (n : Nat) : Prop :=
  ∃ digits, (text.toList = digits ∨ text.toList = '+' :: digits) ∧
    natOfDigits? digits = some n ∧ 0 < n ∧ n < Word.bound64

/-- One of the two answers to a question. -/
def Answers (text : String) (b : Bool) : Prop := text = if b then "true" else "false"

/-- What an optional variable comes to: what its text denotes, or what stands for none. -/
def Supplies {α : Type} (text? : Option String) (denotes : String → α → Prop) (absent value : α) :
    Prop :=
  match text? with
  | some text => denotes text value
  | none => value = absent

/-- A variable is there and its text denotes nothing. -/
def Garbled {α : Type} (text? : Option String) (denotes : String → α → Prop) : Prop :=
  ∃ text, text? = some text ∧ ∀ a, ¬ denotes text a

/-- Where a variable is not garbled, it comes to something. -/
theorem exists_supplies_iff {α : Type} {text? : Option String} {denotes : String → α → Prop}
    {absent : α} : (∃ value, Supplies text? denotes absent value) ↔ ¬ Garbled text? denotes := by
  unfold Supplies Garbled
  cases text? with
  | none => simp
  | some text => simp

/-! ## 2. Venues -/

theorem Text.lowerAscii_eq_iff {text small : String} (h : lowerAscii small = small) :
    lowerAscii text = small ↔ sameAscii text small = true := by
  have hcase : ∀ cs ds : List Char, cs.map Char.toLower = ds.map Char.toLower ↔
      cs.map Char.toUpper = ds.map Char.toUpper := by
    intro cs ds
    constructor <;> intro heq
    · simpa [Function.comp_def] using congrArg (List.map Char.toUpper) heq
    · simpa [Function.comp_def] using congrArg (List.map Char.toLower) heq
  have hsmall : small.toList.map Char.toLower = small.toList := by
    rw [← String.toList_ofList (l := small.toList.map Char.toLower)]
    exact congrArg String.toList h
  rw [sameAscii, beq_iff_eq, ← hcase, hsmall, ← String.toList_inj, lowerAscii,
    String.toList_ofList]

namespace Venue

/-- **A venue is read just from its names.** -/
theorem ofSetting_eq_ok_iff {text : String} {v : Venue} :
    ofSetting text = .ok v ↔ NamesVenue text v := by
  have hsmall : ∀ entry ∈ aliases, lowerAscii entry.1 = entry.1 := by decide
  have hlookup : ∀ entry ∈ aliases, aliases.lookup entry.1 = some entry.2 := by decide
  have hread : ofSetting text = .ok v ↔ aliases.lookup (lowerAscii text) = some v := by
    simp only [ofSetting]
    cases aliases.lookup (lowerAscii text) <;> simp
  rw [hread]
  constructor
  · intro h
    obtain ⟨before, after, hsplit, -⟩ := List.lookup_eq_some_iff.mp h
    have hmem : (lowerAscii text, v) ∈ aliases := by rw [hsplit]; simp
    exact ⟨_, hmem, (lowerAscii_eq_iff (hsmall _ hmem)).mp rfl⟩
  · rintro ⟨known, hmem, hsame⟩
    rw [(lowerAscii_eq_iff (hsmall _ hmem)).mpr hsame]
    exact hlookup _ hmem

end Venue

/-! ## 3. Counts -/

namespace Settings

/-- A count has the digits of a number that fits a word. -/
theorem readCount_eq_ok_iff {value n : Nat} {cs : List Char} (hvalue : value < Word.bound64) :
    readCount value cs = .ok n ↔ valueFrom value cs = some n ∧ n < Word.bound64 := by
  induction cs generalizing value with
  | nil =>
    simp only [readCount, valueFrom, Except.ok.injEq, Option.some.injEq]
    constructor
    · rintro rfl
      exact ⟨rfl, hvalue⟩
    · exact fun h => h.1
  | cons c rest ih =>
    simp only [readCount, valueFrom]
    cases digit? c with
    | none => simp
    | some d =>
      dsimp only
      rw [Nat.mul_comm]
      split
      · rename_i hfits
        exact ih hfits
      · rename_i hfull
        constructor
        · intro hread
          cases hread
        · rintro ⟨hmore, hn⟩
          have := le_of_valueFrom hmore
          omega

/-- **A count is read just from digits**, perhaps after a plus sign. -/
theorem countOfText_eq_ok_iff {text : String} {n : Nat} :
    countOfText text = .ok n ↔ ∃ digits, (text.toList = digits ∨ text.toList = '+' :: digits) ∧
      natOfDigits? digits = some n ∧ n < Word.bound64 := by
  have hplus : ∀ cs, natOfDigits? ('+' :: cs) ≠ some n := fun cs => nofun
  have hread : ∀ c cs, readCount 0 (c :: cs) = .ok n ↔
      natOfDigits? (c :: cs) = some n ∧ n < Word.bound64 :=
    fun c cs => readCount_eq_ok_iff (by decide)
  unfold countOfText
  generalize text.toList = all
  split
  · simp [natOfDigits?]
  · simp [natOfDigits?, valueFrom, digit?]
  · rename_i rest hrest
    obtain ⟨c, cs, rfl⟩ := List.exists_cons_of_ne_nil hrest
    rw [hread]
    constructor
    · exact fun h => ⟨_, Or.inr rfl, h⟩
    · rintro ⟨digits, rfl | heq, h⟩
      · exact absurd h.1 (hplus _)
      · cases heq
        exact h
  · rename_i hnil _ hplain
    obtain ⟨c, cs, rfl⟩ := List.exists_cons_of_ne_nil hnil
    rw [hread]
    constructor
    · exact fun h => ⟨_, Or.inl rfl, h⟩
    · rintro ⟨digits, rfl | heq, h⟩
      · exact h
      · cases heq
        exact absurd rfl (hplain _)

/-! ## 4. Variables -/

variable {env : Environment} {stem name : String}

theorem venueVariable_eq_ok_iff {v : Venue} :
    venueVariable env name = .ok v ↔ Supplies (env.get? name) NamesVenue .binance v := by
  unfold venueVariable Supplies
  cases env.get? name with
  | some text => exact Venue.ofSetting_eq_ok_iff
  | none => simp [eq_comm]

/-- A count that is there is positive, but for one that is refused later. -/
theorem countVariable_eq_ok_iff {c : Option Nat} :
    countVariable env name = .ok c ∧ c ≠ some 0 ↔
      Supplies (env.get? name) (fun text c => ∃ n, c = some n ∧ Counts text n) none c := by
  unfold countVariable Supplies
  cases env.get? name with
  | none =>
    simp only [Except.ok.injEq]
    constructor
    · exact fun h => h.1.symm
    · rintro rfl
      exact ⟨rfl, nofun⟩
  | some text =>
    dsimp only
    constructor
    · rintro ⟨hread, hne⟩
      split at hread
      · rename_i n hcount
        cases hread
        obtain ⟨digits, htext, hvalue, hn⟩ := countOfText_eq_ok_iff.mp hcount
        exact ⟨n, rfl, digits, htext, hvalue,
          Nat.pos_of_ne_zero fun hzero => hne (congrArg some hzero), hn⟩
      · cases hread
    · rintro ⟨n, rfl, digits, htext, hvalue, hpos, hn⟩
      rw [countOfText_eq_ok_iff.mpr ⟨digits, htext, hvalue, hn⟩]
      exact ⟨rfl, by rintro ⟨⟩; exact absurd hpos (Nat.lt_irrefl 0)⟩

/-! ## 5. Settings -/

/-- The settings that an environment supplies. -/
structure Supplied (env : Environment) (stem : String) (s : Settings) : Prop where
  apiKey : env.get? (variableName stem "API_KEY") = some s.apiKey
  secret : env.get? (variableName stem "SECRET_KEY") = some s.secret
  venue : Supplies (env.get? (variableName stem "VENUE")) NamesVenue .binance s.venue
  connections : Supplies (env.get? (variableName stem "MAX_WS_CONNECTIONS"))
    (fun text c => ∃ n, c = some n ∧ Counts text n) none s.connections
  testnet : s.testnet = (env.get? (variableName stem "TESTNET") == some "true")
  restUrl : s.restUrl = env.get? (variableName stem "REST_URL")
  socketUrl : s.socketUrl = env.get? (variableName stem "WS_URL")
  receiveWindow : s.receiveWindow = none
  quota : s.quota = .standard
  retry : s.retry = .standard

/-- The settings with these values, and all else from the environment. -/
def assembled (env : Environment) (stem apiKey secret : String) (venue : Venue)
    (connections : Option Nat) : Settings where
  apiKey := apiKey
  secret := secret
  venue := venue
  testnet := env.get? (variableName stem "TESTNET") == some "true"
  restUrl := env.get? (variableName stem "REST_URL")
  socketUrl := env.get? (variableName stem "WS_URL")
  connections := connections

theorem ofEnvironment_eq {apiKey secret : String}
    (hkey : env.get? (variableName stem "API_KEY") = some apiKey)
    (hsecret : env.get? (variableName stem "SECRET_KEY") = some secret) :
    ofEnvironment env stem =
      (venueVariable env (variableName stem "VENUE")).bind fun venue =>
        (countVariable env (variableName stem "MAX_WS_CONNECTIONS")).bind fun connections =>
          (assembled env stem apiKey secret venue connections).validate.map fun _ =>
            assembled env stem apiKey secret venue connections := by
  simp only [ofEnvironment, neededVariable, hkey, hsecret]
  rfl

/-- Nothing else is wrong with settings of the environment than that they allow no connection. -/
theorem validate_assembled {apiKey secret : String} {venue : Venue} {connections : Option Nat} :
    (assembled env stem apiKey secret venue connections).validate = .ok () ↔
      connections ≠ some 0 := by
  have hrest : ¬ (RetryPolicy.standard.attempts = 0) ∧
      ¬ (Quota.standard.requests = 0 ∨ Quota.standard.window.isZero = true) := by decide
  unfold validate assembled
  dsimp only
  split
  · rename_i hzero
    exact iff_of_false nofun fun hne => hne hzero
  · rename_i hne
    rw [if_neg hrest.1, if_neg hrest.2]
    exact iff_of_true rfl hne

/-- What an environment supplies is assembled from what its variables are read as. -/
theorem supplied_iff {apiKey secret : String} {s : Settings}
    (hkey : env.get? (variableName stem "API_KEY") = some apiKey)
    (hsecret : env.get? (variableName stem "SECRET_KEY") = some secret) :
    Supplied env stem s ↔ ∃ venue connections,
      venueVariable env (variableName stem "VENUE") = .ok venue ∧
        countVariable env (variableName stem "MAX_WS_CONNECTIONS") = .ok connections ∧
        connections ≠ some 0 ∧ s = assembled env stem apiKey secret venue connections := by
  constructor
  · intro h
    obtain ⟨hcount, hne⟩ := countVariable_eq_ok_iff.mpr h.connections
    refine ⟨s.venue, s.connections, venueVariable_eq_ok_iff.mpr h.venue, hcount, hne, ?_⟩
    obtain rfl := Option.some.inj (hkey.symm.trans h.apiKey)
    obtain rfl := Option.some.inj (hsecret.symm.trans h.secret)
    obtain ⟨-, -, -, -, htestnet, hrest, hsocket, hwindow, hquota, hretry⟩ := h
    rw [assembled, ← htestnet, ← hrest, ← hsocket]
    cases s
    simp only at hwindow hquota hretry
    rw [hwindow, hquota, hretry]
  · rintro ⟨venue, connections, hvenue, hcount, hne, rfl⟩
    exact ⟨hkey, hsecret, venueVariable_eq_ok_iff.mp hvenue,
      countVariable_eq_ok_iff.mp ⟨hcount, hne⟩, rfl, rfl, rfl, rfl, rfl, rfl⟩

theorem ofEnvironment_eq_ok_iff {apiKey secret : String} {s : Settings}
    (hkey : env.get? (variableName stem "API_KEY") = some apiKey)
    (hsecret : env.get? (variableName stem "SECRET_KEY") = some secret) :
    ofEnvironment env stem = .ok s ↔ Supplied env stem s := by
  rw [ofEnvironment_eq hkey hsecret, supplied_iff hkey hsecret]
  cases venueVariable env (variableName stem "VENUE") with
  | error e => simp [Except.bind]
  | ok venue =>
  cases countVariable env (variableName stem "MAX_WS_CONNECTIONS") with
  | error e => simp [Except.bind]
  | ok connections =>
  have hvalid := @validate_assembled env stem apiKey secret venue connections
  cases hcheck : (assembled env stem apiKey secret venue connections).validate with
  | error e =>
    have hzero : ¬ connections ≠ some 0 := fun hne => by
      rw [hvalid.mpr hne] at hcheck
      cases hcheck
    simp [Except.bind, Except.map, hcheck, hzero]
  | ok =>
    have hne := hvalid.mp hcheck
    simp [Except.bind, Except.map, hcheck, hne, eq_comm]

/-! ## 6. Refusals -/

/-- Whatever a step refuses is called invalid. -/
def CallsInvalid {α : Type} (x : Except SettingsFault α) : Prop :=
  ∀ e, x = .error e → ∃ message, e = .invalid message

theorem CallsInvalid.ok {α : Type} (a : α) : CallsInvalid (.ok a) := nofun

theorem CallsInvalid.error {α : Type} (message : String) :
    CallsInvalid (.error (.invalid message) : Except SettingsFault α) := by
  rintro e ⟨⟩
  exact ⟨message, rfl⟩

theorem CallsInvalid.bind {α β : Type} {x : Except SettingsFault α}
    {f : α → Except SettingsFault β} (hx : CallsInvalid x) (hf : ∀ a, CallsInvalid (f a)) :
    CallsInvalid (x.bind f) := by
  cases x with
  | ok a => exact hf a
  | error e =>
    obtain ⟨message, rfl⟩ := hx e rfl
    exact .error message

theorem callsInvalid_venueVariable : CallsInvalid (venueVariable env name) := by
  unfold venueVariable
  split
  · simp only [Venue.ofSetting]
    split
    · exact .ok _
    · exact .error _
  · exact .ok _

theorem callsInvalid_countVariable : CallsInvalid (countVariable env name) := by
  unfold countVariable
  split
  · exact .ok _
  · split
    · exact .ok _
    · exact .error _

theorem callsInvalid_validate (s : Settings) : CallsInvalid s.validate := by
  unfold validate
  split
  · exact .error _
  · split
    · exact .error _
    · split
      · exact .error _
      · exact .ok _

/-- **Where both keys are there, whatever is refused is called invalid.** -/
theorem callsInvalid_ofEnvironment {apiKey secret : String}
    (hkey : env.get? (variableName stem "API_KEY") = some apiKey)
    (hsecret : env.get? (variableName stem "SECRET_KEY") = some secret) :
    CallsInvalid (ofEnvironment env stem) := by
  rw [ofEnvironment_eq hkey hsecret]
  refine callsInvalid_venueVariable.bind fun venue => ?_
  refine callsInvalid_countVariable.bind fun connections => ?_
  exact (callsInvalid_validate _).bind fun _ => .ok _

/-- An environment supplies settings just if neither of the two strict variables is garbled. -/
theorem exists_supplied_iff {apiKey secret : String}
    (hkey : env.get? (variableName stem "API_KEY") = some apiKey)
    (hsecret : env.get? (variableName stem "SECRET_KEY") = some secret) :
    (∃ s, Supplied env stem s) ↔
      ¬ Garbled (env.get? (variableName stem "VENUE")) NamesVenue ∧
        ¬ Garbled (env.get? (variableName stem "MAX_WS_CONNECTIONS")) Counts := by
  have hcount : Garbled (env.get? (variableName stem "MAX_WS_CONNECTIONS")) Counts ↔
      Garbled (env.get? (variableName stem "MAX_WS_CONNECTIONS"))
        fun text c => ∃ n, c = some n ∧ Counts text n := by
    refine exists_congr fun text => and_congr_right fun _ => ⟨fun h => ?_, fun h => ?_⟩
    · rintro _ ⟨n, rfl, hn⟩
      exact h n hn
    · exact fun n hn => h (some n) ⟨n, rfl, hn⟩
  rw [hcount, ← @exists_supplies_iff _ _ _ Venue.binance, ← @exists_supplies_iff _ _ _ none]
  constructor
  · rintro ⟨s, hs⟩
    exact ⟨⟨_, hs.venue⟩, ⟨_, hs.connections⟩⟩
  · rintro ⟨⟨venue, hvenue⟩, ⟨connections, hconnections⟩⟩
    exact ⟨assembled env stem apiKey secret venue connections,
      hkey, hsecret, hvenue, hconnections, rfl, rfl, rfl, rfl, rfl, rfl⟩

/-- Only `true` stands for tests. -/
theorem testnet_reads (text? : Option String) :
    (Garbled text? Answers → (text? == some "true") = false) ∧
      (¬ Garbled text? Answers → Supplies text? Answers false (text? == some "true")) := by
  cases text? with
  | none => exact ⟨fun _ => rfl, fun _ => rfl⟩
  | some text =>
    constructor
    · rintro ⟨_, ⟨⟩, hno⟩
      have htrue : text ≠ "true" := hno true
      simp [htrue]
    · intro hclear
      by_cases htrue : text = "true"
      · subst htrue
        rfl
      · have hfalse : Answers text false := by
          by_contra hno
          exact hclear ⟨text, rfl, by rintro (_ | _) <;> assumption⟩
        have hbeq : (some text == some "true") = false := by simp [htrue]
        rw [hbeq]
        exact hfalse

/-- **What an environment with both keys settles.**

* The settings are those that it supplies, and they pass the check.
* There are none just if the venue or the number of connections is garbled, and then the fault says
  that something is invalid.
* A garbled choice between tests and the live exchange is no fault: it stands for the live exchange,
  and with that exception the choice, too, is what its text denotes. -/
theorem environment_settles {apiKey secret : String}
    (hkey : env.get? (variableName stem "API_KEY") = some apiKey)
    (hsecret : env.get? (variableName stem "SECRET_KEY") = some secret) :
    (∀ s, ofEnvironment env stem = .ok s ↔ Supplied env stem s) ∧
    (∀ s, ofEnvironment env stem = .ok s → s.validate = .ok ()) ∧
    ((∃ s, ofEnvironment env stem = .ok s) ∨
      ∃ message, ofEnvironment env stem = .error (.invalid message)) ∧
    ((∃ message, ofEnvironment env stem = .error (.invalid message)) ↔
      Garbled (env.get? (variableName stem "VENUE")) NamesVenue ∨
        Garbled (env.get? (variableName stem "MAX_WS_CONNECTIONS")) Counts) ∧
    (∀ s, ofEnvironment env stem = .ok s →
      (Garbled (env.get? (variableName stem "TESTNET")) Answers → s.testnet = false) ∧
      (¬ Garbled (env.get? (variableName stem "TESTNET")) Answers →
        Supplies (env.get? (variableName stem "TESTNET")) Answers false s.testnet)) := by
  have hiff : ∀ s, ofEnvironment env stem = .ok s ↔ Supplied env stem s :=
    fun s => ofEnvironment_eq_ok_iff hkey hsecret
  have hends : (∃ s, ofEnvironment env stem = .ok s) ∨
      ∃ message, ofEnvironment env stem = .error (.invalid message) := by
    cases hend : ofEnvironment env stem with
    | ok s => exact Or.inl ⟨s, rfl⟩
    | error e =>
      obtain ⟨message, rfl⟩ := callsInvalid_ofEnvironment hkey hsecret e hend
      exact Or.inr ⟨message, rfl⟩
  refine ⟨hiff, ?valid, hends, ?refused, ?choice⟩
  case valid =>
    intro s hs
    obtain ⟨venue, connections, -, -, hne, rfl⟩ := (supplied_iff hkey hsecret).mp ((hiff s).mp hs)
    exact validate_assembled.mpr hne
  case refused =>
    have hnone : (∃ message, ofEnvironment env stem = .error (.invalid message)) ↔
        ¬ ∃ s, Supplied env stem s := by
      constructor
      · rintro ⟨message, herror⟩ ⟨s, hs⟩
        rw [(hiff s).mpr hs] at herror
        cases herror
      · intro hno
        exact hends.resolve_left fun ⟨s, hs⟩ => hno ⟨s, (hiff s).mp hs⟩
    rw [hnone, exists_supplied_iff hkey hsecret, not_and_or, not_not, not_not]
  case choice =>
    intro s hs
    rw [((hiff s).mp hs).testnet]
    exact testnet_reads _

/-- A complete environment of a desk that is tested. -/
def testDesk : Environment :=
  [("BOT_API_KEY", "key"), ("BOT_SECRET_KEY", "secret"), ("BOT_TESTNET", "true"),
    ("BOT_VENUE", "Futures"), ("BOT_MAX_WS_CONNECTIONS", "+3")]

theorem environment_settles_test :
    testDesk.get? (variableName "bot" "API_KEY") = some "key" ∧
      testDesk.get? (variableName "bot" "SECRET_KEY") = some "secret" ∧
      Supplied testDesk "bot"
        (assembled testDesk "bot" "key" "secret" .usdtFutures (some 3)) ∧
      (assembled testDesk "bot" "key" "secret" .usdtFutures (some 3)).testnet = true := by
  have hkey : testDesk.get? (variableName "bot" "API_KEY") = some "key" := by decide +kernel
  have hsecret : testDesk.get? (variableName "bot" "SECRET_KEY") = some "secret" := by
    decide +kernel
  have hread : ofEnvironment testDesk "bot" =
      .ok (assembled testDesk "bot" "key" "secret" .usdtFutures (some 3)) := by decide +kernel
  exact ⟨hkey, hsecret, ((environment_settles hkey hsecret).1 _).mp hread, by decide +kernel⟩

/-- **A misspelt choice goes live.**  `TRUE` is no answer, and yet there are settings, and they are
for the live exchange. -/
theorem misspelt_test_goes_live :
    (∀ b, ¬ Answers "TRUE" b) ∧
      ∃ s, ofEnvironment
          [("BOT_API_KEY", "key"), ("BOT_SECRET_KEY", "secret"), ("BOT_TESTNET", "TRUE")] "bot"
            = .ok s ∧ s.testnet = false := by
  refine ⟨by unfold Answers; decide, assembled
    [("BOT_API_KEY", "key"), ("BOT_SECRET_KEY", "secret"), ("BOT_TESTNET", "TRUE")]
    "bot" "key" "secret" .binance none, ?_, ?_⟩
  · decide +kernel
  · decide +kernel

end Settings
end OrderDesk
