import OrderDesk.Proofs.Paging

/-!
# Cursors

A page moves the cursor of a history one interval past its newest row, and that row need not lie
within the bounds of the history.  So the answer of an exchange can carry the cursor anywhere up to
the end of the range, and beyond it: if one row of a page is within the bounds and one is so late
that no interval can be added to its open time, everything ends there (`Overruns`).

Nothing else can go wrong.  Whatever is answered, a page either brings nothing and is the last one,
or overruns, or moves the cursor on, and then strictly and within its range (`page_ends`); and a
reading breaks off just at a page that overruns (`history_cursor_moves`).  That there are such pages
is shown by `stray_row_overruns`: a good row and a stray one are enough.
-/

namespace OrderDesk

namespace HistoryCursor

variable {h : HistoryCursor} {rows : List Wire.BarRow} {cursor : Int}

/-! ## 1. One page -/

/-- No row is within the bounds. -/
def Passes (h : HistoryCursor) (rows : List Wire.BarRow) : Prop :=
  ∀ row ∈ rows, h.covers row = false

/-- A row is within the bounds, and a row is so late that no interval can be added to it. -/
def Overruns (h : HistoryCursor) (rows : List Wire.BarRow) : Prop :=
  (∃ row ∈ rows, h.covers row = true) ∧ ∃ row ∈ rows, Word.bound63 ≤ row.openTime + h.step

/-- A row is within the bounds, and the cursor is moved one interval past the newest row. -/
structure Moves (h : HistoryCursor) (rows : List Wire.BarRow) (cursor : Int) : Prop where
  yields : ∃ row ∈ rows, h.covers row = true
  reached : ∃ row ∈ rows, row.openTime + h.step = cursor
  newest : ∀ row ∈ rows, row.openTime + h.step ≤ cursor
  inRange : cursor < Word.bound63

/-- **A cursor that moves, moves on.** -/
theorem Moves.lt (hmoves : h.Moves rows cursor) (hstep : 0 < h.step) : h.cursor < cursor := by
  obtain ⟨row, hrow, hcovered⟩ := hmoves.yields
  have := (covers_iff.mp hcovered).1
  have := hmoves.newest row hrow
  omega

/-- The rows within the bounds are none just if the page passes. -/
theorem filter_covers_eq_nil : rows.filter h.covers = [] ↔ h.Passes rows := by
  rw [List.filter_eq_nil_iff]
  exact forall₂_congr fun row _ => by rw [Bool.not_eq_true]

theorem yields_of_filter {row : Wire.BarRow} {rest : List Wire.BarRow}
    (hrows : rows.filter h.covers = row :: rest) : ∃ row ∈ rows, h.covers row = true := by
  have hmem : row ∈ rows.filter h.covers := by rw [hrows]; exact List.mem_cons_self
  exact ⟨row, List.mem_of_mem_filter hmem, List.of_mem_filter hmem⟩

/-- What the end of a page says about its rows. -/
def Page.Tells (h : HistoryCursor) (rows : List Wire.BarRow) : Page → Prop
  | .last => h.Passes rows
  | .outOfRange => h.Overruns rows
  | .more bars next => bars = (rows.filter h.covers).map (·.bar) ∧
      ∃ cursor, next = { h with cursor } ∧ h.Moves rows cursor

/-- **What a page comes to** is what its rows say. -/
theorem page_tells (h : HistoryCursor) (rows : List Wire.BarRow) : (h.page rows).Tells h rows := by
  cases hrows : rows.filter h.covers with
  | nil =>
    have hlast : h.page rows = .last := by
      unfold page
      rw [hrows]
      cases newest rows <;> rfl
    rw [hlast]
    exact filter_covers_eq_nil.mp hrows
  | cons row rest =>
    have hyields := yields_of_filter hrows
    have hne : rows ≠ [] := by
      rintro rfl
      cases hrows
    obtain ⟨m, hm, ⟨newest, hnewest, rfl⟩, hmax⟩ := newest_eq_some hne
    by_cases hrange : newest.openTime + h.step < Word.bound63
    · have hmore : h.page rows = .more ((rows.filter h.covers).map (·.bar))
          { h with cursor := newest.openTime + h.step } := by
        simp only [page, hm, hrows, if_pos hrange]
      rw [hmore]
      refine ⟨rfl, _, rfl, hyields, ⟨newest, hnewest, rfl⟩, fun row hrow => ?_, hrange⟩
      have := hmax row hrow
      omega
    · have hout : h.page rows = .outOfRange := by
        simp only [page, hm, hrows, if_neg hrange]
      rw [hout]
      exact ⟨hyields, newest, hnewest, Int.not_lt.mp hrange⟩

end HistoryCursor

namespace Client

open HistoryCursor

variable {c : Client} {h : HistoryCursor} {pages : List PageRead} {cursor : Int}

/-! ## 2. Page after page -/

/-- A page was asked for over and over while the exchange asked for patience, and its rows are what
the last answer says, whatever that is. -/
def Took (c : Client) (h : HistoryCursor) (p : PageRead) : Prop :=
  ∃ o, Rest.Persisted (fun _ _ => True)
      (c.barsRequest h.symbol h.interval p.start h.finish h.limit) (c.retry.attempts - 1 + 1)
      p.tries o ∧
    p.rows = o.bind fun a => a.decode c.retry.attempts (Json.decodeList Wire.barRow)

/-- Pages that were read one after another, each of which moved the cursor. -/
inductive Turned (c : Client) (h : HistoryCursor) : List PageRead → Int → Prop
  | start : Turned c h [] h.cursor
  | page {pages : List PageRead} {p : PageRead} {rows : List Wire.BarRow} {next : Int} :
      Turned c h pages p.start → c.Took h p → p.rows = .ok rows →
        { h with cursor := p.start }.Moves rows next → Turned c h (pages ++ [p]) next

/-- **Cursors ascend**, and stay in their range. -/
theorem Turned.ascends (hstep : 0 < h.step) (hturned : c.Turned h pages cursor) :
    (pages.map (·.start) ++ [cursor]).Pairwise (· < ·) ∧ (pages = [] ∨ cursor < Word.bound63) := by
  induction hturned with
  | start => exact ⟨List.pairwise_singleton _ _, Or.inl rfl⟩
  | page hbefore htook hrows hmoves ih =>
    refine ⟨?_, Or.inr hmoves.inRange⟩
    have hlt := hmoves.lt hstep
    dsimp only at hlt
    rw [List.map_append, List.map_singleton, List.pairwise_append]
    refine ⟨ih.1, List.pairwise_singleton _ _, fun start hstart last hlast => ?_⟩
    obtain rfl := List.mem_singleton.mp hlast
    rcases List.mem_append.mp hstart with hearlier | hlatest
    · have := (List.pairwise_append.mp ih.1).2.2 start hearlier _ (List.mem_singleton.mpr rfl)
      omega
    · obtain rfl := List.mem_singleton.mp hlatest
      exact hlt

/-- The log of pages that moved the cursor. -/
def Stopped (c : Client) (h : HistoryCursor)
    (log : List (HttpRequest × Outcome HttpResponse)) : Prop :=
  ∃ pages cursor, c.Turned h pages cursor ∧ log = pages.flatMap (c.pageLog h)

/-- The log of such pages and of a last one whose rows are like that. -/
def StoppedAt (c : Client) (h : HistoryCursor)
    (last : HistoryCursor → Outcome (List Wire.BarRow) → Prop)
    (log : List (HttpRequest × Outcome HttpResponse)) : Prop :=
  ∃ pages p, c.Turned h pages p.start ∧ c.Took h p ∧ last { h with cursor := p.start } p.rows ∧
    log = (pages ++ [p]).flatMap (c.pageLog h)

/-- The reading came to a page that overran. -/
def Overran (c : Client) (h : HistoryCursor) :
    List (HttpRequest × Outcome HttpResponse) → Prop :=
  c.StoppedAt h fun h rows => ∃ read, rows = .ok read ∧ h.Overruns read

/-- The reading ended after a page that moved the cursor, or after one that was not read or brought
nothing. -/
def Settled (c : Client) (h : HistoryCursor)
    (log : List (HttpRequest × Outcome HttpResponse)) : Prop :=
  c.Stopped h log ∨ c.StoppedAt h (fun h rows => ∀ read, rows = .ok read → h.Passes read) log

/-- Everything ends only where a page overruns. -/
def pageCompany (c : Client) (h : HistoryCursor) :
    Company DeskState (List (HttpRequest × Outcome HttpResponse)) :=
  (logged fun _ _ => True).ending (c.Overran h)

/-- **A page is taken in** with the requests for it. -/
theorem ensures_took (hfits : c.retry.fits = true)
    {log : List (HttpRequest × Outcome HttpResponse)} :
    (c.bars h.symbol h.interval cursor h.finish h.limit).Ensures (c.pageCompany h)
      (fun log' rows => ∃ tries, log' = log ++ c.pageLog h ⟨cursor, tries, rows⟩ ∧
        c.Took h ⟨cursor, tries, rows⟩) log := by
  refine Act.Ensures.ending nofun ((Rest.ensures_request_logged c.toRest _ _ hfits).mono ?_)
  rintro log' rows ⟨o, rfl, tries, rfl, htries⟩
  exact ⟨tries, rfl, o, htries, rfl⟩

/-- **Reading on from a cursor.**  The induction is on the fuel; what was read before is known. -/
theorem ensures_turned (hfits : c.retry.fits = true) {wanted : Option Nat} {fuel : Nat} :
    ∀ {pages : List PageRead} {cursor : Int} {bars : List Bar}, c.Turned h pages cursor →
      (c.readPages wanted fuel { h with cursor } bars).Ensures (c.pageCompany h)
        (fun log _ => c.Settled h log) (pages.flatMap (c.pageLog h)) := by
  induction fuel with
  | zero => exact fun hturned => Or.inl ⟨_, _, hturned, rfl⟩
  | succ fuel ih =>
    intro pages cursor bars hturned
    have hstop : c.Settled h (pages.flatMap (c.pageLog h)) := Or.inl ⟨_, _, hturned, rfl⟩
    rw [readPages]
    split
    · exact hstop
    split
    · exact hstop
    rw [Act.ensures_bind]
    refine (ensures_took hfits).mono ?_
    rintro log' out ⟨tries, rfl, htook⟩
    have hlog : pages.flatMap (c.pageLog h) ++ c.pageLog h ⟨cursor, tries, out⟩ =
        (pages ++ [(⟨cursor, tries, out⟩ : PageRead)]).flatMap (c.pageLog h) := by
      rw [List.flatMap_append, List.flatMap_singleton]
    dsimp only at htook ⊢
    rw [hlog]
    cases out with
    | error e => exact Or.inr ⟨pages, _, hturned, htook, (fun _ hread => by cases hread), rfl⟩
    | ok rows =>
    dsimp only
    have htells := page_tells { h with cursor } rows
    cases hpage : ({ h with cursor } : HistoryCursor).page rows with
    | last =>
      rw [hpage] at htells
      refine Or.inr ⟨pages, _, hturned, htook, ?_, rfl⟩
      rintro _ ⟨⟩
      exact htells
    | outOfRange =>
      rw [hpage] at htells
      exact ⟨pages, _, hturned, htook, ⟨rows, rfl, htells⟩, rfl⟩
    | more new next =>
      rw [hpage] at htells
      obtain ⟨-, moved, rfl, hmoves⟩ := htells
      have hnext : c.Turned h (pages ++ [⟨cursor, tries, .ok rows⟩]) moved :=
        hturned.page htook rfl hmoves
      cases wanted with
      | none => exact ih hnext
      | some n =>
        dsimp only
        split
        · exact Or.inl ⟨_, _, hnext, rfl⟩
        · exact ih hnext

/-! ## 3. Histories -/

variable {r : HistoryRequest}

/-- The interval of a request that is served is not empty. -/
theorem step_pos_of_ofRequest {l : Listing} (hstart : HistoryCursor.ofRequest l r = .ok h) :
    0 < h.step := by
  unfold HistoryCursor.ofRequest at hstart
  split at hstart
  · cases hstart
  split at hstart
  · cases hstart
  split at hstart
  · cases hstart
  · rename_i interval hinterval
    cases hsymbol : l.wireSymbol r.instrument with
    | error e => rw [hsymbol] at hstart; cases hstart
    | ok symbol =>
      rw [hsymbol] at hstart
      cases hstart
      exact Nat.lt_of_lt_of_le (by decide) (second_le_step hinterval)

/-- **The cursor of a history only moves on**, whatever the exchange answers, until a page overruns.

* Whatever pages were read one after another, their cursors ascend strictly, and the next one is in
  its range.
* Everything ends halfway only at a page that overruns; where the reading comes to an end, no page
  did. -/
theorem history_cursor_moves {wanted : Option Nat} (hfits : c.retry.fits = true)
    (hstart : HistoryCursor.ofRequest c.listing r = .ok h) :
    (∀ pages cursor, c.Turned h pages cursor →
      (pages.map (·.start) ++ [cursor]).Pairwise (· < ·) ∧
        (pages = [] ∨ cursor < Word.bound63)) ∧
    (c.history r wanted).Ensures ((logged fun _ _ => True).ending (c.Overran h))
      (fun log _ => c.Settled h log) [] := by
  refine ⟨fun pages cursor => Turned.ascends (step_pos_of_ofRequest hstart), ?_⟩
  rw [history, hstart, Act.ofOutcome_ok_andThen, Act.lift, Act.ensures_bind]
  exact ensures_turned hfits (Turned.start : c.Turned h [] h.cursor)

theorem history_cursor_moves_minutes :
    minuteClient.retry.fits = true ∧
      HistoryCursor.ofRequest minuteClient.listing minuteRequest =
        .ok (minuteClient.historyStart minuteRequest "BTCUSDT" "1m") ∧
      (minuteClient.history minuteRequest none).Ensures
        ((logged fun _ _ => True).ending
          (minuteClient.Overran (minuteClient.historyStart minuteRequest "BTCUSDT" "1m")))
        (fun log _ =>
          minuteClient.Settled (minuteClient.historyStart minuteRequest "BTCUSDT" "1m") log) [] :=
  ⟨by decide, rfl, (history_cursor_moves (by decide) rfl).2⟩

/-- A page with a good row, and with one that opens at the end of the range. -/
def strayPage : HttpResponse :=
  ⟨200, "[[0,\"0\",\"0\",\"0\",\"0\",\"0\"],[9223372036854775807,\"0\",\"0\",\"0\",\"0\",\"0\"]]"⟩

/-- **A stray row is enough** for everything to end. -/
theorem stray_row_overruns :
    ((minuteClient.history minuteRequest none).breakdown (.start ⟨1, 100⟩ 0)
      fun _ => .ok strayPage) = some .sum ∧
    ¬ (minuteClient.history minuteRequest none).Ensures (logged fun _ _ => True)
      (fun _ _ => True) [] := by
  have hbreaks : ((minuteClient.history minuteRequest none).breakdown (.start ⟨1, 100⟩ 0)
      fun _ => .ok strayPage) = some .sum := by decide +kernel
  refine ⟨hbreaks, fun hensures => ?_⟩
  have hgate : (DeskState.start ⟨1, 100⟩ 0).gate.fits (DeskState.start ⟨1, 100⟩ 0).now = true := by
    decide
  obtain ⟨_, hfalse⟩ := hensures.of_breakdown (fun _ => hgate) (fun _ => trivial) hbreaks
  exact hfalse

end Client
end OrderDesk
