import OrderDesk.Proofs.History
import OrderDesk.Proofs.Rest.Persistence

/-!
# Histories come to an end

What the exchange answers to the requests for pages need not make sense: a page may repeat or
overlap what was read before, it may have rows before its start or beyond its end, it may be short
or empty, and requests may fail.  All that is assumed is that the rows of a page are in the order of
time, and so far from the end of time that an interval can be added (`Ascending`).

A history that is read from such an exchange still comes to its end, in order and without
repetitions.  A page counts only if it has a row within its bounds; the next page then starts
beyond all its rows, and so at least one interval later (`page_eq_more`).  From this everything
follows by an induction over the pages (`Paged`).

The one thing that does not follow is about the very end of time.  A history may end in the leap
second after the last second of the calendar, and a row may open then; but no instant is made from
its milliseconds, so that its bar opens at the epoch.
-/

namespace OrderDesk

/-- Rows in the order of time, and an interval can be added to each. -/
def Ascending (step : Nat) (rows : List Wire.BarRow) : Prop :=
  (rows.Pairwise fun (a b : Wire.BarRow) => a.openTime < b.openTime) ∧
    ∀ row ∈ rows, row.openTime + step < Word.bound63

/-- Where an answer has rows they are in order; about other answers nothing is said. -/
def AnswersAscend (step : Nat) (_ : HttpRequest) (o : Outcome HttpResponse) : Prop :=
  ∀ a rows, o = .ok a → a.isSuccess = true →
    Json.decodeText (Json.decodeList Wire.barRow) a.body = .ok rows → Ascending step rows

/-! ## 1. Instants and milliseconds -/

namespace Instant

/-- The milliseconds from which no instant is made any more. -/
def millisBound : Int := (lastSecond + 1) * 1000

/-- Before the bound, no milliseconds are lost. -/
theorem millis_ofMillis {a : Instant} {ms : Int} (ha : a.millis ≤ ms) (hms : ms < millisBound) :
    (ofMillis ms).millis = ms := by
  have hfirst := a.first_le
  simp only [millis, millisBound] at ha hms
  have hnanos : (ms % 1000 * 1000000).toNat < 1000000000 := by omega
  have hparts : (ms % 1000 * 1000000).toNat < 2000000000 ∧
      firstSecond ≤ ms / 1000 ∧ ms / 1000 ≤ lastSecond := ⟨by omega, by omega, by omega⟩
  rw [ofMillis, ofMillis?, ofParts?, dif_pos hparts]
  show ms / 1000 * 1000 + (((ms % 1000 * 1000000).toNat / 1000000 : Nat) : Int) = ms
  omega

/-- The order in time goes by seconds first. -/
theorem le_of_not_isAfter {a b : Instant} (h : a.isAfter b = false) :
    a.seconds < b.seconds ∨ a.seconds = b.seconds ∧ a.nanos ≤ b.nanos := by
  have hne : a.compare b ≠ .gt := by simpa only [isAfter, beq_eq_false_iff_ne] using h
  rcases Int.lt_trichotomy a.seconds b.seconds with hlt | heq | hgt
  · exact Or.inl hlt
  · refine Or.inr ⟨heq, Nat.le_of_not_lt fun hnanos => hne ?_⟩
    rw [compare, heq, Std.compare_self, Nat.compare_eq_gt.mpr hnanos]
    rfl
  · refine absurd ?_ hne
    rw [compare, Int.compare_eq_gt.mpr hgt]
    rfl

/-- What is not after another instant has fewer milliseconds, but for those of a leap second. -/
theorem millis_lt_of_not_isAfter {a b : Instant} (h : a.isAfter b = false) :
    a.millis < b.millis + 1000 := by
  have hnanos := a.nanos_lt
  simp only [millis]
  rcases le_of_not_isAfter h with hlt | ⟨heq, hle⟩ <;> omega

end Instant

/-! ## 2. Pages -/

namespace HistoryCursor

variable {h next : HistoryCursor} {rows : List Wire.BarRow} {new : List Bar}

theorem newest_eq_none (hnone : newest rows = none) : rows = [] := by
  cases rows with
  | nil => rfl
  | cons row rest => cases hnone

/-- The last page has no row within its bounds. -/
theorem page_eq_last (hpage : h.page rows = .last) : rows.filter h.covers = [] := by
  unfold page at hpage
  split at hpage
  · split at hpage <;> cases hpage
  · rename_i hother
    cases hnewest : newest rows with
    | none => rw [newest_eq_none hnewest]; rfl
    | some m =>
      cases hrows : rows.filter h.covers with
      | nil => rfl
      | cons row rest => exact absurd hrows (hother m row rest hnewest)

/-- **After a page that counts the next one starts beyond all its rows**, at least one interval
later. -/
theorem page_eq_more (hpage : h.page rows = .more new next) :
    ∃ cursor, next = { h with cursor } ∧ h.cursor + h.step ≤ cursor ∧
      new = (rows.filter h.covers).map (·.bar) ∧
      ∀ row ∈ rows, row.openTime + h.step ≤ cursor := by
  unfold page at hpage
  split at hpage
  · rename_i m row rest hm hrows
    split at hpage
    · cases hpage
      have hne : rows ≠ [] := by
        rintro rfl
        cases hm
      obtain ⟨m', hm', -, hmax⟩ := newest_eq_some hne
      obtain rfl := Option.some.inj (hm.symm.trans hm')
      have hmem : row ∈ rows.filter h.covers := by rw [hrows]; exact List.mem_cons_self
      have hcovered := covers_iff.mp (List.of_mem_filter hmem)
      have hrow := hmax row (List.mem_of_mem_filter hmem)
      refine ⟨_, rfl, by omega, by rw [hrows], fun row' hrow' => ?_⟩
      have := hmax row' hrow'
      omega
    · cases hpage
  · cases hpage

/-- A page that an interval can be added to does not leave the range. -/
theorem page_ne_outOfRange (hrows : Ascending h.step rows) : h.page rows ≠ .outOfRange := by
  intro hpage
  unfold page at hpage
  split at hpage
  · rename_i m row rest hm _
    split at hpage
    · cases hpage
    · rename_i hrange
      have hne : rows ≠ [] := by
        rintro rfl
        cases hm
      obtain ⟨m', hm', ⟨newest, hmem, rfl⟩, -⟩ := newest_eq_some hne
      obtain rfl := Option.some.inj (hm.symm.trans hm')
      exact hrange (hrows.2 newest hmem)
  · cases hpage

end HistoryCursor

/-! ## 3. What a reading comes to -/

/-- A page that was asked for: its start, the answers that came, and the rows that were read from
the last of them. -/
structure PageRead where
  start : Int
  tries : List (Outcome HttpResponse)
  rows : Outcome (List Wire.BarRow)

namespace PageRead

/-- The page was read. -/
def isRead (p : PageRead) : Prop := ∃ rows, p.rows = .ok rows

/-- Its rows within the bounds. -/
def within (finish : Int) (p : PageRead) : List Wire.BarRow :=
  match p.rows with
  | .ok rows => Client.heldWithin rows p.start finish
  | .error _ => []

theorem mem_within {finish : Int} {p : PageRead} {row : Wire.BarRow} (h : row ∈ p.within finish) :
    p.start ≤ row.openTime ∧ row.openTime ≤ finish ∧ ∃ rows, p.rows = .ok rows ∧ row ∈ rows := by
  unfold within at h
  split at h
  · rename_i rows hrows
    obtain ⟨hmem, hcovered⟩ := List.mem_filter.mp h
    rw [Bool.and_eq_true, decide_eq_true_eq, decide_eq_true_eq] at hcovered
    exact ⟨hcovered.1, hcovered.2, rows, hrows, hmem⟩
  · cases h

end PageRead

/-- All pages were read, or all but the last, which failed. -/
inductive Ended : List PageRead → HistoryEnd → Prop
  | finished {pages : List PageRead} : (∀ p ∈ pages, p.isRead) → Ended pages .finished
  | failed {pages : List PageRead} {p : PageRead} {e : Fault} : (∀ p ∈ pages, p.isRead) →
      p.rows = .error e → Ended (pages ++ [p]) (.failed e)

theorem Ended.cons {pages : List PageRead} {p : PageRead} {ending : HistoryEnd} (hp : p.isRead)
    (h : Ended pages ending) : Ended (p :: pages) ending := by
  cases h with
  | finished hall => exact .finished (List.forall_mem_cons.mpr ⟨hp, hall⟩)
  | failed hall hlast => exact .failed (List.forall_mem_cons.mpr ⟨hp, hall⟩) hlast

/-- What reading on from a cursor comes to: the pages, the bars, and the end. -/
inductive Paged : HistoryCursor → List PageRead → List Bar → HistoryEnd → Prop
  | past {h : HistoryCursor} : h.finish < h.cursor → Paged h [] [] .finished
  | failed {h : HistoryCursor} {tries : List (Outcome HttpResponse)} {e : Fault} :
      h.cursor ≤ h.finish → Paged h [⟨h.cursor, tries, .error e⟩] [] (.failed e)
  | last {h : HistoryCursor} {tries : List (Outcome HttpResponse)} {rows : List Wire.BarRow} :
      h.cursor ≤ h.finish → h.page rows = .last →
        Paged h [⟨h.cursor, tries, .ok rows⟩] [] .finished
  | more {h next : HistoryCursor} {tries : List (Outcome HttpResponse)} {rows : List Wire.BarRow}
      {new bars : List Bar} {pages : List PageRead} {ending : HistoryEnd} :
      h.cursor ≤ h.finish → h.page rows = .more new next → Paged next pages bars ending →
        Paged h (⟨h.cursor, tries, .ok rows⟩ :: pages) (new ++ bars) ending

/-- A reading in order.

* `interval` and `apart`: each page starts at least one interval after those before it;
* `few`: there are no more pages than intervals, and one;
* `gathered`: the bars are those of the rows of all pages within the bounds;
* `ascending` and `covered`: these rows ascend, and lie within the bounds of the history;
* `ended`: a failure is the end. -/
structure Orderly (h : HistoryCursor) (pages : List PageRead) (rows : List Wire.BarRow)
    (bars : List Bar) (ending : HistoryEnd) : Prop where
  interval : 0 < h.step
  apart : pages.Pairwise fun (p q : PageRead) => p.start + h.step ≤ q.start
  few : (pages.length : Int) ≤ (h.finish - h.cursor) / h.step + 1
  gathered : rows = pages.flatMap (·.within h.finish)
  bars_eq : bars = rows.map (·.bar)
  ascending : rows.Pairwise fun (a b : Wire.BarRow) => a.openTime < b.openTime
  covered : ∀ row ∈ rows, h.cursor ≤ row.openTime ∧ row.openTime ≤ h.finish
  ended : Ended pages ending

namespace Paged

variable {h : HistoryCursor} {pages : List PageRead} {bars : List Bar} {ending : HistoryEnd}

/-- Pages start within the bounds. -/
theorem start_mem (hpaged : Paged h pages bars ending) {p : PageRead} (hp : p ∈ pages) :
    h.cursor ≤ p.start ∧ p.start ≤ h.finish := by
  induction hpaged with
  | past => cases hp
  | failed hcursor | last hcursor =>
    obtain rfl := List.mem_singleton.mp hp
    exact ⟨Int.le_refl _, hcursor⟩
  | more hcursor hpage _ ih =>
    obtain ⟨cursor, rfl, hmoved, -, -⟩ := HistoryCursor.page_eq_more hpage
    rcases List.mem_cons.mp hp with rfl | hp
    · exact ⟨Int.le_refl _, hcursor⟩
    · have := ih hp
      dsimp only at this
      omega

theorem apart (hpaged : Paged h pages bars ending) :
    pages.Pairwise fun (p q : PageRead) => p.start + h.step ≤ q.start := by
  induction hpaged with
  | past => exact .nil
  | failed | last => exact List.pairwise_singleton _ _
  | more _ hpage hrest ih =>
    obtain ⟨cursor, rfl, hmoved, -, -⟩ := HistoryCursor.page_eq_more hpage
    refine List.pairwise_cons.mpr ⟨fun q hq => ?_, ih⟩
    have := (hrest.start_mem hq).1
    dsimp only at this ⊢
    omega

/-- The last page, too, starts before the end. -/
theorem steps_le (hpaged : Paged h pages bars ending) :
    pages = [] ∨ ((pages.length : Int) - 1) * h.step ≤ h.finish - h.cursor := by
  induction hpaged with
  | past => exact Or.inl rfl
  | failed hcursor | last hcursor =>
    rw [List.length_singleton]
    exact Or.inr (by omega)
  | @more h next _ _ _ _ pages _ hcursor hpage _ ih =>
    obtain ⟨cursor, rfl, hmoved, -, -⟩ := HistoryCursor.page_eq_more hpage
    refine Or.inr ?_
    rw [List.length_cons, Int.natCast_succ, Int.add_sub_cancel]
    rcases ih with rfl | hfew
    · rw [List.length_nil, Int.natCast_zero, Int.zero_mul]
      omega
    · rw [Int.sub_mul, Int.one_mul] at hfew
      dsimp only at hfew
      omega

/-- **There are no more pages than intervals, and one.** -/
theorem few (hpaged : Paged h pages bars ending) (hstep : 0 < h.step)
    (horder : h.cursor ≤ h.finish + h.step) :
    (pages.length : Int) ≤ (h.finish - h.cursor) / h.step + 1 := by
  have hpos : (0 : Int) < h.step := by omega
  rcases hpaged.steps_le with rfl | hfew
  · have : -1 ≤ (h.finish - h.cursor) / (h.step : Int) := by
      rw [Int.le_ediv_iff_mul_le hpos]
      omega
    rw [List.length_nil]
    omega
  · have := (Int.le_ediv_iff_mul_le hpos).mpr hfew
    omega

theorem ended (hpaged : Paged h pages bars ending) : Ended pages ending := by
  induction hpaged with
  | past => exact .finished nofun
  | @failed h tries e _ =>
    show Ended ([] ++ [⟨h.cursor, tries, .error e⟩]) _
    exact .failed nofun rfl
  | last => exact .finished (List.forall_mem_singleton.mpr ⟨_, rfl⟩)
  | more _ _ _ ih => exact ih.cons ⟨_, rfl⟩

theorem bars_eq (hpaged : Paged h pages bars ending) :
    bars = (pages.flatMap (·.within h.finish)).map (·.bar) := by
  induction hpaged with
  | past | failed => rfl
  | @last h tries rows _ hpage =>
    have hnone : PageRead.within h.finish ⟨h.cursor, tries, .ok rows⟩ = [] :=
      HistoryCursor.page_eq_last hpage
    rw [List.flatMap_singleton, hnone, List.map_nil]
  | more _ hpage _ ih =>
    obtain ⟨cursor, rfl, -, rfl, -⟩ := HistoryCursor.page_eq_more hpage
    rw [List.flatMap_cons, List.map_append, ih]
    rfl

theorem covered (hpaged : Paged h pages bars ending) {row : Wire.BarRow}
    (hrow : row ∈ pages.flatMap (·.within h.finish)) :
    h.cursor ≤ row.openTime ∧ row.openTime ≤ h.finish := by
  obtain ⟨p, hp, hrow⟩ := List.mem_flatMap.mp hrow
  obtain ⟨hstart, hfinish, -⟩ := PageRead.mem_within hrow
  exact ⟨Int.le_trans (hpaged.start_mem hp).1 hstart, hfinish⟩

/-- **The rows of all pages ascend**: later pages start beyond the rows of this one. -/
theorem ascending (hpaged : Paged h pages bars ending) (hstep : 0 < h.step)
    (hrows : ∀ p ∈ pages, ∀ rows, p.rows = .ok rows → Ascending h.step rows) :
    (pages.flatMap (·.within h.finish)).Pairwise
      fun (a b : Wire.BarRow) => a.openTime < b.openTime := by
  have hone : ∀ p : PageRead, (∀ rows, p.rows = .ok rows → Ascending h.step rows) →
      (p.within h.finish).Pairwise fun (a b : Wire.BarRow) => a.openTime < b.openTime := by
    intro p hp
    unfold PageRead.within
    split
    · rename_i rows hok
      exact (hp rows hok).1.filter _
    · exact .nil
  induction hpaged with
  | past => exact .nil
  | failed | last =>
    rw [List.flatMap_singleton]
    exact hone _ (hrows _ List.mem_cons_self)
  | more _ hpage hrest ih =>
    obtain ⟨cursor, rfl, -, -, hbeyond⟩ := HistoryCursor.page_eq_more hpage
    rw [List.flatMap_cons, List.pairwise_append]
    refine ⟨hone _ (hrows _ List.mem_cons_self),
      ih hstep (fun p hp => hrows p (List.mem_cons_of_mem _ hp)) hone, fun a ha b hb => ?_⟩
    obtain ⟨-, -, rows, hok, hmem⟩ := PageRead.mem_within ha
    cases hok
    have hstart := (hrest.covered hb).1
    have hmax := hbeyond a hmem
    dsimp only at hstart
    omega

/-- **A reading is in order** if the rows of its pages are. -/
theorem orderly (hpaged : Paged h pages bars ending) (hstep : 0 < h.step)
    (horder : h.cursor ≤ h.finish + h.step)
    (hrows : ∀ p ∈ pages, ∀ rows, p.rows = .ok rows → Ascending h.step rows) :
    ∃ rows, Orderly h pages rows bars ending :=
  ⟨_, {
    interval := hstep
    apart := hpaged.apart
    few := hpaged.few hstep horder
    gathered := rfl
    bars_eq := hpaged.bars_eq
    ascending := hpaged.ascending hstep hrows
    covered := fun _ => hpaged.covered
    ended := hpaged.ended }⟩

end Paged

namespace Client

/-! ## 4. Page after page -/

/-- The requests for a page, with their answers. -/
def pageLog (c : Client) (h : HistoryCursor) (p : PageRead) :
    List (HttpRequest × Outcome HttpResponse) :=
  p.tries.map (c.barsRequest h.symbol h.interval p.start h.finish h.limit, ·)

/-- A page was asked for over and over while the exchange asked for patience, and its rows are what
the last answer says. -/
def Reads (c : Client) (h : HistoryCursor) (p : PageRead) : Prop :=
  ∃ o, Rest.Persisted (AnswersAscend h.step)
      (c.barsRequest h.symbol h.interval p.start h.finish h.limit) (c.retry.attempts - 1 + 1)
      p.tries o ∧
    p.rows = o.bind fun a => a.decode c.retry.attempts (Json.decodeList Wire.barRow)

variable {c : Client} {h : HistoryCursor}

theorem Reads.ascending {p : PageRead} (hreads : c.Reads h p) {rows : List Wire.BarRow}
    (hrows : p.rows = .ok rows) : Ascending h.step rows := by
  obtain ⟨o, htries, ho⟩ := hreads
  rw [hrows] at ho
  cases o with
  | error e => cases ho
  | ok a =>
    obtain ⟨hsuccess, hbody⟩ := HttpResponse.decode_eq_ok_iff.mp ho.symm
    exact htries.answers_of_ok a rows rfl hsuccess hbody

/-- A page is read with the requests for it. -/
theorem ensures_page (hfits : c.retry.fits = true)
    {log : List (HttpRequest × Outcome HttpResponse)} :
    (c.bars h.symbol h.interval h.cursor h.finish h.limit).Ensures (logged (AnswersAscend h.step))
      (fun log' rows => ∃ tries, log' = log ++ c.pageLog h ⟨h.cursor, tries, rows⟩ ∧
        c.Reads h ⟨h.cursor, tries, rows⟩) log := by
  refine (Rest.ensures_request_logged c.toRest _ _ hfits).mono ?_
  rintro log' rows ⟨o, rfl, tries, rfl, htries⟩
  exact ⟨tries, rfl, o, htries, rfl⟩

/-- What is known where reading on from a cursor comes to its end. -/
def PagedTo (c : Client) (h : HistoryCursor) (bars : List Bar)
    (log log' : List (HttpRequest × Outcome HttpResponse)) (out : List Bar × HistoryEnd) : Prop :=
  ∃ pages new, out.1 = bars ++ new ∧ Paged h pages new out.2 ∧
    log' = log ++ pages.flatMap (c.pageLog h) ∧ ∀ p ∈ pages, c.Reads h p

section PagedTo

variable {bars : List Bar} {log : List (HttpRequest × Outcome HttpResponse)}

theorem pagedTo_past (hpast : h.finish < h.cursor) :
    c.PagedTo h bars log log (bars, .finished) :=
  ⟨[], [], (List.append_nil _).symm, .past hpast, (List.append_nil _).symm, nofun⟩

/-- One page is the end. -/
theorem pagedTo_single {p : PageRead} {ending : HistoryEnd} (hpaged : Paged h [p] [] ending)
    (hreads : c.Reads h p) : c.PagedTo h bars log (log ++ c.pageLog h p) (bars, ending) := by
  refine ⟨[p], [], (List.append_nil _).symm, hpaged, ?_, List.forall_mem_singleton.mpr hreads⟩
  rw [List.flatMap_singleton]

/-- One page before those of the next cursor. -/
theorem PagedTo.cons {tries : List (Outcome HttpResponse)} {rows : List Wire.BarRow}
    {new : List Bar} {cursor : Int} {log' : List (HttpRequest × Outcome HttpResponse)}
    {out : List Bar × HistoryEnd} (hcursor : h.cursor ≤ h.finish)
    (hpage : h.page rows = .more new { h with cursor })
    (hreads : c.Reads h ⟨h.cursor, tries, .ok rows⟩)
    (hrest : c.PagedTo { h with cursor } (bars ++ new)
      (log ++ c.pageLog h ⟨h.cursor, tries, .ok rows⟩) log' out) :
    c.PagedTo h bars log log' out := by
  obtain ⟨pages, rest, hbars, hpaged, rfl, hall⟩ := hrest
  refine ⟨⟨h.cursor, tries, .ok rows⟩ :: pages, new ++ rest, ?_, .more hcursor hpage hpaged, ?_,
    List.forall_mem_cons.mpr ⟨hreads, hall⟩⟩
  · rw [hbars, List.append_assoc]
  · rw [List.flatMap_cons, ← List.append_assoc]
    rfl

end PagedTo

/-- Past the end nothing is asked. -/
theorem readPages_of_past {fuel : Nat} {bars : List Bar} (hpast : h.finish < h.cursor) :
    c.readPages none fuel h bars = .done (bars, .finished) := by
  cases fuel with
  | zero => rfl
  | succ fuel => rw [readPages, if_neg (by simp [isEnough]), if_pos hpast]

/-- **Reading on from a cursor** comes to pages that are read one after another.  The induction is
on the fuel, which suffices after a page if it did before. -/
theorem ensures_paged (hfits : c.retry.fits = true) {fuel : Nat} :
    ∀ {h : HistoryCursor} {bars : List Bar} {log : List (HttpRequest × Outcome HttpResponse)},
      0 < h.step → h.Suffices fuel →
      (c.readPages none fuel h bars).Ensures (logged (AnswersAscend h.step))
        (c.PagedTo h bars log) log := by
  induction fuel with
  | zero =>
    intro h bars log _ hfuel
    exact pagedTo_past (hfuel.resolve_right (Nat.not_lt_zero _))
  | succ fuel ih =>
    intro h bars log hstep hfuel
    by_cases hpast : h.finish < h.cursor
    · rw [readPages_of_past hpast]
      exact pagedTo_past hpast
    rw [readPages, if_neg (by simp [isEnough]), if_neg hpast, Act.ensures_bind]
    have hcursor := Int.not_lt.mp hpast
    refine (ensures_page hfits).mono ?_
    rintro log' out ⟨tries, rfl, hreads⟩
    cases out with
    | error e => exact pagedTo_single (.failed hcursor) hreads
    | ok rows =>
    dsimp only
    cases hpage : h.page rows with
    | last => exact pagedTo_single (.last hcursor hpage) hreads
    | outOfRange => exact absurd hpage (HistoryCursor.page_ne_outOfRange (hreads.ascending rfl))
    | more new next =>
      obtain ⟨cursor, rfl, hmoved, -, -⟩ := HistoryCursor.page_eq_more hpage
      exact (ih (h := { h with cursor }) hstep (hfuel.step hstep hcursor hmoved)).mono
        fun _ _ => PagedTo.cons hcursor hpage hreads

/-- **More fuel changes nothing**, whatever is answered. -/
theorem readPages_eq_of_suffices (c : Client) {fuel fuel' : Nat} :
    ∀ {h : HistoryCursor} {bars : List Bar}, 0 < h.step → h.Suffices fuel → h.Suffices fuel' →
      c.readPages none fuel h bars = c.readPages none fuel' h bars := by
  induction fuel generalizing fuel' with
  | zero =>
    intro h bars _ hfuel _
    have hpast := hfuel.resolve_right (Nat.not_lt_zero _)
    rw [readPages_of_past hpast, readPages_of_past hpast]
  | succ fuel ih =>
    intro h bars hstep hfuel hfuel'
    by_cases hpast : h.finish < h.cursor
    · rw [readPages_of_past hpast, readPages_of_past hpast]
    cases fuel' with
    | zero => exact absurd (hfuel'.resolve_right (Nat.not_lt_zero _)) hpast
    | succ fuel' =>
      have hcursor := Int.not_lt.mp hpast
      simp only [readPages]
      congr 3
      funext out
      cases out with
      | error e => rfl
      | ok rows =>
        dsimp only
        cases hpage : h.page rows with
        | last | outOfRange => rfl
        | more new next =>
          obtain ⟨cursor, rfl, hmoved, -, -⟩ := HistoryCursor.page_eq_more hpage
          exact ih (h := { h with cursor }) hstep (hfuel.step hstep hcursor hmoved)
            (hfuel'.step hstep hcursor hmoved)

/-! ## 5. Histories -/

/-- Where the reading of a history starts. -/
def historyStart (c : Client) (r : HistoryRequest) (symbol interval : String) : HistoryCursor :=
  ⟨symbol, interval, r.start.millis, r.finish.millis, r.resolution.seconds * 1000,
    c.surface.barsPerPage⟩

variable {r : HistoryRequest} {symbol interval : String}

/-- A resolution of the exchange is one second at least. -/
theorem second_le_step (hinterval : r.resolution.interval? = some interval) :
    1000 ≤ r.resolution.seconds * 1000 := by
  cases hr : r.resolution with
  | tick => rw [hr] at hinterval; cases hinterval
  | second | minute | hour | daily => decide

/-- A request that can be served is read page by page. -/
theorem history_eq (horder : r.start.isAfter r.finish = false) (htrade : r.tickKind = .trade)
    (hinterval : r.resolution.interval? = some interval)
    (hsymbol : c.listing.wireSymbol r.instrument = .ok symbol) :
    c.history r none = .lift (c.readPages none ((c.historyStart r symbol interval).pagesLeft + 1)
      (c.historyStart r symbol interval) []) := by
  have hcursor : HistoryCursor.ofRequest c.listing r = .ok (c.historyStart r symbol interval) := by
    simp only [HistoryCursor.ofRequest, horder, htrade, hinterval, hsymbol]
    rfl
  rw [history, hcursor, Act.ofOutcome_ok_andThen]

/-- Bars in the order of time, between these bounds. -/
def Timely (bars : List Bar) (start finish : Int) : Prop :=
  (bars.Pairwise fun (a b : Bar) => a.openTime.millis < b.openTime.millis) ∧
    ∀ bar ∈ bars, start ≤ bar.openTime.millis ∧ bar.openTime.millis ≤ finish

/-- The bars of a reading in order are in order, unless it reaches the end of time. -/
theorem timely_of_orderly {pages : List PageRead} {rows : List Wire.BarRow} {bars : List Bar}
    {ending : HistoryEnd} (h : Orderly (c.historyStart r symbol interval) pages rows bars ending)
    (hend : r.finish.millis < Instant.millisBound) :
    Timely bars r.start.millis r.finish.millis := by
  have hmillis : ∀ row ∈ rows, row.bar.openTime.millis = row.openTime := fun row hrow =>
    Instant.millis_ofMillis (h.covered row hrow).1 (Int.lt_of_le_of_lt (h.covered row hrow).2 hend)
  rw [h.bars_eq]
  refine ⟨List.pairwise_map.mpr (h.ascending.imp_of_mem fun ha hb hlt => ?_), ?_⟩
  · rw [hmillis _ ha, hmillis _ hb]
    exact hlt
  · intro bar hbar
    obtain ⟨row, hrow, rfl⟩ := List.mem_map.mp hbar
    rw [hmillis row hrow]
    exact h.covered row hrow

/-- **Histories come to an end, in order**, whatever the exchange answers.  The fuel of the reading
never runs out (any more of it changes nothing).  Pages are read until the end is passed or one
brings nothing; they are few, each starts at least one interval after the one before, and a failure
is the end.  The bars are those of the rows within the bounds, which ascend; so do the bars
themselves, unless the history ends in the leap second after the last second of the calendar. -/
theorem history_ascends (hfits : c.retry.fits = true)
    (horder : r.start.isAfter r.finish = false) (htrade : r.tickKind = .trade)
    (hinterval : r.resolution.interval? = some interval)
    (hsymbol : c.listing.wireSymbol r.instrument = .ok symbol) :
    (∀ fuel, (c.historyStart r symbol interval).pagesLeft < fuel →
      c.history r none =
        .lift (c.readPages none fuel (c.historyStart r symbol interval) [])) ∧
    (c.history r none).Ensures (logged (AnswersAscend (r.resolution.seconds * 1000)))
      (fun log out => ∃ pages rows bars ending, out = .ok (bars, ending) ∧
        log = pages.flatMap (c.pageLog (c.historyStart r symbol interval)) ∧
        (∀ p ∈ pages, c.Reads (c.historyStart r symbol interval) p) ∧
        Paged (c.historyStart r symbol interval) pages bars ending ∧
        Orderly (c.historyStart r symbol interval) pages rows bars ending ∧
        (r.finish.millis < Instant.millisBound →
          Timely bars r.start.millis r.finish.millis)) [] := by
  have hsecond := second_le_step hinterval
  have hstep : 0 < (c.historyStart r symbol interval).step := Nat.lt_of_lt_of_le (by decide) hsecond
  have hbounds := Instant.millis_lt_of_not_isAfter horder
  have hnotLate : (c.historyStart r symbol interval).cursor ≤
      (c.historyStart r symbol interval).finish + (c.historyStart r symbol interval).step := by
    dsimp only [historyStart]
    omega
  have hhistory := history_eq (c := c) horder htrade hinterval hsymbol
  have hpages := HistoryCursor.suffices_pagesLeft (c.historyStart r symbol interval)
  refine ⟨fun fuel hfuel => ?_, ?_⟩
  · rw [hhistory, c.readPages_eq_of_suffices hstep hpages]
    rw [HistoryCursor.pagesLeft] at hfuel
    exact Or.inr (by omega)
  · rw [hhistory, Act.lift, Act.ensures_bind]
    refine (ensures_paged hfits hstep hpages).mono ?_
    rintro log ⟨bars, ending⟩ ⟨pages, new, rfl, hpaged, rfl, hreads⟩
    obtain ⟨rows, horderly⟩ :=
      hpaged.orderly hstep hnotLate fun p hp _ hrows => (hreads p hp).ascending hrows
    exact ⟨pages, rows, bars, ending, rfl, rfl, hreads, hpaged, horderly,
      timely_of_orderly horderly⟩

/-- A page of two minutes that starts before it was asked for. -/
def stalePage : HttpResponse :=
  ⟨200, "[[-60000,\"0\",\"0\",\"0\",\"0\",\"0\"],[0,\"0\",\"0\",\"0\",\"0\",\"0\"]]"⟩

theorem answersAscend_of_body {step : Nat} {q : HttpRequest} {a : HttpResponse}
    {rows : List Wire.BarRow} (hrows : Ascending step rows)
    (hbody : (Json.decodeText (Json.decodeList Wire.barRow) a.body).toOption = some rows) :
    AnswersAscend step q (.ok a) := by
  intro a' rows' ha _ hrows'
  cases ha
  rw [hrows'] at hbody
  obtain rfl : rows' = rows := Option.some.inj hbody
  exact hrows

theorem history_ascends_minutes :
    minuteClient.retry.fits = true ∧ minuteRequest.start.isAfter minuteRequest.finish = false ∧
      minuteRequest.tickKind = .trade ∧ minuteRequest.resolution.interval? = some "1m" ∧
      minuteClient.listing.wireSymbol minuteRequest.instrument = .ok "BTCUSDT" ∧
      AnswersAscend 60000 (minuteClient.barsRequest "BTCUSDT" "1m" 0 60000 1000) (.ok stalePage) ∧
      (minuteClient.history minuteRequest none).Ensures (logged (AnswersAscend 60000))
        (fun _ out => ∃ bars ending, out = .ok (bars, ending) ∧ Timely bars 0 60000) [] := by
  have hpage : Ascending 60000
      [⟨-60000, .zero, .zero, .zero, .zero, .zero⟩, ⟨0, .zero, .zero, .zero, .zero, .zero⟩] := by
    unfold Ascending
    decide
  refine ⟨by decide, by decide, rfl, rfl, rfl,
    answersAscend_of_body hpage (by decide +kernel), ?_⟩
  have hsymbol : minuteClient.listing.wireSymbol minuteRequest.instrument = .ok "BTCUSDT" := rfl
  have hinterval : minuteRequest.resolution.interval? = some "1m" := rfl
  refine (history_ascends (by decide) (by decide) rfl hinterval hsymbol).2.mono ?_
  rintro log out ⟨pages, rows, bars, ending, rfl, -, -, -, -, htimely⟩
  exact ⟨bars, ending, rfl, htimely (by decide)⟩

/-- The last minute of the calendar, with its leap second. -/
def lateRequest : HistoryRequest where
  instrument := ⟨"BTCUSDT", .crypto, "binance"⟩
  start := .ofMillis (Instant.millisBound - 60000)
  finish := (Instant.ofParts? Instant.lastSecond 1000000000).getD .epoch
  resolution := .minute
  tickKind := .trade

/-- Two rows of that minute; the second opens in the leap second. -/
def latePage : HttpResponse :=
  ⟨200, "[[8210266876799000,\"0\",\"0\",\"0\",\"0\",\"0\"]," ++
    "[8210266876800000,\"0\",\"0\",\"0\",\"0\",\"0\"]]"⟩

/-- The bar of a row in the leap second at the end of time opens at the epoch. -/
theorem history_leaves_bounds :
    minuteClient.retry.fits = true ∧ lateRequest.start.isAfter lateRequest.finish = false ∧
      lateRequest.tickKind = .trade ∧ lateRequest.resolution.interval? = some "1m" ∧
      minuteClient.listing.wireSymbol lateRequest.instrument = .ok "BTCUSDT" ∧
      ¬ (minuteClient.history lateRequest none).Ensures (logged (AnswersAscend 60000))
        (fun _ out => ∃ bars ending, out = .ok (bars, ending) ∧
          Timely bars lateRequest.start.millis lateRequest.finish.millis) [] := by
  have hpage : Ascending 60000 [⟨8210266876799000, .zero, .zero, .zero, .zero, .zero⟩,
      ⟨8210266876800000, .zero, .zero, .zero, .zero, .zero⟩] := by
    unfold Ascending
    decide
  refine ⟨by decide, by decide, rfl, rfl, rfl, fun hensures => ?_⟩
  have hsample : (((minuteClient.history lateRequest none).sample (.start ⟨1, 100⟩ 0)
      fun _ => .ok latePage).map fun out =>
        out.toOption.map fun o => o.1.map (·.openTime.millis)) =
      some (some [8210266876799000, 0]) := by decide +kernel
  obtain ⟨out, hout, htimes⟩ := Option.map_eq_some_iff.mp hsample
  have hgate : (DeskState.start ⟨1, 100⟩ 0).gate.fits (DeskState.start ⟨1, 100⟩ 0).now = true := by
    decide
  obtain ⟨-, bars, ending, rfl, -, hbounds⟩ := hensures.of_sample (fun _ => hgate)
    (fun q => answersAscend_of_body (q := q) hpage (by decide +kernel)) hout
  have hepoch : (0 : Int) ∈ bars.map (·.openTime.millis) := by
    rw [show bars.map (·.openTime.millis) = _ from Option.some.inj htimes]
    decide
  obtain ⟨bar, hbar, hzero⟩ := List.mem_map.mp hepoch
  have hlate := (hbounds bar hbar).1
  rw [hzero] at hlate
  exact absurd hlate (by decide)

end Client

end OrderDesk
