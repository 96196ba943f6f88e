import OrderDesk.Client.History
import OrderDesk.Proofs.Digits
import OrderDesk.Proofs.Rest
import Mathlib.Data.List.Basic

/-!
# Complete histories

An exchange holds bars in the order of time, each at least one interval after the one before, and
answers a request for a page with the first of those that lie within its bounds.  A history that
is read from it has all the bars within its bounds, each once and in their order.

What carries the proof is what a page leaves to read: if the bars that a cursor covers are `L`, the
cursor after a page covers `L` without the bars of the page (`filter_covers_next`).  Bars of the
page are out of its sight because it moved past the newest of them, and no other bar is, since the
next one comes at least one interval later.
-/

namespace OrderDesk

/-- Every bar comes at least one interval after those before it. -/
def Spaced (step : Nat) (held : List Wire.BarRow) : Prop :=
  held.Pairwise fun (a b : Wire.BarRow) => a.openTime + step ≤ b.openTime

namespace HistoryCursor

/-! ## 1. Pages -/

theorem covers_iff {h : HistoryCursor} {row : Wire.BarRow} :
    h.covers row = true ↔ h.cursor ≤ row.openTime ∧ row.openTime ≤ h.finish := by
  simp only [covers, Bool.and_eq_true, decide_eq_true_eq]

/-- The newest open time is that of a row, and no row is newer. -/
theorem newest_eq_some {rows : List Wire.BarRow} (h : rows ≠ []) :
    ∃ m, newest rows = some m ∧ (∃ row ∈ rows, row.openTime = m) ∧
      ∀ row ∈ rows, row.openTime ≤ m := by
  induction rows with
  | nil => exact absurd rfl h
  | cons row rest ih =>
    by_cases hrest : rest = []
    · subst hrest
      refine ⟨row.openTime, rfl, ⟨row, List.mem_cons_self, rfl⟩, ?_⟩
      intro b hb
      obtain rfl := List.mem_singleton.mp hb
      exact Int.le_refl _
    · obtain ⟨m, hm, ⟨b, hb, hbm⟩, hall⟩ := ih hrest
      refine ⟨max row.openTime m, by simp only [newest, hm, Option.elim_some], ?_, ?_⟩
      · rcases Int.le_total row.openTime m with hle | hle
        · exact ⟨b, List.mem_cons_of_mem _ hb, by rw [hbm, Int.max_eq_right hle]⟩
        · exact ⟨row, List.mem_cons_self, by rw [Int.max_eq_left hle]⟩
      · intro a ha
        rcases List.mem_cons.mp ha with rfl | ha
        · exact Int.le_max_left _ _
        · exact Int.le_trans (hall a ha) (Int.le_max_right _ _)

/-- As many pages suffice: the cursor has passed the end, or fewer intervals are left. -/
def Suffices (fuel : Nat) (h : HistoryCursor) : Prop :=
  h.finish < h.cursor ∨ ((h.finish - h.cursor) / h.step).toNat < fuel

theorem suffices_pagesLeft (h : HistoryCursor) : Suffices (h.pagesLeft + 1) h :=
  Or.inr (by rw [pagesLeft]; omega)

/-- After a page one page less suffices. -/
theorem Suffices.step {h : HistoryCursor} {fuel : Nat} {cursor : Int} (hstep : 0 < h.step)
    (hfuel : Suffices (fuel + 1) h) (hcursor : h.cursor ≤ h.finish)
    (hmoved : h.cursor + h.step ≤ cursor) : Suffices fuel { h with cursor } := by
  have hleft := hfuel.resolve_left (Int.not_lt.mpr hcursor)
  rcases Int.lt_or_le h.finish cursor with hlt | hle
  · exact Or.inl hlt
  · refine Or.inr ?_
    dsimp only
    have hpos : (0 : Int) < h.step := by omega
    have hquot : (h.finish - cursor) / h.step + 1 ≤ (h.finish - h.cursor) / h.step := by
      rw [Int.le_ediv_iff_mul_le hpos, Int.add_mul]
      have := Int.ediv_mul_le (h.finish - cursor) (by omega : (h.step : Int) ≠ 0)
      omega
    have hnonneg : 0 ≤ (h.finish - cursor) / h.step := Int.ediv_nonneg (by omega) (by omega)
    omega

section Pages

variable {h : HistoryCursor} {held : List Wire.BarRow}

/-- **What a page leaves to read.** -/
theorem filter_covers_next (hstep : 0 < h.step)
    (hspaced : Spaced h.step held) {n : Nat} {m : Int}
    (hmem : ∃ row ∈ (held.filter h.covers).take n, row.openTime = m)
    (hmax : ∀ row ∈ (held.filter h.covers).take n, row.openTime ≤ m) :
    held.filter ({ h with cursor := m + h.step } : HistoryCursor).covers =
      (held.filter h.covers).drop n := by
  obtain ⟨newest, hnewest, rfl⟩ := hmem
  have hcovered : h.covers newest = true := List.of_mem_filter (List.mem_of_mem_take hnewest)
  have hlater : ∀ row ∈ (held.filter h.covers).drop n,
      newest.openTime + h.step ≤ row.openTime := by
    intro row hrow
    have hsplit : ((held.filter h.covers).Pairwise fun (a b : Wire.BarRow) =>
        a.openTime + h.step ≤ b.openTime) := List.Pairwise.filter h.covers hspaced
    rw [← List.take_append_drop n (held.filter h.covers), List.pairwise_append] at hsplit
    exact hsplit.2.2 newest hnewest row hrow
  have hnarrow : held.filter ({ h with cursor := newest.openTime + h.step } : HistoryCursor).covers
      = (held.filter h.covers).filter fun row => decide (newest.openTime + h.step ≤ row.openTime) := by
    rw [List.filter_filter]
    refine List.filter_congr ?_
    intro row _
    rw [Bool.eq_iff_iff, Bool.and_eq_true, decide_eq_true_eq, covers_iff, covers_iff]
    dsimp only
    have := covers_iff.mp hcovered
    constructor
    · rintro ⟨hlo, hhi⟩
      exact ⟨hlo, by omega, hhi⟩
    · rintro ⟨hlo, -, hhi⟩
      exact ⟨hlo, hhi⟩
  rw [hnarrow]
  conv_lhs => rw [← List.take_append_drop n (held.filter h.covers)]
  rw [List.filter_append, List.filter_eq_nil_iff.mpr, List.filter_eq_self.mpr, List.nil_append]
  · intro row hrow
    exact decide_eq_true (hlater row hrow)
  · intro row hrow
    have := hmax row hrow
    rw [decide_eq_true_eq]
    omega

/-- **What a page comes to.**  Where nothing is left it is the last; otherwise it has the first
bars that are left, and the cursor moves on by an interval at least. -/
theorem page_of_held (hstep : 0 < h.step) (hlimit : 0 < h.limit)
    (hrange : h.finish + h.step < Word.bound63)
    (hspaced : Spaced h.step held) :
    (held.filter h.covers = [] ∧ h.page ((held.filter h.covers).take h.limit) = .last) ∨
    (held.filter h.covers ≠ [] ∧ ∃ cursor, h.cursor + h.step ≤ cursor ∧
      h.page ((held.filter h.covers).take h.limit) =
        .more (((held.filter h.covers).take h.limit).map (·.bar)) { h with cursor } ∧
      held.filter ({ h with cursor } : HistoryCursor).covers =
        (held.filter h.covers).drop h.limit) := by
  by_cases hnil : held.filter h.covers = []
  · exact Or.inl ⟨hnil, by rw [hnil, List.take_nil]; rfl⟩
  · refine Or.inr ⟨hnil, ?_⟩
    have hrows : (held.filter h.covers).take h.limit ≠ [] := by
      rw [Ne, List.take_eq_nil_iff]
      rintro (hzero | hempty)
      · omega
      · exact hnil hempty
    obtain ⟨m, hm, hmem, hmax⟩ := newest_eq_some hrows
    have hkeep : ((held.filter h.covers).take h.limit).filter h.covers =
        (held.filter h.covers).take h.limit :=
      List.filter_eq_self.mpr fun row hrow => List.of_mem_filter (List.mem_of_mem_take hrow)
    obtain ⟨row, hrow, hrowm⟩ := hmem
    have hcovered := covers_iff.mp (List.of_mem_filter (List.mem_of_mem_take hrow))
    refine ⟨m + h.step, by omega, ?_,
      filter_covers_next hstep hspaced ⟨row, hrow, hrowm⟩ hmax⟩
    obtain ⟨first, rest, hcons⟩ := List.exists_cons_of_ne_nil hrows
    simp only [page, hm, hkeep]
    rw [hcons]
    exact if_pos (by omega : m + h.step < Word.bound63)

end Pages

end HistoryCursor

namespace Client

/-! ## 2. What the exchange answers -/

/-- The bars within some bounds. -/
def heldWithin (held : List Wire.BarRow) (start finish : Int) : List Wire.BarRow :=
  held.filter fun row => start ≤ row.openTime && row.openTime ≤ finish

/-- The request for a page. -/
def barsRequest (c : Client) (symbol interval : String) (start finish : Int) (limit : Nat) :
    HttpRequest :=
  Rest.openRequest c.surface.barsPath
    [("symbol", symbol), ("interval", interval), ("startTime", Text.ofInt start),
      ("endTime", Text.ofInt finish), ("limit", Text.ofNat limit)]

/-- A request for a page of a symbol is answered with the first bars that lie within its bounds;
about other requests nothing is said. -/
def Holds (c : Client) (symbol interval : String) (held : List Wire.BarRow) (r : HttpRequest)
    (o : Outcome HttpResponse) : Prop :=
  ∀ start finish limit, r = c.barsRequest symbol interval start finish limit →
    ∃ a, o = .ok a ∧ a.isSuccess = true ∧
      Json.decodeText (Json.decodeList Wire.barRow) a.body =
        .ok ((heldWithin held start finish).take limit)

/-- Requests for different pages are different, so that each has an answer of its own. -/
theorem barsRequest_injective {c : Client} {symbol interval : String} {a b a' b' : Int} {n n' : Nat}
    (h : c.barsRequest symbol interval a b n = c.barsRequest symbol interval a' b' n') :
    a = a' ∧ b = b' ∧ n = n' := by
  have hquery := congrArg (fun r : HttpRequest => r.query.toList) h
  simp only [barsRequest, Rest.openRequest_query, canonicalQuery, List.map_cons, List.map_nil,
    String.intercalate_cons_cons, String.intercalate_singleton, String.toList_append,
    List.append_assoc, List.append_cancel_left_eq] at hquery
  -- a number ends at the mark after it
  have hmarks : (Text.ofInt a).toList ++ '&' :: ("endTime".toList ++ ("=".toList ++
        ((Text.ofInt b).toList ++ '&' :: ("limit".toList ++ ("=".toList ++ (Text.ofNat n).toList)))))
      = (Text.ofInt a').toList ++ '&' :: ("endTime".toList ++ ("=".toList ++
        ((Text.ofInt b').toList ++ '&' :: ("limit".toList ++ ("=".toList ++
          (Text.ofNat n').toList))))) := hquery
  have hmark : ∀ m : Int, '&' ∉ (Text.ofInt m).toList :=
    Text.notMem_ofInt (by decide) (by decide)
  obtain ⟨hstart, hrest⟩ := Text.append_cons_injective (hmark a) (hmark a') hmarks
  rw [List.append_cancel_left_eq, List.append_cancel_left_eq] at hrest
  obtain ⟨hfinish, hlast⟩ := Text.append_cons_injective (hmark b) (hmark b') hrest
  rw [List.append_cancel_left_eq, List.append_cancel_left_eq] at hlast
  exact ⟨Text.ofInt_injective (String.toList_inj.mp hstart),
    Text.ofInt_injective (String.toList_inj.mp hfinish),
    Text.ofNat_injective (String.toList_inj.mp hlast)⟩

/-- Whatever the exchange holds, a body that has the first of it within the bounds is an answer. -/
theorem holds_of_body {c : Client} {symbol interval : String} {held : List Wire.BarRow}
    {start finish : Int} {limit : Nat} {a : HttpResponse} (hsuccess : a.isSuccess = true)
    (hrows : Json.decodeText (Json.decodeList Wire.barRow) a.body =
      .ok ((heldWithin held start finish).take limit)) :
    c.Holds symbol interval held (c.barsRequest symbol interval start finish limit) (.ok a) := by
  intro start' finish' limit' h
  obtain ⟨rfl, rfl, rfl⟩ := barsRequest_injective h
  exact ⟨a, rfl, hsuccess, hrows⟩

theorem not_isThrottled {a : HttpResponse} (h : a.isSuccess = true) : a.isThrottled = false := by
  simp only [HttpResponse.isSuccess, Bool.and_eq_true, decide_eq_true_eq] at h
  simp only [HttpResponse.isThrottled, beq_eq_false_iff_ne]
  omega

/-- **A page is read with one request**, and its rows are what the exchange holds. -/
theorem ensures_bars {c : Client} {symbol interval : String} {held : List Wire.BarRow}
    (hfits : c.retry.fits = true) {start finish : Int} {limit : Nat} {sent : List HttpRequest}
    {post : List HttpRequest → Outcome (List Wire.BarRow) → Prop}
    (h : post (sent ++ [c.barsRequest symbol interval start finish limit])
      (.ok ((heldWithin held start finish).take limit))) :
    (c.bars symbol interval start finish limit).Ensures
      (undisturbed (c.Holds symbol interval held)) post sent := by
  refine Rest.ensures_request c.toRest _ _ hfits ?_
  intro o ho
  obtain ⟨a, rfl, hsuccess, hrows⟩ := ho start finish limit rfl
  refine ⟨?_, ?_⟩
  · rintro b hb
    obtain rfl := Except.ok.inj hb
    exact not_isThrottled hsuccess
  · have hdecode : a.decode c.retry.attempts (Json.decodeList Wire.barRow) =
        .ok ((heldWithin held start finish).take limit) := by
      rw [HttpResponse.decode, if_neg (by rw [not_isThrottled hsuccess]; exact Bool.false_ne_true),
        if_neg (by rw [hsuccess]; exact Bool.false_ne_true), hrows]
    show post _ (a.decode c.retry.attempts (Json.decodeList Wire.barRow))
    rw [hdecode]
    exact h

/-! ## 3. Page after page -/

/-- The requests that a number of bars takes at most: a page for every `limit` bars or part of
it, and one that comes back empty. -/
def requestsFor (bars limit : Nat) : Nat := (bars + limit - 1) / limit + 1

/-- A page less is a request less. -/
theorem requestsFor_drop {bars limit : Nat} (hlimit : 0 < limit) (hbars : 0 < bars) :
    1 + requestsFor (bars - limit) limit ≤ requestsFor bars limit := by
  unfold requestsFor
  rcases Nat.le_total limit bars with hle | hle
  · have : bars + limit - 1 = (bars - limit + limit - 1) + limit := by omega
    rw [this, Nat.add_div_right _ hlimit]
    omega
  · have hnone : bars - limit + limit - 1 = limit - 1 := by omega
    have hfew : (limit - 1) / limit = 0 := Nat.div_eq_of_lt (by omega)
    have hone : 1 ≤ (bars + limit - 1) / limit := (Nat.one_le_div_iff hlimit).mpr (by omega)
    rw [hnone, hfew]
    omega

/-- **Reading on from a cursor yields all the bars that it covers.** -/
theorem ensures_readPages {c : Client} {held : List Wire.BarRow} (hfits : c.retry.fits = true)
    {fuel : Nat} :
    ∀ {h : HistoryCursor} {bars : List Bar} {sent : List HttpRequest}, 0 < h.step → 0 < h.limit →
      h.finish + h.step < Word.bound63 → Spaced h.step held → h.Suffices fuel →
      (c.readPages none fuel h bars).Ensures (undisturbed (c.Holds h.symbol h.interval held))
        (fun sent' out => out = (bars ++ (held.filter h.covers).map (·.bar), .finished) ∧
          sent'.length ≤ sent.length + requestsFor (held.filter h.covers).length h.limit) sent := by
  have hover : ∀ {h : HistoryCursor}, h.finish < h.cursor → held.filter h.covers = [] := by
    intro h hlt
    refine List.filter_eq_nil_iff.mpr ?_
    intro row _ hcovered
    have := HistoryCursor.covers_iff.mp hcovered
    omega
  induction fuel with
  | zero =>
    intro h bars sent _ _ _ _ hfuel
    rcases hfuel with hlt | hlt
    · refine ⟨?_, Nat.le_add_right _ _⟩
      rw [hover hlt, List.map_nil, List.append_nil]
    · exact absurd hlt (Nat.not_lt_zero _)
  | succ fuel ih =>
    intro h bars sent hstep hlimit hrange hspaced hfuel
    rw [readPages, if_neg (by simp [isEnough])]
    by_cases hcursor : h.cursor > h.finish
    · rw [if_pos hcursor]
      refine ⟨?_, Nat.le_add_right _ _⟩
      rw [hover hcursor, List.map_nil, List.append_nil]
    · rw [if_neg hcursor, Act.ensures_bind]
      have hwithin : heldWithin held h.cursor h.finish = held.filter h.covers := rfl
      refine ensures_bars hfits ?_
      dsimp only
      rw [hwithin]
      rcases HistoryCursor.page_of_held hstep hlimit hrange hspaced with
        ⟨hnil, hpage⟩ | ⟨hne, cursor, hmoved, hpage, hleft⟩
      · rw [hpage]
        refine ⟨?_, ?_⟩
        · rw [hnil, List.map_nil, List.append_nil]
        · rw [List.length_append, List.length_singleton]
          exact Nat.add_le_add_left (Nat.le_add_left 1 _) _
      · rw [hpage]
        have hnext := hfuel.step hstep (Int.not_lt.mp hcursor) hmoved
        refine (ih (h := { h with cursor }) hstep hlimit hrange hspaced hnext).mono ?_
        rintro sent' out ⟨rfl, hlength⟩
        rw [hleft] at hlength ⊢
        refine ⟨?_, ?_⟩
        · rw [List.append_assoc, ← List.map_append, List.take_append_drop]
        · have hfewer := requestsFor_drop hlimit (List.length_pos_iff.mpr hne)
          rw [List.length_drop, List.length_append, List.length_singleton] at hlength
          dsimp only at hlength
          omega

/-! ## 4. Histories -/

/-- The moments of instants, and intervals on top of them, stay within 63 bits. -/
theorem finish_in_range (t : Instant) (r : Resolution) :
    t.millis + (r.seconds * 1000 : Nat) < Word.bound63 := by
  have hlast := t.le_last
  have hnanos := t.nanos_lt
  have hseconds : r.seconds ≤ 86400 := by cases r <;> decide
  simp only [Instant.lastSecond, Instant.millis, Word.bound63] at hlast ⊢
  omega

/-- **A history is complete.**  Whatever happens at the desk meanwhile, as long as requests get
through to an exchange that holds these bars, reading the history of a listed instrument comes to
its end with exactly the bars whose open times lie within the bounds, each once and in the order of
time; and it takes no more requests than there are pages, and one. -/
theorem history_complete {c : Client} {r : HistoryRequest} {symbol interval : String}
    {held : List Wire.BarRow} (hfits : c.retry.fits = true)
    (horder : r.start.isAfter r.finish = false) (htrade : r.tickKind = .trade)
    (hinterval : r.resolution.interval? = some interval)
    (hsymbol : c.listing.wireSymbol r.instrument = .ok symbol)
    (hspaced : Spaced (r.resolution.seconds * 1000) held) :
    (c.history r none).Ensures (undisturbed (c.Holds symbol interval held))
      (fun sent out =>
        out = .ok ((heldWithin held r.start.millis r.finish.millis).map (·.bar), .finished) ∧
        sent.length ≤ requestsFor (heldWithin held r.start.millis r.finish.millis).length
          c.surface.barsPerPage) [] := by
  have hcursor : HistoryCursor.ofRequest c.listing r = .ok ⟨symbol, interval, r.start.millis,
      r.finish.millis, r.resolution.seconds * 1000, c.surface.barsPerPage⟩ := by
    simp only [HistoryCursor.ofRequest, horder, htrade, hinterval, hsymbol]
    rfl
  have hstep : 0 < r.resolution.seconds * 1000 := by
    cases hr : r.resolution with
    | tick => rw [hr] at hinterval; cases hinterval
    | second | minute | hour | daily => decide
  have hlimit : 0 < c.surface.barsPerPage := by
    unfold Surface.barsPerPage
    split <;> decide
  have hread := @ensures_readPages c held hfits _ ⟨symbol, interval, r.start.millis,
    r.finish.millis, r.resolution.seconds * 1000, c.surface.barsPerPage⟩ [] [] hstep hlimit
    (finish_in_range r.finish r.resolution) hspaced (HistoryCursor.suffices_pagesLeft _)
  rw [history, hcursor, Act.ofOutcome_ok_andThen, Act.lift, Act.ensures_bind]
  refine hread.mono ?_
  rintro sent out ⟨rfl, hlength⟩
  rw [List.length_nil, Nat.zero_add] at hlength
  exact ⟨rfl, hlength⟩

/-- A client of the spot market, where one symbol is listed. -/
def minuteClient : Client :=
  ⟨⟨"binance-spot", none, .standard⟩, ⟨.spot, .empty, ⟨[("BTCUSDT", "BTCUSDT")]⟩⟩⟩

/-- The first two minutes of 1970. -/
def minuteRequest : HistoryRequest :=
  ⟨⟨"BTCUSDT", .crypto, "binance"⟩, .epoch, .ofMillis 60000, .minute, .trade⟩

/-- A bar for each of them, and one more. -/
def minuteBars : List Wire.BarRow :=
  [⟨0, .zero, .zero, .zero, .zero, .zero⟩, ⟨60000, .zero, .zero, .zero, .zero, .zero⟩,
    ⟨120000, .zero, .zero, .zero, .zero, .zero⟩]

theorem history_complete_minutes :
    minuteClient.retry.fits = true ∧ minuteRequest.start.isAfter minuteRequest.finish = false ∧
      minuteRequest.tickKind = .trade ∧ minuteRequest.resolution.interval? = some "1m" ∧
      minuteClient.listing.wireSymbol minuteRequest.instrument = .ok "BTCUSDT" ∧
      Spaced (minuteRequest.resolution.seconds * 1000) minuteBars ∧
      minuteClient.Holds "BTCUSDT" "1m" minuteBars
        (minuteClient.barsRequest "BTCUSDT" "1m" 0 60000 1000)
        (.ok ⟨200, "[[0,\"0\",\"0\",\"0\",\"0\",\"0\"],[60000,\"0\",\"0\",\"0\",\"0\",\"0\"]]"⟩) ∧
      (minuteClient.history minuteRequest none).Ensures
        (undisturbed (minuteClient.Holds "BTCUSDT" "1m" minuteBars))
        (fun sent out =>
          out = .ok ((minuteBars.take 2).map (·.bar), .finished) ∧ sent.length ≤ 2) [] := by
  have hspaced : Spaced (minuteRequest.resolution.seconds * 1000) minuteBars := by
    unfold Spaced
    decide
  have hanswer : (Json.decodeText (Json.decodeList Wire.barRow)
      "[[0,\"0\",\"0\",\"0\",\"0\",\"0\"],[60000,\"0\",\"0\",\"0\",\"0\",\"0\"]]").toOption =
        some ((heldWithin minuteBars 0 60000).take 1000) := by decide +kernel
  refine ⟨by decide, by decide, rfl, rfl, rfl, hspaced, holds_of_body rfl ?_, ?_⟩
  · cases hdecoded : Json.decodeText (Json.decodeList Wire.barRow)
        "[[0,\"0\",\"0\",\"0\",\"0\",\"0\"],[60000,\"0\",\"0\",\"0\",\"0\",\"0\"]]" with
    | error e => rw [hdecoded] at hanswer; cases hanswer
    | ok rows => rw [hdecoded] at hanswer; exact congrArg Except.ok (Option.some.inj hanswer)
  · exact history_complete (by decide) (by decide) rfl rfl rfl hspaced

end Client
end OrderDesk
