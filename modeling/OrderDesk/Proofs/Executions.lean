import OrderDesk.Proofs.Orders.Names
import OrderDesk.Stream.Message

/-!
# One execution in two documents

The exchange reports an execution in one of two ways.  On spot markets the fields stand in the
document itself, beside the field `e` that says what the document is about (`report`); on futures
they stand in an object of their own, and `e` is outside (`update`).  Either document may come
wrapped.

The fields are read by the same row of readers in both cases, and no reader of the row asks for
`e`, so it does not matter whether it is there (`ignores_ofJson`).  What can differ is only the
text of a failure, which shows the document that was read.  As to the way to that row, the fields
must not include a name that means something to it: an `error` is reported before anything else is
looked at, and `stream` with `data` makes a wrapper.

Which surface the document came from plays no part in this; it decides only what an execution
without a stop order says about it (`algoId_of_ofJson`).
-/

namespace OrderDesk

open OrderDesk.Json

variable {futures : Bool} {fs : List (String × Json)} {e : Execution}

/-! ## 1. What the fields say -/

namespace Execution

/-- The id of a stop order that an object carries: a string as it is, or a number as text. -/
def carriedAlgoId (fs : List (String × Json)) : Option String := (fs.lookup "ai").bind idText

/-- Whether a field `e` is there makes no difference to the reader of an execution. -/
theorem ignores_ofJson {gs : List (String × Json)} (h : SameBeside "e" fs gs) :
    ofJson futures (.object gs) = ofJson futures (.object fs) := by
  refine Ignores.decodeRecord_eq ?_ h
  iterate 7 refine .bind (.required (by decide)) fun _ => ?_
  iterate 2 refine .bind (.defaulted (by decide)) fun _ => ?_
  refine .bind (.required (by decide)) fun _ => ?_
  exact .bind (.defaulted (by decide)) fun _ => .pure _

theorem kind_of_ofJson (h : ofJson futures (.object fs) = .ok e) :
    fs.lookup "x" = some (.string e.kind) := by
  obtain ⟨kind, -, -, hread, -, -, hkind, -, -⟩ := fields_of_ofJson h
  obtain ⟨j, hsole, htext⟩ := holds_of_required hread
  rw [lookup_of_sole hsole, hkind]
  cases j <;> cases htext
  rfl

/-- **The id of a stop order is the one that is carried**; on futures zero stands for none. -/
theorem algoId_of_ofJson (h : ofJson futures (.object fs) = .ok e) :
    e.algoId = if futures then some ((carriedAlgoId fs).getD "0") else carriedAlgoId fs := by
  obtain ⟨-, -, stop, -, -, hstop, -, -, halgo⟩ := fields_of_ofJson h
  obtain rfl : stop = carriedAlgoId fs := by
    unfold defaulted defaultedOf at hstop
    rcases take_cases fs "ai" with ⟨hnone, htake⟩ | ⟨j, hsole, htake⟩ | ⟨e', htake⟩
    · rw [htake] at hstop
      cases hstop
      rw [carriedAlgoId, lookup_of_filter_eq_nil hnone]
      rfl
    · rw [htake] at hstop
      rw [carriedAlgoId, lookup_of_sole hsole]
      exact idText_of_untyped (eq_of_map_pair hstop).1
    · rw [htake] at hstop
      cases hstop
  exact halgo

/-- The kinds that matter to the host, in whichever case. -/
theorem isFill_iff : e.isFill = true ↔ e.kind.toUpper = "TRADE" ∨ e.kind.toUpper = "EXPIRED" := by
  have hupper : ∀ t : String, t.toList.map Char.toUpper = t.toList →
      (Text.sameAscii e.kind t = true ↔ e.kind.toUpper = t) := fun t ht => by
    rw [Text.sameAscii, beq_iff_eq, ht, ← String.toList_map, String.toList_inj]
    rfl
  rw [isFill, Bool.or_eq_true, hupper "TRADE" (by decide), hupper "EXPIRED" (by decide)]

end Execution

/-! ## 2. The documents -/

namespace StreamMessage

open Execution (carriedAlgoId)

/-- The document of an execution on spot markets. -/
def report (fs : List (String × Json)) : Json :=
  .object (insertField "e" (.string "executionReport") fs)

/-- The document of an execution on futures. -/
def update (fs : List (String × Json)) : Json :=
  .object [("e", .string "ORDER_TRADE_UPDATE"), ("o", .object fs)]

/-- None of these fields means something to the stream itself. -/
def Plain (fs : List (String × Json)) : Prop :=
  ∀ name ∈ ["e", "error", "stream", "data"], fs.lookup name = none

/-- A document that is taken for a wrapper. -/
def IsWrapper (j : Json) : Prop := (j.get? "stream").isSome ∧ (j.get? "data").isSome

/-- A document in a wrapper. -/
def wrap (stream v : Json) : Json := .object [("data", v), ("stream", stream)]

theorem unwrap_of_not_isWrapper {j : Json} (h : ¬IsWrapper j) : unwrap j = j := by
  unfold unwrap
  split
  · rename_i hstream hdata
    exact absurd ⟨by rw [hstream]; rfl, by rw [hdata]; rfl⟩ h
  · rfl

/-- A wrapper does not change what its content says. -/
theorem ofJson_wrap {v : Json} (h : ¬IsWrapper v) (stream : Json) :
    ofJson futures (wrap stream v) = ofJson futures v := by
  have hcontent : unwrap (wrap stream v) = unwrap v := by
    rw [unwrap_of_not_isWrapper h]
    rfl
  rw [ofJson, ofJson, hcontent]

/-- A document that neither is a wrapper nor has an error is what it reports. -/
theorem ofJson_of_plain {j : Json} (hstream : j.get? "stream" = none)
    (herror : j.get? "error" = none) : ofJson futures j = ofReport futures j := by
  have hself : unwrap j = j := unwrap_of_not_isWrapper fun h => by
    simp [IsWrapper, hstream] at h
  rw [ofJson, hself, reportedError?, herror]
  rfl

/-- The fields of a report are read as if they stood alone. -/
theorem ofJson_report (hplain : Plain fs) :
    ofJson futures (report fs) =
      match Execution.ofJson futures (.object fs) with
      | .ok e => .ok (ofExecution e)
      | .error m => .error (.decoding (m.message ++ " in payload " ++ (report fs).print)) := by
  have hget : ∀ name ∈ ["e", "error", "stream", "data"], name ≠ "e" →
      (report fs).get? name = none := fun name hname hne =>
    (lookup_insertField_of_ne hne).trans (hplain name hname)
  have he : ((report fs).get? "e").bind asString? = some "executionReport" := by
    rw [report, get?, lookup_insertField_self]
    rfl
  have hread : Execution.ofJson futures (report fs) = Execution.ofJson futures (.object fs) :=
    Execution.ignores_ofJson (sameBeside_insertField ..)
  rw [ofJson_of_plain (hget _ (by decide) (by decide)) (hget _ (by decide) (by decide)), ofReport]
  simp only [he, read, hread]
  cases Execution.ofJson futures (.object fs) <;> rfl

theorem ofJson_update (futures : Bool) (fs : List (String × Json)) :
    ofJson futures (update fs) =
      match Execution.ofJson futures (.object fs) with
      | .ok e => .ok (ofExecution e)
      | .error m => .error (.decoding (m.message ++ " in payload " ++ (Json.object fs).print)) := by
  rw [ofJson_of_plain rfl rfl]
  show (read (Execution.ofJson futures) (.object fs)).map ofExecution = _
  unfold read
  cases Execution.ofJson futures (.object fs) <;> rfl

theorem ofExecution_eq_some_iff {e' : Execution} :
    ofExecution e = some (.execution e') ↔ e' = e ∧ e.isFill = true := by
  unfold ofExecution
  split
  · rename_i hfill
    simp [hfill, eq_comm]
  · rename_i hfill
    simp [hfill]

/-! ## 3. Both ways -/

/-- **An execution is read alike from both documents**, on every surface and whatever its fields
are as long as none of them means something to the stream itself.  Both readings fail or both have
one result: an execution if its kind is `TRADE` or `EXPIRED` in whichever case, and nothing
otherwise.  On futures the execution has the id of a stop order in any case, elsewhere the one that
it carries.  A wrapper around any document that is none itself changes nothing. -/
theorem executions_read_alike (surface : Surface) (hplain : Plain fs) :
    (∀ m, ofJson surface.isFutures (report fs) = .ok m ↔
      ofJson surface.isFutures (update fs) = .ok m) ∧
    (∀ m, ofJson surface.isFutures (update fs) = .ok m →
      ∃ kind, fs.lookup "x" = some (.string kind) ∧
        if kind.toUpper = "TRADE" ∨ kind.toUpper = "EXPIRED" then ∃ e, m = some (.execution e)
        else m = none) ∧
    (∀ e, ofJson surface.isFutures (update fs) = .ok (some (.execution e)) →
      e.algoId = if surface.isFutures then some ((carriedAlgoId fs).getD "0")
        else carriedAlgoId fs) ∧
    ∀ stream v, ¬IsWrapper v →
      ofJson surface.isFutures (wrap stream v) = ofJson surface.isFutures v := by
  rw [ofJson_report hplain, ofJson_update]
  cases hread : Execution.ofJson surface.isFutures (.object fs) with
  | error mismatch =>
    refine ⟨fun m => ⟨fun h => ?_, fun h => ?_⟩, fun m h => ?_, fun e h => ?_,
      fun stream v h => ofJson_wrap h stream⟩ <;> cases h
  | ok e =>
    refine ⟨fun m => Iff.rfl, ?_, ?_, fun stream v h => ofJson_wrap h stream⟩
    · rintro m hm
      cases hm
      refine ⟨e.kind, Execution.kind_of_ofJson hread, ?_⟩
      split
      · rename_i hkind
        exact ⟨e, ofExecution_eq_some_iff.mpr ⟨rfl, Execution.isFill_iff.mpr hkind⟩⟩
      · rename_i hkind
        exact if_neg fun hfill => hkind (Execution.isFill_iff.mp hfill)
    · intro e' he
      obtain ⟨rfl, -⟩ := ofExecution_eq_some_iff.mp (Except.ok.inj he)
      exact Execution.algoId_of_ofJson hread

/-- A trade of a stop order whose number is written as such. -/
def tradeFields : List (String × Json) :=
  [("L", .string "1834.5"), ("S", .string "SELL"), ("T", .ofNat 1700000000123),
    ("X", .string "FILLED"), ("ai", .ofNat 3000000000123), ("i", .ofNat 8389765519),
    ("l", .string "0.25"), ("s", .string "ETHUSDT"), ("x", .string "Trade")]

theorem executions_read_alike_trade :
    Plain tradeFields ∧ ∃ e, e.algoId = some "3000000000123" ∧
      ofJson Surface.usdtFutures.isFutures (report tradeFields) = .ok (some (.execution e)) ∧
      ofJson Surface.usdtFutures.isFutures (wrap (.string "key") (update tradeFields)) =
        .ok (some (.execution e)) := by
  have hplain : Plain tradeFields := by unfold Plain; decide +kernel
  obtain ⟨halike, -, hid, hwrap⟩ := executions_read_alike .usdtFutures hplain
  have hread : ∃ e, ofJson Surface.usdtFutures.isFutures (update tradeFields) =
      .ok (some (.execution e)) := ⟨_, rfl⟩
  obtain ⟨e, hread⟩ := hread
  refine ⟨hplain, e, ?_, (halike _).mpr hread, ?_⟩
  · rw [hid e hread]
    decide +kernel
  · rw [hwrap _ _ (by unfold IsWrapper; decide)]
    exact hread

end StreamMessage
end OrderDesk
