import OrderDesk.Proofs.Digits
import OrderDesk.Proofs.Fields
import OrderDesk.Stream.Execution
import OrderDesk.Wire.Order

/-!
# How an execution names an order

An execution carries the id of the order that was executed, and on futures also the id of the stop
order that sent it, where there is one.  The exchange writes the former as a number and the latter
as a number or as a string; either way the id is read as the text of the number
(`names_of_ofJson`), which is how the id of an order is kept (`id_of_ofJson`).  Zero stands for no
stop order.
-/

namespace OrderDesk

/-- A document names a number in a field, as a number or as a string. -/
def Json.Gives (fs : List (String × Json)) (name : String) (n : Nat) : Prop :=
  Sole fs name (.ofNat n) ∨ Sole fs name (.string (Text.ofNat n))

namespace Execution

open OrderDesk.Json

variable {futures : Bool} {fs : List (String × Json)} {e : Execution} {n : Nat}

/-- An execution names an order by the id of a stop order or by its own. -/
def Names (e : Execution) (b : String) : Prop := e.algoId? = some b ∨ e.orderId = b

/-- Where the kind of an execution and its ids come from. -/
theorem fields_of_ofJson (h : ofJson futures (.object fs) = .ok e) :
    ∃ kind own stop, required "x" decodeString (.fields fs) = .ok (kind, .fields fs) ∧
      required "i" decodeWord64 (.fields fs) = .ok (own, .fields fs) ∧
      defaulted "ai" none (fun j => (decodeUntyped 1 j).map idText) (.fields fs) =
        .ok (stop, .fields fs) ∧
      e.kind = kind ∧
      e.orderId = Text.ofNat own ∧
      e.algoId = if futures then some (stop.getD noAlgoId) else stop := by
  obtain ⟨r, h⟩ := decodeRecord_object h
  obtain ⟨symbol, -, h⟩ := (leaves_required ..).of_bind h
  obtain ⟨side, -, h⟩ := (leaves_required ..).of_bind h
  obtain ⟨kind, hkind, h⟩ := (leaves_required ..).of_bind h
  obtain ⟨status, -, h⟩ := (leaves_required ..).of_bind h
  obtain ⟨own, hown, h⟩ := (leaves_required ..).of_bind h
  obtain ⟨lastQuantity, -, h⟩ := (leaves_required ..).of_bind h
  obtain ⟨lastPrice, -, h⟩ := (leaves_required ..).of_bind h
  obtain ⟨fee, -, h⟩ := (leaves_defaulted ..).of_bind h
  obtain ⟨feeCurrency, -, h⟩ := (leaves_defaulted ..).of_bind h
  obtain ⟨millis, -, h⟩ := (leaves_required ..).of_bind h
  obtain ⟨stop, hstop, h⟩ := (leaves_defaulted ..).of_bind h
  cases h
  exact ⟨kind, own, stop, hkind, hown, hstop, rfl, rfl, rfl⟩

theorem ofNat_ne_noAlgoId (hn : 0 < n) : Text.ofNat n ≠ noAlgoId := by
  intro h
  have hzero : n = 0 := Text.ofNat_injective (h.trans (by decide : noAlgoId = Text.ofNat 0))
  omega

/-- The value of a document is no string and no number unless the document is this one. -/
theorem idText_of_settle {room : Nat} {j v : Json} (h : j.settleIn room = some v) :
    idText v = idText j := by
  cases j with
  | array items =>
    cases room with
    | zero => cases h
    | succ room =>
      obtain ⟨items', -, rfl⟩ := Option.map_eq_some_iff.mp h
      rfl
  | object fields =>
    cases room with
    | zero => cases h
    | succ room =>
      obtain ⟨fields', -, rfl⟩ := Option.map_eq_some_iff.mp h
      rfl
  | _ =>
    simp only [settleIn] at h
    cases h <;> rfl

theorem idText_of_untyped {outer : Nat} {j : Json} {text : Option String}
    (h : (decodeUntyped outer j).map idText = .ok text) : text = idText j := by
  unfold decodeUntyped at h
  split at h
  · rename_i v hsettle
    cases h
    exact idText_of_settle hsettle
  · cases h

theorem algoId?_of_ofJson (hn : 0 < n) (hgives : Gives fs "ai" n)
    (h : ofJson futures (.object fs) = .ok e) : e.algoId? = some (Text.ofNat n) := by
  obtain ⟨-, -, stop, -, -, hstop, -, -, halgo⟩ := fields_of_ofJson h
  obtain rfl : stop = some (Text.ofNat n) := by
    rcases hgives with hsole | hsole
    · exact idText_of_untyped (defaulted_sole hsole hstop)
    · exact idText_of_untyped (defaulted_sole hsole hstop)
  have halgo : e.algoId = some (Text.ofNat n) := by
    rw [halgo]
    split <;> rfl
  rw [algoId?, halgo, Option.filter_some, if_pos]
  rw [Bool.and_eq_true, bne_iff_ne, Bool.not_eq_true', String.isEmpty_eq_false_iff]
  exact ⟨Text.ofNat_ne_empty n, ofNat_ne_noAlgoId hn⟩

theorem orderId_of_ofJson (hsole : Sole fs "i" (.ofNat n))
    (h : ofJson futures (.object fs) = .ok e) : e.orderId = Text.ofNat n := by
  obtain ⟨-, own, -, -, hown, -, -, horder, -⟩ := fields_of_ofJson h
  have hread : Json.ofNat n = .ofNat own := eq_ofNat_of_decodeWord64 (required_sole hsole hown)
  have hsame : n = own := by simpa [Json.ofNat] using hread
  rw [horder, hsame]

/-- **An execution names the order whose number its document gives**: as the id of the order, or
as the id of a stop order, written as a number or as a string. -/
theorem names_of_ofJson (h : ofJson futures (.object fs) = .ok e)
    (hgives : Sole fs "i" (.ofNat n) ∨ 0 < n ∧ Gives fs "ai" n) : e.Names (Text.ofNat n) := by
  rcases hgives with hsole | ⟨hn, hgives⟩
  · exact Or.inr (orderId_of_ofJson hsole h)
  · exact Or.inl (algoId?_of_ofJson hn hgives h)

end Execution

namespace WireOrder

open OrderDesk.Json

theorem id_of_regular {j : Json} {w : WireOrder} (h : regular j = .ok w) :
    ∃ n, w.id = Text.ofNat n := by
  refine Yields.of_decodeRecord (P := fun w : WireOrder => ∃ n, w.id = Text.ofNat n) ?_ h
  refine Yields.bind fun n => ?_
  iterate 11 refine Yields.bind fun _ => ?_
  exact Yields.pure ⟨n, rfl⟩

theorem id_of_algo {j : Json} {w : WireOrder} (h : algo j = .ok w) :
    ∃ n, w.id = Text.ofNat n := by
  refine Yields.of_decodeRecord (P := fun w : WireOrder => ∃ n, w.id = Text.ofNat n) ?_ h
  refine Yields.bind fun n => ?_
  iterate 8 refine Yields.bind fun _ => ?_
  exact Yields.pure ⟨n, rfl⟩

/-- **The id of an order is the text of a number**, in either shape. -/
theorem id_of_ofJson {j : Json} {w : WireOrder} (h : ofJson j = .ok w) :
    ∃ n, w.id = Text.ofNat n := by
  unfold ofJson at h
  split at h
  · split at h
    · rename_i o halgo
      cases h
      exact id_of_algo halgo
    · cases h
  · split at h
    · split at h
      · rename_i o hregular
        cases h
        exact id_of_regular hregular
      · cases h
    · cases h

end WireOrder
end OrderDesk
