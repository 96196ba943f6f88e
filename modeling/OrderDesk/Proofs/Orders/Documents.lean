import OrderDesk.Proofs.Orders.Names

/-!
# Complete documents of orders

The exchange describes an order in one of two shapes.  Each has fields that must be there and fields
that need not (`DocumentShape`); a document that is complete in this sense is read, whatever else it
says, and no other one is (`ofJson_iff`).  Which shape is meant is told by the name of the id alone.
What is read then is what the document tells (`told_of_ofJson`).
-/

namespace OrderDesk

open OrderDesk.Json

/-- The names of the fields in the document of an order: the id, the texts, the quantity and the
times that must be there, and the amounts and times that need not. -/
structure DocumentShape where
  id : String
  texts : List String
  quantity : String
  times : List String
  amounts : List String
  otherTimes : List String

namespace DocumentShape

/-- The shape of most orders. -/
def regular : DocumentShape where
  id := "orderId"
  texts := ["symbol", "status", "type", "side"]
  quantity := "origQty"
  times := []
  amounts := ["price", "stopPrice", "executedQty"]
  otherTimes := ["transactTime", "time", "updateTime"]

/-- The shape of stop orders that are kept apart. -/
def algo : DocumentShape where
  id := "algoId"
  texts := ["symbol", "algoStatus", "orderType", "side"]
  quantity := "quantity"
  times := ["createTime"]
  amounts := ["price", "triggerPrice"]
  otherTimes := []

/-- The shape that a document has. -/
def of (fs : List (String × Json)) : DocumentShape :=
  if (fs.lookup algo.id).isSome then algo else regular

/-- A document has this id and everything else that its shape asks for. -/
structure Complete (shape : DocumentShape) (fs : List (String × Json)) (n : Nat) : Prop where
  id : Holds fs shape.id decodeWord64 n
  texts : ∀ name ∈ shape.texts, ∃ text, Holds fs name decodeString text
  quantity : ∃ d, Holds fs shape.quantity Decimal.ofJsonString d
  times : ∀ name ∈ shape.times, ∃ t, Holds fs name decodeInt64 t
  amounts : ∀ name ∈ shape.amounts, Fits fs name Decimal.ofJsonString?
  otherTimes : ∀ name ∈ shape.otherTimes, Fits fs name (decodeOption decodeInt64)

end DocumentShape

namespace WireOrder

variable {fs : List (String × Json)} {w : WireOrder} {n : Nat}

/-- The record has what a document of this shape tells of its order. -/
structure Told (shape : DocumentShape) (fs : List (String × Json)) (w : WireOrder) : Prop where
  symbol : Holds fs "symbol" decodeString w.symbol
  side : Holds fs "side" decodeString w.side
  quantity : Holds fs shape.quantity Decimal.ofJsonString w.quantity
  isAlgo : w.isAlgo = true ↔ shape = .algo

/-- What was read from a document was there, and so was all else that the shape asks for. -/
theorem complete_of_regular (h : regular (.object fs) = .ok w) :
    ∃ n, w.id = Text.ofNat n ∧ DocumentShape.regular.Complete fs n ∧ Told .regular fs w := by
  obtain ⟨r, h⟩ := decodeRecord_object h
  obtain ⟨n, hid, h⟩ := (leaves_required ..).of_bind h
  obtain ⟨symbol, hsymbol, h⟩ := (leaves_required ..).of_bind h
  obtain ⟨price, hprice, h⟩ := (leaves_defaulted ..).of_bind h
  obtain ⟨stop, hstop, h⟩ := (leaves_defaulted ..).of_bind h
  obtain ⟨quantity, hquantity, h⟩ := (leaves_required ..).of_bind h
  obtain ⟨executed, hexecuted, h⟩ := (leaves_defaulted ..).of_bind h
  obtain ⟨status, hstatus, h⟩ := (leaves_required ..).of_bind h
  obtain ⟨kind, hkind, h⟩ := (leaves_required ..).of_bind h
  obtain ⟨side, hside, h⟩ := (leaves_required ..).of_bind h
  obtain ⟨transacted, htransacted, h⟩ := (leaves_defaulted ..).of_bind h
  obtain ⟨created, hcreated, h⟩ := (leaves_defaulted ..).of_bind h
  obtain ⟨updated, hupdated, h⟩ := (leaves_defaulted ..).of_bind h
  cases h
  refine ⟨n, rfl, ⟨holds_of_required hid, ?_, ⟨_, holds_of_required hquantity⟩, nofun, ?_, ?_⟩,
    ⟨holds_of_required hsymbol, holds_of_required hside, holds_of_required hquantity,
      by simp [DocumentShape.regular, DocumentShape.algo]⟩⟩
  · simp only [DocumentShape.regular, List.forall_mem_cons]
    exact ⟨⟨_, holds_of_required hsymbol⟩, ⟨_, holds_of_required hstatus⟩,
      ⟨_, holds_of_required hkind⟩, ⟨_, holds_of_required hside⟩, nofun⟩
  · simp only [DocumentShape.regular, List.forall_mem_cons]
    exact ⟨fits_of_defaulted hprice, fits_of_defaulted hstop, fits_of_defaulted hexecuted, nofun⟩
  · simp only [DocumentShape.regular, List.forall_mem_cons]
    exact ⟨fits_of_defaulted htransacted, fits_of_defaulted hcreated, fits_of_defaulted hupdated,
      nofun⟩

theorem complete_of_algo (h : algo (.object fs) = .ok w) :
    ∃ n, w.id = Text.ofNat n ∧ DocumentShape.algo.Complete fs n ∧ Told .algo fs w := by
  obtain ⟨r, h⟩ := decodeRecord_object h
  obtain ⟨n, hid, h⟩ := (leaves_required ..).of_bind h
  obtain ⟨symbol, hsymbol, h⟩ := (leaves_required ..).of_bind h
  obtain ⟨price, hprice, h⟩ := (leaves_defaulted ..).of_bind h
  obtain ⟨stop, hstop, h⟩ := (leaves_defaulted ..).of_bind h
  obtain ⟨quantity, hquantity, h⟩ := (leaves_required ..).of_bind h
  obtain ⟨status, hstatus, h⟩ := (leaves_required ..).of_bind h
  obtain ⟨kind, hkind, h⟩ := (leaves_required ..).of_bind h
  obtain ⟨side, hside, h⟩ := (leaves_required ..).of_bind h
  obtain ⟨millis, hmillis, h⟩ := (leaves_required ..).of_bind h
  cases h
  refine ⟨n, rfl, ⟨holds_of_required hid, ?_, ⟨_, holds_of_required hquantity⟩, ?_, ?_, nofun⟩,
    ⟨holds_of_required hsymbol, holds_of_required hside, holds_of_required hquantity, by simp⟩⟩
  · simp only [DocumentShape.algo, List.forall_mem_cons]
    exact ⟨⟨_, holds_of_required hsymbol⟩, ⟨_, holds_of_required hstatus⟩,
      ⟨_, holds_of_required hkind⟩, ⟨_, holds_of_required hside⟩, nofun⟩
  · simp only [DocumentShape.algo, List.forall_mem_cons]
    exact ⟨⟨_, holds_of_required hmillis⟩, nofun⟩
  · simp only [DocumentShape.algo, List.forall_mem_cons]
    exact ⟨fits_of_defaulted hprice, fits_of_defaulted hstop, nofun⟩

/-- **A complete document is read**, whatever else is in it. -/
theorem regular_of_complete (h : DocumentShape.regular.Complete fs n) :
    ∃ w, regular (.object fs) = .ok w ∧ w.id = Text.ofNat n := by
  obtain ⟨hid, htexts, ⟨quantity, hquantity⟩, -, hamounts, htimes⟩ := h
  simp only [DocumentShape.regular, List.forall_mem_cons] at htexts hamounts htimes
  obtain ⟨⟨symbol, hsymbol⟩, ⟨status, hstatus⟩, ⟨kind, hkind⟩, ⟨side, hside⟩, -⟩ := htexts
  obtain ⟨hprice, hstop, hexecuted, -⟩ := hamounts
  obtain ⟨htransacted, hcreated, hupdated, -⟩ := htimes
  refine Makes.decodeRecord ?_
  refine .required hid (.required hsymbol ?_)
  refine .defaulted hprice fun _ => .defaulted hstop fun _ => ?_
  refine .required hquantity (.defaulted hexecuted fun _ => ?_)
  refine .required hstatus (.required hkind (.required hside ?_))
  exact .defaulted htransacted fun _ => .defaulted hcreated fun _ =>
    .defaulted hupdated fun _ => .pure rfl

theorem algo_of_complete (h : DocumentShape.algo.Complete fs n) :
    ∃ w, algo (.object fs) = .ok w ∧ w.id = Text.ofNat n := by
  obtain ⟨hid, htexts, ⟨quantity, hquantity⟩, htimes, hamounts, -⟩ := h
  simp only [DocumentShape.algo, List.forall_mem_cons] at htexts hamounts htimes
  obtain ⟨⟨symbol, hsymbol⟩, ⟨status, hstatus⟩, ⟨kind, hkind⟩, ⟨side, hside⟩, -⟩ := htexts
  obtain ⟨hprice, hstop, -⟩ := hamounts
  obtain ⟨⟨millis, hmillis⟩, -⟩ := htimes
  refine Makes.decodeRecord ?_
  refine .required hid (.required hsymbol ?_)
  refine .defaulted hprice fun _ => .defaulted hstop fun _ => ?_
  refine .required hquantity (.required hstatus (.required hkind ?_))
  exact .required hside (.required hmillis (.pure rfl))

/-- **What is read is what the document tells**, in the shape that it has. -/
theorem told_of_ofJson (h : ofJson (.object fs) = .ok w) :
    ∃ n, w.id = Text.ofNat n ∧ (DocumentShape.of fs).Complete fs n ∧
      Told (DocumentShape.of fs) fs w := by
  unfold ofJson at h
  unfold DocumentShape.of
  have halgo : (Json.object fs).get? "algoId" = fs.lookup DocumentShape.algo.id := rfl
  rw [halgo] at h
  split
  · rename_i hapart
    rw [if_pos hapart] at h
    split at h
    · rename_i o hread
      cases h
      exact complete_of_algo hread
    · cases h
  · rename_i hapart
    rw [if_neg hapart] at h
    split at h
    · split at h
      · rename_i o hread
        cases h
        exact complete_of_regular hread
      · cases h
    · cases h

/-- **Just the complete documents are read**, each under its id. -/
theorem ofJson_iff :
    (∃ w, ofJson (.object fs) = .ok w ∧ w.id = Text.ofNat n) ↔
      (DocumentShape.of fs).Complete fs n := by
  constructor
  · rintro ⟨w, hw, hid⟩
    obtain ⟨n', hid', hcomplete, -⟩ := told_of_ofJson hw
    obtain rfl := Text.ofNat_injective (hid'.symm.trans hid)
    exact hcomplete
  · intro hcomplete
    have halgo : (Json.object fs).get? "algoId" = fs.lookup DocumentShape.algo.id := rfl
    have hregular : (Json.object fs).get? "orderId" = fs.lookup DocumentShape.regular.id := rfl
    unfold DocumentShape.of at hcomplete
    unfold ofJson
    rw [halgo, hregular]
    split at hcomplete
    · rename_i hapart
      obtain ⟨w, hread, hid⟩ := algo_of_complete hcomplete
      exact ⟨w, by rw [if_pos hapart, hread], hid⟩
    · rename_i hapart
      obtain ⟨w, hread, hid⟩ := regular_of_complete hcomplete
      obtain ⟨j, hsole, -⟩ := hcomplete.id
      refine ⟨w, ?_, hid⟩
      rw [if_neg hapart]
      simp only [lookup_of_sole hsole, Option.isSome_some, if_true, hread]

end WireOrder
end OrderDesk
