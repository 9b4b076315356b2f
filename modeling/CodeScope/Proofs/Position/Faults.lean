import CodeScope.Position.Table

/-!
# Why a position is not found

A cursor fails on a query that goes back, and where its table is cut off or has a column byte that
cannot be one. Nothing else keeps it from an answer.
-/

namespace CodeScope

/-- A scan that fails in no other ways than some. -/
def Scan.FailsWith {α : Type} (part : Scan α) (expected : Error → Prop) : Prop :=
  ∀ (cursor : Cursor) (error : Error), part cursor = .error error → expected error

/-- Why a table of positions gives no answer. -/
inductive PositionFault : Error → Prop
  | rewind (requested current : Nat) : PositionFault (.positionRewind requested current)
  | truncated (needed offset : Nat) : PositionFault (.truncated needed offset)
  | columnByte (byte : UInt8) : PositionFault (.malformedCode .location (.columnByte byte))

namespace Scan.FailsWith

variable {α β : Type} {expected : Error → Prop}

theorem pure (value : α) : FailsWith (Pure.pure value) expected := by
  intro cursor error failed
  cases failed

theorem fail {error : Error} (isExpected : expected error) :
    FailsWith (Scan.fail error : Scan α) expected := by
  intro cursor other failed
  cases failed
  exact isExpected

theorem bind {part : Scan α} {after : α → Scan β} (first : part.FailsWith expected)
    (second : ∀ value, (after value).FailsWith expected) :
    (part >>= after).FailsWith expected := by
  intro cursor error failed
  simp only [Bind.bind, StateT.bind] at failed
  cases inner : part cursor with
  | error other =>
      rw [inner] at failed
      cases failed
      exact first cursor error inner
  | ok answer =>
      rw [inner] at failed
      exact second answer.1 answer.2 error failed

theorem map {part : Scan α} (convert : α → β) (fails : part.FailsWith expected) :
    (convert <$> part).FailsWith expected :=
  fails.bind fun value => pure (convert value)

theorem u8 : Scan.u8.FailsWith PositionFault := by
  have bytes : (Scan.bytes 1).FailsWith PositionFault := by
    intro cursor error failed
    simp only [Scan.bytes, Cursor.take] at failed
    split at failed
    · cases failed
    · cases failed
      exact .truncated _ _
  exact (bytes.bind fun data => pure data.littleEndian).map UInt8.ofNat

theorem varint : Scan.varint.FailsWith PositionFault := by
  have after : ∀ (data : Bytes) (gathered : Gathered) (offset : Nat) (error : Error),
      varintAfter gathered data offset = .error error → PositionFault error := by
    intro data
    induction data with
    | nil =>
        intro gathered offset error failed
        cases failed
        exact .truncated 1 offset
    | cons byte rest induction =>
        intro gathered offset error failed
        rw [varintAfter] at failed
        split at failed
        · cases failed
        · exact induction _ _ _ failed
  intro cursor error failed
  exact after _ _ _ _ failed

theorem signedVarint : Scan.signedVarint.FailsWith PositionFault :=
  varint.bind fun _ => pure _

theorem locationForm (kind : Nat) : (LocationForm.scan kind).FailsWith PositionFault := by
  rw [LocationForm.scan]
  split
  · exact pure _
  split
  · refine signedVarint.bind fun lineDelta => varint.bind fun lines => ?_
    exact varint.bind fun column => varint.bind fun endColumn => pure _
  split
  · exact signedVarint.map _
  split
  · exact u8.bind fun column => u8.bind fun endColumn => pure _
  · refine u8.bind fun byte => ?_
    split
    · exact fail (.columnByte byte)
    · exact pure _

theorem locationEntry : LocationEntry.scan.FailsWith PositionFault :=
  u8.bind fun _ => (locationForm _).bind fun _ => pure _

end Scan.FailsWith

theorem PositionFault.checkOrder {last : Option Nat} {offset : Nat} {error : Error}
    (refused : Position.checkOrder last offset = .error error) : PositionFault error := by
  cases last with
  | none => cases refused
  | some current =>
      simp only [Position.checkOrder] at refused
      split at refused
      · cases refused
        exact .rewind offset current
      · cases refused

namespace LocationCursor

theorem fault_of_readEntry {cursor : LocationCursor} {error : Error}
    (failed : cursor.readEntry = .error error) : PositionFault error := by
  rw [readEntry] at failed
  cases scanned : LocationEntry.scan cursor.rest with
  | error other =>
      rw [scanned] at failed
      cases failed
      exact Scan.FailsWith.locationEntry _ _ scanned
  | ok answer =>
      rw [scanned] at failed
      cases failed

theorem fault_of_advance {cursor : LocationCursor} {offset : Nat} {error : Error}
    (failed : cursor.advance offset = .error error) : PositionFault error := by
  fun_induction advance cursor offset with
  | case1 cursor covered other read =>
      cases failed
      exact fault_of_readEntry read
  | case2 cursor covered range next read induction => exact induction failed
  | case3 cursor stopped => cases failed

end LocationCursor

/-- A position table fails in no other ways. -/
theorem PositionCursor.fault_of_get {cursor : PositionCursor} {offset : Nat} {error : Error}
    (failed : cursor.get offset = .error error) : PositionFault error := by
  cases cursor with
  | linePairs cursor =>
      cases order : Position.checkOrder cursor.last offset with
      | error other =>
          simp only [get, LinePairCursor.get, order, bind, Except.bind] at failed
          cases failed
          exact .checkOrder order
      | ok accepted =>
          simp only [get, LinePairCursor.get, order, bind, Except.bind] at failed
          cases failed
  | locations cursor =>
      cases order : Position.checkOrder cursor.last offset with
      | error other =>
          simp only [get, LocationCursor.get, order, bind, Except.bind] at failed
          cases failed
          exact .checkOrder order
      | ok accepted =>
          simp only [get, LocationCursor.get, order, bind, Except.bind] at failed
          cases moved : LocationCursor.advance { cursor with last := some offset } offset with
          | error other =>
              rw [moved] at failed
              cases failed
              exact LocationCursor.fault_of_advance moved
          | ok next =>
              rw [moved] at failed
              cases failed

end CodeScope
