import CodeScope.Bytes.Cursor

/-!
# Running scans

A step of a scan that succeeds passes its result on to the next step, and one that fails ends it.
Bytes are read from the front of what is left if enough of them are, whatever stands behind them.
-/

namespace CodeScope
namespace Scan

variable {α β : Type}

theorem bind_of_ok {part : Scan α} {after : α → Scan β} {cursor next : Cursor} {value : α}
    (read : part cursor = .ok (value, next)) : (part >>= after) cursor = after value next := by
  simp only [bind, StateT.bind, read, Except.bind]

theorem bind_of_error {part : Scan α} {after : α → Scan β} {cursor : Cursor} {error : Error}
    (failed : part cursor = .error error) : (part >>= after) cursor = .error error := by
  simp only [bind, StateT.bind, failed, Except.bind]

theorem map_of_ok {part : Scan α} (convert : α → β) {cursor next : Cursor} {value : α}
    (read : part cursor = .ok (value, next)) :
    (convert <$> part) cursor = .ok (convert value, next) := by
  simp only [Functor.map, StateT.map, bind, read, Except.bind]
  rfl

theorem map_of_error {part : Scan α} (convert : α → β) {cursor : Cursor} {error : Error}
    (failed : part cursor = .error error) : (convert <$> part) cursor = .error error := by
  simp only [Functor.map, StateT.map, bind, failed, Except.bind]

section Front

variable {data : Bytes} (rest : Bytes) (offset : Nat)

theorem bytes_append {count : Nat} (size : data.length = count) :
    bytes count ⟨data ++ rest, offset⟩ = .ok (data, ⟨rest, offset + count⟩) := by
  subst size
  simp [bytes, Cursor.take]

theorem littleEndian_append {width : Nat} (size : data.length = width) :
    littleEndian width ⟨data ++ rest, offset⟩ =
      .ok (data.littleEndian, ⟨rest, offset + width⟩) :=
  bind_of_ok (bytes_append rest offset size)

theorem u16_append (size : data.length = 2) :
    u16 ⟨data ++ rest, offset⟩ = .ok (UInt16.ofNat data.littleEndian, ⟨rest, offset + 2⟩) :=
  map_of_ok _ (littleEndian_append rest offset size)

theorem u32_append (size : data.length = 4) :
    u32 ⟨data ++ rest, offset⟩ = .ok (UInt32.ofNat data.littleEndian, ⟨rest, offset + 4⟩) :=
  map_of_ok _ (littleEndian_append rest offset size)

end Front

section Place

variable {cursor : Cursor} {count : Nat}

theorem bytes_of_enough (enough : count ≤ cursor.remaining) :
    bytes count cursor =
      .ok (cursor.rest.take count, ⟨cursor.rest.drop count, cursor.offset + count⟩) :=
  if_pos (List.length_take_of_le enough)

theorem bytes_of_short (short : cursor.remaining < count) :
    bytes count cursor = .error (.truncated count cursor.offset) := by
  have missing : (cursor.rest.take count).length ≠ count := by
    rw [List.length_take]
    exact Nat.ne_of_lt (Nat.lt_of_le_of_lt (Nat.min_le_right _ _) short)
  exact if_neg missing

end Place
end Scan
end CodeScope
