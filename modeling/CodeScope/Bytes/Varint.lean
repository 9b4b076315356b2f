import CodeScope.Bytes.Cursor

/-!
# Numbers of variable length

A number is written as groups of six bits, one in each byte. Bit 6 of a byte says that another
group follows; bit 7 carries no part of the number. The location table starts with the least
significant group and loses the bits that have no place in 32; the exception table starts with the
most significant one and refuses a number as soon as another group would take it to 2³² or more.
-/

namespace CodeScope

/-- The groups of a number that have been read, the least significant first. -/
structure Gathered where
  /-- The number that they make up so far. -/
  number : UInt32
  /-- The place of the next group. -/
  shift : UInt32
  deriving DecidableEq, Repr

namespace Gathered

/-- No groups. -/
def empty : Gathered := ⟨0, 0⟩

/-- A group moved to a place. The bits that have no place in a word are lost. -/
def placed (group shift : UInt32) : UInt32 :=
  if shift < 32 then group <<< shift else 0

/-- The groups with that of another byte. -/
def put (gathered : Gathered) (byte : UInt8) : Gathered where
  number := gathered.number ||| placed (UInt32.ofNat (byte.toNat % 64)) gathered.shift
  shift := gathered.shift + 6

end Gathered

namespace SignFirst

/-- The magnitude that a word has above its lowest bit. -/
def magnitude (word : UInt32) : Int32 := (word >>> 1).toInt32

/-- The number that has the lowest bit of a word as its sign and the rest as its magnitude. -/
def number (word : UInt32) : Int32 :=
  if word &&& 1 = 0 then magnitude word else -magnitude word

end SignFirst

namespace Scan

/-- A number that starts with its least significant groups, after those that have been read. -/
def varintAfter (gathered : Gathered) : Bytes → Nat → Except Error (UInt32 × Cursor)
  | [], offset => .error (.truncated 1 offset)
  | byte :: rest, offset =>
      let longer := gathered.put byte
      if byte.toNat % 128 < 64 then
        .ok (longer.number, ⟨rest, offset + 1⟩)
      else
        varintAfter longer rest (offset + 1)

/-- A number that starts with its least significant group, as far as it fits in 32 bits. -/
def varint : Scan UInt32 := fun cursor =>
  varintAfter .empty cursor.rest cursor.offset

/-- A number whose sign is its lowest bit and whose magnitude is the rest. -/
def signedVarint : Scan Int := do
  return (SignFirst.number (← varint)).toInt

/--
A number that starts with its most significant groups, after those that make up `number`. They are
shifted before the next one is put behind them, which they must leave room for in 32 bits.
-/
def boundedVarintAfter (number : UInt32) : Bytes → Nat → Except Error (UInt32 × Cursor)
  | [], offset => .error (.truncated 1 offset)
  | byte :: rest, offset =>
      if 0x100000000 ≤ 64 * number.toNat then
        .error (.malformedCode .handler .tooLarge)
      else
        let longer := 64 * number ||| UInt32.ofNat (byte.toNat % 64)
        if byte.toNat % 128 < 64 then
          .ok (longer, ⟨rest, offset + 1⟩)
        else
          boundedVarintAfter longer rest (offset + 1)

/-- A number below 2³² that starts with its most significant group. -/
def boundedVarint : Scan UInt32 := fun cursor =>
  boundedVarintAfter 0 cursor.rest cursor.offset

theorem varintAfter_shortens {gathered : Gathered} {value : UInt32} {data : Bytes} {offset : Nat}
    {next : Cursor} (read : varintAfter gathered data offset = .ok (value, next)) :
    next.remaining < data.length := by
  induction data generalizing gathered offset with
  | nil => cases read
  | cons byte rest induction =>
      simp only [varintAfter] at read
      split at read
      · cases read
        exact Nat.lt_succ_self _
      · exact Nat.lt_succ_of_lt (induction read)

theorem forward_varint : varint.Forward := by
  intro cursor next value read
  exact Nat.le_of_lt (varintAfter_shortens read)

theorem forward_signedVarint : signedVarint.Forward :=
  forward_varint.bind fun _ => forward_pure _

theorem boundedVarintAfter_shortens {number value : UInt32} {data : Bytes} {offset : Nat}
    {next : Cursor} (read : boundedVarintAfter number data offset = .ok (value, next)) :
    next.remaining < data.length := by
  induction data generalizing number offset with
  | nil => cases read
  | cons byte rest induction =>
      simp only [boundedVarintAfter] at read
      split at read
      · cases read
      split at read
      · cases read
        exact Nat.lt_succ_self _
      · exact Nat.lt_succ_of_lt (induction read)

theorem boundedVarint_shortens {value : UInt32} {cursor next : Cursor}
    (read : boundedVarint cursor = .ok (value, next)) : next.remaining < cursor.remaining :=
  boundedVarintAfter_shortens read

end Scan
end CodeScope
