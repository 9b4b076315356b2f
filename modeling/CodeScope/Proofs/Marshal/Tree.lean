import CodeScope.Proofs.Marshal.Parts

/-!
# Trees of tags

A value that is written without references is a tree of tags, with bytes between them. A tag has
the level of its value, and an offset. The tags that are too deep for a reader are those below some
level, and the first of them in the order of the stream is the one that it comes to.
-/

namespace CodeScope

/-- What is written for things one after the other: bytes, and tags with what is inside them. -/
inductive Pieces where
  | done
  | bytes (data : Bytes) (rest : Pieces)
  | tagged (tag : UInt8) (inside rest : Pieces)

/-- A tag of a stream. -/
structure PlacedTag where
  /-- Number of tags from the outermost one to this one. -/
  level : Nat
  /-- Offset of its byte. -/
  offset : Nat
  deriving DecidableEq, Repr

namespace Pieces

/-- The bytes of the pieces. -/
def data : Pieces → Bytes
  | done => []
  | bytes data rest => data ++ rest.data
  | tagged tag inside rest => tag :: inside.data ++ rest.data

/-- The tags of pieces at a level that start at an offset, in the order of the stream. -/
def tags : Nat → Nat → Pieces → List PlacedTag
  | _, _, done => []
  | level, offset, bytes data rest => rest.tags level (offset + data.length)
  | level, offset, tagged _ inside rest =>
      ⟨level, offset⟩ :: inside.tags (level + 1) (offset + 1) ++
        rest.tags level (offset + (1 + inside.data.length))

/-- The bytes in front of the first tag below so many levels of tags, if there is one. -/
def front? : Nat → Pieces → Option Bytes
  | _, done => none
  | levels, bytes data rest => (rest.front? levels).map (data ++ ·)
  | 0, tagged _ _ _ => some []
  | levels + 1, tagged tag inside rest =>
      ((inside.front? levels).map (tag :: ·)).or
        ((rest.front? (levels + 1)).map (tag :: inside.data ++ ·))

/-- A tag alone, with what is inside it. -/
def single (tag : UInt8) (inside : Pieces) : Pieces := tagged tag inside done

theorem data_single (tag : UInt8) (inside : Pieces) :
    (single tag inside).data = tag :: inside.data := by
  rw [single, data, data, List.append_nil]

theorem front?_single_succ (levels : Nat) (tag : UInt8) (inside : Pieces) :
    (single tag inside).front? (levels + 1) = (inside.front? levels).map (tag :: ·) := by
  rw [single, front?, front?, Option.map_none, Option.or_none]

/-- The first tag that is too deep is inside the first tag or behind it. -/
theorem front?_tagged (levels : Nat) (tag : UInt8) (inside rest : Pieces) :
    (tagged tag inside rest).front? levels = ((single tag inside).front? levels).or
      ((rest.front? levels).map ((single tag inside).data ++ ·)) := by
  rw [data_single]
  cases levels with
  | zero => rfl
  | succ levels => rw [front?_single_succ, front?]

theorem data_tagged (tag : UInt8) (inside rest : Pieces) :
    (tagged tag inside rest).data = (single tag inside).data ++ rest.data := by
  rw [data_single, data]

/-- What is in front of a tag is the beginning of the bytes. -/
theorem front?_prefix {levels : Nat} {pieces : Pieces} {front : Bytes}
    (cut : pieces.front? levels = some front) : ∃ back, pieces.data = front ++ back := by
  induction pieces generalizing levels front with
  | done => cases cut
  | bytes data rest induction =>
      rw [front?, Option.map_eq_some_iff] at cut
      obtain ⟨others, cut, rfl⟩ := cut
      obtain ⟨back, same⟩ := induction cut
      exact ⟨back, by rw [Pieces.data, same, List.append_assoc]⟩
  | tagged tag inside rest inner behind =>
      cases levels with
      | zero =>
          cases cut
          exact ⟨_, rfl⟩
      | succ levels =>
          rw [front?, Option.or_eq_some_iff, Option.map_eq_some_iff] at cut
          rcases cut with ⟨others, cut, rfl⟩ | ⟨-, cut⟩
          · obtain ⟨back, same⟩ := inner cut
            exact ⟨back ++ rest.data, by rw [data, same]; simp⟩
          · obtain ⟨others, others?, rfl⟩ := Option.map_eq_some_iff.mp cut
            obtain ⟨back, same⟩ := behind others?
            exact ⟨back, by rw [data, same]; simp⟩

/-- The first tag below some levels is one level below them, and stands behind its front. -/
theorem find?_tags (pieces : Pieces) (level offset levels : Nat) :
    (pieces.tags level offset).find? (fun tag => level + levels ≤ tag.level) =
      (pieces.front? levels).map fun front => ⟨level + levels, offset + front.length⟩ := by
  induction pieces generalizing level offset levels with
  | done => rfl
  | bytes data rest induction =>
      rw [tags, induction, front?, Option.map_map]
      congr 1
      funext front
      simp [Nat.add_assoc]
  | tagged tag inside rest inner behind =>
      cases levels with
      | zero => simp [tags, front?]
      | succ levels =>
          have deeper : (fun tag : PlacedTag => decide (level + (levels + 1) ≤ tag.level)) =
              fun tag => decide (level + 1 + levels ≤ tag.level) := by
            simp only [Nat.add_comm, Nat.add_left_comm]
          have inFront : ∀ front : Bytes,
              (⟨level + 1 + levels, offset + 1 + front.length⟩ : PlacedTag) =
                ⟨level + (levels + 1), offset + (tag :: front).length⟩ := by
            intro front
            refine congrArg₂ PlacedTag.mk ?_ ?_
            · omega
            · rw [List.length_cons]
              omega
          have beyond : ∀ front : Bytes, (⟨level + (levels + 1),
              offset + (1 + inside.data.length) + front.length⟩ : PlacedTag) =
                ⟨level + (levels + 1), offset + (tag :: inside.data ++ front).length⟩ := by
            intro front
            refine congrArg (PlacedTag.mk _) ?_
            simp only [List.cons_append, List.length_cons, List.length_append]
            omega
          have shallow : ¬level + (levels + 1) ≤ level := by omega
          rw [tags, List.cons_append, List.find?_cons, List.find?_append, behind, deeper, inner,
            front?, Option.map_or, Option.map_map, Option.map_map]
          simp only [shallow, decide_false, inFront, beyond, Function.comp_def]

/-- The tags of pieces stand in the bytes of the pieces. -/
theorem offset_mem_of_mem_tags {pieces : Pieces} {level offset : Nat} {tag : PlacedTag}
    (member : tag ∈ pieces.tags level offset) :
    offset ≤ tag.offset ∧ tag.offset < offset + pieces.data.length := by
  induction pieces generalizing level offset with
  | done => cases member
  | bytes data rest induction =>
      have bounds := induction member
      rw [Pieces.data, List.length_append]
      omega
  | tagged byte inside rest inner behind =>
      rw [tags, List.cons_append, List.mem_cons, List.mem_append] at member
      rw [data, List.length_append, List.length_cons]
      rcases member with rfl | inInside | inRest
      · simp only
        omega
      · have bounds := inner inInside
        omega
      · have bounds := behind inRest
        omega

/-- The tags of pieces are in the order of the stream. -/
theorem pairwise_tags (pieces : Pieces) (level offset : Nat) :
    (pieces.tags level offset).Pairwise fun tag later => tag.offset < later.offset := by
  induction pieces generalizing level offset with
  | done => exact .nil
  | bytes data rest induction => exact induction level _
  | tagged byte inside rest inner behind =>
      rw [tags, List.cons_append, List.pairwise_cons, List.pairwise_append]
      refine ⟨fun tag member => ?_, inner _ _, behind _ _, fun tag first later second => ?_⟩
      · simp only
        rcases List.mem_append.mp member with inInside | inRest
        · have bounds := offset_mem_of_mem_tags inInside
          omega
        · have bounds := offset_mem_of_mem_tags inRest
          omega
      · have bounds := offset_mem_of_mem_tags first
        have beyond := offset_mem_of_mem_tags second
        omega

/-- No tag is below some levels if there is no first one. -/
theorem front?_eq_none_iff {levels : Nat} {pieces : Pieces} (offset : Nat) :
    pieces.front? levels = none ↔ ∀ tag ∈ pieces.tags 1 offset, tag.level ≤ levels := by
  have found := find?_tags pieces 1 offset levels
  constructor
  · intro shallow tag member
    rw [shallow, Option.map_none, List.find?_eq_none] at found
    have few : ¬1 + levels ≤ tag.level := by simpa using found tag member
    omega
  · intro shallow
    have none : (pieces.tags 1 offset).find? (fun tag => 1 + levels ≤ tag.level) = none := by
      refine List.find?_eq_none.mpr fun tag member deep => ?_
      have few := shallow tag member
      have many : 1 + levels ≤ tag.level := of_decide_eq_true deep
      omega
    rwa [none, eq_comm, Option.map_eq_none_iff] at found

/-- The first tag below some levels stands behind the bytes in front of it. -/
theorem front?_of_find? {levels offset : Nat} {pieces : Pieces} {placed : PlacedTag}
    (found : (pieces.tags 1 offset).find? (fun tag => levels < tag.level) = some placed) :
    ∃ front, pieces.front? levels = some front ∧
      placed = ⟨levels + 1, offset + front.length⟩ ∧ pieces.data.take front.length = front := by
  have deeper : (fun tag : PlacedTag => decide (levels < tag.level)) =
      fun tag => decide (1 + levels ≤ tag.level) := by
    simp only [Nat.lt_iff_add_one_le, Nat.add_comm]
  rw [deeper, find?_tags, Option.map_eq_some_iff] at found
  obtain ⟨front, deep, rfl⟩ := found
  obtain ⟨back, same⟩ := front?_prefix deep
  exact ⟨front, deep, by rw [Nat.add_comm 1], by rw [same, List.take_left]⟩

end Pieces

namespace Writer

mutual

/--
The tag that is written for a value, or for the end of a dictionary, with what is written inside.
Any tag may ask for a slot, and none refers to one.
-/
inductive Writes (profile : Profile) : Option Value → UInt8 → Pieces → Prop
  | null (flagged : Bool) : Writes profile none (tagByte flagged '0') .done
  | constant (flagged : Bool) {char : Char} {value : Value} (named : (char, value) ∈ constants) :
      Writes profile (some value) (tagByte flagged char) .done
  | body (flagged : Bool) {char : Char} {value : Value} {parts : List Part} {pieces : Pieces}
      (shape : Shape profile char value parts) (inside : WritesAll profile parts pieces) :
      Writes profile (some value) (tagByte flagged char) pieces

/-- What is written for parts that stand one after the other. -/
inductive WritesAll (profile : Profile) : List Part → Pieces → Prop
  | nil : WritesAll profile [] .done
  | bytes {data : Bytes} {parts : List Part} {rest : Pieces}
      (others : WritesAll profile parts rest) :
      WritesAll profile (.bytes data :: parts) (.bytes data rest)
  | value {value : Option Value} {tag : UInt8} {inside rest : Pieces} {parts : List Part}
      (first : Writes profile value tag inside) (others : WritesAll profile parts rest) :
      WritesAll profile (.value value :: parts) (.tagged tag inside rest)
  | recorded {content : String} {parts : List Part} {rest : Pieces}
      (others : WritesAll profile parts rest) :
      WritesAll profile (.recorded content :: parts) rest

end

end Writer

namespace Pieces

/-- Pieces inside so many tuples of one item. -/
def inTuples : Nat → Pieces → Pieces
  | 0, pieces => pieces
  | count + 1, pieces =>
      single (Writer.tagByte false ')') (bytes (Bytes.digits 1 1) (inTuples count pieces))

/-- An empty dictionary: its tag, and the empty tag inside it. -/
def emptyDict : Pieces :=
  single (Writer.tagByte false '{') (single (Writer.tagByte false '0') done)

/-- Every tuple has a tag of its own, two bytes in front of the next one. -/
theorem tags_inTuples (count level offset : Nat) (pieces : Pieces) :
    (inTuples count pieces).tags level offset =
      (List.range count).map (fun index => ⟨level + index, offset + 2 * index⟩) ++
        pieces.tags (level + count) (offset + 2 * count) := by
  induction count generalizing level offset with
  | zero => rfl
  | succ count induction =>
      have one : (Bytes.digits 1 1).length = 1 := rfl
      have next : ∀ index, level + 1 + index = level + (index + 1) := by omega
      have past : ∀ index, offset + 1 + 1 + 2 * index = offset + 2 * (index + 1) := by omega
      rw [inTuples, single, tags, tags, tags, induction, List.append_nil, one,
        List.range_succ_eq_map]
      simp only [List.map_cons, List.map_map, Function.comp_def, next, past, Nat.add_zero,
        Nat.mul_zero, Nat.succ_eq_add_one, List.cons_append]

/-- The tuples themselves are not below some levels if there are not more of them. -/
theorem find?_tags_inTuples {count levels : Nat} (few : count ≤ levels) (offset : Nat)
    (pieces : Pieces) :
    ((inTuples count pieces).tags 1 offset).find? (fun tag => levels < tag.level) =
      (pieces.tags (1 + count) (offset + 2 * count)).find? (fun tag => levels < tag.level) := by
  have tuples : ((List.range count).map fun index =>
      (⟨1 + index, offset + 2 * index⟩ : PlacedTag)).find? (fun tag => levels < tag.level) =
        none := by
    refine List.find?_eq_none.mpr fun tag member deep => ?_
    obtain ⟨index, inRange, rfl⟩ := List.mem_map.mp member
    have small := List.mem_range.mp inRange
    have large : levels < 1 + index := of_decide_eq_true deep
    omega
  rw [tags_inTuples, List.find?_append, tuples, Option.none_or]

end Pieces

namespace Writer

theorem writes_emptyDict (profile : Profile) :
    Writes profile (some (.dict [])) (tagByte false '{') (.single (tagByte false '0') .done) :=
  .body false (.dict []) (.value (.null false) .nil)

theorem writes_inTuples {profile : Profile} {value : Value} {tag : UInt8} {inside : Pieces}
    (written : Writes profile (some value) tag inside) (count : Nat) :
    ∃ (value : Value) (other : UInt8) (pieces : Pieces),
      Pieces.inTuples count (.single tag inside) = .single other pieces ∧
        Writes profile (some value) other pieces := by
  induction count with
  | zero => exact ⟨value, tag, inside, rfl, written⟩
  | succ count induction =>
      obtain ⟨item, other, pieces, same, inner⟩ := induction
      refine ⟨.tuple [item], _, _, rfl, ?_⟩
      have small : [item].length ≤ 255 := by simp
      rw [same]
      exact .body false (.shortTuple small) (.bytes (.value inner .nil))

end Writer
end CodeScope
