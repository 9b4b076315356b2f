import CodeScope.Proofs.Listing.Lines
import CodeScope.Proofs.Marshal.Units
import CodeScope.Proofs.Position.Answers
import Mathlib.Data.List.Pairwise

/-!
# Units that can be listed

A unit that has been loaded can be listed if the opcodes of its listed instructions are known and no
malformed entry of its position table starts where the last of them does or before. Entries after
that one and the exception table are not read.
-/

namespace CodeScope
namespace PositionTable

variable {table : PositionTable} {offset : Nat}

/-- No entry is malformed, or the first malformed one starts after an offset. -/
def SoundUpTo (table : PositionTable) (offset : Nat) : Prop :=
  table.decoded.fault = none ∨ offset < 2 * table.covered

theorem SoundUpTo.of_le {later : Nat} (sound : table.SoundUpTo later) (reached : offset ≤ later) :
    table.SoundUpTo offset :=
  sound.imp_right (Nat.lt_of_le_of_lt reached)

theorem exists_find_iff : (∃ span, table.find offset = .ok span) ↔ table.SoundUpTo offset := by
  rw [find, SoundUpTo]
  cases table.decoded.fault with
  | none => simp
  | some error =>
      by_cases before : offset < 2 * table.covered
      · simp [before]
      · simp [before]

/-- A cursor at the start answers where no malformed entry comes first. -/
theorem exists_get_iff :
    (∃ answer, (PositionCursor.start table).get offset = .ok answer) ↔
      table.SoundUpTo offset := by
  rw [← exists_find_iff, ← (coherent table).seek offset]
  have ordered := PositionCursor.ordered_start table offset
  cases sought : (PositionCursor.start table).seek offset with
  | error error => simp [PositionCursor.get_of_lost ordered sought]
  | ok span =>
      obtain ⟨next, found, -, -⟩ := PositionCursor.get_of_sought ordered sought
      simp [found]

end PositionTable

namespace CodeUnit

variable {unit : CodeUnit} {profile : Profile} {options : ListingOptions}

/--
A unit whose instructions have opcodes and, up to the last one, places. Cache slots only count if
they are kept.
-/
structure Listable (unit : CodeUnit) (profile : Profile) (options : ListingOptions) : Prop where
  known : ∀ instruction ∈ Instruction.decode unit.code,
    options.keepCaches ∨ profile.cacheOpcode ≠ some instruction.opcode →
      ∃ opcode, profile.opcodes.find? instruction.opcode = some opcode
  placed : ∀ last ∈ ((Instruction.decode unit.code).filter fun instruction =>
      options.keepCaches ∨ profile.cacheOpcode ≠ some instruction.opcode).getLast?,
    PositionTable.SoundUpTo ⟨profile.positionFormat, unit.firstLine, unit.linetable⟩ last.start

theorem mem_listedInstructions_iff {instruction : Instruction} :
    instruction ∈ unit.listedInstructions profile options ↔
      instruction ∈ Instruction.decode unit.code ∧
        (options.keepCaches ∨ profile.cacheOpcode ≠ some instruction.opcode) := by
  rw [listedInstructions_eq, List.mem_filter, decide_eq_true_iff]

/-- No listed instruction starts after the last one does. -/
theorem start_le_of_getLast? {instruction last : Instruction}
    (member : instruction ∈ unit.listedInstructions profile options)
    (isLast : last ∈ (unit.listedInstructions profile options).getLast?) :
    instruction.start ≤ last.start := by
  have increasing : (unit.listedInstructions profile options).Pairwise fun earlier later =>
      earlier.start ≤ later.start :=
    (pairwise_listedInstructions unit profile options).imp Nat.le_of_lt
  obtain ⟨nonempty, same⟩ := List.mem_getLast?_eq_getLast isLast
  rw [same]
  exact increasing.rel_getLast_of_rel_getLast_getLast member (Nat.le_refl _)

theorem exists_lines_iff (supported : Profile.ofVersion unit.version = .ok profile) :
    (∃ lines, unit.lines options = .ok lines) ↔ unit.Listable profile options := by
  rw [lines_eq_mapM supported (table_of_supported supported), exists_mapM_eq_ok_iff]
  simp only [lineAlone_eq_ok_iff, exists_shows_iff, PositionTable.exists_get_iff]
  constructor
  · intro each
    refine ⟨fun instruction member shown => ?_, fun last isLast => ?_⟩
    · exact (each instruction (mem_listedInstructions_iff.mpr ⟨member, shown⟩)).1
    · rw [← listedInstructions_eq] at isLast
      exact (each last (List.mem_of_getLast? isLast)).2
  · intro ⟨known, placed⟩ instruction member
    obtain ⟨decoded, shown⟩ := mem_listedInstructions_iff.mp member
    refine ⟨known instruction decoded shown, ?_⟩
    rw [← listedInstructions_eq] at placed
    have nonempty := List.ne_nil_of_mem member
    have isLast := List.getLast?_eq_some_getLast nonempty
    exact (placed _ isLast).of_le (start_le_of_getLast? member isLast)

end CodeUnit

namespace Image

variable {content : Bytes} {image : Image} {profile : Profile}

theorem exists_profile_of_ofBytes (loaded : ofBytes content = .ok image) :
    ∃ profile, Profile.ofVersion image.header.version = .ok profile := by
  obtain ⟨profile, next, supported, -⟩ := Value.ofBytes_eq_ok (stream_of_ofBytes loaded)
  exact ⟨profile, supported⟩

/-- A module that has been loaded can be listed if all units that are visited can. -/
theorem exists_listing_iff {options : ListingOptions} (loaded : ofBytes content = .ok image)
    (supported : Profile.ofVersion image.header.version = .ok profile) :
    (∃ listing, image.code.listing options = .ok listing) ↔
      ∀ visited ∈ image.code.visits options, visited.Listable profile options := by
  have sane := (Value.inherited_sane profile).ofBytes supported (stream_of_ofBytes loaded)
  rw [CodeUnit.exists_listing_iff]
  refine forall₂_congr fun visited member => ?_
  have inside := CodeUnit.within_of_mem_visits image.code member
  have wellFormed := (sane visited.toValue inside).2 visited rfl
  apply CodeUnit.exists_lines_iff
  rw [wellFormed.version, Profile.version_of_ofVersion supported]
  exact supported

end Image
end CodeScope
