import CodeScope.Proofs.Marshal.Bodies
import CodeScope.Proofs.Marshal.Nesting

/-!
# Reading what a writer wrote

A value is read from its tag on, whether its tag asks for a slot, refers to one or neither. By
induction on the levels of nesting the value of a stream is the value that was written, unless it is
nested too deeply for the reader.
-/

namespace CodeScope
namespace Writer

variable {profile : Profile} {inside : Reading (Option Value)} {child : Spelling (Option Value)}
variable {before middle after state : WriterState} {data : Bytes}

section Tags

theorem toNat_tagByte {char : Char} (small : char.toNat < 128) (flagged : Bool) :
    (tagByte flagged char).toNat = char.toNat + if flagged then 128 else 0 := by
  cases flagged <;> simp [tagByte, UInt8.toNat_ofNat'] <;> omega

theorem toNat_lt_of_ofChar? {char : Char} {tag : Tag} (named : Tag.ofChar? char = some tag) :
    char.toNat < 128 := by
  unfold Tag.ofChar? at named
  split at named <;> first | decide | cases named

/-- The byte of a tag names it, whether it asks for a slot or not. -/
theorem ofByte?_tagByte {char : Char} {tag : Tag} (named : Tag.ofChar? char = some tag)
    (flagged : Bool) : Tag.ofByte? (tagByte flagged char) = some tag := by
  have small := toNat_lt_of_ofChar? named
  have low : (tagByte flagged char).toNat % 128 = char.toNat := by
    rw [toNat_tagByte small]
    cases flagged <;> simp <;> omega
  rw [Tag.ofByte?, low, Char.ofNat_toNat, named]

theorem flagged_tagByte {char : Char} {tag : Tag} (named : Tag.ofChar? char = some tag) :
    128 ≤ (tagByte true char).toNat := by
  rw [toNat_tagByte (toNat_lt_of_ofChar? named)]
  exact Nat.le_add_left _ _

theorem plain_tagByte {char : Char} {tag : Tag} (named : Tag.ofChar? char = some tag) :
    ¬ 128 ≤ (tagByte false char).toNat := by
  have small := toNat_lt_of_ofChar? named
  rw [toNat_tagByte small]
  simpa using small

theorem ofChar?_constant {char : Char} {value : Value} (named : (char, value) ∈ constants) :
    Tag.ofChar? char = some (.constant value) := by
  simp only [constants, List.mem_cons, Prod.mk.injEq, List.not_mem_nil, or_false] at named
  rcases named with ⟨rfl, rfl⟩ | ⟨rfl, rfl⟩ | ⟨rfl, rfl⟩ | ⟨rfl, rfl⟩ | ⟨rfl, rfl⟩ <;> rfl

/-- The tag byte is read first, at whatever offset. -/
theorem reads_tagByte {α : Type} {accepts : α → Prop} {next : Nat → UInt8 → Reading α}
    (byte : UInt8)
    (reads : ∀ offset, Reads (next offset byte) before data accepts after) :
    Reads (Reading.offset >>= fun offset => Reading.scan Scan.u8 >>= next offset) before
      (byte :: data) accepts after := by
  intro reader rest follows stream
  have split : reader.cursor.rest = ([byte] ++ data) ++ rest := stream
  refine Reads.bind (Reads.byte byte before) ?_ reader rest follows split
  rintro read rfl
  exact reads reader.cursor.offset

/-- An opening that leaves nothing to be read of a value. -/
def Settles (value : Option Value) (opening : Opening) : Prop :=
  ∃ copy, opening = .settled copy ∧ copy.map Value.unplaced = value.map Value.unplaced

theorem reads_null (flagged : Bool) :
    Reads Reading.opening state [tagByte flagged '0'] (Settles none) state := by
  have named : Tag.ofChar? '0' = some .null := rfl
  refine reads_tagByte _ fun offset => ?_
  simp only [ofByte?_tagByte named]
  exact Reads.pure ⟨none, rfl, rfl⟩

theorem reads_constant {char : Char} {value : Value} (named : (char, value) ∈ constants)
    (flagged : Bool) :
    Reads Reading.opening state [tagByte flagged char] (Settles (some value)) state := by
  refine reads_tagByte _ fun offset => ?_
  simp only [ofByte?_tagByte (ofChar?_constant named)]
  exact Reads.pure ⟨some value, rfl, rfl⟩

theorem reads_reference {index : Nat} {original value : Value} (small : index < 2 ^ 32)
    (complete : state.slots[index]? = some (some original)) (identical : original.SameAs value)
    (flagged : Bool) :
    Reads Reading.opening state (tagByte flagged 'r' :: Bytes.digits 4 index)
      (Settles (some value)) state := by
  have named : Tag.ofChar? 'r' = some .reference := rfl
  refine reads_tagByte _ fun offset => ?_
  simp only [ofByte?_tagByte named]
  rw [← List.append_nil (Bytes.digits 4 index)]
  refine (Reads.index small state).bind ?_
  rintro number rfl reader rest follows stream
  obtain ⟨copy, stored, same⟩ := follows.ready complete
  have resolved : Reading.resolve number reader = .ok copy reader := by
    simp only [Reading.resolve, stored]
  refine ⟨.settled (some copy), reader, ?_, ?_, follows, stream, Nat.le_refl _⟩
  · rw [Reading.bind_of_ok resolved]
    rfl
  · exact ⟨some copy, rfl, congrArg some (same.trans identical)⟩

theorem reads_internedReference {index : Nat} {content : String} (small : index < 2 ^ 32)
    (recorded : state.interned[index]? = some content) (flagged : Bool) :
    Reads Reading.opening state (tagByte flagged 'R' :: Bytes.digits 4 index)
      (Settles (some (.text content true))) state := by
  have named : Tag.ofChar? 'R' = some .internedText := rfl
  refine reads_tagByte _ fun offset => ?_
  simp only [ofByte?_tagByte named]
  rw [← List.append_nil (Bytes.digits 4 index)]
  refine (Reads.index small state).bind ?_
  rintro number rfl reader rest follows stream
  have stored : reader.interned[number.toNat]? = some content := by
    rw [← Array.getElem?_toList, follows.interned, recorded]
  have resolved : Reading.resolveInterned number reader = .ok (.text content true) reader := by
    simp only [Reading.resolveInterned, stored]
  refine ⟨.settled (some (.text content true)), reader, ?_, ?_, follows, stream, Nat.le_refl _⟩
  · rw [Reading.bind_of_ok resolved]
    rfl
  · exact ⟨_, rfl, rfl⟩

/-- The tag of a value without a slot. -/
theorem reads_plainTag {char : Char} {form : BodyForm}
    (named : Tag.ofChar? char = some (.body form)) :
    Reads Reading.opening state [tagByte false char] (fun opening => ∃ site,
      opening = .body form site none) state := by
  refine reads_tagByte _ fun offset => ?_
  simp only [ofByte?_tagByte named, Reading.reserveFor, plain_tagByte named, if_false]
  exact Reads.pure ⟨_, rfl⟩

/-- The tag of a value that has the next slot from then on. -/
theorem reads_flaggedTag {char : Char} {form : BodyForm}
    (named : Tag.ofChar? char = some (.body form)) :
    Reads Reading.opening state [tagByte true char] (fun opening => ∃ site,
      opening = .body form site (some state.slots.length)) state.reserve := by
  refine reads_tagByte _ fun offset => ?_
  simp only [ofByte?_tagByte named, Reading.reserveFor, flagged_tagByte named, if_true]
  intro reader rest follows stream
  refine ⟨.body form _ (some reader.slots.size), _, rfl, ⟨_, by rw [follows.size]⟩,
    follows.reserve, stream, ?_⟩
  rw [Array.size_push]
  exact Nat.le_succ _

end Tags

/-- A value that asks for a slot is complete in it after its body. -/
theorem reads_complete {body : Reading Value} {value : Value}
    (reads : Reads body before.reserve data (·.SameAs value) after) :
    Reads (body >>= fun copy =>
        Reading.setSlot (some before.slots.length) (.ready copy) >>= fun _ => pure (some copy))
      before.reserve data (·.map Value.unplaced = some value.unplaced)
      (after.complete before.slots.length value) := by
  intro reader rest follows stream
  obtain ⟨copy, next, read, same, followsNext, left, grown⟩ := reads reader rest follows stream
  have inside : before.slots.length < next.slots.size := by
    rw [follows.size, WriterState.reserve, List.length_append] at grown
    exact grown
  refine ⟨some copy, _, ?_, congrArg some same, followsNext.complete inside same, left, ?_⟩
  · rw [Reading.bind_of_ok read]
    rfl
  · simpa using grown

theorem reads_tagged {value : Option Value} (readsChildren : ReadsChildren inside child)
    (nonempty : NeverEmpty child) (keeps : KeepsOpen child)
    (spelled : Tagged profile child value before data after) :
    Reads (Reading.tagged profile inside) before data
      (·.map Value.unplaced = value.map Value.unplaced) after := by
  have settled : ∀ {value : Option Value} {data : Bytes},
      Reads Reading.opening before data (Settles value) before →
        Reads (Reading.tagged profile inside) before data
          (·.map Value.unplaced = value.map Value.unplaced) before := by
    intro value data opening
    rw [← List.append_nil data]
    refine opening.bind ?_
    rintro _ ⟨copy, rfl, same⟩
    exact Reads.pure same
  cases spelled with
  | null flagged => exact settled (reads_null flagged)
  | constant flagged named => exact settled (reads_constant named flagged)
  | reference flagged small complete identical =>
      exact settled (reads_reference small complete identical flagged)
  | internedText flagged small recorded =>
      exact settled (reads_internedReference small recorded flagged)
  | @plain char value before after data body =>
      obtain ⟨form, named, reads⟩ := reads_body readsChildren nonempty keeps body
      have split : tagByte false char :: data = [tagByte false char] ++ (data ++ []) := by simp
      rw [split]
      refine (reads_plainTag named).bind ?_
      rintro _ ⟨site, rfl⟩
      refine (reads site none (by simp)).bind fun copy same => ?_
      exact Reads.pure (congrArg some same)
  | @flagged char value before after data body =>
      obtain ⟨form, named, reads⟩ := reads_body readsChildren nonempty keeps body
      have split : tagByte true char :: data = [tagByte true char] ++ data := rfl
      rw [split]
      refine (reads_flaggedTag named).bind ?_
      rintro _ ⟨site, rfl⟩
      refine reads_complete (reads site _ ?_)
      rintro index ⟨⟩
      simp [WriterState.reserve]

theorem reads_nested {part : Reading (Option Value)} {accepts : Option Value → Prop}
    (reads : Reads part before data accepts after) :
    Reads (Reading.nested part) before data accepts after := by
  intro reader rest follows stream
  obtain ⟨value, next, read, accepted, followsNext, left, grown⟩ :=
    reads _ rest (follows.move reader.cursor (reader.depth + 1)) stream
  refine ⟨value, _, ?_, accepted, followsNext.move next.cursor (next.depth - 1), left, grown⟩
  simp only [Reading.nested, read]

theorem neverEmpty_spells (levels : Nat) : NeverEmpty (Spells profile levels) := by
  intro value before data after spelled
  cases levels with
  | zero => exact spelled.elim
  | succ levels =>
      cases spelled with
      | null | constant | reference | internedText | plain | flagged => exact List.cons_ne_nil _ _

theorem keepsOpen_spells (levels : Nat) : KeepsOpen (Spells profile levels) := by
  induction levels with
  | zero => exact fun _ _ _ _ spelled => spelled.elim
  | succ levels induction =>
      intro value before data after spelled index incomplete
      cases spelled with
      | null | constant | reference | internedText => exact incomplete
      | plain body => exact Body.keepsOpen induction _ _ _ _ body index incomplete
      | @flagged char value before after data body =>
          obtain ⟨small, -⟩ := List.getElem?_eq_some_iff.mp incomplete
          have reserved : before.reserve.slots[index]? = some none := by
            rw [WriterState.reserve, List.getElem?_append_left small, incomplete]
          rw [WriterState.complete, List.getElem?_set_ne (Nat.ne_of_gt small)]
          exact Body.keepsOpen induction _ _ _ _ body index reserved

/-- A reader with as many levels as the writer reads what the writer spells. -/
theorem reads_optional (levels : Nat) :
    ReadsChildren (Reading.optional profile levels) (Spells profile levels) := by
  induction levels with
  | zero =>
      intro value before data after spelled
      exact spelled.elim
  | succ levels induction =>
      intro value before data after spelled
      exact reads_nested
        (reads_tagged induction (neverEmpty_spells levels) (keepsOpen_spells levels) spelled)

/-- A reader of one value has levels for what is spelled, or gives up because of the nesting. -/
theorem value_of_spells {levels : Nat} {value : Value} {reader : ReaderState} {rest : Bytes}
    (spelled : Spells profile levels (some value) before data after)
    (follows : Follows before reader) (stream : reader.cursor.rest = data ++ rest) :
    (∃ copy next, Reading.value profile reader = .ok copy next ∧ copy.SameAs value ∧
      Follows after next ∧ next.cursor.rest = rest) ∨
    (nestingLimit < levels + reader.depth ∧
      ∃ offset next, Reading.value profile reader = .error (.nestedTooDeep offset) next) := by
  obtain ⟨copy, next, read, same, followsNext, left, -⟩ :=
    reads_required (reads_optional levels) (neverEmpty_spells levels) (keepsOpen_spells levels)
      spelled reader rest follows stream
  have found : (∃ copy next, Script.required.run (Reading.optional profile levels) none reader =
      .ok copy next ∧ copy.SameAs value ∧ Follows after next ∧ next.cursor.rest = rest) :=
    ⟨copy, next, read, same, followsNext, left⟩
  -- The reader has the levels up to its limit, the writer its own: the deeper of the two readers
  -- agrees with the other one wherever that does not give up.
  rcases Nat.lt_or_ge (nestingLimit - reader.depth) levels with short | enough
  · rcases (Reading.Shallower.optional (Nat.le_of_lt short)).run none Script.required reader with
      equal | ⟨offset, final, failed⟩
    · left
      rw [Reading.value, equal]
      exact found
    · right
      exact ⟨by omega, offset, final, failed⟩
  · rcases (Reading.Shallower.optional enough).run none Script.required reader with
      equal | ⟨offset, final, failed⟩
    · left
      rw [Reading.value, ← equal]
      exact found
    · rw [failed] at read
      cases read

/--
Whatever a supported version may write for a value is read as that value, and what follows it is
left over. The only exception is a stream with more levels of nesting than the reader allows, which
can be refused for that reason.
-/
theorem ofBytes_of_spells {version : Version} {levels : Nat} {value : Value}
    (supported : Profile.ofVersion version = .ok profile)
    (spelled : Spells profile levels (some value) .start data after) (rest : Bytes) :
    (∃ copy, copy.SameAs value ∧
      Value.ofBytes version (data ++ rest) =
        if rest = [] then .ok copy else .error (.trailingData rest.length)) ∨
    (nestingLimit < levels ∧
      ∃ offset, Value.ofBytes version (data ++ rest) = .error (.nestedTooDeep offset)) := by
  have stream : (ReaderState.start (data ++ rest)).cursor.rest = data ++ rest := rfl
  rcases value_of_spells spelled (follows_start _) stream with
    ⟨copy, next, read, same, -, left⟩ | ⟨tooMany, offset, next, failed⟩
  · left
    refine ⟨copy, same, ?_⟩
    have finished : Reading.topLevel profile (ReaderState.start (data ++ rest)) =
        if rest = [] then .ok copy next else .error (.trailingData rest.length) next := by
      rw [Reading.topLevel, Reading.bind_of_ok read]
      have counted : Reading.remaining next = .ok rest.length next := by
        rw [← left]
        rfl
      rw [Reading.bind_of_ok counted]
      cases rest with
      | nil => rfl
      | cons byte others => rfl
    rw [Value.ofBytes, supported]
    simp only [bind, Except.bind, finished]
    cases rest with
    | nil => rfl
    | cons byte others => rfl
  · right
    refine ⟨tooMany, offset, ?_⟩
    have finished : Reading.topLevel profile (ReaderState.start (data ++ rest)) =
        .error (.nestedTooDeep offset) next := by
      rw [Reading.topLevel, Reading.bind_of_error failed]
    rw [Value.ofBytes, supported]
    simp only [bind, Except.bind, finished]
    rfl

/-- A list in slot 0, and a reference in the place of another list of the same items. -/
theorem spells_sharedList :
    Spells Profile.version38 3 (some (.tuple [.list [.int32 7], .list [.int32 7]])) .start
      [0x29, 2, 0xDB, 1, 0, 0, 0, 0x69, 7, 0, 0, 0, 0x72, 0, 0, 0, 0]
      ⟨[some (.list [.int32 7])], []⟩ := by
  have item : Spells Profile.version38 1 (some (.int32 7)) ⟨[none], []⟩ [0x69, 7, 0, 0, 0]
      ⟨[none], []⟩ := .plain (.int32 7 _)
  have body : Body Profile.version38 (Spells Profile.version38 1) '[' (.list [.int32 7])
      (WriterState.start.reserve) [1, 0, 0, 0, 0x69, 7, 0, 0, 0] ⟨[none], []⟩ :=
    .list (by decide) (.cons item (.nil _))
  have first : Spells Profile.version38 2 (some (.list [.int32 7])) .start
      [0xDB, 1, 0, 0, 0, 0x69, 7, 0, 0, 0] ⟨[some (.list [.int32 7])], []⟩ :=
    .flagged body
  have second : Spells Profile.version38 2 (some (.list [.int32 7]))
      ⟨[some (.list [.int32 7])], []⟩ [0x72, 0, 0, 0, 0] ⟨[some (.list [.int32 7])], []⟩ :=
    .reference false (show 0 < 2 ^ 32 by decide) rfl rfl
  exact .plain (.shortTuple (by decide) (.cons first (.cons second (.nil _))))

theorem ofBytes_of_spells_sharedList :
    Profile.ofVersion ⟨3, 8⟩ = .ok Profile.version38 ∧
    ((∃ copy, copy.SameAs (.tuple [.list [.int32 7], .list [.int32 7]]) ∧
      Value.ofBytes ⟨3, 8⟩ [0x29, 2, 0xDB, 1, 0, 0, 0, 0x69, 7, 0, 0, 0, 0x72, 0, 0, 0, 0] =
        .ok copy) ∨
    (nestingLimit < 3 ∧ ∃ offset,
      Value.ofBytes ⟨3, 8⟩ [0x29, 2, 0xDB, 1, 0, 0, 0, 0x69, 7, 0, 0, 0, 0x72, 0, 0, 0, 0] =
        .error (.nestedTooDeep offset))) :=
  ⟨rfl, ofBytes_of_spells rfl spells_sharedList []⟩

end Writer
end CodeScope
