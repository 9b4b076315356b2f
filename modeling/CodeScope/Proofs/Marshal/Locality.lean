import CodeScope.Proofs.Marshal.Composition
import CodeScope.Proofs.Marshal.Counterpart
import CodeScope.Proofs.Image.Header
import CodeScope.Image.Basic

/-!
# What stands behind a value

A reader takes the bytes of a value from the front of what is left and does not look further: what
stands behind them changes neither the value nor the tables, and no error but the want of bytes. So
no stream that loads goes on in another one that does.
-/

namespace CodeScope

/-- A later place of a stream. The bytes in between have been taken. -/
structure Cursor.Past (later earlier : Cursor) (taken : Bytes) : Prop where
  rest : earlier.rest = taken ++ later.rest
  offset : later.offset = earlier.offset + taken.length

namespace Cursor

variable {first second third : Cursor} {front back : Bytes}

theorem past_self (cursor : Cursor) : cursor.Past cursor [] :=
  ⟨rfl, rfl⟩

theorem Past.trans (later : third.Past second back) (earlier : second.Past first front) :
    third.Past first (front ++ back) where
  rest := by rw [earlier.rest, later.rest, List.append_assoc]
  offset := by rw [later.offset, earlier.offset, List.length_append, Nat.add_assoc]

end Cursor

namespace Reading

/-- A part of a reader that takes its bytes from the front of what is left. -/
def Advances {α : Type} (part : Reading α) : Prop :=
  ∀ (state next : ReaderState) (value : α), part state = .ok value next →
    ∃ taken, next.cursor.Past state.cursor taken

namespace Advances

variable {α β : Type}

/-- A part that takes no bytes. -/
theorem ofCursor {part : Reading α}
    (same : ∀ (state next : ReaderState) (value : α), part state = .ok value next →
      next.cursor = state.cursor) : part.Advances := by
  intro state next value read
  refine ⟨[], ?_⟩
  rw [same state next value read]
  exact Cursor.past_self _

theorem bind {part : Reading α} {after : α → Reading β} (first : part.Advances)
    (second : ∀ value, (after value).Advances) : (part >>= after).Advances := by
  intro state next result read
  obtain ⟨value, middle, inner, read⟩ := bind_eq_ok read
  obtain ⟨front, passed⟩ := first _ _ _ inner
  obtain ⟨back, passedMore⟩ := second value _ _ _ read
  exact ⟨front ++ back, passedMore.trans passed⟩

theorem bytes (count : Nat) : (scan (Scan.bytes count)).Advances := by
  intro state next data read
  rcases Nat.lt_or_ge state.cursor.rest.length count with short | enough
  · rw [scan_bytes_of_short short] at read
    cases read
  · rw [scan_bytes_of_enough enough] at read
    cases read
    have size : (state.cursor.rest.take count).length = count := List.length_take_of_le enough
    exact ⟨state.cursor.rest.take count, (List.take_append_drop count _).symm, by rw [size]⟩

theorem nested {part : Reading α} (advances : part.Advances) :
    (Reading.nested part).Advances := by
  intro state next value read
  obtain ⟨inner, deeper, rfl⟩ := nested_eq_ok read
  obtain ⟨taken, passed⟩ := advances _ _ _ deeper
  exact ⟨taken, passed.rest, passed.offset⟩

theorem compositional : Compositional Advances where
  pure value := ofCursor fun state next result read => by cases read; rfl
  fail error := fun state next value read => by cases read
  bind := bind
  choice advances := fun state => advances state state
  nested := nested
  bytes := bytes
  offset := ofCursor fun state next result read => by cases read; rfl
  remaining := ofCursor fun state next result read => by cases read; rfl
  reserve := ofCursor fun state next result read => by cases read; rfl
  setSlot index slot := ofCursor fun state next result read => by
    cases index <;> cases read <;> rfl
  intern content := ofCursor fun state next result read => by cases read; rfl
  resolve index := ofCursor fun state next result read => by
    simp only [Reading.resolve] at read
    split at read <;> cases read <;> rfl
  resolveInterned index := ofCursor fun state next result read => by
    simp only [Reading.resolveInterned] at read
    split at read <;> cases read
    rfl

end Advances

section Longer

variable {profile : Profile} {state next : ReaderState}

/-- What comes of a reader is what comes of it with more bytes, unless it runs out of them. -/
theorem paired_followedBy (profile : Profile) (state : ReaderState) (more : Bytes) :
    Paired id more (fun _ => True) (fun one other => other = one.relabel id ∧ True)
      (Reading.value profile state) (Reading.value profile (state.followedBy more)) := by
  rw [← state.counterpart_id]
  exact Parallel.value (Value.inherited_true profile) rfl rfl state fun _ _ _ => trivial

/-- A value is read in the same way if more bytes stand behind it. -/
theorem value_followedBy_of_ok {value : Value} (read : Reading.value profile state = .ok value next)
    (more : Bytes) :
    Reading.value profile (state.followedBy more) = .ok value (next.followedBy more) := by
  have paired := paired_followedBy profile state more
  rw [read] at paired
  generalize longer : Reading.value profile (state.followedBy more) = outcome at paired
  cases paired with
  | ok same =>
      rw [same.1, value.relabel_id, next.counterpart_id]

/-- What is wrong with a value is so whatever bytes stand behind it, if none of its own miss. -/
theorem value_followedBy_of_error {error : Error}
    (failed : Reading.value profile state = .error error next)
    (enough : ∀ needed offset, error ≠ .truncated needed offset) (more : Bytes) :
    Reading.value profile (state.followedBy more) = .error error (next.followedBy more) := by
  have paired := paired_followedBy profile state more
  rw [failed] at paired
  generalize longer : Reading.value profile (state.followedBy more) = outcome at paired
  cases paired with
  | error => rw [next.counterpart_id]
  | starved => exact absurd rfl (enough _ _)

end Longer
end Reading

namespace Value

variable {version : Version} {value : Value}

/-- The first bytes of a stream that loads are not enough. -/
theorem ofBytes_of_prefix {front back : Bytes} (more : back ≠ [])
    (loaded : ofBytes version (front ++ back) = .ok value) :
    ∃ needed offset, ofBytes version front = .error (.truncated needed offset) := by
  obtain ⟨profile, next, supported, read⟩ := ofBytes_eq_ok loaded
  obtain ⟨read, ended⟩ := Reading.topLevel_eq_ok read
  have whole : ReaderState.start (front ++ back) = (ReaderState.start front).followedBy back := rfl
  rw [whole] at read
  cases inner : Reading.value profile (.start front) with
  | ok result middle =>
      rw [Reading.value_followedBy_of_ok inner back] at read
      cases read
      exact absurd (List.append_eq_nil_iff.mp ended).2 more
  | error error middle =>
      by_cases short : ∃ needed offset, error = .truncated needed offset
      · obtain ⟨needed, offset, rfl⟩ := short
        have failed : Reading.topLevel profile (.start front) =
            .error (.truncated needed offset) middle := Reading.bind_of_error inner
        exact ⟨needed, offset, ofBytes_of_error supported failed⟩
      · have enough : ∀ needed offset, error ≠ .truncated needed offset :=
          fun needed offset same => short ⟨needed, offset, same⟩
        rw [Reading.value_followedBy_of_error inner enough back] at read
        cases read

/-- The bytes behind a stream that loads are left over. -/
theorem ofBytes_append {data : Bytes} (loaded : ofBytes version data = .ok value) {more : Bytes}
    (some : more ≠ []) :
    ofBytes version (data ++ more) = .error (.trailingData more.length) := by
  obtain ⟨profile, next, supported, read⟩ := ofBytes_eq_ok loaded
  obtain ⟨read, ended⟩ := Reading.topLevel_eq_ok read
  have left : (next.followedBy more).cursor.rest = more := by
    rw [ReaderState.followedBy, ended, List.nil_append]
  have longer : Reading.topLevel profile (.start (data ++ more)) =
      .error (.trailingData more.length) (next.followedBy more) := by
    have readLonger : Reading.value profile (.start (data ++ more)) =
        .ok value (next.followedBy more) := Reading.value_followedBy_of_ok read more
    rw [Reading.topLevel_of_value readLonger, left, if_neg some]
  exact ofBytes_of_error supported longer

end Value

namespace Image

variable {front back : Bytes} {image : Image}

/-- What is shorter than a header is no module. -/
theorem ofBytes_of_short (short : front.length < Header.size) :
    ofBytes front = .error (.invalidHeader (.tooShort front.length)) := by
  have refused : Header.ofBytes front = .error (.invalidHeader (.tooShort front.length)) :=
    if_pos short
  rw [ofBytes, refused]
  rfl

/-- The header of a module that loads is also that of its first bytes, but they lack code. -/
theorem ofBytes_of_prefix (enough : Header.size ≤ front.length) (more : back ≠ [])
    (loaded : ofBytes (front ++ back) = .ok image) :
    ∃ needed offset, ofBytes front = .error (.truncated needed offset) := by
  have split : (front ++ back).drop Header.size = front.drop Header.size ++ back :=
    List.drop_append_of_le_length enough
  rw [ofBytes, Header.ofBytes_append enough, split] at loaded
  obtain ⟨header, accepted, loaded⟩ := bind_eq_ok_iff.mp loaded
  obtain ⟨value, loadedValue, -⟩ := bind_eq_ok_iff.mp loaded
  obtain ⟨needed, offset, failed⟩ := Value.ofBytes_of_prefix more loadedValue
  refine ⟨needed, offset, ?_⟩
  rw [ofBytes, accepted]
  simp only [bind, Except.bind, failed]

end Image

/--
What stands behind a value does not matter for a reader, in whatever state it is, and neither a
stream nor a module that loads is the beginning of another one.
-/
structure LocalDecoding : Prop where
  /-- The value, the bytes taken and the tables are the same whatever stands behind them. -/
  read : ∀ {profile : Profile} {state next : ReaderState} {value : Value},
    Reading.value profile state = .ok value next →
      (∃ taken, next.cursor.Past state.cursor taken) ∧
      ∀ more, Reading.value profile (state.followedBy more) = .ok value (next.followedBy more)
  /-- Every error but the want of bytes is the same whatever stands behind it. -/
  failed : ∀ {profile : Profile} {state next : ReaderState} {error : Error},
    Reading.value profile state = .error error next →
      (∀ needed offset, error ≠ .truncated needed offset) →
      ∀ more, Reading.value profile (state.followedBy more) = .error error (next.followedBy more)
  /-- The beginning of a stream that loads lacks bytes. -/
  begun : ∀ {version : Version} {front back : Bytes} {value : Value},
    Value.ofBytes version (front ++ back) = .ok value → back ≠ [] →
      ∃ needed offset, Value.ofBytes version front = .error (.truncated needed offset)
  /-- What stands behind a stream that loads is left over. -/
  exceeded : ∀ {version : Version} {data more : Bytes} {value : Value},
    Value.ofBytes version data = .ok value → more ≠ [] →
      Value.ofBytes version (data ++ more) = .error (.trailingData more.length)
  /-- The beginning of a module that loads lacks bytes, of the header or of the stream behind it. -/
  begunImage : ∀ {front back : Bytes} {image : Image},
    Image.ofBytes (front ++ back) = .ok image → back ≠ [] →
      if front.length < Header.size then
        Image.ofBytes front = .error (.invalidHeader (.tooShort front.length))
      else
        ∃ needed offset, Image.ofBytes front = .error (.truncated needed offset)

/-- Decoding is local: a value is decided by its own bytes. -/
theorem localDecoding : LocalDecoding where
  read read :=
    ⟨Reading.Advances.compositional.value _ _ _ _ read, Reading.value_followedBy_of_ok read⟩
  failed failed enough := Reading.value_followedBy_of_error failed enough
  begun loaded more := Value.ofBytes_of_prefix more loaded
  exceeded loaded more := Value.ofBytes_append loaded more
  begunImage loaded more := by
    split
    · next short => exact Image.ofBytes_of_short short
    · next enough => exact Image.ofBytes_of_prefix (Nat.le_of_not_lt enough) more loaded

end CodeScope
