import CodeScope.Handler
import CodeScope.Proofs.Bytes.Bounded
import CodeScope.Proofs.Sequencing

/-!
# Steps through an exception table

A cursor on an exception table gives finitely many entries, of which at most the last one is an
error, and then nothing for ever. Reading the table at once gives the same entries or that error,
whatever the cursor has given before.
-/

namespace CodeScope
namespace HandlerCursor

/-- The cursor after a number of steps. -/
def after (cursor : HandlerCursor) : Nat → HandlerCursor
  | 0 => cursor
  | count + 1 => cursor.next.2.after count

variable {cursor following : HandlerCursor}

/-- A step that gives nothing leaves the cursor as it is. -/
theorem eq_of_next_none (ended : cursor.next = (none, following)) : following = cursor := by
  rw [next] at ended
  split at ended
  · cases ended
    rfl
  · split at ended <;> cases ended

theorem items_of_none (ended : cursor.next = (none, following)) : cursor.items = [] := by
  rw [items]
  split
  · rfl
  · next given =>
      rw [ended] at given
      cases given

theorem items_of_some {item : Except Error Handler} (given : cursor.next = (some item, following)) :
    cursor.items = item :: following.items := by
  rw [items]
  split
  · next ended =>
      rw [given] at ended
      cases ended
  · next other same =>
      rw [given] at same
      cases same
      rfl

/-- A cursor gives its items one by one, and behind the last one nothing for ever. -/
theorem next_after (cursor : HandlerCursor) (count : Nat) :
    (cursor.after count).next.1 = cursor.items[count]? := by
  induction count generalizing cursor with
  | zero =>
      rw [after]
      cases given : cursor.next with
      | mk item following =>
          cases item with
          | none => rw [items_of_none given, List.getElem?_nil]
          | some item => rw [items_of_some given, List.getElem?_cons_zero]
  | succ count induction =>
      rw [after, induction]
      cases given : cursor.next with
      | mk item following =>
          cases item with
          | none =>
              rw [eq_of_next_none given, items_of_none given, List.getElem?_nil, List.getElem?_nil]
          | some item => rw [items_of_some given, List.getElem?_cons_succ]

theorem table_after (cursor : HandlerCursor) (count : Nat) :
    (cursor.after count).table = cursor.table := by
  induction count generalizing cursor with
  | zero => rfl
  | succ count induction =>
      rw [after, induction, next]
      split
      · rfl
      · split <;> rfl

theorem items_of_failed (failed : cursor.failed = true) : cursor.items = [] := by
  have ended : cursor.next = (none, cursor) := by
    rw [next, failed]
    rfl
  exact items_of_none ended

theorem items_of_read {handler : Handler} {place : Cursor} (sound : cursor.failed = false)
    (unread : ¬cursor.place.isEmpty) (scanned : Handler.scan cursor.place = .ok (handler, place)) :
    cursor.items = .ok handler :: { cursor with place := place }.items := by
  apply items_of_some
  rw [next, if_neg (by simpa [sound] using unread), scanned]

theorem items_of_malformed {error : Error} (sound : cursor.failed = false)
    (unread : ¬cursor.place.isEmpty) (malformed : Handler.scan cursor.place = .error error) :
    cursor.items = [.error error] := by
  have given : cursor.next = (some (.error error), { cursor with failed := true }) := by
    rw [next, if_neg (by simpa [sound] using unread), malformed]
  rw [items_of_some given, items_of_failed rfl]

theorem items_of_empty (finished : cursor.place.isEmpty) : cursor.items = [] := by
  have ended : cursor.next = (none, cursor) := if_pos (by simp [finished])
  exact items_of_none ended

/-- A cursor is at the end of its table, before a malformed entry or before another one. -/
theorem items_cases (sound : cursor.failed = false) :
    (cursor.place.isEmpty = true ∧ cursor.items = []) ∨
    (∃ error, Handler.scan cursor.place = .error error ∧ cursor.items = [.error error]) ∨
    ∃ handler place, Handler.scan cursor.place = .ok (handler, place) ∧
      cursor.items = .ok handler :: { cursor with place := place }.items := by
  by_cases finished : cursor.place.isEmpty = true
  · exact .inl ⟨finished, items_of_empty finished⟩
  · cases scanned : Handler.scan cursor.place with
    | error error => exact .inr (.inl ⟨error, rfl, items_of_malformed sound finished scanned⟩)
    | ok result => exact .inr (.inr ⟨_, _, rfl, items_of_read sound finished scanned⟩)

/-- Only the last item can be an error. -/
theorem exists_items (cursor : HandlerCursor) : ∃ (handlers : List Handler) (fault : Option Error),
    cursor.items = handlers.map .ok ++ fault.toList.map .error := by
  induction left : cursor.place.remaining using Nat.strongRecOn generalizing cursor with
  | ind count induction =>
      cases sound : cursor.failed with
      | true => exact ⟨[], none, items_of_failed sound⟩
      | false =>
          rcases items_cases sound with
            ⟨-, items⟩ | ⟨error, -, items⟩ | ⟨handler, place, scanned, items⟩
          · exact ⟨[], none, items⟩
          · exact ⟨[], some error, items⟩
          · have shorter := left ▸ Handler.scan_shortens scanned
            obtain ⟨handlers, fault, others⟩ :=
              induction _ shorter { cursor with place := place } rfl
            exact ⟨handler :: handlers, fault, items.trans (congrArg (_ :: ·) others)⟩

/-- The items of a table in sequence are its entries, or else its error. -/
theorem mapM_items (handlers : List Handler) (fault : Option Error) :
    (handlers.map Except.ok ++ fault.toList.map Except.error).mapM id =
      fault.elim (Except.ok handlers) Except.error := by
  cases fault with
  | none =>
      rw [Option.toList_none, List.map_nil, List.append_nil]
      refine mapM_eq_ok_iff.mpr (List.forall₂_map_left_iff.mpr ?_)
      exact List.forall₂_same.mpr fun _ _ => rfl
  | some error =>
      refine mapM_of_failing ?_ rfl
      intro item member
      obtain ⟨handler, -, rfl⟩ := List.mem_map.mp member
      exact ⟨handler, rfl⟩

theorem readAll_after (table : Bytes) (count : Nat) :
    ((start table).after count).readAll = (start table).items.mapM id := by
  rw [readAll, table_after]
  rfl

end HandlerCursor

/-- There are profiles of the supported versions only. -/
theorem Profile.ofVersion_of_unsupported {version : Version}
    (unsupported : version.isSupported = false) :
    ofVersion version = .error (.unsupportedVersion version) := by
  have versions : Version.supported = all.map Profile.version := rfl
  have missing : all.find? (fun profile => profile.version == version) = none := by
    rw [List.find?_eq_none]
    intro profile member same
    have listed : profile.version ∈ Version.supported := versions ▸ List.mem_map_of_mem member
    rw [eq_of_beq same] at listed
    rw [Version.isSupported, decide_eq_true listed] at unsupported
    cases unsupported
  rw [ofVersion, missing]

namespace Handler

variable {unit : CodeUnit}

theorem ofUnit_of_older (older : unit.version.order ⟨3, 11⟩ = .lt)
    (supported : unit.version.isSupported = true) : ofUnit unit = .ok (.start []) := by
  have among : unit.version ∈ Version.supported := of_decide_eq_true supported
  simp only [Version.supported, List.mem_cons, List.not_mem_nil, or_false] at among
  rw [ofUnit]
  rcases among with same | same | same | same | same <;> rw [same] at older ⊢
  · rfl
  · rfl
  · rfl
  · cases older
  · cases older

theorem ofUnit_of_unsupported (unsupported : unit.version.isSupported = false) :
    ofUnit unit = .error (.unsupportedVersion unit.version) := by
  rw [ofUnit, Profile.ofVersion_of_unsupported unsupported]
  rfl

end Handler

/-- How exception tables are read, whatever bytes they hold. -/
structure HandlerReading : Prop where
  /--
  A cursor gives finitely many entries, then at most one error, and then nothing for ever. After any
  number of steps the whole table reads as these entries or, if there is one, as the error.
  -/
  steps : ∀ table : Bytes, ∃ (handlers : List Handler) (fault : Option Error),
    (∀ count, ((HandlerCursor.start table).after count).next.1 =
      (handlers.map Except.ok ++ fault.toList.map Except.error)[count]?) ∧
    ∀ count, ((HandlerCursor.start table).after count).readAll =
      fault.elim (Except.ok handlers) Except.error
  /-- A number of 2³² or more is refused, also if the table ends before it does. -/
  tooLarge : ∀ cursor : Cursor,
    Scan.boundedVarint cursor = .error (.malformedCode .handler .tooLarge) ↔
      2 ^ 32 ≤ VarintRun.mostFirst (VarintRun.ofBytes cursor.rest).groups
  /-- A smaller number is cut off if the table ends before it does. -/
  truncated : ∀ cursor : Cursor,
    (∃ needed offset, Scan.boundedVarint cursor = .error (.truncated needed offset)) ↔
      (VarintRun.ofBytes cursor.rest).closed = false ∧
        VarintRun.mostFirst (VarintRun.ofBytes cursor.rest).groups < 2 ^ 32
  /-- A smaller number that is all there is read. -/
  read : ∀ (cursor next : Cursor) (number : UInt32),
    Scan.boundedVarint cursor = .ok (number, next) ↔
      (VarintRun.ofBytes cursor.rest).closed = true ∧
        VarintRun.mostFirst (VarintRun.ofBytes cursor.rest).groups = number.toNat ∧
        next = ⟨(VarintRun.ofBytes cursor.rest).rest,
          cursor.offset + (VarintRun.ofBytes cursor.rest).groups.length⟩
  /-- Before version 3.11 nothing is read of the table of a code unit. -/
  older : ∀ unit : CodeUnit, unit.version.order ⟨3, 11⟩ = .lt → unit.version.isSupported = true →
    ∃ cursor, Handler.ofUnit unit = .ok cursor ∧
      ∀ count, (cursor.after count).next.1 = none ∧ (cursor.after count).readAll = .ok []
  /-- The table of a code unit of another version is not read at all. -/
  unsupported : ∀ unit : CodeUnit, unit.version.isSupported = false →
    Handler.ofUnit unit = .error (.unsupportedVersion unit.version)

/-- An exception table is read up to its end or its first error. -/
theorem handlerReading : HandlerReading where
  steps table := by
    obtain ⟨handlers, fault, items⟩ := (HandlerCursor.start table).exists_items
    refine ⟨handlers, fault, fun count => ?_, fun count => ?_⟩
    · rw [HandlerCursor.next_after, items]
    · rw [HandlerCursor.readAll_after, items, HandlerCursor.mapM_items]
  tooLarge _ := Scan.boundedVarint_eq_tooLarge_iff
  truncated _ := Scan.boundedVarint_eq_truncated_iff
  read _ _ _ := Scan.boundedVarint_eq_ok_iff
  older unit older supported := by
    have empty : (HandlerCursor.start []).items = [] := HandlerCursor.items_of_empty rfl
    refine ⟨.start [], Handler.ofUnit_of_older older supported, fun count => ⟨?_, ?_⟩⟩
    · rw [HandlerCursor.next_after, empty, List.getElem?_nil]
    · rw [HandlerCursor.readAll_after, empty]
      rfl
  unsupported _ := Handler.ofUnit_of_unsupported

end CodeScope
