import CodeScope.Proofs.Marshal.Parallel
import CodeScope.Proofs.Marshal.Script

/-!
# Readers side by side

The counterpart of a reader stands at the same place of a stream that may be longer, and has stored
the same values up to the versions of code units. What a reader does its counterpart does, unless
the reader runs out of bytes that the counterpart still has. A property that values have from their
parts is kept by all values that are stored.
-/

namespace CodeScope

/-- What a slot holds, with code units that are said to be of other versions. -/
def Slot.relabel (change : Version → Version) : Slot → Slot
  | pending => pending
  | filling => filling
  | ready value => ready (value.relabel change)

theorem Slot.relabel_id (slot : Slot) : slot.relabel id = slot := by
  cases slot with
  | ready value => exact congrArg Slot.ready value.relabel_id
  | _ => rfl

namespace ReaderState

/-- The state in which more bytes are left, behind those that are. -/
def followedBy (state : ReaderState) (more : Bytes) : ReaderState :=
  { state with cursor := ⟨state.cursor.rest ++ more, state.cursor.offset⟩ }

/-- The state in which the stored code units are said to be of other versions. -/
def relabel (state : ReaderState) (change : Version → Version) : ReaderState :=
  { state with slots := state.slots.map (Slot.relabel change) }

/-- The state of the reader at the side of another one. -/
def counterpart (state : ReaderState) (change : Version → Version) (more : Bytes) : ReaderState :=
  (state.relabel change).followedBy more

/-- All stored values have a property. -/
def Stores (state : ReaderState) (holds : Value → Prop) : Prop :=
  ∀ (index : Nat) (value : Value), state.slots[index]? = some (.ready value) → holds value

variable {state next : ReaderState} {holds : Value → Prop}

theorem relabel_id (state : ReaderState) : state.relabel id = state := by
  have same : state.slots.map (Slot.relabel id) = state.slots :=
    (Array.map_congr_left fun slot _ => slot.relabel_id).trans (Array.map_id state.slots)
  rw [relabel, same]

theorem followedBy_nil (state : ReaderState) : state.followedBy [] = state := by
  rw [followedBy, List.append_nil]

theorem relabel_start (change : Version → Version) (data : Bytes) :
    (start data).relabel change = start data := by
  simp [relabel, start]

theorem counterpart_id (state : ReaderState) (more : Bytes) :
    state.counterpart id more = state.followedBy more := by
  rw [counterpart, relabel_id]

theorem stores_start (data : Bytes) : (start data).Stores holds := by
  intro index value stored
  simp [start] at stored

theorem Stores.ofSlots (stores : state.Stores holds) (same : next.slots = state.slots) :
    next.Stores holds := by
  intro index value stored
  rw [same] at stored
  exact stores _ _ stored

theorem Stores.reserve (stores : state.Stores holds) :
    Stores { state with slots := state.slots.push .pending } holds := by
  intro index value stored
  rw [Array.getElem?_push] at stored
  split at stored
  · simp at stored
  · exact stores _ _ stored

theorem Stores.set (stores : state.Stores holds) {index : Nat} {slot : Slot}
    (kept : ∀ value, slot = .ready value → holds value) :
    Stores { state with slots := state.slots.setIfInBounds index slot } holds := by
  intro other value stored
  rw [Array.getElem?_setIfInBounds] at stored
  split at stored
  · split at stored
    · exact kept value (Option.some.inj stored)
    · cases stored
  · exact stores _ _ stored

end ReaderState

namespace Reading

theorem stores_of_setSlot {holds : Value → Prop} {state next : ReaderState} {index : Option Nat}
    {slot : Slot} {result : Unit} (stores : state.Stores holds)
    (kept : ∀ value, slot = .ready value → holds value)
    (set : setSlot index slot state = .ok result next) : next.Stores holds := by
  cases index with
  | none =>
      cases set
      exact stores
  | some index =>
      cases set
      exact stores.set kept

/--
What comes of a reader and of its counterpart: the same up to the versions of code units. If the
counterpart has more bytes, anything may come of it where the reader runs out of them.
-/
inductive Paired (change : Version → Version) (more : Bytes) (holds : Value → Prop) {α β : Type}
    (ends : α → β → Prop) :
    EStateM.Result Error ReaderState α → EStateM.Result Error ReaderState β → Prop
  | ok {left : α} {right : β} {next : ReaderState} (ended : ends left right)
      (stores : next.Stores holds) :
      Paired change more holds ends (.ok left next) (.ok right (next.counterpart change more))
  | error (error : Error) (next : ReaderState) :
      Paired change more holds ends (.error error next)
        (.error error (next.counterpart change more))
  | starved {needed offset : Nat} {next : ReaderState} (longer : more ≠ [])
      (outcome : EStateM.Result Error ReaderState β) :
      Paired change more holds ends (.error (.truncated needed offset) next) outcome

theorem Paired.endLevel {change : Version → Version} {more : Bytes} {holds : Value → Prop}
    {α β : Type} {ends : α → β → Prop} {left : EStateM.Result Error ReaderState α}
    {right : EStateM.Result Error ReaderState β}
    (paired : Paired change more holds ends left right) :
    Paired change more holds ends (Reading.endLevel left) (Reading.endLevel right) := by
  cases paired with
  | ok ended stores => exact .ok ended (stores.ofSlots rfl)
  | error error next => exact .error error { next with depth := next.depth - 1 }
  | starved longer outcome => exact .starved longer _

/-- Two parts of readers that do the same from a state and from its counterpart. -/
def Parallel (change : Version → Version) (more : Bytes) (holds : Value → Prop) {α β : Type}
    (left : Reading α) (right : Reading β) (ends : α → β → Prop) : Prop :=
  ∀ state : ReaderState, state.Stores holds →
    Paired change more holds ends (left state) (right (state.counterpart change more))

/-- The answers that a script and its counterpart get when they ask for a value. -/
def Answers (change : Version → Version) (holds : Value → Prop) (left right : Option Value) :
    Prop :=
  right = left.map (.relabel change) ∧ ∀ value ∈ left, holds value

variable {change : Version → Version} {more : Bytes} {holds : Value → Prop}
variable {α β γ δ : Type} {ends : α → β → Prop} {passes : γ → δ → Prop}

namespace Parallel

theorem pure {left : α} {right : β} (ended : ends left right) :
    Parallel change more holds (Pure.pure left) (Pure.pure right) ends :=
  fun _ stores => .ok ended stores

theorem fail (error : Error) :
    Parallel change more holds (Reading.fail error) (Reading.fail error) ends :=
  fun state _ => .error error state

theorem bind {left : Reading α} {right : Reading β} {leftNext : α → Reading γ}
    {rightNext : β → Reading δ} (first : Parallel change more holds left right ends)
    (second : ∀ one other, ends one other →
      Parallel change more holds (leftNext one) (rightNext other) passes) :
    Parallel change more holds (left >>= leftNext) (right >>= rightNext) passes := by
  intro state stores
  have paired := first state stores
  cases read : left state with
  | ok one next =>
      rw [read] at paired
      rw [bind_of_ok read]
      cases readRight : right (state.counterpart change more) with
      | ok other nextRight =>
          rw [readRight] at paired
          rw [bind_of_ok readRight]
          cases paired with
          | ok ended storesNext => exact second one other ended next storesNext
      | error error nextRight =>
          rw [readRight] at paired
          cases paired
  | error error next =>
      rw [read] at paired
      rw [bind_of_error read]
      generalize readRight : right (state.counterpart change more) = outcome at paired
      cases paired with
      | error => rw [bind_of_error readRight]; exact .error error next
      | starved longer => exact .starved longer _

theorem map {left : Reading α} {right : Reading β} {convert : α → γ} {convertRight : β → δ}
    (parallel : Parallel change more holds left right ends)
    (implies : ∀ one other, ends one other → passes (convert one) (convertRight other)) :
    Parallel change more holds (convert <$> left) (convertRight <$> right) passes := by
  rw [map_eq_pure_bind, map_eq_pure_bind]
  exact parallel.bind fun one other ended => pure (implies one other ended)

theorem offset :
    Parallel change more holds Reading.offset Reading.offset fun left right => right = left :=
  fun _ stores => .ok rfl stores

theorem bytes (count : Nat) :
    Parallel change more holds (scan (Scan.bytes count)) (scan (Scan.bytes count))
      fun left right => right = left ∧ left.length = count := by
  intro state stores
  rcases Nat.lt_or_ge state.cursor.rest.length count with short | enough
  · rw [scan_bytes_of_short short]
    -- Without more bytes the counterpart lacks the same ones; with more, anything may follow.
    by_cases same : more = []
    · have shortRight : (state.counterpart change more).cursor.rest.length < count := by
        show (state.cursor.rest ++ more).length < count
        rwa [same, List.append_nil]
      rw [scan_bytes_of_short shortRight]
      exact .error _ state
    · exact .starved same _
  · have size : (state.cursor.rest.take count).length = count := List.length_take_of_le enough
    have streamRight : (state.counterpart change more).cursor.rest =
        state.cursor.rest.take count ++ (state.cursor.rest.drop count ++ more) := by
      rw [← List.append_assoc, List.take_append_drop]
      rfl
    have readRight := scan_bytes_of_stream streamRight
    rw [size] at readRight
    rw [scan_bytes_of_enough enough, readRight]
    exact .ok ⟨rfl, size⟩ (stores.ofSlots rfl)

theorem littleEndian (width : Nat) :
    Parallel change more holds (scan (Scan.littleEndian width)) (scan (Scan.littleEndian width))
      fun left right => right = left := by
  rw [scan_littleEndian]
  exact (bytes width).map fun one other same => congrArg Bytes.littleEndian same.1

theorem u8 :
    Parallel change more holds (scan Scan.u8) (scan Scan.u8) fun left right => right = left := by
  rw [Scan.u8, scan_map]
  exact (littleEndian 1).map fun one other same => congrArg UInt8.ofNat same

theorem u32 :
    Parallel change more holds (scan Scan.u32) (scan Scan.u32) fun left right => right = left := by
  rw [Scan.u32, scan_map]
  exact (littleEndian 4).map fun one other same => congrArg UInt32.ofNat same

theorem remaining :
    Parallel change more holds Reading.remaining Reading.remaining fun left right =>
      left ≤ right ∧ (left < right → more ≠ []) := by
  intro state stores
  have counted : (state.cursor.rest ++ more).length = state.cursor.rest.length + more.length :=
    List.length_append
  refine .ok ⟨?_, ?_⟩ stores
  · show state.cursor.rest.length ≤ (state.cursor.rest ++ more).length
    omega
  · intro (less : state.cursor.rest.length < (state.cursor.rest ++ more).length) empty
    rw [empty, List.append_nil] at less
    exact Nat.lt_irrefl _ less

theorem reserve :
    Parallel change more holds Reading.reserve Reading.reserve fun left right => right = left := by
  intro state stores
  have reserved : Reading.reserve (state.counterpart change more) =
      .ok state.slots.size (ReaderState.counterpart
        { state with slots := state.slots.push .pending } change more) := by
    simp [Reading.reserve, ReaderState.counterpart, ReaderState.followedBy, ReaderState.relabel,
      Array.map_push, Slot.relabel]
  rw [reserved]
  exact .ok rfl stores.reserve

theorem reserveFor (byte : UInt8) :
    Parallel change more holds (Reading.reserveFor byte) (Reading.reserveFor byte)
      fun left right => right = left := by
  rw [Reading.reserveFor]
  split
  · exact reserve.map fun one other same => congrArg some same
  · exact pure rfl

theorem setSlot (index : Option Nat) {slot : Slot}
    (kept : ∀ value, slot = .ready value → holds value) :
    Parallel change more holds (Reading.setSlot index slot)
      (Reading.setSlot index (slot.relabel change)) fun _ _ => True := by
  intro state stores
  cases index with
  | none => exact .ok trivial stores
  | some index =>
      have set : Reading.setSlot (some index) (slot.relabel change)
          (state.counterpart change more) =
          .ok () (ReaderState.counterpart
            { state with slots := state.slots.setIfInBounds index slot } change more) := by
        simp [Reading.setSlot, ReaderState.counterpart, ReaderState.followedBy,
          ReaderState.relabel, Array.map_setIfInBounds]
      rw [set]
      exact .ok trivial (stores.set kept)

theorem intern (content : String) :
    Parallel change more holds (Reading.intern content) (Reading.intern content)
      fun _ _ => True :=
  fun _ stores => .ok trivial (stores.ofSlots rfl)

/-- Parallel scripts are run in parallel, if they are answered so. -/
theorem run {insideLeft insideRight : Reading (Option Value)}
    (inside : Parallel change more holds insideLeft insideRight (Answers change holds))
    (slot : Option Nat) {left : Script α} {right : Script β}
    (parallel : Script.Parallel change holds (more ≠ []) ends left right) :
    Parallel change more holds (left.run insideLeft slot) (right.run insideRight slot) ends := by
  induction parallel with
  | done ended => exact pure ended
  | fail error => exact fail error
  | starved isLonger needed right => exact fun state _ => .starved isLonger _
  | takeBytes next induction =>
      apply (bytes _).bind
      intro data other same
      obtain ⟨rfl, size⟩ := same
      exact induction other size
  | askOffset next induction =>
      apply offset.bind
      intro offset other same
      subst same
      exact induction other
  | askRemaining next induction =>
      exact remaining.bind fun few many fewer => induction few many fewer.1 fewer.2
  | markFilling next induction =>
      have kept : ∀ value, Slot.filling = .ready value → holds value := by simp
      exact (setSlot slot kept).bind fun _ _ _ => induction
  | recordText next induction => exact (intern _).bind fun _ _ _ => induction
  | askChild next induction =>
      apply inside.bind
      intro answer other same
      obtain ⟨rfl, admitted⟩ := same
      exact induction answer admitted

end Parallel

/-- What is left to be read of a value and of its counterpart. -/
inductive Openings (change : Version → Version) (holds : Value → Prop) : Opening → Opening → Prop
  | settled {left right : Option Value} (same : Answers change holds left right) :
      Openings change holds (.settled left) (.settled right)
  | body (form : BodyForm) (site : TagSite) (slot : Option Nat) :
      Openings change holds (.body form site slot) (.body form site slot)

namespace Parallel

variable {left right : Profile}

/-- What a reference stands for has been stored, or has no parts. -/
theorem resolve (direct : ∀ slot, holds (.reference slot)) (index : UInt32) :
    Parallel change more holds (Reading.resolve index) (Reading.resolve index)
      fun one other => other = one.relabel change ∧ holds one := by
  intro state stores
  have found : (state.counterpart change more).slots[index.toNat]? =
      state.slots[index.toNat]?.map (Slot.relabel change) := Array.getElem?_map
  simp only [Reading.resolve, found]
  cases stored : state.slots[index.toNat]? with
  | none => exact .error _ state
  | some slot =>
      cases slot with
      | pending => exact .error _ state
      | filling => exact .ok ⟨rfl, direct index⟩ stores
      | ready value => exact .ok ⟨rfl, stores _ _ stored⟩ stores

theorem resolveInterned (direct : ∀ content, holds (.text content true)) (index : UInt32) :
    Parallel change more holds (Reading.resolveInterned index) (Reading.resolveInterned index)
      fun one other => other = one.relabel change ∧ holds one := by
  intro state stores
  have found : (state.counterpart change more).interned[index.toNat]? =
      state.interned[index.toNat]? := rfl
  simp only [Reading.resolveInterned, found]
  cases state.interned[index.toNat]? with
  | none => exact .error _ state
  | some content => exact .ok ⟨rfl, direct content⟩ stores

/-- A value that a tag alone determines is one without parts. -/
theorem atom_of_constant {byte : UInt8} {value : Value}
    (named : Tag.ofByte? byte = some (.constant value)) :
    value.parts = [] ∧ value.code? = none ∧ value.Fits := by
  unfold Tag.ofByte? Tag.ofChar? at named
  split at named <;> simp only [Option.some.injEq, Tag.constant.injEq, reduceCtorEq] at named
  all_goals
    subst named
    exact ⟨rfl, rfl, trivial⟩

variable (inherited : Value.Inherited left holds holds)
include inherited

theorem opening :
    Parallel change more holds Reading.opening Reading.opening (Openings change holds) := by
  have settled : ∀ {one other : Value}, other = one.relabel change ∧ holds one →
      Openings change holds (.settled (some one)) (.settled (some other)) := by
    intro one other same
    obtain ⟨rfl, held⟩ := same
    refine .settled ⟨rfl, ?_⟩
    intro value isValue
    exact Option.some.inj isValue ▸ held
  apply offset.bind
  intro offset other same
  subst same
  apply u8.bind
  intro byte other same
  subst same
  cases tagged : Tag.ofByte? other with
  | none =>
      apply (reserveFor other).bind
      intro slot other same
      exact fail _
  | some tag =>
      cases tag with
      | null => exact pure (.settled ⟨rfl, by simp⟩)
      | constant value =>
          obtain ⟨empty, plain, fits⟩ := atom_of_constant tagged
          refine pure (settled ⟨(Value.relabel_of_atom empty plain).symm, ?_⟩)
          apply inherited.node plain fits
          simp [empty]
      | reference =>
          apply u32.bind
          intro index other same
          subst same
          have direct : ∀ slot, holds (.reference slot) := fun slot =>
            inherited.node rfl trivial (List.forall_mem_nil _)
          exact (resolve direct other).bind fun one other same => pure (settled same)
      | internedText =>
          apply u32.bind
          intro index other same
          subst same
          have direct : ∀ content, holds (.text content true) := fun content =>
            inherited.node rfl trivial (List.forall_mem_nil _)
          exact (resolveInterned direct other).bind fun one other same => pure (settled same)
      | body form =>
          apply (reserveFor other).bind
          intro slot other same
          subst same
          exact pure (.body form _ other)

variable (layouts : left.layout = right.layout) (changed : change left.version = right.version)
include layouts changed

theorem tagged {insideLeft insideRight : Reading (Option Value)}
    (inside : Parallel change more holds insideLeft insideRight (Answers change holds)) :
    Parallel change more holds (Reading.tagged left insideLeft) (Reading.tagged right insideRight)
      (Answers change holds) := by
  apply (opening inherited).bind
  intro one other opened
  cases opened with
  | settled same => exact pure same
  | body form site slot =>
      apply (run inside slot (Script.parallel_body inherited layouts changed site form)).bind
      intro value copy same
      obtain ⟨rfl, held⟩ := same
      have kept : ∀ stored, Slot.ready value = .ready stored → holds stored := by
        intro stored same
        cases same
        exact held
      refine (setSlot slot kept).bind fun _ _ _ => pure ⟨rfl, ?_⟩
      intro stored isValue
      exact Option.some.inj isValue ▸ held

omit inherited layouts changed in
theorem nested {part : Reading α} {partRight : Reading β} {ends : α → β → Prop}
    (parallel : Parallel change more holds part partRight ends) :
    Parallel change more holds (Reading.nested part) (Reading.nested partRight) ends := by
  intro state stores
  have deeper : ReaderState.Stores { state with depth := state.depth + 1 } holds :=
    stores.ofSlots rfl
  rw [nested_eq_endLevel, nested_eq_endLevel]
  exact (parallel _ deeper).endLevel

/-- What a reader of one value does its counterpart does, with as many levels of nesting. -/
theorem optional (levels : Nat) :
    Parallel change more holds (Reading.optional left levels) (Reading.optional right levels)
      (Answers change holds) := by
  induction levels with
  | zero =>
      apply offset.bind
      intro offset other same
      subst same
      exact fail _
  | succ levels induction => exact nested (tagged inherited layouts changed induction)

theorem value :
    Parallel change more holds (Reading.value left) (Reading.value right)
      fun one other => other = one.relabel change ∧ holds one := by
  intro state stores
  have inside : Parallel change more holds
      (Reading.optional left (nestingLimit - state.depth))
      (Reading.optional right (nestingLimit - state.depth)) (Answers change holds) :=
    optional inherited layouts changed _
  exact run inside none Script.Parallel.required state stores

/-- The end of the stream is the same for both readers only if the streams are. -/
theorem topLevel :
    Parallel change [] holds (Reading.topLevel left) (Reading.topLevel right)
      fun one other => other = one.relabel change ∧ holds one := by
  apply (value inherited layouts changed).bind
  intro one other same
  apply remaining.bind
  intro few many fewer
  have equal : few = many := by
    rcases Nat.lt_or_ge few many with less | enough
    · exact absurd rfl (fewer.2 less)
    · exact Nat.le_antisymm fewer.1 enough
  subst equal
  cases few with
  | zero => exact pure same
  | succ left => exact fail _

end Parallel
end Reading
end CodeScope
