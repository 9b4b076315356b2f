import CodeScope.Proofs.Marshal.Spending

/-!
# The progress of a reader

A reader ends whatever sizes its stream declares: every round of a loop takes a byte of what is
left and every round over a dictionary two, and the tags at all levels together are no more than the
bytes that are left, if the one is not counted at which the reader fails.
-/

namespace CodeScope

theorem Event.Between.length_le {first last : Nat} {events : List Event}
    (between : Between first events last) : first + events.length ≤ last := by
  induction events generalizing first with
  | nil => exact between.reached
  | cons event events induction =>
      have here := between.inside event List.mem_cons_self
      have ordered := List.pairwise_cons.mp between.increasing
      have behind : Between (event.offset + 1) events last :=
        ⟨here.2, fun other member =>
          ⟨ordered.1 other member, (between.inside other (List.mem_cons_of_mem event member)).2⟩,
          ordered.2⟩
      have others := induction behind
      rw [List.length_cons]
      omega

/-- The bytes that have been taken and those that are left are the same together. -/
theorem Cursor.Past.remaining {later earlier : Cursor} {taken : Bytes}
    (passed : later.Past earlier taken) :
    earlier.remaining = taken.length + later.remaining := by
  rw [Cursor.remaining, passed.rest, List.length_append, Cursor.remaining]

namespace Reading

variable {α β : Type} {profile : Profile} {inside : Reading (Option Value)}

/-- A part of a reader that takes nothing out of the tables. -/
def Retains (part : Reading α) : Prop :=
  ∀ (state next : ReaderState) (value : α), part state = .ok value next →
    state.slots.size ≤ next.slots.size ∧ state.interned.size ≤ next.interned.size

theorem Retains.compositional : Compositional Retains where
  pure _ := fun _ _ _ read => by cases read; exact ⟨Nat.le_refl _, Nat.le_refl _⟩
  fail _ := fun _ _ _ read => by cases read
  bind first second := fun _ _ _ read => by
    obtain ⟨value, middle, inner, read⟩ := bind_eq_ok read
    have front := first _ _ _ inner
    have back := second value _ _ _ read
    exact ⟨Nat.le_trans front.1 back.1, Nat.le_trans front.2 back.2⟩
  choice retains := fun state => retains state state
  nested retains := fun _ _ _ read => by
    obtain ⟨inner, deeper, rfl⟩ := nested_eq_ok read
    have kept := retains _ _ _ deeper
    exact kept
  bytes count := fun _ _ _ read => by
    rw [scan] at read
    split at read <;> cases read
    exact ⟨Nat.le_refl _, Nat.le_refl _⟩
  offset := fun _ _ _ read => by cases read; exact ⟨Nat.le_refl _, Nat.le_refl _⟩
  remaining := fun _ _ _ read => by cases read; exact ⟨Nat.le_refl _, Nat.le_refl _⟩
  reserve := fun _ _ _ read => by
    cases read
    exact ⟨by rw [Array.size_push]; exact Nat.le_succ _, Nat.le_refl _⟩
  setSlot index slot := fun _ _ _ read => by
    cases index <;> cases read
    · exact ⟨Nat.le_refl _, Nat.le_refl _⟩
    · exact ⟨by rw [Array.size_setIfInBounds], Nat.le_refl _⟩
  intern content := fun _ _ _ read => by
    cases read
    exact ⟨Nat.le_refl _, by rw [Array.size_push]; exact Nat.le_succ _⟩
  resolve index := fun _ _ _ read => by
    rw [resolve] at read
    split at read <;> cases read <;> exact ⟨Nat.le_refl _, Nat.le_refl _⟩
  resolveInterned index := fun _ _ _ read => by
    rw [resolveInterned] at read
    split at read <;> cases read
    exact ⟨Nat.le_refl _, Nat.le_refl _⟩

/-- A reader of values that leaves less of its stream than there was. -/
def Consumes (part : Reading (Option Value)) : Prop :=
  ∀ (state next : ReaderState) (answer : Option Value), part state = .ok answer next →
    next.cursor.remaining < state.cursor.remaining

theorem Consumes.optional (profile : Profile) (levels : Nat) :
    (Reading.optional profile levels).Consumes := by
  intro state next answer read
  obtain ⟨taken, passed⟩ := Advances.compositional.optional profile levels _ _ _ read
  have further := (Spends.optional profile levels _ _ _ read).1
  rw [passed.offset] at further
  rw [passed.remaining]
  omega

section Loops

variable {slot : Option Nat} {state next : ReaderState} {value : Value}

/-- A value that is required is one that has been read inside. -/
theorem required_eq_ok (read : Script.required.run inside slot state = .ok value next) :
    inside state = .ok (some value) next := by
  obtain ⟨offset, middle, asked, read⟩ := bind_eq_ok read
  cases asked
  obtain ⟨answer, after, answered, read⟩ := bind_eq_ok read
  cases answer with
  | none => cases read
  | some found =>
      cases read
      exact answered

/--
A loop over a number of values, after those in `read`, the last one first: the number of its rounds
that succeed, and how it ends.
-/
inductive ItemRounds (item : Reading Value) :
    Nat → List Value → ReaderState → Nat → EStateM.Result Error ReaderState (List Value) → Prop
  | ended (read : List Value) (state : ReaderState) :
      ItemRounds item 0 read state 0 (.ok read.reverse state)
  | failed {count : Nat} {read : List Value} {state next : ReaderState} {error : Error}
      (stopped : item state = .error error next) :
      ItemRounds item (count + 1) read state 0 (.error error next)
  | round {count rounds : Nat} {read : List Value} {state next : ReaderState} {value : Value}
      {outcome : EStateM.Result Error ReaderState (List Value)}
      (taken : item state = .ok value next)
      (others : ItemRounds item count (value :: read) next rounds outcome) :
      ItemRounds item (count + 1) read state (rounds + 1) outcome

/--
A loop over keys with their values up to the empty tag, after those in `read`, the last one first:
the number of its rounds that succeed, and how it ends.
-/
inductive EntryRounds (key : Reading (Option Value)) (item : Reading Value) :
    List (Value × Value) → ReaderState → Nat →
      EStateM.Result Error ReaderState (List (Value × Value)) → Prop
  | ended {read : List (Value × Value)} {state next : ReaderState}
      (empty : key state = .ok none next) :
      EntryRounds key item read state 0 (.ok read.reverse next)
  | keyFailed {read : List (Value × Value)} {state next : ReaderState} {error : Error}
      (stopped : key state = .error error next) :
      EntryRounds key item read state 0 (.error error next)
  | valueFailed {read : List (Value × Value)} {state middle next : ReaderState} {found : Value}
      {error : Error} (begun : key state = .ok (some found) middle)
      (stopped : item middle = .error error next) :
      EntryRounds key item read state 0 (.error error next)
  | round {rounds : Nat} {read : List (Value × Value)} {state middle next : ReaderState}
      {found value : Value} {outcome : EStateM.Result Error ReaderState (List (Value × Value))}
      (begun : key state = .ok (some found) middle) (taken : item middle = .ok value next)
      (others : EntryRounds key item ((found, value) :: read) next rounds outcome) :
      EntryRounds key item read state (rounds + 1) outcome

/-- Every round over values takes a byte. -/
theorem itemRounds_items (consumes : inside.Consumes) (slot : Option Nat) (count : Nat)
    (read : List Value) (state : ReaderState) :
    ∃ rounds ≤ state.cursor.remaining,
      ItemRounds (Script.required.run inside slot) count read state rounds
        ((Script.timesAfter Script.required count read).run inside slot state) := by
  induction count generalizing read state with
  | zero => exact ⟨0, Nat.zero_le _, .ended read state⟩
  | succ count induction =>
      rw [Script.timesAfter, Script.run_bind]
      cases item : Script.required.run inside slot state with
      | error error next =>
          rw [bind_of_error item]
          exact ⟨0, Nat.zero_le _, .failed item⟩
      | ok value next =>
          rw [bind_of_ok item]
          have fewer := consumes _ _ _ (required_eq_ok item)
          obtain ⟨rounds, few, others⟩ := induction (value :: read) next
          exact ⟨rounds + 1, by omega, .round item others⟩

/-- Every round over entries takes two bytes, so that the rounds that are provided suffice. -/
theorem entryRounds_entriesAfter (consumes : inside.Consumes) (slot : Option Nat) {provided : Nat}
    (read : List (Value × Value)) (state : ReaderState)
    (enough : state.cursor.remaining < provided) :
    ∃ rounds, 2 * rounds ≤ state.cursor.remaining ∧
      EntryRounds inside (Script.required.run inside slot) read state rounds
        ((Script.entriesAfter provided read).run inside slot state) := by
  induction provided generalizing read state with
  | zero => exact absurd enough (Nat.not_lt_zero _)
  | succ provided induction =>
      obtain ⟨reply, opened, atEnd, onward⟩ :
          ∃ reply : Option Value → Script (List (Value × Value)),
            (Script.entriesAfter (provided + 1) read).run inside slot =
                (inside >>= fun answer => (reply answer).run inside slot) ∧
              reply none = pure read.reverse ∧
              ∀ key, reply (some key) = Script.required >>= fun value =>
                Script.entriesAfter provided ((key, value) :: read) :=
        ⟨_, rfl, rfl, fun _ => rfl⟩
      rw [opened]
      cases key : inside state with
      | error error next =>
          rw [bind_of_error key]
          exact ⟨0, Nat.zero_le _, .keyFailed key⟩
      | ok answer middle =>
          rw [bind_of_ok key]
          have fewer := consumes _ _ _ key
          cases answer with
          | none =>
              rw [atEnd]
              exact ⟨0, Nat.zero_le _, .ended key⟩
          | some found =>
              rw [onward, Script.run_bind]
              cases item : Script.required.run inside slot middle with
              | error error next =>
                  rw [bind_of_error item]
                  exact ⟨0, Nat.zero_le _, .valueFailed key item⟩
              | ok value next =>
                  rw [bind_of_ok item]
                  have further := consumes _ _ _ (required_eq_ok item)
                  obtain ⟨rounds, few, others⟩ :=
                    induction ((found, value) :: read) next (by omega)
                  exact ⟨rounds + 1, by omega, .round key item others⟩

end Loops

/-- A part of a reader with its events, none of which is behind the end of the data. -/
structure Confined (part : Reading α) (events : ReaderState → List Event) : Prop where
  advances : part.Advances
  ordered : part.Ordered events
  between : ∀ state : ReaderState, Event.Between state.cursor.offset (events state)
    (state.cursor.offset + state.cursor.remaining + 1)

namespace Confined

/-- The end of the data does not move. -/
theorem end_eq {part : Reading α} (advances : part.Advances) {state next : ReaderState} {value : α}
    (read : part state = .ok value next) :
    next.cursor.offset + next.cursor.remaining = state.cursor.offset + state.cursor.remaining := by
  obtain ⟨taken, passed⟩ := advances _ _ _ read
  rw [passed.offset, passed.remaining, Nat.add_assoc]

theorem ofAdvances {part : Reading α} (advances : part.Advances) : part.Confined fun _ => [] :=
  ⟨advances, .ofAdvances advances, fun _ => .nil (by omega)⟩

theorem bind {part : Reading α} {next : α → Reading β} {events : ReaderState → List Event}
    {further : α → ReaderState → List Event} (first : part.Confined events)
    (second : ∀ value, (next value).Confined (further value)) :
    (part >>= next).Confined fun state => events state ++ part.eventsAfter further state where
  advances := first.advances.bind fun value => (second value).advances
  ordered := first.ordered.bind fun value => (second value).ordered
  between := by
    intro state
    cases read : part state with
    | error error next =>
        simp only [eventsAfter, read, List.append_nil]
        exact first.between state
    | ok value next =>
        simp only [eventsAfter, read]
        have back := (second value).between next
        rw [end_eq first.advances read] at back
        exact (first.ordered _ _ _ read).append back

theorem run {within : ReaderState → List Event} (confined : inside.Confined within)
    (slot : Option Nat) (script : Script α) :
    (script.run inside slot).Confined (script.events inside within slot) := by
  have parts := Advances.compositional
  induction script with
  | done result => exact ofAdvances (parts.pure result)
  | fail error => exact ofAdvances (parts.fail error)
  | takeBytes count next induction => exact (ofAdvances (parts.bytes count)).bind induction
  | askOffset next induction => exact (ofAdvances parts.offset).bind induction
  | askRemaining next induction => exact (ofAdvances parts.remaining).bind induction
  | markFilling next induction =>
      exact (ofAdvances (parts.setSlot slot .filling)).bind fun _ => induction
  | recordText content next induction =>
      exact (ofAdvances (parts.intern content)).bind fun _ => induction
  | askChild next induction => exact confined.bind induction

theorem tagged {within : OpenValue → ReaderState → List Event} (enclosing : List OpenValue)
    (confined : ∀ value, inside.Confined (within value)) :
    (Reading.tagged profile inside).Confined fun state =>
      .tag enclosing state ::
        opening.eventsAfter (Opening.events profile inside within) state where
  advances := Advances.compositional.tagged profile (confined ⟨none, .dict⟩).advances
  ordered := .tagged enclosing fun value => (confined value).ordered
  between := by
    intro state
    have first : Event.Between state.cursor.offset [.tag enclosing state]
        (state.cursor.offset + 1) :=
      .cons (.tag enclosing state) (.nil (Nat.le_refl _)) (Nat.lt_succ_self _)
    cases started : opening state with
    | error error next =>
        simp only [eventsAfter, started]
        exact first.append (.nil (by omega))
    | ok opened middle =>
        simp only [eventsAfter, started]
        have passed := lt_of_opening started
        have rear := end_eq Advances.compositional.opening started
        refine .cons (.tag enclosing state) ?_ passed
        rw [← rear]
        cases opened with
        | settled value => exact .nil (by omega)
        | body form site slot => exact ((confined ⟨slot, form⟩).run slot _).between middle

theorem nested {part : Reading α} {events : ReaderState → List Event}
    (confined : part.Confined events) :
    (Reading.nested part).Confined fun state => events { state with depth := state.depth + 1 } :=
  ⟨confined.advances.nested, confined.ordered.nested, fun state =>
    confined.between { state with depth := state.depth + 1 }⟩

theorem optional (profile : Profile) (levels : Nat) (enclosing : List OpenValue) :
    (Reading.optional profile levels).Confined (optionalEvents profile levels enclosing) := by
  induction levels generalizing enclosing with
  | zero => exact ofAdvances (Advances.compositional.optional profile 0)
  | succ levels induction => exact (tagged enclosing fun value => induction _).nested

end Confined

/--
What is known of a value that is read from a state on. The number of levels is what the counter of
the reader leaves of the limit.
-/
structure Progresses (profile : Profile) (levels : Nat) (state : ReaderState) : Prop where
  /--
  Where it succeeds it takes bytes of what is left, and keeps at most two things more for each of
  them. Each element of a value that is not a stored one takes a byte, an entry two, and a tag one.
  -/
  takes : ∀ {answer : Option Value} {next : ReaderState},
    optional profile levels state = .ok answer next →
      ∃ taken, taken ≠ [] ∧ next.cursor.Past state.cursor taken ∧
        (state.slots.size ≤ next.slots.size ∧ state.interned.size ≤ next.interned.size) ∧
        (next.slots.size - state.slots.size) + (next.interned.size - state.interned.size) ≤
          2 * taken.length ∧
        (¬ state.AtReference → ∀ value ∈ answer, value.elementBytes < taken.length) ∧
        ∀ enclosing, (optionalEvents profile levels enclosing state).length ≤ taken.length
  /-- In any case it comes to no more tags than there are bytes, and the end of the data. -/
  tags : ∀ enclosing,
    (optionalEvents profile levels enclosing state).length ≤ state.cursor.remaining + 1
  /-- A loop over values inside ends after as many rounds as bytes are left, or fewer. -/
  items : ∀ (slot : Option Nat) (count : Nat),
    ∃ rounds ≤ state.cursor.remaining,
      ItemRounds (Script.required.run (optional profile levels) slot) count [] state rounds
        ((Script.items count).run (optional profile levels) slot state)
  /-- A loop over the entries of a dictionary ends after half as many rounds, or fewer. -/
  entries : ∀ slot : Option Nat,
    ∃ rounds, 2 * rounds ≤ state.cursor.remaining ∧
      EntryRounds (optional profile levels) (Script.required.run (optional profile levels) slot) []
        state rounds (Script.entries.run (optional profile levels) slot state)

/-- The elements of a value that is not a stored one are behind its tag. -/
theorem elementBytes_lt (profile : Profile) (levels : Nat) {state next : ReaderState}
    {answer : Option Value} (read : optional profile levels state = .ok answer next)
    (other : ¬ state.AtReference) :
    ∀ value ∈ answer, value.elementBytes + state.cursor.offset < next.cursor.offset := by
  cases levels with
  | zero => cases read
  | succ levels =>
      obtain ⟨inner, deeper, rfl⟩ := nested_eq_ok read
      exact (tagged_takes (.optional profile levels) deeper).2.2 other

/-- A reader makes progress and ends, from whatever state and with whatever number of levels. -/
theorem progresses (profile : Profile) (levels : Nat) (state : ReaderState) :
    Progresses profile levels state where
  takes := by
    intro answer next read
    obtain ⟨taken, passed⟩ := Advances.compositional.optional profile levels _ _ _ read
    obtain ⟨further, spent⟩ := Spends.optional profile levels _ _ _ read
    have retained := Retains.compositional.optional profile levels _ _ _ read
    rw [passed.offset] at further spent
    refine ⟨taken, ?_, passed, retained, ?_, ?_, ?_⟩
    · rintro rfl
      exact absurd further (Nat.lt_irrefl _)
    · rw [ReaderState.kept, ReaderState.kept] at spent
      omega
    · intro other value known
      have elements := elementBytes_lt profile levels read other value known
      rw [passed.offset] at elements
      omega
    · intro enclosing
      have between := (Ordered.optional profile levels enclosing _ _ _ read).length_le
      rw [passed.offset] at between
      omega
  tags := by
    intro enclosing
    have between := ((Confined.optional profile levels enclosing).between state).length_le
    omega
  items slot count := itemRounds_items (.optional profile levels) slot count [] state
  entries slot :=
    entryRounds_entriesAfter (.optional profile levels) slot [] state (Nat.lt_succ_self _)

end Reading
end CodeScope
