import CodeScope.Proofs.Marshal.Locality
import CodeScope.Proofs.Marshal.References

/-!
# The places of events

A reader takes at least the byte of a tag and never goes back. So the events of a session come one
behind the other in the stream, and an offset belongs to one tag only.
-/

namespace CodeScope
namespace Event

/-- Offset of the next byte when an event happens. -/
def offset (event : Event) : Nat :=
  event.state.cursor.offset

/-- Events between two offsets of a stream, each one behind those before. -/
structure Between (first : Nat) (events : List Event) (last : Nat) : Prop where
  reached : first ≤ last
  inside : ∀ event ∈ events, first ≤ event.offset ∧ event.offset < last
  increasing : events.Pairwise fun earlier later => earlier.offset < later.offset

namespace Between

variable {first middle last : Nat} {events others : List Event}

theorem nil (reached : first ≤ last) : Between first [] last :=
  ⟨reached, List.forall_mem_nil _, .nil⟩

theorem append (front : Between first events middle) (back : Between middle others last) :
    Between first (events ++ others) last where
  reached := Nat.le_trans front.reached back.reached
  inside := by
    intro event member
    rcases List.mem_append.mp member with early | late
    · have inside := front.inside event early
      exact ⟨inside.1, Nat.lt_of_lt_of_le inside.2 back.reached⟩
    · have inside := back.inside event late
      exact ⟨Nat.le_trans front.reached inside.1, inside.2⟩
  increasing := by
    refine List.pairwise_append.mpr ⟨front.increasing, back.increasing, ?_⟩
    intro earlier early later late
    exact Nat.lt_of_lt_of_le (front.inside earlier early).2 (back.inside later late).1

/-- An event at the front, before a byte that the others are behind. -/
theorem cons (event : Event) (behind : Between middle events last)
    (before : event.offset < middle) : Between event.offset (event :: events) last where
  reached := Nat.le_trans (Nat.le_of_lt before) behind.reached
  inside := by
    refine List.forall_mem_cons.mpr ⟨⟨Nat.le_refl _, Nat.lt_of_lt_of_le before behind.reached⟩, ?_⟩
    intro other member
    have inside := behind.inside other member
    exact ⟨Nat.le_trans (Nat.le_of_lt before) inside.1, inside.2⟩
  increasing := List.Pairwise.cons
    (fun other member => Nat.lt_of_lt_of_le before (behind.inside other member).1) behind.increasing

/-- Events that are at the same offset are at the same position. -/
theorem index_inj (between : Between first events last) {index other : Nat} {one another : Event}
    (found : events[index]? = some one) (foundOther : events[other]? = some another)
    (same : one.offset = another.offset) : index = other := by
  have ordered := List.pairwise_iff_getElem.mp between.increasing
  obtain ⟨inside, rfl⟩ := List.getElem?_eq_some_iff.mp found
  obtain ⟨insideOther, rfl⟩ := List.getElem?_eq_some_iff.mp foundOther
  rcases Nat.lt_trichotomy index other with less | equal | more
  · exact absurd same (Nat.ne_of_lt (ordered index other inside insideOther less))
  · exact equal
  · exact absurd same.symm (Nat.ne_of_lt (ordered other index insideOther inside more))

end Between
end Event

namespace Reading

theorem Advances.le {α : Type} {part : Reading α} {state next : ReaderState} {value : α}
    (advances : part.Advances) (read : part state = .ok value next) :
    state.cursor.offset ≤ next.cursor.offset := by
  obtain ⟨taken, passed⟩ := advances state next value read
  rw [passed.offset]
  exact Nat.le_add_right _ _

/-- The byte of a tag is taken in any case. -/
theorem lt_of_opening {state next : ReaderState} {opened : Opening}
    (read : opening state = .ok opened next) : state.cursor.offset < next.cursor.offset := by
  obtain ⟨offset, start, asked, read⟩ := bind_eq_ok read
  cases asked
  obtain ⟨byte, middle, scanned, read⟩ := bind_eq_ok read
  obtain ⟨tail, stream⟩ := rest_eq_of_scan_u8 scanned
  rw [scan_u8_of_stream stream] at scanned
  cases scanned
  refine Nat.lt_of_lt_of_le (Nat.lt_succ_self _) (Advances.le ?_ read)
  have parts := Advances.compositional
  simp only
  split
  · exact parts.pure _
  · exact parts.pure _
  · refine parts.bind parts.u32 fun index => ?_
    exact parts.bind (parts.resolve index) fun value => parts.pure _
  · refine parts.bind parts.u32 fun index => ?_
    exact parts.bind (parts.resolveInterned index) fun value => parts.pure _
  · exact parts.bind (parts.reserveFor byte) fun slot => parts.pure _
  · exact parts.bind (parts.reserveFor byte) fun slot => parts.fail _

/-- A part of a reader that, where it succeeds, has its events between its start and its end. -/
def Ordered {α : Type} (part : Reading α) (events : ReaderState → List Event) : Prop :=
  ∀ (state next : ReaderState) (value : α), part state = .ok value next →
    Event.Between state.cursor.offset (events state) next.cursor.offset

namespace Ordered

variable {α β : Type} {profile : Profile} {inside : Reading (Option Value)}

theorem ofAdvances {part : Reading α} (advances : part.Advances) : Ordered part fun _ => [] :=
  fun _ _ _ read => .nil (advances.le read)

theorem bind {part : Reading α} {next : α → Reading β} {events : ReaderState → List Event}
    {further : α → ReaderState → List Event} (first : Ordered part events)
    (second : ∀ value, Ordered (next value) (further value)) :
    Ordered (part >>= next) fun state => events state ++ part.eventsAfter further state := by
  intro state last result read
  obtain ⟨value, middle, inner, read⟩ := bind_eq_ok read
  simp only [eventsAfter, inner]
  exact (first _ _ _ inner).append (second value _ _ _ read)

theorem run {within : ReaderState → List Event} (ordered : Ordered inside within)
    (slot : Option Nat) (script : Script α) :
    Ordered (script.run inside slot) (script.events inside within slot) := by
  have parts := Advances.compositional
  induction script with
  | done result => exact ofAdvances (parts.pure result)
  | fail error => exact ofAdvances (parts.fail error)
  | takeBytes count next induction => exact (ofAdvances (parts.bytes count)).bind induction
  | askOffset next induction => exact (ofAdvances parts.offset).bind induction
  | askRemaining next induction => exact (ofAdvances parts.remaining).bind induction
  | markFilling next induction =>
      exact (ofAdvances (parts.setSlot slot .filling)).bind fun _ => induction
  | recordText content next induction =>
      exact (ofAdvances (parts.intern content)).bind fun _ => induction
  | askChild next induction => exact ordered.bind induction

theorem tagged {within : OpenValue → ReaderState → List Event} (enclosing : List OpenValue)
    (ordered : ∀ value, Ordered inside (within value)) :
    Ordered (Reading.tagged profile inside) fun state =>
      .tag enclosing state ::
        opening.eventsAfter (Opening.events profile inside within) state := by
  intro state next answer read
  obtain ⟨opened, middle, started, read⟩ := bind_eq_ok read
  simp only [eventsAfter, started]
  refine .cons (.tag enclosing state) ?_ (lt_of_opening started)
  cases opened with
  | settled value =>
      cases read
      exact .nil (Nat.le_refl _)
  | body form site slot =>
      obtain ⟨value, last, ran, read⟩ := bind_eq_ok read
      have parts := Advances.compositional
      have completed : last.cursor.offset ≤ next.cursor.offset :=
        Advances.le (parts.bind (parts.setSlot slot (.ready value)) fun _ => parts.pure _) read
      have events := ((ordered ⟨slot, form⟩).run slot _ _ _ _ ran).append (.nil completed)
      rwa [List.append_nil] at events

theorem nested {part : Reading α} {events : ReaderState → List Event}
    (ordered : Ordered part events) :
    Ordered (Reading.nested part) fun state => events { state with depth := state.depth + 1 } := by
  intro state next value read
  obtain ⟨inner, deeper, rfl⟩ := nested_eq_ok read
  exact ordered _ _ _ deeper

theorem optional (profile : Profile) (levels : Nat) (enclosing : List OpenValue) :
    Ordered (Reading.optional profile levels) (optionalEvents profile levels enclosing) := by
  induction levels generalizing enclosing with
  | zero =>
      intro state next value read
      cases read
  | succ levels induction => exact (tagged enclosing fun value => induction _).nested

theorem value (profile : Profile) : Ordered (Reading.value profile) (valueEvents profile) :=
  fun state _ _ read => (optional profile _ []).run none Script.required state _ _ read

end Ordered
end Reading

/-- The events of a stream that is loaded come one behind the other. -/
theorem Event.between_of_topLevel {profile : Profile} {data : Bytes} {value : Value}
    {next : ReaderState} (read : Reading.topLevel profile (.start data) = .ok value next) :
    ∃ last, Between 0 (Call.events profile [.topLevel] (.start data)) last := by
  obtain ⟨readValue, -⟩ := Reading.topLevel_eq_ok read
  have front := Reading.Ordered.value profile _ _ _ readValue
  have back : Between next.cursor.offset [returned value next] (next.cursor.offset + 1) :=
    .cons (returned value next) (.nil (Nat.le_refl _)) (Nat.lt_succ_self _)
  have listed : Call.events profile [.topLevel] (.start data) =
      Reading.valueEvents profile (.start data) ++ [returned value next] := by
    simp [Call.events, Call.read, Reading.eventsAfter, read]
  exact ⟨_, listed ▸ front.append back⟩

end CodeScope
