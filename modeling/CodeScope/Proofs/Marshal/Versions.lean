import CodeScope.Proofs.Marshal.Opening
import CodeScope.Proofs.Marshal.Session
import CodeScope.Proofs.Version.Profile

/-!
# Versions side by side

Versions whose code units have the same layout read every stream alike, call by call and also after
errors; only the version that a code unit is said to be of is another. Where no tag of a code unit
is read, all versions do the same.
-/

namespace CodeScope
namespace Reading

/-- An outcome whose code units are said to be of other versions. -/
def relabel (change : Version → Version) :
    EStateM.Result Error ReaderState Value → EStateM.Result Error ReaderState Value
  | .ok value next => .ok (value.relabel change) (next.relabel change)
  | .error error next => .error error (next.relabel change)

/-- The state after an outcome. A reader can be called again after an error. -/
def stateAfter : EStateM.Result Error ReaderState Value → ReaderState
  | .ok _ next | .error _ next => next

theorem stateAfter_relabel (change : Version → Version)
    (outcome : EStateM.Result Error ReaderState Value) :
    stateAfter (relabel change outcome) = (stateAfter outcome).relabel change := by
  cases outcome <;> rfl

end Reading

namespace Call

/-- The outcomes of a sequence of calls, each from the state in which the one before ended. -/
def outcomes (profile : Profile) :
    List Call → ReaderState → List (EStateM.Result Error ReaderState Value)
  | [], _ => []
  | call :: calls, state =>
      let outcome := call.read profile state
      outcome :: outcomes profile calls (Reading.stateAfter outcome)

/-- The tags that a sequence of calls comes to, also after errors. -/
def tags (profile : Profile) : List Call → ReaderState → List Event
  | [], _ => []
  | call :: calls, state =>
      Reading.valueEvents profile state ++
        tags profile calls (Reading.stateAfter (call.read profile state))

end Call

namespace Reading

section Layout

variable {left right : Profile}

/-- A call for one version does what it does for another one with the same layout. -/
theorem read_relabel (layouts : left.layout = right.layout) (call : Call) (state : ReaderState) :
    call.read right (state.relabel fun _ => right.version) =
      relabel (fun _ => right.version) (call.read left state) := by
  have inherited := Value.inherited_true left
  have parallel : Parallel (fun _ => right.version) [] (fun _ => True) (call.read left)
      (call.read right) fun one other => other = one.relabel (fun _ => right.version) ∧ True := by
    cases call with
    | value => exact .value inherited layouts rfl
    | topLevel => exact .topLevel inherited layouts rfl
  have paired := parallel state fun _ _ _ => trivial
  rw [ReaderState.counterpart, ReaderState.followedBy_nil] at paired
  generalize call.read right (state.relabel fun _ => right.version) = copy at paired ⊢
  generalize call.read left state = original at paired ⊢
  cases paired with
  | ok same =>
      rw [same.1, relabel, ReaderState.counterpart, ReaderState.followedBy_nil]
  | error error next =>
      rw [relabel, ReaderState.counterpart, ReaderState.followedBy_nil]
  | starved longer => exact absurd rfl longer

theorem outcomes_relabel (layouts : left.layout = right.layout) (calls : List Call)
    (state : ReaderState) :
    Call.outcomes right calls (state.relabel fun _ => right.version) =
      (Call.outcomes left calls state).map (relabel fun _ => right.version) := by
  induction calls generalizing state with
  | nil => rfl
  | cons call calls induction =>
      rw [Call.outcomes, Call.outcomes, List.map_cons, read_relabel layouts, stateAfter_relabel,
        induction]

end Layout

/-- Parts of readers that do the same wherever the first one comes to no tag of a code unit. -/
def AgreesUncoded {α : Type} (left right : Reading α) (events : ReaderState → List Event) : Prop :=
  ∀ state, (∀ event ∈ events state, event.isTag 'c' = false) → right state = left state

namespace AgreesUncoded

variable {α β : Type} {left right : Profile}

theorem after {part : Reading α} {leftNext rightNext : α → Reading β}
    {events : α → ReaderState → List Event}
    (agrees : ∀ value, AgreesUncoded (leftNext value) (rightNext value) (events value)) :
    AgreesUncoded (part >>= leftNext) (part >>= rightNext) (part.eventsAfter events) := by
  intro state uncoded
  cases read : part state with
  | error error next => rw [bind_of_error read, bind_of_error read]
  | ok value next =>
      rw [bind_of_ok read, bind_of_ok read]
      rw [eventsAfter, read] at uncoded
      exact agrees value next uncoded

theorem refl (part : Reading α) (events : ReaderState → List Event) :
    AgreesUncoded part part events :=
  fun _ _ => rfl

theorem run {insideLeft insideRight : Reading (Option Value)} {within : ReaderState → List Event}
    (inside : AgreesUncoded insideLeft insideRight within) (slot : Option Nat)
    (script : Script α) :
    AgreesUncoded (script.run insideLeft slot) (script.run insideRight slot)
      (script.events insideLeft within slot) := by
  induction script with
  | done result => exact refl _ _
  | fail error => exact refl _ _
  | takeBytes count next induction => exact after induction
  | askOffset next induction => exact after induction
  | askRemaining next induction => exact after induction
  | markFilling next induction => exact after fun _ => induction
  | recordText content next induction => exact after fun _ => induction
  | askChild next induction =>
      -- The events of the value inside come first, and those of what follows behind them.
      intro state uncoded
      have first := inside state fun event member => uncoded event (List.mem_append_left _ member)
      have rest : AgreesUncoded (insideLeft >>= fun answer => (next answer).run insideLeft slot)
          (insideLeft >>= fun answer => (next answer).run insideRight slot) _ := after induction
      exact (bind_congr_state first _).trans
        (rest state fun event member => uncoded event (List.mem_append_right _ member))

/-- Only the body of a code unit depends on the version. -/
theorem body_of_uncoded {site : TagSite} {form : BodyForm} (uncoded : form ≠ .code) :
    Script.body right site form = Script.body left site form := by
  cases form with
  | code => exact absurd rfl uncoded
  | tuple short => cases short <;> rfl
  | _ => rfl

theorem tagged {insideLeft insideRight : Reading (Option Value)}
    {within : OpenValue → ReaderState → List Event}
    (inside : ∀ value, AgreesUncoded insideLeft insideRight (within value))
    (enclosing : List OpenValue) :
    AgreesUncoded (Reading.tagged left insideLeft) (Reading.tagged right insideRight)
      fun state => .tag enclosing state ::
        opening.eventsAfter (Opening.events left insideLeft within) state := by
  intro state uncoded
  have own := uncoded _ List.mem_cons_self
  have opens := opens_opening state
  cases read : opening state with
  | error error next => rw [Reading.tagged, Reading.tagged, bind_of_error read, bind_of_error read]
  | ok opened next =>
      have later : ∀ event ∈ Opening.events left insideLeft within opened next,
          event.isTag 'c' = false := by
        intro event member
        apply uncoded event (List.mem_cons_of_mem _ _)
        rwa [eventsAfter, read]
      rw [read] at opens
      rw [Reading.tagged, Reading.tagged, bind_of_ok read, bind_of_ok read]
      cases opens with
      | atom => rfl
      | stored => rfl
      | @body byte tail form site slot _ stream isBody slots =>
          have plain : form ≠ .code := by
            intro isCode
            subst isCode
            rw [Event.isTag_of_stream stream (Tag.byte_of_tag isBody rfl)] at own
            cases own
          have same : (Script.body right site form).run insideRight slot next =
              (Script.body left site form).run insideLeft slot next := by
            rw [body_of_uncoded plain]
            exact (inside ⟨slot, form⟩).run slot (Script.body left site form) next later
          exact bind_congr_state same _

theorem nested {insideLeft insideRight : Reading α} {events : ReaderState → List Event}
    (agrees : AgreesUncoded insideLeft insideRight events) :
    AgreesUncoded (Reading.nested insideLeft) (Reading.nested insideRight)
      fun state => events { state with depth := state.depth + 1 } := by
  intro state uncoded
  rw [nested_eq_endLevel, nested_eq_endLevel, agrees _ uncoded]

theorem optional (levels : Nat) (enclosing : List OpenValue) :
    AgreesUncoded (Reading.optional left levels) (Reading.optional right levels)
      (optionalEvents left levels enclosing) := by
  induction levels generalizing enclosing with
  | zero => exact refl _ _
  | succ levels induction =>
      have inside := fun value => induction (value :: enclosing)
      exact (tagged inside enclosing).nested

theorem value : AgreesUncoded (Reading.value left) (Reading.value right) (valueEvents left) := by
  intro state uncoded
  exact (optional (nestingLimit - state.depth) []).run none Script.required state uncoded

theorem read (call : Call) :
    AgreesUncoded (call.read left) (call.read right) (valueEvents left) := by
  cases call with
  | value => exact value
  | topLevel =>
      intro state uncoded
      have same : Reading.value right state = Reading.value left state := value state uncoded
      exact bind_congr_state same _

end AgreesUncoded

/-- A version does what another one does in calls that come to no tag of a code unit. -/
theorem outcomes_of_uncoded {left right : Profile} (calls : List Call) {state : ReaderState}
    (uncoded : ∀ event ∈ Call.tags left calls state, event.isTag 'c' = false) :
    Call.outcomes right calls state = Call.outcomes left calls state := by
  induction calls generalizing state with
  | nil => rfl
  | cons call calls induction =>
      have first : call.read right state = call.read left state :=
        AgreesUncoded.read call state fun event member =>
          uncoded event (List.mem_append_left _ member)
      have rest := induction fun event member => uncoded event (List.mem_append_right _ member)
      rw [Call.outcomes, Call.outcomes, first, rest]

end Reading

namespace Value

/-- What comes of a stream, given the outcome of its only call. -/
def ofOutcome : EStateM.Result Error ReaderState Value → Except Error Value
  | .ok value _ => .ok value
  | .error error _ => .error error

theorem ofBytes_eq_ofOutcome {profile : Profile} (member : profile ∈ Profile.all) (data : Bytes) :
    ofBytes profile.version data = ofOutcome (Reading.topLevel profile (.start data)) := by
  have supported := Profile.ofVersion_of_mem member
  cases read : Reading.topLevel profile (.start data) with
  | ok value next => exact ofBytes_of_ok supported read
  | error error next => exact ofBytes_of_error supported read

end Value

/-- Versions differ in what they read only where the layouts of their code units do. -/
structure VersionsAgree : Prop where
  /-- There are two layouts. -/
  layouts : Profile.all.map (fun profile => (profile.version, profile.layout)) =
    [(⟨3, 8⟩, .split), (⟨3, 9⟩, .split), (⟨3, 10⟩, .split), (⟨3, 11⟩, .unified),
      (⟨3, 12⟩, .unified)]
  /-- Versions with one layout load the same, except for the version of code units. -/
  stream : ∀ left ∈ Profile.all, ∀ right ∈ Profile.all, left.layout = right.layout →
    ∀ data, Value.ofBytes right.version data =
      Value.relabel (fun _ => right.version) <$> Value.ofBytes left.version data
  /-- So they do call by call, and they leave the reader in the same state. -/
  calls : ∀ left ∈ Profile.all, ∀ right ∈ Profile.all, left.layout = right.layout →
    ∀ data calls, Call.outcomes right calls (.start data) =
      (Call.outcomes left calls (.start data)).map (Reading.relabel fun _ => right.version)
  /-- All versions load the same where one of them comes to no tag of a code unit. -/
  uncodedStream : ∀ left ∈ Profile.all, ∀ right ∈ Profile.all, ∀ data,
    (∀ event ∈ Call.tags left [.topLevel] (.start data), event.isTag 'c' = false) →
      Value.ofBytes right.version data = Value.ofBytes left.version data
  /-- So they do call by call. -/
  uncodedCalls : ∀ left ∈ Profile.all, ∀ right ∈ Profile.all, ∀ data calls,
    (∀ event ∈ Call.tags left calls (.start data), event.isTag 'c' = false) →
      Call.outcomes right calls (.start data) = Call.outcomes left calls (.start data)

theorem versionsAgree : VersionsAgree where
  layouts := rfl
  stream left isLeft right isRight layouts data := by
    have same := Reading.read_relabel layouts .topLevel (.start data)
    rw [ReaderState.relabel_start, Call.read, Call.read] at same
    rw [Value.ofBytes_eq_ofOutcome isLeft, Value.ofBytes_eq_ofOutcome isRight, same]
    cases Reading.topLevel left (.start data) <;> rfl
  calls left _ right _ layouts data calls := by
    have whole := Reading.outcomes_relabel layouts calls (.start data)
    rwa [ReaderState.relabel_start] at whole
  uncodedStream left isLeft right isRight data uncoded := by
    have same : Call.outcomes right [.topLevel] (.start data) =
        Call.outcomes left [.topLevel] (.start data) :=
      Reading.outcomes_of_uncoded [.topLevel] uncoded
    rw [Value.ofBytes_eq_ofOutcome isLeft, Value.ofBytes_eq_ofOutcome isRight]
    exact congrArg Value.ofOutcome (List.head_eq_of_cons_eq same)
  uncodedCalls left _ right _ data calls uncoded := Reading.outcomes_of_uncoded calls uncoded

end CodeScope
