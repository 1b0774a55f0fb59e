/-
This file holds the monad in which the content of a container is changed. An edit
reads and writes a state and may fail; a failed edit keeps what it had written
before it failed, because the same bytes would then stand in the block. Edits of
a part of a state, and of the members of a list one after another, are edits of
the whole. A member or a range of an array that is not there is a fault; moving the
members behind a gap down and overwriting a range keep the length.
-/

import PackedStore.Failure

namespace PackedStore

/-- A computation that reads only and may fail. -/
abbrev Checked (α : Type) := Except Failure α

/-- A computation that changes a state, which survives a failure. -/
abbrev Edit (σ α : Type) := EStateM Failure σ α

variable {σ τ α : Type}

/-- A checked computation as an edit that changes nothing. -/
instance : MonadLift (Except Failure) (EStateM Failure σ) where
  monadLift computation := fun state =>
    match computation with
    | .ok answer => .ok answer state
    | .error failure => .error failure state

/-- Fails with a fault unless a condition holds. -/
def require (condition : Prop) [Decidable condition] (fault : Fault) : Checked Unit :=
  if condition then .ok () else .error (.fault fault)

/-- Fails with a misuse unless a condition holds. -/
def demand (condition : Prop) [Decidable condition] (misuse : Misuse) : Checked Unit :=
  if condition then .ok () else .error (.misuse misuse)

/-- An answer, or a failure where there is none. -/
def orFail (answer : Option α) (failure : Failure) : Checked α :=
  match answer with
  | some answer => .ok answer
  | none => .error failure

/-- The member of an array at a position. -/
def fetch (array : Array α) (position : Nat) : Checked α :=
  orFail array[position]? (.fault .outOfRange)

@[simp] theorem Checked.bind_ok {β : Type} (answer : α) (next : α → Checked β) :
    ((Except.ok answer : Checked α) >>= next) = next answer := rfl

@[simp] theorem Checked.bind_error {β : Type} (failure : Failure) (next : α → Checked β) :
    ((Except.error failure : Checked α) >>= next) = .error failure := rfl

theorem require_of {condition : Prop} [Decidable condition] (holds : condition) (fault : Fault) :
    require condition fault = .ok () := if_pos holds

theorem require_of_not {condition : Prop} [Decidable condition] (fails : ¬ condition)
    (fault : Fault) : require condition fault = .error (.fault fault) := if_neg fails

theorem demand_of {condition : Prop} [Decidable condition] (holds : condition)
    (misuse : Misuse) : demand condition misuse = .ok () := if_pos holds

theorem demand_of_not {condition : Prop} [Decidable condition] (fails : ¬ condition)
    (misuse : Misuse) : demand condition misuse = .error (.misuse misuse) := if_neg fails

theorem fetch_of {array : Array α} {position : Nat} {value : α}
    (there : array[position]? = some value) : fetch array position = .ok value := by
  rw [fetch, there, orFail]

/-! ### Computations that succeeded -/

theorem Checked.bind_eq_ok {β : Type} {first : Checked α} {next : α → Checked β} {answer : β} :
    (first >>= next) = .ok answer ↔ ∃ middle, first = .ok middle ∧ next middle = .ok answer := by
  cases first with
  | error failure => simp
  | ok middle => simp

theorem Checked.map_eq_ok {β : Type} {change : α → β} {checked : Checked α} {answer : β} :
    change <$> checked = .ok answer ↔ ∃ result, checked = .ok result ∧ change result = answer := by
  cases checked with
  | error failure => simp [Functor.map, Except.map]
  | ok result => simp [Functor.map, Except.map]

theorem orFail_eq_ok {answer : Option α} {failure : Failure} {result : α} :
    orFail answer failure = .ok result ↔ answer = some result := by
  cases answer <;> simp [orFail]

theorem require_eq_ok {condition : Prop} [Decidable condition] {fault : Fault} {answer : Unit} :
    require condition fault = .ok answer ↔ condition := by
  by_cases holds : condition <;> simp [require, holds]

theorem demand_eq_ok {condition : Prop} [Decidable condition] {misuse : Misuse} {answer : Unit} :
    demand condition misuse = .ok answer ↔ condition := by
  by_cases holds : condition <;> simp [demand, holds]

/-! ### Ranges of arrays -/

/-- The array whose members from `start + count` up to `stop` have moved down by `count` places.
The members from `stop - count` on keep their old values. -/
def moveDown (array : Array α) (start count stop : Nat) : Array α :=
  array.extract 0 start ++ array.extract (start + count) stop ++
    array.extract (stop - count) array.size

/-- The array with one value at all places from `start` up to `stop`. -/
def fillRange (array : Array α) (start stop : Nat) (value : α) : Array α :=
  array.extract 0 start ++ Array.replicate (stop - start) value ++ array.extract stop array.size

/-- The first members of an array, which must have that many. -/
def takeFront? (array : Array α) (count : Nat) : Checked (List α) := do
  require (count ≤ array.size) .outOfRange
  return array.toList.take count

theorem takeFront?_of {array : Array α} {count : Nat} (room : count ≤ array.size) :
    takeFront? array count = .ok (array.toList.take count) := by
  rw [takeFront?, require_of room]
  rfl

/-- Moves members down, if the range is one of the array. -/
def moveDown? (array : Array α) (start count stop : Nat) : Checked (Array α) := do
  require (start + count ≤ stop ∧ stop ≤ array.size) .outOfRange
  return moveDown array start count stop

/-- Fills a range, if it is one of the array. -/
def fillRange? (array : Array α) (start stop : Nat) (value : α) : Checked (Array α) := do
  require (start ≤ stop ∧ stop ≤ array.size) .outOfRange
  return fillRange array start stop value

namespace Edit

/-! ### Running an edit -/

section

variable {β : Type}

@[simp] theorem run_pure (answer : α) (state : σ) :
    (pure answer : Edit σ α) state = .ok answer state := rfl

@[simp] theorem run_bind (first : Edit σ α) (next : α → Edit σ β) (state : σ) :
    (first >>= next) state =
      match first state with
      | .ok answer changed => next answer changed
      | .error failure changed => .error failure changed := by
  simp only [bind, EStateM.bind]
  cases first state <;> rfl

@[simp] theorem run_map (change : α → β) (edit : Edit σ α) (state : σ) :
    (change <$> edit) state =
      match edit state with
      | .ok answer changed => .ok (change answer) changed
      | .error failure changed => .error failure changed := by
  simp only [Functor.map, EStateM.map]
  cases edit state <;> rfl

@[simp] theorem run_discard (edit : Edit σ α) (state : σ) :
    (discard edit : Edit σ PUnit) state =
      match edit state with
      | .ok _ changed => .ok () changed
      | .error failure changed => .error failure changed :=
  run_map (fun _ => ()) edit state

@[simp] theorem run_get (state : σ) : (get : Edit σ σ) state = .ok state state := rfl

@[simp] theorem run_set (state changed : σ) :
    (set changed : Edit σ PUnit) state = .ok () changed := rfl

@[simp] theorem run_modify (change : σ → σ) (state : σ) :
    (modify change : Edit σ PUnit) state = .ok () (change state) := rfl

@[simp] theorem run_throw (failure : Failure) (state : σ) :
    (throw failure : Edit σ α) state = .error failure state := rfl

@[simp] theorem run_lift_ok (answer : α) (state : σ) :
    (liftM (Except.ok answer : Checked α) : Edit σ α) state = .ok answer state := rfl

@[simp] theorem run_lift_error (failure : Failure) (state : σ) :
    (liftM (Except.error failure : Checked α) : Edit σ α) state = .error failure state := rfl

theorem bind_eq_ok {first : Edit σ α} {next : α → Edit σ β} {state changed : σ} {answer : β} :
    (first >>= next) state = .ok answer changed ↔
      ∃ middle between, first state = .ok middle between ∧
        next middle between = .ok answer changed := by
  rw [run_bind]
  constructor
  · intro run
    cases ran : first state with
    | ok middle between =>
      rw [ran] at run
      exact ⟨middle, between, rfl, run⟩
    | error failure between =>
      rw [ran] at run
      exact absurd run (by simp)
  · rintro ⟨middle, between, ran, run⟩
    rw [ran]
    exact run

/-- Checked values one after another are checked in that order. -/
theorem lift_bind (first : Checked α) (next : α → Checked β) :
    (liftM (first >>= next) : Edit σ β) = (do
      let answer ← (liftM first : Edit σ α)
      liftM (next answer)) := by
  cases first <;> rfl

theorem lift_eq_ok {checked : Checked α} {state changed : σ} {answer : α} :
    (liftM checked : Edit σ α) state = .ok answer changed ↔
      checked = .ok answer ∧ state = changed := by
  cases checked with
  | error failure => simp
  | ok result => simp

theorem lift_bind_eq_ok {checked : Checked α} {next : α → Edit σ β} {state changed : σ}
    {answer : β} :
    (liftM checked >>= next) state = .ok answer changed ↔
      ∃ middle, checked = .ok middle ∧ next middle state = .ok answer changed := by
  cases checked with
  | error failure => simp
  | ok result => simp

@[simp] theorem run_forM_nil (action : α → Edit σ PUnit) (state : σ) :
    ([] : List α).forM action state = .ok () state := rfl

@[simp] theorem run_forM_cons (action : α → Edit σ PUnit) (first : α) (rest : List α)
    (state : σ) :
    (first :: rest).forM action state =
      match action first state with
      | .ok _ changed => rest.forM action changed
      | .error failure changed => .error failure changed := by
  rw [List.forM_eq_forM, List.forM_cons, run_bind]
  cases action first state <;> rfl

end

/-! ### Edits of parts -/

/-- Runs an edit on a part of the state. -/
def onPart (part : σ → τ) (put : τ → σ → σ) (edit : Edit τ α) : Edit σ α := fun state =>
  match edit (part state) with
  | .ok answer changed => .ok answer (put changed state)
  | .error failure changed => .error failure (put changed state)

/-- Runs each edit on the member of the list that stands at the same place, in order. -/
def onEach : List (Edit τ Unit) → Edit (List τ) Unit
  | [], members => .ok () members
  | _ :: _, [] => .ok () []
  | edit :: edits, member :: members =>
    match edit member with
    | .error failure changed => .error failure (changed :: members)
    | .ok () changed =>
      match onEach edits members with
      | .ok () rest => .ok () (changed :: rest)
      | .error failure rest => .error failure (changed :: rest)

theorem run_onPart_ok {part : σ → τ} {put : τ → σ → σ} {edit : Edit τ α} {state : σ}
    {answer : α} {changed : τ} (run : edit (part state) = .ok answer changed) :
    onPart part put edit state = .ok answer (put changed state) := by
  simp only [onPart, run]

/-- Edits that succeed on their members succeed on the list, and each member changes as its own
edit says. -/
theorem run_onEach_ok {edits : List (Edit τ Unit)} {members : List τ}
    {Changed : Nat → τ → Prop} (lengths : edits.length = members.length)
    (each : ∀ position edit member, edits[position]? = some edit →
      members[position]? = some member →
      ∃ changed, edit member = .ok () changed ∧ Changed position changed) :
    ∃ results, onEach edits members = .ok () results ∧ results.length = members.length ∧
      ∀ position changed, results[position]? = some changed → Changed position changed := by
  induction edits generalizing members Changed with
  | nil =>
    have empty : members = [] := List.length_eq_zero_iff.mp lengths.symm
    subst empty
    exact ⟨[], rfl, rfl, by simp⟩
  | cons edit rest inductionHypothesis =>
    cases members with
    | nil => simp at lengths
    | cons member others =>
      obtain ⟨first, runFirst, changedFirst⟩ := each 0 edit member rfl rfl
      obtain ⟨results, runRest, length, changedRest⟩ :=
        @inductionHypothesis others (fun position => Changed (position + 1))
          (by simpa using lengths)
          (fun position edit member thereEdit thereMember =>
            each (position + 1) edit member thereEdit thereMember)
      refine ⟨first :: results, by simp only [onEach, runFirst, runRest], by simp [length], ?_⟩
      intro position changed there
      cases position with
      | zero =>
        obtain rfl : first = changed := by simpa using there
        exact changedFirst
      | succ position => exact changedRest position changed (by simpa using there)

/-- If some edits of a list fail in one way and the others succeed, the whole fails in this way. -/
theorem run_onEach_error {edits : List (Edit τ Unit)} {members : List τ} {failure : Failure}
    (each : ∀ (position : Nat) (edit : Edit τ Unit) (member : τ), edits[position]? = some edit →
      members[position]? = some member →
      (∃ changed, edit member = .ok () changed) ∨ ∃ changed, edit member = .error failure changed)
    {failing : Nat} {edit : Edit τ Unit} {member broken : τ} (thereEdit : edits[failing]? = some edit)
    (thereMember : members[failing]? = some member) (fails : edit member = .error failure broken) :
    ∃ results, onEach edits members = .error failure results := by
  induction edits generalizing members failing with
  | nil => simp at thereEdit
  | cons first rest inductionHypothesis =>
    cases members with
    | nil => simp at thereMember
    | cons head others =>
      rcases each 0 first head rfl rfl with ⟨changed, run⟩ | ⟨changed, run⟩
      · cases failing with
        | zero =>
          obtain rfl : first = edit := Option.some.inj thereEdit
          obtain rfl : head = member := Option.some.inj thereMember
          rw [run] at fails
          cases fails
        | succ failing =>
          obtain ⟨results, runRest⟩ := inductionHypothesis
            (fun position edit member => each (position + 1) edit member) thereEdit thereMember
          exact ⟨changed :: results, by simp only [onEach, run, runRest]⟩
      · exact ⟨changed :: others, by simp only [onEach, run]⟩

end Edit

end PackedStore
