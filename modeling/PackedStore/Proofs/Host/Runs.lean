/-
This file compares the runs of two machines. A machine answers an operation, or
fails, and goes to another state in either case; containers in a host are machines,
and so are the tables that say what containers mean. Two machines that agree on
every single operation in related states agree on every run.
-/

import PackedStore.Host.Store

namespace PackedStore

/-- What a machine answers to an operation in a state, and the state it goes to. -/
abbrev Machine (Operation σ α : Type) := Operation → σ → Except Failure α × σ

namespace Machine

variable {Operation σ τ α : Type} {first : Machine Operation σ α} {second : Machine Operation τ α}

/-- The answers to a list of operations, one after another. -/
def answers (machine : Machine Operation σ α) : List Operation → σ → List (Except Failure α)
  | [], _ => []
  | operation :: rest, state =>
    (machine operation state).1 :: answers machine rest (machine operation state).2

/-- The state after a list of operations. -/
def reached (machine : Machine Operation σ α) : List Operation → σ → σ
  | [], state => state
  | operation :: rest, state => reached machine rest (machine operation state).2

theorem reached_append (machine : Machine Operation σ α) (front back : List Operation) (state : σ) :
    machine.reached (front ++ back) state = machine.reached back (machine.reached front state) := by
  induction front generalizing state with
  | nil => rfl
  | cons operation rest inductionHypothesis => exact inductionHypothesis _

/-- What single operations keep, runs keep. -/
theorem reached_of_step {Keeps : σ → Prop} {Allowed : Operation → Prop}
    (step : ∀ operation state, Allowed operation → Keeps state → Keeps (first operation state).2)
    {operations : List Operation} (allowed : ∀ operation ∈ operations, Allowed operation) {state : σ}
    (here : Keeps state) : Keeps (first.reached operations state) := by
  induction operations generalizing state with
  | nil => exact here
  | cons operation rest inductionHypothesis =>
    exact inductionHypothesis (fun other member => allowed other (List.mem_cons_of_mem _ member))
      (step operation state (allowed operation List.mem_cons_self) here)

/-- A condition on every operation of a run, in the state in which it is run. -/
def Always (machine : Machine Operation σ α) (condition : Operation → σ → Prop) :
    List Operation → σ → Prop
  | [], _ => True
  | operation :: rest, state =>
    condition operation state ∧ Always machine condition rest (machine operation state).2

/-- What single operations keep under their conditions, runs keep. -/
theorem reached_of_always {Keeps : σ → Prop} {Allowed : Operation → σ → Prop}
    (step : ∀ operation state, Allowed operation state → Keeps state →
      Keeps (first operation state).2)
    {operations : List Operation} {state : σ} (always : first.Always Allowed operations state)
    (here : Keeps state) : Keeps (first.reached operations state) := by
  induction operations generalizing state with
  | nil => exact here
  | cons operation rest inductionHypothesis =>
    exact inductionHypothesis always.2 (step operation state always.1 here)

theorem always_of_forall {condition : Operation → Prop} {operations : List Operation}
    (each : ∀ operation ∈ operations, condition operation) (state : σ) :
    first.Always (fun operation _ => condition operation) operations state := by
  induction operations generalizing state with
  | nil => trivial
  | cons operation rest inductionHypothesis =>
    exact ⟨each operation List.mem_cons_self,
      inductionHypothesis (fun other member => each other (List.mem_cons_of_mem _ member)) _⟩

theorem always_and {condition : Operation → Prop} {other : Operation → σ → Prop}
    {operations : List Operation} (each : ∀ operation ∈ operations, condition operation) {state : σ}
    (always : first.Always other operations state) :
    first.Always (fun operation state => condition operation ∧ other operation state) operations
      state := by
  induction operations generalizing state with
  | nil => trivial
  | cons operation rest inductionHypothesis =>
    exact ⟨⟨each operation List.mem_cons_self, always.1⟩,
      inductionHypothesis (fun other member => each other (List.mem_cons_of_mem _ member)) always.2⟩

/-- Machines that agree on single operations agree on runs and stay related. -/
theorem answers_eq_of_always {Related : σ → τ → Prop} {Allowed : Operation → σ → Prop}
    (step : ∀ operation left right, Allowed operation left → Related left right →
      (first operation left).1 = (second operation right).1 ∧
        Related (first operation left).2 (second operation right).2)
    {operations : List Operation} {left : σ} {right : τ}
    (always : first.Always Allowed operations left) (related : Related left right) :
    first.answers operations left = second.answers operations right ∧
      Related (first.reached operations left) (second.reached operations right) := by
  induction operations generalizing left right with
  | nil => exact ⟨rfl, related⟩
  | cons operation rest inductionHypothesis =>
    obtain ⟨same, relatedNext⟩ := step operation left right always.1 related
    obtain ⟨sameRest, relatedRest⟩ := inductionHypothesis always.2 relatedNext
    exact ⟨by rw [answers, answers, same, sameRest], relatedRest⟩

/-- The same where only the operations matter. -/
theorem answers_eq_of_step {Related : σ → τ → Prop} {Allowed : Operation → Prop}
    (step : ∀ operation left right, Allowed operation → Related left right →
      (first operation left).1 = (second operation right).1 ∧
        Related (first operation left).2 (second operation right).2)
    {operations : List Operation} (allowed : ∀ operation ∈ operations, Allowed operation) {left : σ}
    {right : τ} (related : Related left right) :
    first.answers operations left = second.answers operations right ∧
      Related (first.reached operations left) (second.reached operations right) :=
  answers_eq_of_always step (always_of_forall allowed left) related

/-- A machine whose steps are translations of the steps of another one has translated runs. -/
theorem answers_map {Translated β : Type} {translated : Machine Translated τ β}
    {onOperation : Operation → Translated} {onAnswer : α → β} {onState : σ → τ}
    (step : ∀ operation state, translated (onOperation operation) (onState state) =
      ((first operation state).1.map onAnswer, onState (first operation state).2))
    (operations : List Operation) (state : σ) :
    translated.answers (operations.map onOperation) (onState state) =
        (first.answers operations state).map (Except.map onAnswer) ∧
      translated.reached (operations.map onOperation) (onState state) =
        onState (first.reached operations state) := by
  induction operations generalizing state with
  | nil => exact ⟨rfl, rfl⟩
  | cons operation rest inductionHypothesis =>
    obtain ⟨answers, reached⟩ := inductionHypothesis (first operation state).2
    constructor
    · rw [List.map_cons, Machine.answers, step, answers]
      rfl
    · rw [List.map_cons, Machine.reached, step]
      exact reached

/-! ### Changes in a run -/

section

variable {β : Type} [DecidableEq β] {observed : σ → Option β}

/-- How often a run changes what is observed of a state, once anything is observed. -/
def changes (machine : Machine Operation σ α) (observed : σ → Option β) :
    List Operation → σ → Nat
  | [], _ => 0
  | operation :: rest, state =>
    let later := (machine operation state).2
    (if (observed state).isSome ∧ observed later ≠ observed state then 1 else 0) +
      changes machine observed rest later

end

end Machine

/-! ### Operations in a host -/

namespace Store

variable {Buffer Operation α : Type} {site later : Site Buffer}

/-- What an operation in a host answers, and the site after it. -/
def outcome (operation : Store Buffer α) (site : Site Buffer) : Except Failure α × Site Buffer :=
  match operation site with
  | .ok answer later => (.ok answer, later)
  | .error failure later => (.error failure, later)

theorem outcome_ok {operation : Store Buffer α} {answer : α}
    (run : operation site = .ok answer later) : outcome operation site = (.ok answer, later) := by
  rw [outcome, run]

theorem outcome_error {operation : Store Buffer α} {failure : Failure}
    (run : operation site = .error failure later) :
    outcome operation site = (.error failure, later) := by
  rw [outcome, run]

theorem run_of_outcome_ok {operation : Store Buffer α} {answer : α}
    (answers : (outcome operation site).1 = .ok answer) :
    operation site = .ok answer (outcome operation site).2 := by
  cases run : operation site with
  | ok found later =>
    rw [outcome_ok run] at answers ⊢
    rw [Except.ok.inj answers]
  | error failure later =>
    rw [outcome_error run] at answers
    exact absurd answers (by simp)

theorem run_of_outcome_error {operation : Store Buffer α} {failure : Failure}
    (fails : (outcome operation site).1 = .error failure) :
    operation site = .error failure (outcome operation site).2 := by
  cases run : operation site with
  | ok answer later =>
    rw [outcome_ok run] at fails
    exact absurd fails (by simp)
  | error found later =>
    rw [outcome_error run] at fails ⊢
    rw [Except.error.inj fails]

/-- Operations in a host are a machine. -/
def machine (run : Operation → Store Buffer α) : Machine Operation (Site Buffer) α :=
  fun operation site => outcome (run operation) site

end Store

end PackedStore
