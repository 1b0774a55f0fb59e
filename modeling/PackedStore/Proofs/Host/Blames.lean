/-
This file says for which reasons an operation that follows a script fails: for one of
the script, or because its host refuses a length. An overflow names a quantity, and it
names the right one if more of it was asked for than there can be.
-/

import PackedStore.Proofs.Failures
import PackedStore.Proofs.Host.Limits
import PackedStore.Proofs.Layout.Growth

namespace PackedStore

variable {Buffer σ α β : Type}

/-! ### Quantities -/

/-- The quantity is one of an arena. -/
def Quantity.IsArena : Quantity → Prop
  | arenaCapacity | arenaOffset | arenaSize => True
  | _ => False

/-- If the failure is an overflow, its quantity is explained. -/
def Failure.Names (explained : Quantity → Prop) (failure : Failure) : Prop :=
  ∀ what, failure = .overflow what → explained what

/-- An overflow names the slots only if more of them were asked for than there can be, and an arena
only if more of it was. It names nothing else. -/
def Failure.Blames (slots arena : Nat) : Failure → Prop :=
  Names fun what =>
    (what = .slotCapacity ∧ maxCapacity < slots) ∨ (what.IsArena ∧ maxCapacity < arena)

namespace Failure

variable {explained : Quantity → Prop} {what : Quantity} {slots arena : Nat}

theorem names_misuse (rule : Misuse) : (misuse rule).Names explained :=
  fun _ same => absurd same (by simp [overflow])

theorem names_fault (cause : Fault) : (fault cause).Names explained :=
  fun _ same => absurd same (by simp [overflow])

theorem names_overflow (isSo : explained what) : (overflow what).Names explained := by
  intro other same
  obtain rfl : what = other := by simpa [overflow] using same
  exact isSo

theorem blames_slots (many : maxCapacity < slots) : (overflow .slotCapacity).Blames slots arena :=
  names_overflow (Or.inl ⟨rfl, many⟩)

theorem blames_arena (isArena : what.IsArena) (much : maxCapacity < arena) :
    (overflow what).Blames slots arena :=
  names_overflow (Or.inr ⟨isArena, much⟩)

end Failure

namespace Checked

variable {explained : Quantity → Prop}

theorem names_require (condition : Prop) [Decidable condition] (cause : Fault) :
    (require condition cause).FailsOnly (Failure.Names explained) := by
  unfold require
  split
  · exact .ok ()
  · exact .error (Failure.names_fault cause)

theorem names_demand (condition : Prop) [Decidable condition] (rule : Misuse) :
    (demand condition rule).FailsOnly (Failure.Names explained) :=
  .demand condition fun _ => Failure.names_misuse rule

theorem names_demandStorable (type : ElementType) :
    (demandStorable type).FailsOnly (Failure.Names explained) :=
  (names_demand _ _).bind fun _ => names_demand _ _

end Checked

section

variable {slots arena count capacity required log2MinGrowth : Nat}

/-- A number of words is refused where it is not even a size. -/
theorem blames_size? (words : Nat) :
    (orFail (size? words) (.overflow .arenaCapacity)).FailsOnly (Failure.Blames slots words) := by
  unfold size?
  split
  · exact .ok _
  · next large =>
    have much : maxCapacity < words := Nat.lt_of_lt_of_le (by decide) (Nat.le_of_not_lt large)
    exact .error (Failure.blames_arena trivial much)

/-- A number of slots is refused where it is too large. -/
theorem blames_grownCapacity (step : log2MinGrowth ≤ 29) (rows : count ≤ maxCapacity) :
    (grownCapacity count capacity log2MinGrowth).FailsOnly (Failure.Blames capacity arena) := by
  by_cases many : maxCapacity < capacity
  · rw [grownCapacity_eq_error (by omega) many]
    exact .error (Failure.blames_slots many)
  · obtain ⟨grown, isGrown⟩ := grownCapacity_of rows (Nat.le_of_not_lt many) step
    rw [isGrown]
    exact .ok grown

/-- A full table has no next capacity where it has as many slots as there can be. -/
theorem blames_nextCapacity (reached : IsCapacity log2MinGrowth capacity)
    (full : count = capacity) :
    (nextCapacity count capacity log2MinGrowth).FailsOnly (Failure.Blames (count + 1) arena) := by
  rw [nextCapacity_eq reached (Nat.le_of_eq full)]
  by_cases largest : capacity = maxCapacity
  · rw [if_pos largest]
    exact .error (Failure.blames_slots (by omega))
  · rw [if_neg largest]
    exact .ok _

theorem IsCapacity.of_next {grown : Nat} (reached : IsCapacity log2MinGrowth capacity)
    (rows : count ≤ capacity) (next : nextCapacity count capacity log2MinGrowth = .ok grown) :
    IsCapacity log2MinGrowth grown := by
  rw [nextCapacity_eq reached rows] at next
  by_cases largest : capacity = maxCapacity
  · rw [if_pos largest] at next
    exact absurd next (by simp)
  · rw [if_neg largest] at next
    obtain rfl := Except.ok.inj next
    exact reached.double largest

/-- More arena is refused where too much of it is required. -/
theorem blames_grownDataCapacity (step : log2MinGrowth ≤ 29)
    (reached : IsArenaCapacity log2MinGrowth capacity) (more : capacity < required) :
    (grownDataCapacity capacity required log2MinGrowth).FailsOnly
      (Failure.Blames slots required) := by
  by_cases much : maxCapacity < required
  · rw [grownDataCapacity_eq_error step reached more much]
    exact .error (Failure.blames_arena trivial much)
  · obtain ⟨grown, isGrown, -⟩ := grownDataCapacity_of step reached more (Nat.le_of_not_lt much)
    rw [isGrown]
    exact .ok grown

theorem IsCapacity.of_grownData {grown : Nat} (step : log2MinGrowth ≤ 29)
    (reached : IsArenaCapacity log2MinGrowth capacity) (more : capacity < required)
    (run : grownDataCapacity capacity required log2MinGrowth = .ok grown) :
    IsCapacity log2MinGrowth grown := by
  by_cases much : maxCapacity < required
  · rw [grownDataCapacity_eq_error step reached more much] at run
    exact absurd run (by simp)
  · obtain ⟨larger, isLarger, reachedLarger, -⟩ :=
      grownDataCapacity_of step reached more (Nat.le_of_not_lt much)
    rwa [← Except.ok.inj (isLarger.symm.trans run)]

end

/-! ### Scripts -/

namespace Script

variable {allowed : Failure → Prop} {script : Script σ α}

/-- Wherever the script itself fails, it fails in an allowed way. -/
def FailsOnly (allowed : Failure → Prop) : Script σ α → Prop
  | ends outcome _ => Checked.FailsOnly allowed outcome
  | asks _ _ rest => rest.FailsOnly allowed

namespace FailsOnly

/-- The second script may rely on how the first one ends. -/
theorem bind {next : α → σ → Script σ β} (failsOnly : script.FailsOnly allowed)
    (behind : ∀ answer state, script.granted = (.ok answer, state) →
      (next answer state).FailsOnly allowed) :
    (script.bind next).FailsOnly allowed := by
  induction script with
  | ends outcome state =>
    cases outcome with
    | ok answer => exact behind answer state rfl
    | error failure => exact .error (failsOnly failure rfl)
  | asks length stays rest inductionHypothesis => exact inductionHypothesis failsOnly behind

theorem check {checked : Checked α} {state : σ} {next : α → σ → Script σ β}
    (failsOnly : checked.FailsOnly allowed)
    (behind : ∀ answer, checked = .ok answer → (next answer state).FailsOnly allowed) :
    ((Script.ends checked state).bind next).FailsOnly allowed := by
  refine bind failsOnly fun answer later ends => ?_
  obtain ⟨isAnswer, rfl⟩ := Prod.mk.inj ends
  exact behind answer isAnswer

theorem ok (answer : α) (state : σ) : (Script.ends (.ok answer) state).FailsOnly allowed :=
  Checked.FailsOnly.ok answer

theorem asks {length : Nat} {stays : σ} (failsOnly : script.FailsOnly allowed) :
    (Script.asks length stays script).FailsOnly allowed := failsOnly

theorem map {change : α → β} (failsOnly : script.FailsOnly allowed) :
    (script.bind fun answer state => .ends (.ok (change answer)) state).FailsOnly allowed :=
  failsOnly.bind fun answer state _ => .ok (change answer) state

end FailsOnly

variable [Host Buffer] {Stands : Site Buffer → σ → Prop} {buffer : Buffer}

/-- What failed without the host was the script. -/
theorem Enacted.failed {failure : Failure} {later : Site Buffer}
    (enacted : script.Enacted Stands buffer (.error failure, later))
    (failsOnly : script.FailsOnly allowed) :
    allowed failure ∨ ∃ (asked : Buffer) (length : Nat) (error : StorageError),
      Host.resize asked length = .error error ∧ failure = .storage error := by
  induction script generalizing buffer with
  | ends outcome state =>
    cases enacted with
    | ended _ _ => exact Or.inl (failsOnly failure rfl)
  | asks length stays rest inductionHypothesis =>
    cases enacted with
    | refused _ refused _ => exact Or.inr ⟨_, length, _, refused, rfl⟩
    | granted _ _ enacted => exact inductionHypothesis enacted failsOnly

end Script

/-- What is made of an answer changes nothing about failures. -/
theorem Edit.map_eq_error {change : α → β} {edit : Edit σ α} {state changed : σ}
    {failure : Failure} (failed : (change <$> edit) state = .error failure changed) :
    edit state = .error failure changed := by
  rw [run_map] at failed
  cases run : edit state with
  | ok answer later =>
    rw [run] at failed
    exact absurd failed (by simp)
  | error other later =>
    rw [run] at failed
    obtain ⟨rfl, rfl⟩ := EStateM.Result.error.inj failed
    rfl

/-- There is a length that a host of the kind refuses with an overflow of its own. -/
def Host.Overflows (Buffer : Type) [Host Buffer] (what : Quantity) : Prop :=
  ∃ (buffer : Buffer) (length : Nat), Host.resize buffer length = .error (.capacityOverflow what)

/-- A host with a limit refuses lengths and reports no overflow. -/
theorem Limited.not_overflows [Host Buffer] {limit : Buffer → Option Nat} (limited : Limited limit)
    (what : Quantity) : ¬ Host.Overflows Buffer what := by
  rintro ⟨buffer, length, refused⟩
  rw [limited.refuses buffer length (limited.not_grants refused)] at refused
  exact absurd refused (by simp)

/-- What overflows is explained as in the script, unless the overflow is one of the host. -/
theorem Store.Enacts.overflow [Host Buffer] {Stands : Site Buffer → σ → Prop}
    {site later : Site Buffer} {operation : Store Buffer α} {script : Script σ α}
    {explained : Quantity → Prop} {what : Quantity} (enacts : Enacts Stands site operation script)
    (names : script.FailsOnly (Failure.Names explained))
    (failed : operation site = .error (.overflow what) later) :
    Host.Overflows Buffer what ∨ explained what := by
  rw [Enacts, outcome_error failed] at enacts
  rcases Script.Enacted.failed enacts names with isNamed | ⟨buffer, length, error, refused, same⟩
  · exact Or.inr (isNamed what rfl)
  · obtain rfl : StorageError.capacityOverflow what = error := Failure.storage.inj same
    exact Or.inl ⟨buffer, length, refused⟩

end PackedStore
