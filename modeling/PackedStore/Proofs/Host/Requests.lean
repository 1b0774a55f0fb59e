/-
This file says what an operation needs of its host first. It needs nothing, and then
it succeeds in every host and only writes; or it needs a block of another length, and
then it goes on only where there is such a length and the host grants it. For an
operation that follows a script, this can be read off the start of the script.
-/

import PackedStore.Proofs.Host.Scripts

namespace PackedStore

variable {Buffer σ α β : Type} [Host Buffer]

open Host (Rewrites)

/-! ### Buffers that went through requests -/

/-- The second buffer is the first one after some writes and some requests that were granted. -/
inductive Host.Reworks (buffer : Buffer) : Buffer → Prop where
  | refl : Reworks buffer buffer
  | write {later : Buffer} (reworks : Reworks buffer later) (content : Bytes) :
      Reworks buffer (Host.write later content)
  | resize {later resized : Buffer} {length : Nat} (reworks : Reworks buffer later)
      (granted : Host.resize later length = .ok resized) : Reworks buffer resized

open Host (Reworks)

theorem Host.Rewrites.reworks {buffer later : Buffer} (rewrites : Rewrites buffer later) :
    Reworks buffer later := by
  induction rewrites with
  | refl => exact .refl
  | write _ content inductionHypothesis => exact .write inductionHypothesis content

theorem Host.Reworks.trans {buffer middle later : Buffer} (first : Reworks buffer middle)
    (second : Reworks middle later) : Reworks buffer later := by
  induction second with
  | refl => exact first
  | write _ content inductionHypothesis => exact .write inductionHypothesis content
  | resize _ granted inductionHypothesis => exact .resize inductionHypothesis granted

/-- An operation that follows a script writes and makes the requests of the script. -/
theorem Script.Enacted.reworks {Stands : Site Buffer → σ → Prop} {script : Script σ α}
    {buffer : Buffer} {result : Except Failure α × Site Buffer}
    (enacted : script.Enacted Stands buffer result) : Reworks buffer result.2.buffer := by
  induction enacted with
  | ended rewrites => exact rewrites.reworks
  | refused rewrites => exact rewrites.reworks
  | granted rewrites granted _ inductionHypothesis =>
    exact (Reworks.resize rewrites.reworks granted).trans inductionHypothesis

/-! ### What is needed first -/

/-- What the operation needs of its host before all else. It needs nothing and succeeds, or it needs
a block of some length: there may be no such length, the host may refuse it, or it grants it and the
operation goes on from there. -/
inductive Store.Needs (operation : Store Buffer α) (site : Site Buffer) :
    Option (Checked Nat) → Prop where
  | nothing {answer : α} {later : Site Buffer} (run : operation site = .ok answer later)
      (rewrites : Rewrites site.buffer later.buffer) : Needs operation site none
  | impossible {failure : Failure} {later : Site Buffer}
      (run : operation site = .error failure later)
      (rewrites : Rewrites site.buffer later.buffer) : Needs operation site (some (.error failure))
  | refused {length : Nat} {error : StorageError} {later : Site Buffer}
      (run : operation site = .error (.storage error) later)
      (rewrites : Rewrites site.buffer later.buffer)
      (refused : Host.resize later.buffer length = .error error) :
      Needs operation site (some (.ok length))
  | granted {length : Nat} {asked resized : Buffer} (rewrites : Rewrites site.buffer asked)
      (granted : Host.resize asked length = .ok resized)
      (goesOn : Reworks resized (outcome operation site).2.buffer) :
      Needs operation site (some (.ok length))

namespace Store.Needs

variable {operation : Store Buffer α} {site : Site Buffer} {needed : Option (Checked Nat)}

theorem congr {other : Store Buffer α} (needs : Needs operation site needed)
    (same : other site = operation site) : Needs other site needed := by
  cases needs with
  | nothing run rewrites => exact .nothing (same.trans run) rewrites
  | impossible run rewrites => exact .impossible (same.trans run) rewrites
  | refused run rewrites refused => exact .refused (same.trans run) rewrites refused
  | granted rewrites granted goesOn =>
    refine .granted rewrites granted ?_
    rw [outcome, same, ← outcome]
    exact goesOn

/-- What is done with the answer needs nothing more. -/
theorem map (needs : Needs operation site needed) (change : α → β) :
    Needs (change <$> operation) site needed := by
  cases needs with
  | nothing run rewrites => exact .nothing (by rw [Edit.run_map, run]) rewrites
  | impossible run rewrites => exact .impossible (by rw [Edit.run_map, run]) rewrites
  | refused run rewrites refused => exact .refused (by rw [Edit.run_map, run]) rewrites refused
  | granted rewrites granted goesOn =>
    refine .granted rewrites granted ?_
    rw [outcome_map]
    exact goesOn

end Store.Needs

/-- What an operation that does as the script says needs first. -/
def Script.needed : Script σ α → Option (Checked Nat)
  | ends (.ok _) _ => none
  | ends (.error failure) _ => some (.error failure)
  | asks length _ _ => some (.ok length)

namespace Script

/-- What the first script needs comes first. -/
theorem needed_bind {script : Script σ α} {length : Checked Nat}
    (needed : script.needed = some length) (next : α → σ → Script σ β) :
    (script.bind next).needed = some length := by
  cases script with
  | ends outcome state =>
    cases outcome with
    | ok answer => exact absurd needed (by simp [Script.needed])
    | error failure => exact needed
  | asks => exact needed

/-- What is checked first is part of finding out which length is needed. -/
theorem needed_check {checked : Checked α} {state : σ} {next : α → σ → Script σ β}
    {length : α → Checked Nat} (behind : ∀ answer, (next answer state).needed = some (length answer)) :
    ((Script.ends checked state).bind next).needed = some (checked >>= length) := by
  cases checked with
  | ok answer => exact behind answer
  | error failure => rfl

end Script

/-- An operation needs first what its script needs first. -/
theorem Store.Enacts.needs {Stands : Site Buffer → σ → Prop} {site : Site Buffer}
    {operation : Store Buffer α} {script : Script σ α}
    (enacts : Enacts Stands site operation script) : Needs operation site script.needed := by
  cases run : operation site with
  | ok answer later =>
    rw [Enacts, outcome_ok run] at enacts
    cases enacts with
    | ended rewrites => exact .nothing run rewrites
    | granted rewrites granted enacted =>
      refine .granted rewrites granted ?_
      rw [outcome_ok run]
      exact enacted.reworks
  | error failure later =>
    rw [Enacts, outcome_error run] at enacts
    cases enacts with
    | ended rewrites => exact .impossible run rewrites
    | refused rewrites refused => exact .refused run rewrites refused
    | granted rewrites granted enacted =>
      refine .granted rewrites granted ?_
      rw [outcome_error run]
      exact enacted.reworks

end PackedStore
