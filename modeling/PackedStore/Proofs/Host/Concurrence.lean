/-
This file compares operations in two hosts. They concur when they have the same
outcome and leave the sites related; operations that are put together from parts that
concur do so as well. Where the hosts are in concert, that comes down to two questions:
what an operation writes, when it asks for no other length, and what it does with the
length that both hosts grant.
-/

import PackedStore.Proofs.Host.Scripts

namespace PackedStore.Store

variable {Left Right α β : Type} {Related Weak : Site Left → Site Right → Prop}
  {one : Site Left} {other : Site Right}

/-- The operations have the same outcome at the two sites, and the sites are related afterwards. -/
structure Concurs (Related : Site Left → Site Right → Prop) (first : Store Left α)
    (second : Store Right α) (one : Site Left) (other : Site Right) : Prop where
  outcome_eq : (outcome first one).1 = (outcome second other).1
  related : Related (outcome first one).2 (outcome second other).2

namespace Concurs

variable {first : Store Left α} {second : Store Right α}

theorem of_ok {answer : α} {later : Site Left} {laterOther : Site Right}
    (run : first one = .ok answer later) (runOther : second other = .ok answer laterOther)
    (related : Related later laterOther) : Concurs Related first second one other := by
  constructor
  · rw [outcome_ok run, outcome_ok runOther]
  · rw [outcome_ok run, outcome_ok runOther]
    exact related

theorem of_error {failure : Failure} {later : Site Left} {laterOther : Site Right}
    (run : first one = .error failure later) (runOther : second other = .error failure laterOther)
    (related : Related later laterOther) : Concurs Related first second one other := by
  constructor
  · rw [outcome_error run, outcome_error runOther]
  · rw [outcome_error run, outcome_error runOther]
    exact related

/-- Operations that run as the same checked value change nothing. -/
theorem of_checked {checked : Checked α} (run : first one = (liftM checked : Store Left α) one)
    (runOther : second other = (liftM checked : Store Right α) other) (related : Related one other) :
    Concurs Related first second one other := by
  cases checked with
  | ok answer => exact .of_ok run runOther related
  | error failure => exact .of_error run runOther related

theorem congr {before : Store Left β} {beforeOther : Store Right β} {later : Site Left}
    {laterOther : Site Right} {rest : Store Left β} {restOther : Store Right β}
    (concurs : Concurs Related rest restOther later laterOther) (same : before one = rest later)
    (sameOther : beforeOther other = restOther laterOther) :
    Concurs Related before beforeOther one other := by
  have outcomes : outcome before one = outcome rest later := by rw [outcome, same, outcome]
  have outcomesOther : outcome beforeOther other = outcome restOther laterOther := by
    rw [outcome, sameOther, outcome]
  exact ⟨by rw [outcomes, outcomesOther, concurs.outcome_eq],
    by rw [outcomes, outcomesOther]; exact concurs.related⟩

theorem weaken (concurs : Concurs Related first second one other)
    (implies : ∀ later laterOther, Related later laterOther → Weak later laterOther) :
    Concurs Weak first second one other :=
  ⟨concurs.outcome_eq, implies _ _ concurs.related⟩

theorem answered (concurs : Concurs Related first second one other) {answer : α}
    {later : Site Left} (run : first one = .ok answer later) :
    ∃ laterOther, second other = .ok answer laterOther ∧ Related later laterOther := by
  obtain ⟨outcome_eq, related⟩ := concurs
  rw [outcome_ok run] at outcome_eq related
  exact ⟨_, run_of_outcome_ok outcome_eq.symm, related⟩

theorem failed (concurs : Concurs Related first second one other) {failure : Failure}
    {later : Site Left} (run : first one = .error failure later) :
    ∃ laterOther, second other = .error failure laterOther ∧ Related later laterOther := by
  obtain ⟨outcome_eq, related⟩ := concurs
  rw [outcome_error run] at outcome_eq related
  exact ⟨_, run_of_outcome_error outcome_eq.symm, related⟩

/-- One operation after another, unless the first one fails in both. -/
theorem chain {Middle : Site Left → Site Right → Prop} {next : α → Store Left β}
    {nextOther : α → Store Right β} (concurs : Concurs Middle first second one other)
    (fails : ∀ later laterOther, Middle later laterOther → Related later laterOther)
    (rest : ∀ answer later laterOther, first one = .ok answer later →
      second other = .ok answer laterOther → Middle later laterOther →
      Concurs Related (next answer) (nextOther answer) later laterOther) :
    Concurs Related (first >>= next) (second >>= nextOther) one other := by
  cases run : first one with
  | ok answer later =>
    obtain ⟨laterOther, runOther, related⟩ := concurs.answered run
    refine (rest answer later laterOther run runOther related).congr ?_ ?_
    · rw [Edit.run_bind, run]
    · rw [Edit.run_bind, runOther]
  | error failure later =>
    obtain ⟨laterOther, runOther, related⟩ := concurs.failed run
    refine @of_error _ _ _ _ _ _ _ _ failure _ _ ?_ ?_ (fails _ _ related)
    · rw [Edit.run_bind, run]
    · rw [Edit.run_bind, runOther]

theorem bind {next : α → Store Left β} {nextOther : α → Store Right β}
    (concurs : Concurs Related first second one other)
    (rest : ∀ answer later laterOther, Related later laterOther →
      Concurs Related (next answer) (nextOther answer) later laterOther) :
    Concurs Related (first >>= next) (second >>= nextOther) one other :=
  concurs.chain (fun _ _ => id) fun answer later laterOther _ _ => rest answer later laterOther

/-- What is read first is the same at both sites. -/
theorem read {answer : α} {next : α → Store Left β} {nextOther : α → Store Right β}
    (run : first one = .ok answer one) (runOther : second other = .ok answer other)
    (rest : Concurs Related (next answer) (nextOther answer) one other) :
    Concurs Related (first >>= next) (second >>= nextOther) one other :=
  rest.congr (by rw [Edit.run_bind, run]) (by rw [Edit.run_bind, runOther])

/-- A condition is checked at both sites. -/
theorem check {checked : Checked α} {next : α → Store Left β} {nextOther : α → Store Right β}
    (related : Related one other)
    (rest : ∀ answer, checked = .ok answer →
      Concurs Related (next answer) (nextOther answer) one other) :
    Concurs Related (liftM checked >>= next) (liftM checked >>= nextOther) one other := by
  cases checked with
  | ok answer => exact .read (Edit.run_lift_ok _ _) (Edit.run_lift_ok _ _) (rest answer rfl)
  | error failure => exact .of_error rfl rfl related

theorem map (concurs : Concurs Related first second one other) (change : α → β) :
    Concurs Related (change <$> first) (change <$> second) one other := by
  rw [map_eq_pure_bind, map_eq_pure_bind]
  exact concurs.bind fun answer later laterOther related => .of_ok rfl rfl related

end Concurs

/-! ### Hosts in concert -/

variable [Host Left] [Host Right] {agrees : Left → Right → Prop}

/-- Images that are read alike are read alike in their blocks. -/
theorem Concurs.view {Image : Type} {format : ImageFormat Image} {image twin : Image}
    {read : Image → Checked α} (loaded : format.load one.bytes = .ok image)
    (loadedOther : format.load other.bytes = .ok twin) (same : read twin = read image)
    (related : Related one other) :
    Concurs Related (view format read) (view format read) one other := by
  refine @of_checked _ _ _ _ _ _ _ _ (read image) ?_ ?_ related
  · simp only [Store.view, Edit.run_bind, run_bytes, loaded, Edit.run_lift_ok]
  · simp only [Store.view, Edit.run_bind, run_bytes, loadedOther, Edit.run_lift_ok, same]

/-- The sites are related, and their buffers answer the same requests in the same way. -/
structure Tuned (agrees : Left → Right → Prop) (Related : Site Left → Site Right → Prop)
    (one : Site Left) (other : Site Right) : Prop where
  buffers : agrees one.buffer other.buffer
  sites : Related one other

namespace Concurs

variable (concerted : Concerted agrees) (agree : agrees one.buffer other.buffer)
  {first : Store Left α} {second : Store Right α}

include concerted agree

/-- Operations that ask for no other length keep the hosts in concert. -/
theorem of_quiet {answer : α} {later : Site Left} {laterOther : Site Right} (quiet : Quiet first)
    (quietOther : Quiet second) (run : first one = .ok answer later)
    (runOther : second other = .ok answer laterOther) (related : Related later laterOther) :
    Concurs (Tuned agrees Related) first second one other := by
  have rewrites := quiet one
  have rewritesOther := quietOther other
  rw [outcome_ok run] at rewrites
  rw [outcome_ok runOther] at rewritesOther
  exact .of_ok run runOther ⟨concerted.rewrites agree rewrites rewritesOther, related⟩

/-- Operations that ask for the same length go on in both hosts or in none. -/
theorem of_asks {length : Nat} (asks : Asks length first) (asksOther : Asks length second)
    (related : Related one other)
    (refused : ∀ error, Host.resize one.buffer length = .error error →
      first one = .error (.storage error) one)
    (refusedOther : ∀ error, Host.resize other.buffer length = .error error →
      second other = .error (.storage error) other)
    (granted : ∀ resized resizedOther, Host.resize one.buffer length = .ok resized →
      Host.resize other.buffer length = .ok resizedOther →
      ∃ answer later laterOther, first one = .ok answer later ∧
        second other = .ok answer laterOther ∧ Related later laterOther) :
    Concurs (Tuned agrees Related) first second one other := by
  cases asked : Host.resize one.buffer length with
  | error error =>
    exact .of_error (refused error asked)
      (refusedOther error (concerted.refused _ _ _ _ agree asked)) ⟨agree, related⟩
  | ok buffer =>
    obtain ⟨bufferOther, askedOther, agreeLater⟩ := concerted.granted _ _ _ _ agree asked
    obtain ⟨answer, later, laterOther, run, runOther, relatedLater⟩ := granted _ _ asked askedOther
    obtain ⟨resized, again, rewrites⟩ := asks one answer later run
    obtain ⟨resizedOther, againOther, rewritesOther⟩ := asksOther other answer laterOther runOther
    obtain rfl := Except.ok.inj (asked.symm.trans again)
    obtain rfl := Except.ok.inj (askedOther.symm.trans againOther)
    exact .of_ok run runOther
      ⟨concerted.rewrites agreeLater rewrites rewritesOther, relatedLater⟩

/-- Operations that follow one script concur. -/
theorem of_enacts {σ : Type} {OnLeft : Site Left → σ → Prop} {OnRight : Site Right → σ → Prop}
    {script : Script σ α} (enacts : Enacts OnLeft one first script)
    (enactsOther : Enacts OnRight other second script) :
    Concurs (Tuned agrees fun one other => ∃ state, OnLeft one state ∧ OnRight other state)
      first second one other := by
  obtain ⟨same, agreeLater, states⟩ := concerted.enacted agree enacts enactsOther
  exact ⟨same, agreeLater, states⟩

end Concurs

end PackedStore.Store
