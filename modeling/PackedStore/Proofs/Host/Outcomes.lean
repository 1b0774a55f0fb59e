/-
This file says what it means that an operation in a host performs what is expected
of the state that its site stands for. It answers what is expected and leads to
the state that is expected, fails as expected, or is refused: then what it needs
is more than a container can have, or the host does not grant it, and the state
stays as it was, although the block may have grown.
-/

import PackedStore.Proofs.Host.Runs
import PackedStore.Proofs.Host.Stores
import PackedStore.Proofs.Layout.Refusals

namespace PackedStore.Store

variable {Buffer σ α β : Type} [Host Buffer] {Stands : Site Buffer → σ → Prop}
  {Hinders : Site Buffer → Failure → Prop} {site later : Site Buffer} {state : σ}

/-- The second site stands for a state, and its host grants what the first one's grants. -/
structure Follows (Stands : Site Buffer → σ → Prop) (site later : Site Buffer) (state : σ) :
    Prop where
  continues : site.Continues later
  stands : Stands later state

theorem Follows.refl (stands : Stands site state) : Follows Stands site site state :=
  ⟨Site.Continues.refl site, stands⟩

theorem Follows.after {middle : Site Buffer} (continues : site.Continues middle)
    (follows : Follows Stands middle later state) : Follows Stands site later state :=
  ⟨continues.trans follows.continues, follows.stands⟩

/-- An operation on a site does what is expected of the state, unless it is refused. -/
inductive Performs (Stands : Site Buffer → σ → Prop) (Hinders : Site Buffer → Failure → Prop)
    (site : Site Buffer) (state : σ) (limits : Prop) (operation : Store Buffer α)
    (expected : Checked (α × σ)) : Prop where
  | answered {answer : α} {changed : σ} {later : Site Buffer}
      (run : operation site = .ok answer later) (same : expected = .ok (answer, changed))
      (follows : Follows Stands site later changed)
  | failed {failure : Failure} {later : Site Buffer} (run : operation site = .error failure later)
      (same : expected = .error failure) (follows : Follows Stands site later state)
  | refused {failure : Failure} {later : Site Buffer} (run : operation site = .error failure later)
      (follows : Follows Stands site later state) (storage : failure.IsStorage)
      (cause : ¬ limits ∨ ∃ middle, site.Continues middle ∧ Hinders middle failure)

namespace Performs

variable {limits : Prop} {operation : Store Buffer α} {expected : Checked (α × σ)}

/-- An operation that runs as a checked value changes nothing. -/
theorem of_checked (stands : Stands site state) {checked : Checked α}
    (run : operation site = (liftM checked : Store Buffer α) site) :
    Performs Stands Hinders site state limits operation ((·, state) <$> checked) := by
  cases checked with
  | ok answer => exact .answered run rfl (.refl stands)
  | error failure => exact .failed run rfl (.refl stands)

/-- What is done with the answer of an operation is done with the expected one. -/
theorem map (performs : Performs Stands Hinders site state limits operation expected)
    (change : α → β) :
    Performs Stands Hinders site state limits (change <$> operation)
      (Prod.map change id <$> expected) := by
  cases performs with
  | answered run same follows =>
    exact .answered (by rw [Edit.run_map, run]) (by rw [same]; rfl) follows
  | failed run same follows =>
    exact .failed (by rw [Edit.run_map, run]) (by rw [same]; rfl) follows
  | refused run follows storage cause =>
    exact .refused (by rw [Edit.run_map, run]) follows storage cause

/-- A condition is checked on both sides. -/
theorem guard (stands : Stands site state) {condition : Checked Unit}
    (performs : condition = .ok () →
      Performs Stands Hinders site state limits operation expected) :
    Performs Stands Hinders site state limits
      (do
        liftM condition
        operation) (do
        condition
        expected) := by
  cases condition with
  | error failure => exact .failed rfl rfl (.refl stands)
  | ok =>
    cases performs rfl with
    | answered run same follows => exact .answered run same follows
    | failed run same follows => exact .failed run same follows
    | refused run follows storage cause => exact .refused run follows storage cause

/-- An operation that runs as another one does performs the same. -/
theorem congr {other : Store Buffer α}
    (performs : Performs Stands Hinders site state limits operation expected)
    (same : other site = operation site) :
    Performs Stands Hinders site state limits other expected := by
  cases performs with
  | answered run expects follows => exact .answered (same.trans run) expects follows
  | failed run expects follows => exact .failed (same.trans run) expects follows
  | refused run follows storage cause => exact .refused (same.trans run) follows storage cause

theorem expects {other : Checked (α × σ)}
    (performs : Performs Stands Hinders site state limits operation expected)
    (same : other = expected) :
    Performs Stands Hinders site state limits operation other :=
  same ▸ performs

theorem weaken {narrow : Prop}
    (performs : Performs Stands Hinders site state limits operation expected)
    (within : narrow → limits) :
    Performs Stands Hinders site state narrow operation expected := by
  cases performs with
  | answered run expects follows => exact .answered run expects follows
  | failed run expects follows => exact .failed run expects follows
  | refused run follows storage cause =>
    exact .refused run follows storage
      (cause.imp_left fun beyond narrow => beyond (within narrow))

/-- An operation that answers leads to the expected state; one that fails keeps the old one, and
fails as expected or for want of a resource. -/
theorem settled (performs : Performs Stands Hinders site state limits operation expected) :
    (∃ answer changed, (outcome operation site).1 = .ok answer ∧ expected = .ok (answer, changed) ∧
        Follows Stands site (outcome operation site).2 changed) ∨
      ∃ failure, (outcome operation site).1 = .error failure ∧
        (expected = .error failure ∨ failure.IsStorage) ∧
        Follows Stands site (outcome operation site).2 state := by
  cases performs with
  | answered run same follows =>
    rw [outcome_ok run]
    exact Or.inl ⟨_, _, rfl, same, follows⟩
  | failed run same follows =>
    rw [outcome_error run]
    exact Or.inr ⟨_, rfl, Or.inl same, follows⟩
  | refused run follows storage cause =>
    rw [outcome_error run]
    exact Or.inr ⟨_, rfl, Or.inr storage, follows⟩

/-- In any case the operation leads to a site that stands for a state. -/
theorem follows (performs : Performs Stands Hinders site state limits operation expected) :
    ∃ changed, Follows Stands site (outcome operation site).2 changed ∧
      (changed = state ∨ ∃ answer, expected = .ok (answer, changed)) := by
  rcases performs.settled with ⟨answer, changed, -, same, follows⟩ | ⟨failure, -, -, follows⟩
  · exact ⟨changed, follows, Or.inr ⟨answer, same⟩⟩
  · exact ⟨state, follows, Or.inl rfl⟩

/-- Within its limits, on a host that refuses nothing, an operation does what is expected. -/
theorem agrees (performs : Performs Stands Hinders site state limits operation expected)
    (within : limits)
    (granted : ∀ middle failure, site.Continues middle → ¬ Hinders middle failure) :
    (∃ answer changed, expected = .ok (answer, changed) ∧
        (outcome operation site).1 = .ok answer ∧
        Follows Stands site (outcome operation site).2 changed) ∨
      ∃ failure, expected = .error failure ∧ (outcome operation site).1 = .error failure ∧
        Follows Stands site (outcome operation site).2 state := by
  cases performs with
  | answered run same follows =>
    rw [outcome_ok run]
    exact Or.inl ⟨_, _, same, rfl, follows⟩
  | failed run same follows =>
    rw [outcome_error run]
    exact Or.inr ⟨_, same, rfl, follows⟩
  | refused run follows storage cause =>
    rcases cause with beyond | ⟨middle, continues, hinders⟩
    · exact absurd within beyond
    · exact absurd hinders (granted middle _ continues)

end Performs

/-! ### What failures leave -/

/-- Where the operation fails, its failure and the site that it leaves are as expected. -/
def Leaves (expected : Failure → Site Buffer → Prop) (site : Site Buffer)
    (operation : Store Buffer α) : Prop :=
  ∀ failure later, operation site = .error failure later → expected failure later

namespace Leaves

variable {expected : Failure → Site Buffer → Prop} {answer : α}

omit [Host Buffer] in
theorem of_ok {operation : Store Buffer α} (run : operation site = .ok answer later) :
    Leaves expected site operation :=
  fun _ _ failed => absurd (run.symm.trans failed) (by simp)

omit [Host Buffer] in
theorem of_error {operation : Store Buffer α} {failure : Failure}
    (run : operation site = .error failure later) (isExpected : expected failure later) :
    Leaves expected site operation := by
  intro other changed failed
  obtain ⟨rfl, rfl⟩ := EStateM.Result.error.inj (run.symm.trans failed)
  exact isExpected

omit [Host Buffer] in
/-- One operation after another leaves what the one that fails leaves. -/
theorem bind {operation : Store Buffer α} {next : α → Store Buffer β}
    (leaves : Leaves expected site operation)
    (rest : ∀ answer middle, operation site = .ok answer middle →
      Leaves expected middle (next answer)) : Leaves expected site (operation >>= next) := by
  intro failure later failed
  rw [Edit.run_bind] at failed
  cases run : operation site with
  | ok answer middle =>
    rw [run] at failed
    exact rest answer middle run failure later failed
  | error other middle =>
    rw [run] at failed
    obtain ⟨rfl, rfl⟩ := EStateM.Result.error.inj failed
    exact leaves _ _ run

omit [Host Buffer] in
/-- What is read first changes nothing. -/
theorem read {operation : Store Buffer α} (run : operation site = .ok answer site)
    {next : α → Store Buffer β} (rest : Leaves expected site (next answer)) :
    Leaves expected site (operation >>= next) := by
  refine (of_ok run).bind fun other middle ran => ?_
  obtain ⟨rfl, rfl⟩ := EStateM.Result.ok.inj (run.symm.trans ran)
  exact rest

omit [Host Buffer] in
/-- Checks leave the site as it is. -/
theorem check {checked : Checked α} {next : α → Store Buffer β}
    (refused : ∀ failure, checked = .error failure → expected failure site)
    (rest : ∀ answer, checked = .ok answer → Leaves expected site (next answer)) :
    Leaves expected site (liftM checked >>= next) := by
  cases checked with
  | error failure => exact of_error (by rw [Edit.run_bind, Edit.run_lift_error]) (refused failure rfl)
  | ok answer => exact read (Edit.run_lift_ok answer site) (rest answer rfl)

omit [Host Buffer] in
theorem map {operation : Store Buffer α} (leaves : Leaves expected site operation)
    (change : α → β) : Leaves expected site (change <$> operation) := by
  rw [map_eq_pure_bind]
  exact leaves.bind fun answer middle _ => of_ok (Edit.run_pure (change answer) middle)

omit [Host Buffer] in
/-- An operation that runs as another one does leaves what that one leaves. -/
theorem congr {operation other : Store Buffer α} (leaves : Leaves expected site operation)
    (same : other site = operation site) : Leaves expected site other :=
  fun failure later failed => leaves failure later (same.symm.trans failed)

omit [Host Buffer] in
/-- An operation that runs as a checked value leaves the site as it is. -/
theorem of_checked {operation : Store Buffer α} {checked : Checked α}
    (run : operation site = (liftM checked : Store Buffer α) site) :
    Leaves (fun _ later => later = site) site operation := by
  cases checked with
  | ok answer => exact of_ok run
  | error failure => exact of_error run rfl

omit [Host Buffer] in
theorem weaken {more : Failure → Site Buffer → Prop} {operation : Store Buffer α}
    (leaves : Leaves expected site operation)
    (implies : ∀ failure later, expected failure later → more failure later) :
    Leaves more site operation :=
  fun failure later failed => implies failure later (leaves failure later failed)

/-- Reading from an image leaves the site as it is. -/
theorem view {Image : Type} {format : ImageFormat Image} {read : Image → Checked α} :
    Leaves (fun _ later => later = site) site (Store.view format read) :=
  .read run_bytes <| .check (fun _ _ => rfl) fun image _ => by
    cases result : read image with
    | ok answer => exact .of_ok (Edit.run_lift_ok answer site)
    | error failure => exact .of_error (Edit.run_lift_error failure site) rfl

end Leaves

/-! ### Operations that withdraw -/

/-- Where the operation fails, it fails in an allowed way and leaves the site as it was. -/
def Withdraws (allowed : Failure → Prop) (site : Site Buffer) (operation : Store Buffer α) : Prop :=
  ∀ failure later, operation site = .error failure later → allowed failure ∧ later = site

namespace Withdraws

variable {allowed : Failure → Prop} {answer : α}

omit [Host Buffer] in
theorem of_ok {operation : Store Buffer α} (run : operation site = .ok answer later) :
    Withdraws allowed site operation :=
  Leaves.of_ok run

omit [Host Buffer] in
theorem of_error {operation : Store Buffer α} {failure : Failure}
    (run : operation site = .error failure site) (isAllowed : allowed failure) :
    Withdraws allowed site operation :=
  Leaves.of_error run ⟨isAllowed, rfl⟩

omit [Host Buffer] in
/-- Checks come before anything is changed. -/
theorem check {checked : Checked α} {next : α → Store Buffer β}
    (failsOnly : checked.FailsOnly allowed)
    (rest : ∀ answer, checked = .ok answer → Withdraws allowed site (next answer)) :
    Withdraws allowed site (liftM checked >>= next) :=
  Leaves.check (fun failure failed => ⟨failsOnly failure failed, rfl⟩) rest

omit [Host Buffer] in
/-- What is read first changes nothing. -/
theorem read {operation : Store Buffer α} (run : operation site = .ok answer site)
    {next : α → Store Buffer β} (rest : Withdraws allowed site (next answer)) :
    Withdraws allowed site (operation >>= next) :=
  Leaves.read run rest

omit [Host Buffer] in
theorem map {operation : Store Buffer α} (withdraws : Withdraws allowed site operation)
    (change : α → β) : Withdraws allowed site (change <$> operation) :=
  Leaves.map withdraws change

omit [Host Buffer] in
/-- An operation that runs as another one does withdraws as that one does. -/
theorem congr {operation other : Store Buffer α} (withdraws : Withdraws allowed site operation)
    (same : other site = operation site) : Withdraws allowed site other :=
  Leaves.congr withdraws same

/-- A refused resize changes nothing. -/
theorem of_resize (storage : ∀ failure : Failure, failure.IsStorage → allowed failure)
    (length : Nat) : Withdraws allowed site (Store.resize length) := by
  cases resized : Host.resize site.buffer length with
  | error error => exact of_error (run_resize_error resized) (storage (.storage error) ⟨error, rfl⟩)
  | ok buffer => exact of_ok (run_resize_ok resized)

/-- A refused resize is the last thing that can fail, if all that follows it succeeds. -/
theorem resize (storage : ∀ failure : Failure, failure.IsStorage → allowed failure) {length : Nat}
    {next : Unit → Store Buffer β}
    (rest : ∀ buffer, Host.resize site.buffer length = .ok buffer →
      ∃ answer later, next () (site.withBuffer buffer) = .ok answer later) :
    Withdraws allowed site (Store.resize length >>= next) := by
  cases resized : Host.resize site.buffer length with
  | error error =>
    refine of_error ?_ (storage (.storage error) ⟨error, rfl⟩)
    rw [Edit.run_bind, run_resize_error resized]
  | ok buffer =>
    obtain ⟨answer, later, run⟩ := rest buffer resized
    have ran : (Store.resize length >>= next) site = .ok answer later := by
      rw [Edit.run_bind, run_resize_ok resized]
      exact run
    exact of_ok ran

end Withdraws

/-! ### Safe operations -/

/-- The operation leads from a site to one of which the same holds, and where it fails, its failure
is a documented one. -/
structure Safe (Sound : Site Buffer → Prop) (site : Site Buffer) (operation : Store Buffer α) :
    Prop where
  sound : Sound (outcome operation site).2
  documented : ∀ failure, (outcome operation site).1 = .error failure → failure.Documented

namespace Safe

variable {Sound : Site Buffer → Prop} {answer : α} {failure : Failure}

omit [Host Buffer] in
theorem of_ok {operation : Store Buffer α} (run : operation site = .ok answer later)
    (sound : Sound later) : Safe Sound site operation := by
  refine ⟨by rwa [outcome_ok run], fun failure failed => ?_⟩
  rw [outcome_ok run] at failed
  exact absurd failed (by simp)

omit [Host Buffer] in
theorem of_error {operation : Store Buffer α} (run : operation site = .error failure later)
    (documented : failure.Documented) (sound : Sound later) : Safe Sound site operation := by
  refine ⟨by rwa [outcome_error run], fun other failed => ?_⟩
  rw [outcome_error run] at failed
  exact Except.error.inj failed ▸ documented

omit [Host Buffer] in
theorem congr {operation other : Store Buffer α} (safe : Safe Sound site operation)
    (same : other site = operation site) : Safe Sound site other := by
  have outcomes : outcome other site = outcome operation site := by rw [outcome, same, outcome]
  exact ⟨by rw [outcomes]; exact safe.sound, by rw [outcomes]; exact safe.documented⟩

omit [Host Buffer] in
theorem discard {operation : Store Buffer α} (safe : Safe Sound site operation) :
    Safe Sound site (discard operation : Store Buffer PUnit) := by
  cases run : operation site with
  | ok answer later =>
    have sound := safe.sound
    rw [outcome_ok run] at sound
    exact of_ok (by rw [Edit.run_discard, run]) sound
  | error failure later =>
    have sound := safe.sound
    rw [outcome_error run] at sound
    refine of_error (by rw [Edit.run_discard, run]) (safe.documented failure ?_) sound
    rw [outcome_error run]

omit [Host Buffer] in
/-- What is read first does not matter. -/
theorem after {operation : Store Buffer α} (run : operation site = .ok answer site)
    {next : α → Store Buffer β} (safe : Safe Sound site (next answer)) :
    Safe Sound site (operation >>= next) :=
  safe.congr (by rw [Edit.run_bind, run])

omit [Host Buffer] in
/-- What withdraws in documented ways is safe where success is sound. -/
theorem of_withdraws {operation : Store Buffer α}
    (withdraws : Withdraws Failure.Documented site operation) (here : Sound site)
    (sound : ∀ answer later, operation site = .ok answer later → Sound later) :
    Safe Sound site operation := by
  cases run : operation site with
  | ok answer later => exact of_ok run (sound answer later run)
  | error failure later =>
    obtain ⟨documented, rfl⟩ := withdraws failure later run
    exact of_error run documented here

/-- An operation performs safely if what is expected of it fails in documented ways only. -/
theorem of_performs {limits : Prop} {operation : Store Buffer α} {expected : Checked (α × σ)}
    (performs : Performs Stands Hinders site state limits operation expected)
    (documented : expected.FailsOnly Failure.Documented)
    (sound : ∀ later changed, Stands later changed →
      (changed = state ∨ ∃ answer, expected = .ok (answer, changed)) → Sound later) :
    Safe Sound site operation := by
  obtain ⟨changed, follows, either⟩ := performs.follows
  refine ⟨sound _ changed follows.stands either, fun failure failed => ?_⟩
  rcases performs.settled with ⟨answer, _, answered, -⟩ | ⟨other, failedAs, cause, -⟩
  · exact absurd (answered.symm.trans failed) (by simp)
  · obtain rfl := Except.error.inj (failedAs.symm.trans failed)
    exact cause.elim (documented other) Failure.IsStorage.documented

end Safe

end PackedStore.Store
