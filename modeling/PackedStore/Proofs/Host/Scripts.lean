/-
This file says what an operation does as far as its host can notice. It asks for
blocks of other lengths, one after another, writes in between and ends; a script
says which lengths it asks for, and what the site stands for when a request is
refused and at the end. Scripts depend on what the site stands for only, so hosts
that answer the same requests in the same way see the same operations with the
same answers, whatever they put into the bytes that a resize adds.
-/

import PackedStore.Proofs.Host.Runs
import PackedStore.Proofs.Host.Stores

namespace PackedStore

/-! ### Scripts -/

/-- What an operation does from a state on. It ends with an outcome in a state, or it asks for a
length first; where that is refused, it fails in the state it has come to. -/
inductive Script (σ α : Type) where
  | ends (outcome : Except Failure α) (state : σ)
  | asks (length : Nat) (stays : σ) (rest : Script σ α)

namespace Script

variable {σ α β : Type}

/-- One script after another, unless the first one fails. -/
def bind : Script σ α → (α → σ → Script σ β) → Script σ β
  | ends (.ok answer) state, next => next answer state
  | ends (.error failure) state, _ => ends (.error failure) state
  | asks length stays rest, next => asks length stays (rest.bind next)

/-- How a script ends where all that it asks for is granted. -/
def granted : Script σ α → Except Failure α × σ
  | ends outcome state => (outcome, state)
  | asks _ _ rest => rest.granted

theorem granted_bind {script : Script σ α} {next : α → σ → Script σ β} {answer : α} {state : σ}
    (ends : script.granted = (.ok answer, state)) :
    (script.bind next).granted = (next answer state).granted := by
  induction script with
  | ends outcome state =>
    obtain ⟨rfl, rfl⟩ := Prod.mk.inj ends
    rfl
  | asks length stays rest inductionHypothesis => exact inductionHypothesis ends

theorem granted_bind_error {script : Script σ α} {next : α → σ → Script σ β} {failure : Failure}
    {state : σ} (ends : script.granted = (.error failure, state)) :
    (script.bind next).granted = (.error failure, state) := by
  induction script with
  | ends outcome state =>
    obtain ⟨rfl, rfl⟩ := Prod.mk.inj ends
    rfl
  | asks length stays rest inductionHypothesis => exact inductionHypothesis ends

/-- A script that ends well is one that ends well after another. -/
theorem granted_bind_eq_ok {script : Script σ α} {next : α → σ → Script σ β} {answer : β}
    {later : σ} : (script.bind next).granted = (.ok answer, later) ↔
      ∃ middle state, script.granted = (.ok middle, state) ∧
        (next middle state).granted = (.ok answer, later) := by
  constructor
  · intro ends
    cases first : script.granted with
    | mk outcome state =>
      cases outcome with
      | ok middle =>
        rw [granted_bind first] at ends
        exact ⟨middle, state, rfl, ends⟩
      | error failure =>
        rw [granted_bind_error first] at ends
        exact absurd (congrArg Prod.fst ends) (by simp)
  · rintro ⟨middle, state, first, second⟩
    rw [granted_bind first, second]

end Script

/-- The script of an operation for every state. -/
structure Plan (σ α : Type) where
  run : σ → Script σ α

namespace Plan

variable {σ α β : Type}

instance : Monad (Plan σ) where
  pure answer := ⟨fun state => .ends (.ok answer) state⟩
  bind plan next := ⟨fun state => (plan.run state).bind fun answer => (next answer).run⟩

instance : MonadLift (Except Failure) (Plan σ) where
  monadLift checked := ⟨fun state => .ends checked state⟩

instance : MonadStateOf σ (Plan σ) where
  get := ⟨fun state => .ends (.ok state) state⟩
  set changed := ⟨fun _ => .ends (.ok ⟨⟩) changed⟩
  modifyGet change := ⟨fun state => .ends (.ok (change state).1) (change state).2⟩

/-- Asks for a length. -/
def ask (length : Nat) : Plan σ Unit :=
  ⟨fun state => .asks length state (.ends (.ok ()) state)⟩

/-- Answers from the state. -/
def tell (read : σ → Checked α) : Plan σ α :=
  ⟨fun state => .ends (read state) state⟩

@[simp] theorem run_pure (answer : α) (state : σ) :
    (pure answer : Plan σ α).run state = .ends (.ok answer) state := rfl

@[simp] theorem run_bind (plan : Plan σ α) (next : α → Plan σ β) (state : σ) :
    (plan >>= next).run state = (plan.run state).bind fun answer => (next answer).run := rfl

@[simp] theorem run_map (change : α → β) (plan : Plan σ α) (state : σ) :
    (change <$> plan).run state =
      (plan.run state).bind fun answer changed => .ends (.ok (change answer)) changed := rfl

@[simp] theorem run_lift (checked : Checked α) (state : σ) :
    (liftM checked : Plan σ α).run state = .ends checked state := rfl

@[simp] theorem run_get (state : σ) : (get : Plan σ σ).run state = .ends (.ok state) state := rfl

@[simp] theorem run_set (state changed : σ) :
    (set changed : Plan σ PUnit).run state = .ends (.ok ⟨⟩) changed := rfl

@[simp] theorem run_modify (change : σ → σ) (state : σ) :
    (modify change : Plan σ PUnit).run state = .ends (.ok ⟨⟩) (change state) := rfl

@[simp] theorem run_tell (read : σ → Checked α) (state : σ) :
    (tell read : Plan σ α).run state = .ends (read state) state := rfl

@[simp] theorem run_ask (length : Nat) (state : σ) :
    (ask length : Plan σ Unit).run state = .asks length state (.ends (.ok ()) state) := rfl

end Plan

@[simp] theorem Script.bind_ok {σ α β : Type} (answer : α) (state : σ)
    (next : α → σ → Script σ β) : (Script.ends (.ok answer) state).bind next = next answer state :=
  rfl

@[simp] theorem Script.bind_error {σ α β : Type} (failure : Failure) (state : σ)
    (next : α → σ → Script σ β) :
    (Script.ends (.error failure) state).bind next = .ends (.error failure) state := rfl

@[simp] theorem Script.bind_asks {σ α β : Type} (length : Nat) (stays : σ) (rest : Script σ α)
    (next : α → σ → Script σ β) :
    (Script.asks length stays rest).bind next = .asks length stays (rest.bind next) := rfl

theorem Script.bind_assoc {σ α β γ : Type} (script : Script σ α) (next : α → σ → Script σ β)
    (last : β → σ → Script σ γ) :
    (script.bind next).bind last = script.bind fun answer state => (next answer state).bind last := by
  induction script with
  | ends outcome state => cases outcome <;> rfl
  | asks length stays rest inductionHypothesis =>
    exact congrArg (Script.asks length stays) inductionHypothesis

/-! ### What scripts come to -/

/-- Wherever a script ends, the state it ends in has a property: that of its answer, or another one
where the script fails. -/
def Script.Meets {σ α : Type} (fails : σ → Prop) (answers : α → σ → Prop) : Script σ α → Prop
  | ends (.ok answer) state => answers answer state
  | ends (.error _) state => fails state
  | asks _ stays rest => fails stays ∧ rest.Meets fails answers

namespace Script.Meets

variable {σ α β : Type} {fails : σ → Prop} {answers : α → σ → Prop} {script : Script σ α}

theorem weaken {failsToo : σ → Prop} {answersToo : α → σ → Prop}
    (meets : script.Meets fails answers) (onFailure : ∀ state, fails state → failsToo state)
    (onAnswer : ∀ answer state, answers answer state → answersToo answer state) :
    script.Meets failsToo answersToo := by
  induction script with
  | ends outcome state =>
    cases outcome with
    | ok answer => exact onAnswer answer state meets
    | error failure => exact onFailure state meets
  | asks length stays rest inductionHypothesis =>
    exact ⟨onFailure stays meets.1, inductionHypothesis meets.2⟩

/-- What the first script comes to is where the second one starts. -/
theorem bind {next : α → σ → Script σ β} {last : β → σ → Prop} (meets : script.Meets fails answers)
    (behind : ∀ answer state, answers answer state → (next answer state).Meets fails last) :
    (script.bind next).Meets fails last := by
  induction script with
  | ends outcome state =>
    cases outcome with
    | ok answer => exact behind answer state meets
    | error failure => exact meets
  | asks length stays rest inductionHypothesis => exact ⟨meets.1, inductionHypothesis meets.2⟩

/-- A condition that does not hold is a failure in the state in which it is checked. -/
theorem check {checked : Checked α} {state : σ} {next : α → σ → Script σ β} {last : β → σ → Prop}
    (here : fails state)
    (behind : ∀ answer, checked = .ok answer → (next answer state).Meets fails last) :
    ((Script.ends checked state).bind next).Meets fails last := by
  cases checked with
  | ok answer => exact behind answer rfl
  | error failure => exact here

theorem map {change : α → β} {last : β → σ → Prop}
    (meets : script.Meets fails fun answer => last (change answer)) :
    (script.bind fun answer state => .ends (.ok (change answer)) state).Meets fails last :=
  meets.bind fun _ _ reached => reached

end Script.Meets

theorem Plan.granted_map {σ α β : Type} {plan : Plan σ α} {change : α → β} {state later : σ}
    {answer : β} (ends : ((change <$> plan).run state).granted = (.ok answer, later)) :
    ∃ value, (plan.run state).granted = (.ok value, later) ∧ answer = change value := by
  obtain ⟨value, middle, ran, ends⟩ := Script.granted_bind_eq_ok.mp ends
  obtain ⟨isAnswer, rfl⟩ := Prod.mk.inj ends
  exact ⟨value, ran, (Except.ok.inj isAnswer).symm⟩

theorem Plan.granted_check {σ α β : Type} {checked : Checked α} {next : α → Plan σ β}
    {state later : σ} {answer : β}
    (ends : (((liftM checked : Plan σ α) >>= next).run state).granted = (.ok answer, later)) :
    ∃ value, checked = .ok value ∧ ((next value).run state).granted = (.ok answer, later) := by
  obtain ⟨value, middle, ran, ends⟩ := Script.granted_bind_eq_ok.mp ends
  obtain ⟨isValue, rfl⟩ := Prod.mk.inj ran
  exact ⟨value, isValue, ends⟩

/-! ### Operations that only write -/

variable {Buffer σ α β : Type} [Host Buffer]

/-- The second buffer is the first one after some writes. -/
inductive Host.Rewrites (buffer : Buffer) : Buffer → Prop where
  | refl : Rewrites buffer buffer
  | write {later : Buffer} (rewrites : Rewrites buffer later) (content : Bytes) :
      Rewrites buffer (Host.write later content)

open Host (Rewrites)

theorem Host.Rewrites.trans {buffer middle later : Buffer} (first : Rewrites buffer middle)
    (second : Rewrites middle later) : Rewrites buffer later := by
  induction second with
  | refl => exact first
  | write _ content inductionHypothesis => exact .write inductionHypothesis content

namespace Store

variable {site later : Site Buffer}

omit [Host Buffer] in
theorem outcome_bind (operation : Store Buffer α) (next : α → Store Buffer β)
    (site : Site Buffer) :
    outcome (operation >>= next) site =
      match outcome operation site with
      | (.ok answer, later) => outcome (next answer) later
      | (.error failure, later) => (.error failure, later) := by
  simp only [outcome, Edit.run_bind]
  cases operation site <;> rfl

/-- Whatever comes of the operation, it asks for no other length. -/
def Quiet (operation : Store Buffer α) : Prop :=
  ∀ site, Rewrites site.buffer (outcome operation site).2.buffer

namespace Quiet

theorem pure (answer : α) : Quiet (pure answer : Store Buffer α) :=
  fun _ => .refl

theorem lift (checked : Checked α) : Quiet (liftM checked : Store Buffer α) := by
  cases checked <;> exact fun _ => .refl

theorem bytes : Quiet (bytes : Store Buffer Bytes) :=
  fun _ => .refl

theorem write (content : Bytes) : Quiet (write content : Store Buffer Unit) :=
  fun _ => .write .refl content

theorem report (event : Event) : Quiet (report event : Store Buffer Unit) :=
  fun _ => .refl

theorem bind {operation : Store Buffer α} {next : α → Store Buffer β} (quiet : Quiet operation)
    (rest : ∀ answer, Quiet (next answer)) : Quiet (operation >>= next) := by
  intro site
  have first := quiet site
  rw [outcome_bind]
  cases ran : outcome operation site with
  | mk outcome later =>
    rw [ran] at first
    cases outcome with
    | ok answer => exact first.trans (rest answer later)
    | error failure => exact first

theorem check {checked : Checked α} {next : α → Store Buffer β}
    (rest : ∀ answer, Quiet (next answer)) : Quiet (liftM checked >>= next) :=
  (Quiet.lift checked).bind rest

theorem edit {Image : Type} (format : ImageFormat Image) (change : Edit Image α) :
    Quiet (edit format change : Store Buffer α) := by
  refine bytes.bind fun content => .check fun image => ?_
  cases change image with
  | ok answer changed => exact (write _).bind fun _ => .pure answer
  | error failure changed => exact (write _).bind fun _ _ => .refl

theorem writeAt (offset : Nat) (content : Bytes) :
    Quiet (writeAt offset content : Store Buffer Unit) :=
  bytes.bind fun _ => .check fun _ => .write _

theorem forM {Member : Type} {action : Member → Store Buffer PUnit}
    (each : ∀ member, Quiet (action member)) (members : List Member) :
    Quiet (members.forM action) := by
  induction members with
  | nil => exact .pure _
  | cons member rest inductionHypothesis =>
    rw [List.forM_eq_forM, List.forM_cons]
    exact (each member).bind fun _ => inductionHypothesis

end Quiet

/-! ### Operations that only read -/

omit [Host Buffer] in
theorem outcome_map (change : α → β) (operation : Store Buffer α) (site : Site Buffer) :
    outcome (change <$> operation) site =
      ((outcome operation site).1.map change, (outcome operation site).2) := by
  simp only [outcome, Edit.run_map]
  cases operation site <;> rfl

omit [Host Buffer] in
theorem outcome_discard (operation : Store Buffer α) (site : Site Buffer) :
    outcome (discard operation : Store Buffer PUnit) site =
      ((outcome operation site).1.map fun _ => ⟨⟩, (outcome operation site).2) := by
  simp only [outcome, Edit.run_discard]
  cases operation site <;> rfl

omit [Host Buffer] in
/-- What is read first plays no part in what an operation leads to. -/
theorem outcome_read {operation : Store Buffer α} {answer : α}
    (run : operation site = .ok answer site) (next : α → Store Buffer β) :
    outcome (operation >>= next) site = outcome (next answer) site := by
  rw [outcome_bind, outcome_ok run]

/-- Whatever comes of the operation, the site stays as it is. -/
def Reads (operation : Store Buffer α) : Prop :=
  ∀ site, (outcome operation site).2 = site

namespace Reads

omit [Host Buffer] in
theorem pure (answer : α) : Reads (pure answer : Store Buffer α) :=
  fun _ => rfl

omit [Host Buffer] in
theorem lift (checked : Checked α) : Reads (liftM checked : Store Buffer α) := by
  cases checked <;> exact fun _ => rfl

theorem bytes : Reads (bytes : Store Buffer Bytes) :=
  fun _ => rfl

omit [Host Buffer] in
theorem bind {operation : Store Buffer α} {next : α → Store Buffer β} (reads : Reads operation)
    (rest : ∀ answer, Reads (next answer)) : Reads (operation >>= next) := by
  intro site
  have first := reads site
  rw [outcome_bind]
  cases ran : outcome operation site with
  | mk outcome later =>
    obtain rfl : later = site := by rwa [ran] at first
    cases outcome with
    | ok answer => exact rest answer later
    | error failure => rfl

omit [Host Buffer] in
theorem map {operation : Store Buffer α} (reads : Reads operation) (change : α → β) :
    Reads (change <$> operation) :=
  fun site => (congrArg Prod.snd (outcome_map change operation site)).trans (reads site)

omit [Host Buffer] in
theorem run_eq {operation : Store Buffer α} (reads : Reads operation) {answer : α}
    (answers : (outcome operation site).1 = .ok answer) : operation site = .ok answer site := by
  have run := run_of_outcome_ok answers
  rw [reads site] at run
  exact run

theorem view {Image : Type} (format : ImageFormat Image) (read : Image → Checked α) :
    Reads (view format read : Store Buffer α) :=
  bytes.bind fun _ => (lift _).bind fun _ => lift _

end Reads

/-! ### Operations that ask once -/

/-- Where the operation succeeds, the host has granted a length first, and after that the operation
has only written. -/
def Asks (length : Nat) (operation : Store Buffer α) : Prop :=
  ∀ site answer later, operation site = .ok answer later →
    ∃ resized, Host.resize site.buffer length = .ok resized ∧ Rewrites resized later.buffer

namespace Asks

variable {length : Nat}

theorem bind {operation : Store Buffer α} {next : α → Store Buffer β}
    (asks : Asks length operation) (rest : ∀ answer, Quiet (next answer)) :
    Asks length (operation >>= next) := by
  intro site answer later run
  obtain ⟨middle, between, first, second⟩ := Edit.bind_eq_ok.mp run
  obtain ⟨resized, granted, rewrites⟩ := asks site middle between first
  have behind := rest middle between
  rw [outcome_ok second] at behind
  exact ⟨resized, granted, rewrites.trans behind⟩

theorem resize (length : Nat) : Asks length (resize length : Store Buffer Unit) := by
  intro site answer later run
  obtain ⟨buffer, granted, rfl⟩ := resize_eq_ok.mp run
  exact ⟨buffer, granted, .refl⟩

omit [Host Buffer] in
/-- What is saved before the block is resized changes nothing. -/
theorem saves_eq_ok {content : Bytes} {moves : List (Segment × Segment)}
    {saved : List (Bytes × Segment)}
    (run : (moves.mapM fun move => do
      return (← move.1.slice content, move.2) : Store Buffer (List (Bytes × Segment))) site =
      .ok saved later) : later = site := by
  induction moves generalizing saved site with
  | nil => exact (EStateM.Result.ok.inj run).2.symm
  | cons move rest inductionHypothesis =>
    rw [List.mapM_cons] at run
    obtain ⟨first, between, runFirst, runRest⟩ := Edit.bind_eq_ok.mp run
    obtain ⟨others, last, runOthers, runPure⟩ := Edit.bind_eq_ok.mp runRest
    obtain ⟨slice, -, runSlice⟩ := Edit.lift_bind_eq_ok.mp runFirst
    obtain rfl := (EStateM.Result.ok.inj runPure).2
    obtain rfl := (EStateM.Result.ok.inj runSlice).2
    exact inductionHypothesis runOthers

theorem relocate (moves : List (Segment × Segment)) (length : Nat) :
    Asks length (relocate moves length : Store Buffer Unit) := by
  intro site answer later run
  obtain ⟨content, _, first, run⟩ := Edit.bind_eq_ok.mp run
  obtain ⟨rfl, rfl⟩ := EStateM.Result.ok.inj (run_bytes.symm.trans first)
  obtain ⟨saved, between, saves, runRest⟩ := Edit.bind_eq_ok.mp run
  obtain rfl := saves_eq_ok saves
  refine (resize length).bind (fun _ => ?_) _ _ _ runRest
  exact .forM (fun entry => .check fun _ => .writeAt _ _) saved

end Asks

end Store

/-! ### Scripts in a host -/

/-- What came of an operation that started with a buffer is what a script says. -/
inductive Script.Enacted (Stands : Site Buffer → σ → Prop) :
    Script σ α → Buffer → Except Failure α × Site Buffer → Prop where
  | ended {buffer : Buffer} {outcome : Except Failure α} {later : Site Buffer} {state : σ}
      (rewrites : Rewrites buffer later.buffer) (stands : Stands later state) :
      Enacted Stands (.ends outcome state) buffer (outcome, later)
  | refused {buffer : Buffer} {length : Nat} {stays : σ} {rest : Script σ α}
      {error : StorageError} {later : Site Buffer} (rewrites : Rewrites buffer later.buffer)
      (refused : Host.resize later.buffer length = .error error) (stands : Stands later stays) :
      Enacted Stands (.asks length stays rest) buffer (.error (.storage error), later)
  | granted {buffer asked resized : Buffer} {length : Nat} {stays : σ} {rest : Script σ α}
      {result : Except Failure α × Site Buffer} (rewrites : Rewrites buffer asked)
      (granted : Host.resize asked length = .ok resized)
      (enacted : Enacted Stands rest resized result) :
      Enacted Stands (.asks length stays rest) buffer result

namespace Script.Enacted

variable {Stands : Site Buffer → σ → Prop} {script : Script σ α} {buffer : Buffer}
  {result : Except Failure α × Site Buffer}

/-- Writes may come first. -/
theorem after {earlier : Buffer} (rewrites : Rewrites earlier buffer)
    (enacted : script.Enacted Stands buffer result) : script.Enacted Stands earlier result := by
  cases enacted with
  | ended behind stands => exact .ended (rewrites.trans behind) stands
  | refused behind refused stands => exact .refused (rewrites.trans behind) refused stands
  | granted behind granted enacted => exact .granted (rewrites.trans behind) granted enacted

/-- Where the operation has answered, all that it asked for was granted. -/
theorem answered {answer : α} {later : Site Buffer}
    (enacted : script.Enacted Stands buffer (.ok answer, later)) :
    ∃ state, script.granted = (.ok answer, state) ∧ Stands later state := by
  induction script generalizing buffer with
  | ends outcome state =>
    cases enacted with
    | ended _ stands => exact ⟨state, rfl, stands⟩
  | asks length stays rest inductionHypothesis =>
    cases enacted with
    | granted _ _ enacted => exact inductionHypothesis enacted

/-- What the script comes to is what the site stands for afterwards. -/
theorem meets {fails : σ → Prop} {answers : α → σ → Prop}
    (enacted : script.Enacted Stands buffer result) (meets : script.Meets fails answers) :
    ∃ state, Stands result.2 state ∧ (Script.ends result.1 state).Meets fails answers := by
  induction enacted with
  | ended _ stands => exact ⟨_, stands, meets⟩
  | refused _ _ stands => exact ⟨_, stands, meets.1⟩
  | granted _ _ _ inductionHypothesis => exact inductionHypothesis meets.2

/-- What the script comes to in any case is true of the state afterwards. -/
theorem keeps {property : σ → Prop} (enacted : script.Enacted Stands buffer result)
    (meets : script.Meets property fun _ => property) :
    ∃ state, Stands result.2 state ∧ property state := by
  obtain ⟨state, stands, has⟩ := enacted.meets meets
  refine ⟨state, stands, ?_⟩
  cases ended : result.1 with
  | ok answer =>
    rw [ended] at has
    exact has
  | error failure =>
    rw [ended] at has
    exact has

/-- In any case the site stands for some state afterwards. -/
theorem stands (enacted : script.Enacted Stands buffer result) :
    ∃ state, Stands result.2 state := by
  induction enacted with
  | ended _ stands | refused _ _ stands => exact ⟨_, stands⟩
  | granted _ _ _ inductionHypothesis => exact inductionHypothesis

end Script.Enacted

namespace Store

variable {Stands : Site Buffer → σ → Prop} {site later : Site Buffer} {state : σ} {answer : α}

/-- The operation does at the site what the script says. -/
abbrev Enacts (Stands : Site Buffer → σ → Prop) (site : Site Buffer) (operation : Store Buffer α)
    (script : Script σ α) : Prop :=
  script.Enacted Stands site.buffer (outcome operation site)

namespace Enacts

variable {operation : Store Buffer α} {script : Script σ α}

/-- Where the operation has answered, all that the script asks for was granted. -/
theorem answered (enacts : Enacts Stands site operation script)
    (run : operation site = .ok answer later) :
    ∃ state, script.granted = (.ok answer, state) ∧ Stands later state := by
  rw [Enacts, outcome_ok run] at enacts
  exact Script.Enacted.answered enacts

theorem of_ok (quiet : Quiet operation) (run : operation site = .ok answer later)
    (stands : Stands later state) : Enacts Stands site operation (.ends (.ok answer) state) := by
  have rewrites := quiet site
  rw [outcome_ok run] at rewrites
  rw [Enacts, outcome_ok run]
  exact .ended rewrites stands

/-- An operation that ends with an answer has only written. -/
theorem ended (enacts : Enacts Stands site operation (.ends (.ok answer) state)) :
    ∃ later, operation site = .ok answer later ∧ Rewrites site.buffer later.buffer ∧
      Stands later state := by
  rw [Enacts] at enacts
  cases ran : outcome operation site with
  | mk outcome later =>
    rw [ran] at enacts
    cases enacts with
    | ended rewrites stands =>
      have run := run_of_outcome_ok (congrArg Prod.fst ran)
      rw [ran] at run
      exact ⟨later, run, rewrites, stands⟩

theorem of_error {failure : Failure} (quiet : Quiet operation)
    (run : operation site = .error failure later) (stands : Stands later state) :
    Enacts Stands site operation (.ends (.error failure) state) := by
  have rewrites := quiet site
  rw [outcome_error run] at rewrites
  rw [Enacts, outcome_error run]
  exact .ended rewrites stands

/-- An operation that runs as a checked value changes nothing. -/
theorem of_checked {checked : Checked α}
    (run : operation site = (liftM checked : Store Buffer α) site) (stands : Stands site state) :
    Enacts Stands site operation (.ends checked state) := by
  cases checked with
  | ok answer =>
    rw [Enacts, outcome_ok run]
    exact .ended .refl stands
  | error failure =>
    rw [Enacts, outcome_error run]
    exact .ended .refl stands

theorem of_read (run : operation site = .ok answer site) (stands : Stands site state) :
    Enacts Stands site operation (.ends (.ok answer) state) :=
  of_checked run stands

theorem congr {other : Store Buffer α} (enacts : Enacts Stands site operation script)
    (same : other site = operation site) : Enacts Stands site other script := by
  have outcomes : outcome other site = outcome operation site := by rw [outcome, same, outcome]
  rw [Enacts, outcomes]
  exact enacts

/-- One operation after another does what one script after another says. -/
theorem bind {next : α → Store Buffer β} {rest : α → σ → Script σ β}
    (enacts : Enacts Stands site operation script)
    (behind : ∀ answer state later, script.granted = (.ok answer, state) → Stands later state →
      Enacts Stands later (next answer) (rest answer state)) :
    Enacts Stands site (operation >>= next) (script.bind rest) := by
  rw [Enacts, outcome_bind]
  rw [Enacts] at enacts
  generalize outcome operation site = result, site.buffer = buffer at enacts ⊢
  induction enacts with
  | @ended buffer outcome later state rewrites stands =>
    cases outcome with
    | ok answer => exact (behind answer state later rfl stands).after rewrites
    | error failure => exact .ended rewrites stands
  | refused rewrites refused stands => exact .refused rewrites refused stands
  | granted rewrites granted _ inductionHypothesis =>
    exact .granted rewrites granted (inductionHypothesis behind)

/-- What is read first is not in the script. -/
theorem read {next : α → Store Buffer β} {rest : Script σ β}
    (run : operation site = .ok answer site) (enacts : Enacts Stands site (next answer) rest) :
    Enacts Stands site (operation >>= next) rest :=
  enacts.congr (by rw [Edit.run_bind, run])

/-- What is checked in vain is not in the script. -/
theorem passed {checked : Checked α} {next : α → Store Buffer β} {rest : Script σ β}
    (passes : checked = .ok answer) (enacts : Enacts Stands site (next answer) rest) :
    Enacts Stands site (liftM checked >>= next) rest := by
  rw [passes]
  exact .read (Edit.run_lift_ok answer site) enacts

/-- A condition is checked in the script as well. -/
theorem check {checked : Checked α} {next : α → Store Buffer β} {rest : α → σ → Script σ β}
    (stands : Stands site state)
    (behind : ∀ answer, checked = .ok answer →
      Enacts Stands site (next answer) (rest answer state)) :
    Enacts Stands site (liftM checked >>= next) ((Script.ends checked state).bind rest) := by
  cases checked with
  | ok answer => exact .read (Edit.run_lift_ok answer site) (behind answer rfl)
  | error failure =>
    have fails : (liftM (.error failure : Checked α) >>= next : Store Buffer β) site =
        (liftM (.error failure : Checked β) : Store Buffer β) site := by
      rw [Edit.run_bind, Edit.run_lift_error, Edit.run_lift_error]
    exact .of_checked fails stands

theorem map (enacts : Enacts Stands site operation script) (change : α → β) :
    Enacts Stands site (change <$> operation)
      (script.bind fun answer state => .ends (.ok (change answer)) state) := by
  rw [map_eq_pure_bind]
  exact enacts.bind fun answer state later _ stands => .of_read rfl stands

/-- An operation that asks for a length first goes on when that is granted, and leaves the site as
it was otherwise. -/
theorem of_asks {length : Nat} {changed : σ} (asks : Asks length operation)
    (stands : Stands site state)
    (refused : ∀ error, Host.resize site.buffer length = .error error →
      operation site = .error (.storage error) site)
    (granted : ∀ resized, Host.resize site.buffer length = .ok resized →
      ∃ later, operation site = .ok answer later ∧ Stands later changed) :
    Enacts Stands site operation (.asks length state (.ends (.ok answer) changed)) := by
  cases asked : Host.resize site.buffer length with
  | error error =>
    rw [Enacts, outcome_error (refused error asked)]
    exact .refused .refl asked stands
  | ok buffer =>
    obtain ⟨later, run, standsLater⟩ := granted buffer asked
    obtain ⟨resized, again, rewrites⟩ := asks site answer later run
    obtain rfl := Except.ok.inj (asked.symm.trans again)
    rw [Enacts, outcome_ok run]
    exact .granted .refl asked (.ended rewrites standsLater)

end Enacts

/-- The site stands for the state, or its block is empty if there is none. -/
def Contains (Stands : Site Buffer → σ → Prop) (site : Site Buffer) : Option σ → Prop
  | none => site.bytes.size = 0
  | some state => Stands site state

end Store

/-! ### Hosts in concert -/

/-- Buffers that answer the same requests in the same way, now and after the same requests. What is
written does not matter for that. -/
structure Concerted {Left Right : Type} [Host Left] [Host Right] (agrees : Left → Right → Prop) :
    Prop where
  writeLeft : ∀ left right content, agrees left right → agrees (Host.write left content) right
  writeRight : ∀ left right content, agrees left right → agrees left (Host.write right content)
  granted : ∀ left right length resized, agrees left right →
    Host.resize left length = .ok resized →
    ∃ other, Host.resize right length = .ok other ∧ agrees resized other
  refused : ∀ left right length error, agrees left right →
    Host.resize left length = .error error → Host.resize right length = .error error

namespace Concerted

variable {Left Right : Type} [Host Left] [Host Right] {agrees : Left → Right → Prop}
  (concerted : Concerted agrees) {left leftLater : Left} {right rightLater : Right}

include concerted

theorem rewrites (agree : agrees left right) (onLeft : Rewrites left leftLater)
    (onRight : Rewrites right rightLater) : agrees leftLater rightLater := by
  induction onLeft with
  | refl =>
    induction onRight with
    | refl => exact agree
    | write _ content inductionHypothesis => exact concerted.writeRight _ _ content inductionHypothesis
  | write _ content inductionHypothesis => exact concerted.writeLeft _ _ content inductionHypothesis

/-- Two operations that follow one script in concerted hosts have the same outcome, and the sites
stand for the same state afterwards. -/
theorem enacted {OnLeft : Site Left → σ → Prop} {OnRight : Site Right → σ → Prop}
    {script : Script σ α} {leftResult : Except Failure α × Site Left}
    {rightResult : Except Failure α × Site Right} (agree : agrees left right)
    (first : script.Enacted OnLeft left leftResult)
    (second : script.Enacted OnRight right rightResult) :
    leftResult.1 = rightResult.1 ∧ agrees leftResult.2.buffer rightResult.2.buffer ∧
      ∃ state, OnLeft leftResult.2 state ∧ OnRight rightResult.2 state := by
  induction first generalizing right with
  | ended onLeft stands =>
    cases second with
    | ended onRight other => exact ⟨rfl, concerted.rewrites agree onLeft onRight, _, stands, other⟩
  | refused onLeft refused stands =>
    cases second with
    | refused onRight refusedToo other =>
      have same := concerted.rewrites agree onLeft onRight
      have error := concerted.refused _ _ _ _ same refused
      obtain rfl := Except.error.inj (error.symm.trans refusedToo)
      exact ⟨rfl, same, _, stands, other⟩
    | granted onRight granted _ =>
      have error := concerted.refused _ _ _ _ (concerted.rewrites agree onLeft onRight) refused
      exact absurd (error.symm.trans granted) (by simp)
  | granted onLeft granted _ inductionHypothesis =>
    cases second with
    | refused onRight refused _ =>
      obtain ⟨other, grantedToo, -⟩ :=
        concerted.granted _ _ _ _ (concerted.rewrites agree onLeft onRight) granted
      exact absurd (refused.symm.trans grantedToo) (by simp)
    | granted onRight grantedOther rest =>
      obtain ⟨other, grantedToo, agreeLater⟩ :=
        concerted.granted _ _ _ _ (concerted.rewrites agree onLeft onRight) granted
      obtain rfl := Except.ok.inj (grantedToo.symm.trans grantedOther)
      exact inductionHypothesis agreeLater rest

end Concerted

end PackedStore
