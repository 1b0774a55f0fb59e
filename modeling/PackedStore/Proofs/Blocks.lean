/-
This file runs steps in a block and keeps their replies. Every step is asked of the
container that the block holds; then the block holds a container as it should after
every run, whatever the steps were and wherever they failed.
-/

import PackedStore.Proofs.Host.Limits
import PackedStore.Proofs.IndexedMap.Independence
import PackedStore.Proofs.Replies
import PackedStore.Proofs.Sessions

namespace PackedStore

/-! ### Steps with replies -/

/-- A block with the container that has last been created in it, unless that has been disposed
of. -/
structure Block (Buffer : Type) where
  held : Option Container
  site : Site Buffer

theorem Block.eq_of_held {Buffer : Type} {block : Block Buffer} {container : Container}
    (isHeld : block.held = some container) : block = ⟨some container, block.site⟩ := by
  rw [← isHeld]

namespace Step

variable {Buffer : Type} [Host Buffer]

/-- The step with what it replies. -/
def reply : Step → Store Buffer (Option Reply)
  | init container sizing => do
    container.init sizing
    return none
  | call container request => do
    container.attach
    some <$> container.ask request
  | dispose container => do
    container.attach
    container.dispose
    return none

/-- What a step replies, and the block after it. -/
def machine : Machine Step (Block Buffer) (Option Reply) := fun step block =>
  let after := Store.outcome step.reply block.site
  (after.1, ⟨step.held block.held (after.1.map fun _ => ()), after.2⟩)

/-- A step creates a container of types that there can be, or asks something of the container that
the block holds. -/
def Asked (step : Step) (block : Block Buffer) : Prop :=
  match step with
  | init container _ => container.WellFormed
  | call container request => block.held = some container ∧ container.Brings request
  | dispose container => block.held = some container

variable {container : Container} {held : Option Container} {site later : Site Buffer}

theorem machine_init_ok {sizing : Sizing} (run : container.init sizing site = .ok () later) :
    machine (init container sizing) ⟨held, site⟩ = (.ok none, ⟨some container, later⟩) := by
  have replies : reply (init container sizing) site = .ok none later := by
    simp only [reply, Edit.run_bind, run, Edit.run_pure]
  simp only [machine, Store.outcome_ok replies, Except.map, Step.held]

theorem machine_init_error {sizing : Sizing} {failure : Failure}
    (run : container.init sizing site = .error failure later) :
    machine (init container sizing) ⟨held, site⟩ = (.error failure, ⟨held, later⟩) := by
  have replies : reply (init container sizing) site = .error failure later := by
    simp only [reply, Edit.run_bind, run]
  simp only [machine, Store.outcome_error replies, Except.map, held_error]

theorem machine_call (attached : container.attach site = .ok () site)
    (request : container.Request) :
    machine (call container request) ⟨held, site⟩ =
      ((Store.outcome (container.ask request) site).1.map some,
        ⟨held, (Store.outcome (container.ask request) site).2⟩) := by
  have replies : Store.outcome (reply (call container request)) site =
      Store.outcome (some <$> container.ask request) site :=
    Store.outcome_read attached _
  simp only [machine, replies, Store.outcome_map, Step.held]

theorem machine_dispose_ok (attached : container.attach site = .ok () site)
    (run : container.dispose site = .ok () later) :
    machine (dispose container) ⟨held, site⟩ = (.ok none, ⟨none, later⟩) := by
  have replies : reply (dispose container) site = .ok none later := by
    simp only [reply, Edit.run_bind, attached, run, Edit.run_pure]
  simp only [machine, Store.outcome_ok replies, Except.map, Step.held]

theorem machine_dispose_error {failure : Failure} (attached : container.attach site = .ok () site)
    (run : container.dispose site = .error failure later) :
    machine (dispose container) ⟨held, site⟩ = (.error failure, ⟨held, later⟩) := by
  have replies : reply (dispose container) site = .error failure later := by
    simp only [reply, Edit.run_bind, attached, run]
  simp only [machine, Store.outcome_error replies, Except.map, held_error]

theorem held_call (container : Container) (request : container.Request) (block : Block Buffer) :
    (machine (call container request) block).2.held = block.held := by
  simp only [machine, Step.held]

/-- Requests leave the container in the block. -/
theorem held_reached_call (requests : List container.Request) (block : Block Buffer) :
    (Machine.reached machine (requests.map (call container)) block).held = block.held := by
  induction requests generalizing block with
  | nil => rfl
  | cons request rest inductionHypothesis =>
    exact (inductionHypothesis _).trans (held_call container request block)

/-- What is asked after a creation is asked of the new container. -/
theorem always_init (wellFormed : container.WellFormed) {sizing : Sizing}
    (run : container.init sizing site = .ok () later) {steps : List Step}
    (asked : Machine.Always machine Asked steps ⟨some container, later⟩) :
    Machine.Always machine Asked (init container sizing :: steps) ⟨held, site⟩ := by
  refine ⟨wellFormed, ?_⟩
  rw [machine_init_ok run]
  exact asked

/-- Requests to the container that the block holds can be made one after another. -/
theorem always_call {requests : List container.Request}
    (brings : ∀ request ∈ requests, container.Brings request) {block : Block Buffer}
    (isHeld : block.held = some container) :
    Machine.Always machine Asked (requests.map (call container)) block := by
  induction requests generalizing block with
  | nil => trivial
  | cons request rest inductionHypothesis =>
    refine ⟨⟨isHeld, brings request List.mem_cons_self⟩, ?_⟩
    exact inductionHypothesis (fun other member => brings other (List.mem_cons_of_mem _ member))
      ((held_call container request block).trans isHeld)

end Step

/-! ### What a block holds -/

namespace Block

variable {Buffer : Type} [Host Buffer]

/-- The block holds the container that it should. -/
def Stands (block : Block Buffer) : Prop :=
  ∀ container, block.held = some container → container.WellFormed ∧ container.Stands block.site

/-- Every step leads from such a block to such a block. -/
theorem Stands.step [LawfulHost Buffer] {block : Block Buffer} (stands : block.Stands) {step : Step}
    (asked : step.Asked block) : (step.machine block).2.Stands := by
  obtain ⟨held, site⟩ := block
  cases step with
  | init container sizing =>
    cases run : container.init sizing site with
    | ok answer later =>
      rw [Step.machine_init_ok run]
      rintro other ⟨⟩
      exact ⟨asked, .of_init asked run⟩
    | error failure later =>
      rw [Step.machine_init_error run]
      obtain ⟨-, rfl⟩ := container.init_withdraws asked sizing site _ _ run
      exact stands
  | call container request =>
    obtain ⟨same, brings⟩ := asked
    obtain rfl : held = some container := same
    obtain ⟨wellFormed, there⟩ := stands container rfl
    rw [Step.machine_call (there.run_attach wellFormed)]
    rintro other ⟨⟩
    exact ⟨wellFormed, there.ask wellFormed brings⟩
  | dispose container =>
    obtain rfl : held = some container := asked
    obtain ⟨wellFormed, there⟩ := stands container rfl
    cases run : container.dispose site with
    | ok answer later =>
      rw [Step.machine_dispose_ok (there.run_attach wellFormed) run]
      rintro other ⟨⟩
    | error failure later =>
      rw [Step.machine_dispose_error (there.run_attach wellFormed) run]
      obtain ⟨-, rfl⟩ := container.dispose_withdraws site _ _ run
      exact stands

/-- So does every run. -/
theorem Stands.run [LawfulHost Buffer] {block : Block Buffer} (stands : block.Stands)
    {steps : List Step} (asked : Machine.Always Step.machine Step.Asked steps block) :
    (Machine.reached Step.machine steps block).Stands :=
  Machine.reached_of_always (fun _ _ asked stands => stands.step asked) asked stands

end Block

/-! ### A sample run -/

namespace Container

/-- A map of words with two indices is changed and read. -/
def sampleRequests : List (indexedMap (.words 2)).Request :=
  (IndexedMap.shuffled 7 8 5).map IndexedMap.Request.perform ++
    [IndexedMap.Request.entries, IndexedMap.Request.header]

theorem brings_sampleRequests :
    ∀ request ∈ sampleRequests, (indexedMap (.words 2)).Brings request := by
  intro request member
  rcases List.mem_append.mp member with changes | reads
  · obtain ⟨change, isChange, rfl⟩ := List.mem_map.mp changes
    exact IndexedMap.fits_shuffled 7 8 5 change isChange
  · simp only [List.mem_cons, List.not_mem_nil, or_false] at reads
    rcases reads with rfl | rfl <;> trivial

end Container

/-- A map of words is created in an empty block, changed and read. -/
def sampleSteps : List Step :=
  .init (.indexedMap (.words 2)) {} :: Container.sampleRequests.map (Step.call _)

theorem exists_init_sample : ∃ site : Site BlockBuffer,
    (Container.indexedMap (.words 2)).init {} ⟨.empty none, []⟩ = .ok () site :=
  @IndexedMap.run_init_of_granting BlockBuffer _ (.words 2) ⟨.empty none, []⟩ _ _
    BlockBuffer.granting rfl (IndexedMap.Shape.wellFormed_words 2)
    (IndexedMap.Shape.supported_words 2) (by decide) (by decide) rfl {} (by decide) (by decide)

theorem asked_sampleSteps :
    Machine.Always Step.machine Step.Asked sampleSteps ⟨none, ⟨BlockBuffer.empty none, []⟩⟩ := by
  obtain ⟨site, run⟩ := exists_init_sample
  exact Step.always_init (.of_shape (IndexedMap.Shape.wellFormed_words 2)) run
    (Step.always_call Container.brings_sampleRequests rfl)

end PackedStore
