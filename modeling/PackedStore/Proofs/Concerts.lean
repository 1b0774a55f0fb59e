/-
This file runs the same steps in two hosts. The hosts answer the same requests in the
same way, but what they put into the bytes that a resize adds is up to each of them.
Whatever the steps are, they have the same replies in both hosts, and leave blocks of
the same length.
-/

import PackedStore.Proofs.Blocks
import PackedStore.Proofs.IndexedMap.TwinOperations

namespace PackedStore

open Store (Asks Concurs Tuned)

variable {Left Right : Type} [Host Left] [Host Right] {agrees : Left → Right → Prop}
  {one : Site Left} {other : Site Right}

namespace Container

/-! ### Containers in two hosts -/

/-- The sites hold the same container, as far as one can tell by asking. -/
def Twinned : Container → Site Left → Site Right → Prop
  | map key, one, other =>
    ∃ ledger, UntypedMap.Records key one ledger ∧ UntypedMap.Records key other ledger
  | sequence, one, other =>
    ∃ ledger, UntypedSequence.Records one ledger ∧ UntypedSequence.Records other ledger
  | indexedMap shape, one, other => IndexedMap.Twinned shape one other

variable {container : Container}

theorem Twinned.size_eq (twinned : container.Twinned one other) :
    other.bytes.size = one.bytes.size := by
  cases container with
  | map key =>
    obtain ⟨ledger, records, recordsOther⟩ := twinned
    obtain ⟨layout, computed, size⟩ := records.size_eq
    obtain ⟨again, computedAgain, sizeOther⟩ := recordsOther.size_eq
    obtain rfl := Except.ok.inj (computed.symm.trans computedAgain)
    rw [size, sizeOther]
  | sequence =>
    obtain ⟨ledger, records, recordsOther⟩ := twinned
    obtain ⟨layout, computed, size⟩ := records.size_eq
    obtain ⟨again, computedAgain, sizeOther⟩ := recordsOther.size_eq
    obtain rfl := Except.ok.inj (computed.symm.trans computedAgain)
    rw [size, sizeOther]
  | indexedMap shape =>
    obtain ⟨table, twins⟩ := twinned
    exact twins.size_eq

theorem Twinned.stands (twinned : container.Twinned one other) :
    container.Stands one ∧ container.Stands other := by
  cases container with
  | map key =>
    obtain ⟨ledger, records, recordsOther⟩ := twinned
    exact ⟨⟨ledger, records⟩, ledger, recordsOther⟩
  | sequence =>
    obtain ⟨ledger, records, recordsOther⟩ := twinned
    exact ⟨⟨ledger, records⟩, ledger, recordsOther⟩
  | indexedMap shape =>
    obtain ⟨table, image, twin, _, _, holds, holdsOther, -⟩ := twinned
    exact ⟨holds.sound, holdsOther.sound⟩

theorem Twinned.run_attach (wellFormed : container.WellFormed)
    (twinned : container.Twinned one other) :
    container.attach one = .ok () one ∧ container.attach other = .ok () other :=
  ⟨twinned.stands.1.run_attach wellFormed, twinned.stands.2.run_attach wellFormed⟩

/-- A block that is in use is left alone in both hosts. -/
theorem concurs_init_of_used {Related : Site Left → Site Right → Prop} (related : Related one other)
    (size : other.bytes.size = one.bytes.size) (used : one.bytes.size ≠ 0) (sizing : Sizing)
    (container : Container) :
    Concurs Related (container.init sizing) (container.init sizing) one other := by
  have lengthOther : Store.length other = .ok one.bytes.size other := by
    rw [← size]
    exact Store.run_length
  cases container <;> exact .read Store.run_length lengthOther
    (.check related fun _ isEmpty => absurd (demand_eq_ok.mp isEmpty) used)

section

variable [LawfulHost Left] [LawfulHost Right] (wellFormed : container.WellFormed)

include wellFormed

/-- Whatever is asked of a container, it replies the same in both hosts. -/
theorem Twinned.ask (concerted : Concerted agrees) (agree : agrees one.buffer other.buffer)
    (twinned : container.Twinned one other) {request : container.Request}
    (brings : container.Brings request) :
    Concurs (Tuned agrees container.Twinned) (container.ask request) (container.ask request)
      one other := by
  cases container with
  | map key =>
    obtain ⟨ledger, records, recordsOther⟩ := twinned
    exact .of_enacts concerted agree
      ((records.enacts_request wellFormed.key brings).map Reply.map)
      ((recordsOther.enacts_request wellFormed.key brings).map Reply.map)
  | sequence =>
    obtain ⟨ledger, records, recordsOther⟩ := twinned
    exact .of_enacts concerted agree
      ((records.enacts_request brings).map Reply.sequence)
      ((recordsOther.enacts_request brings).map Reply.sequence)
  | indexedMap shape =>
    obtain ⟨table, twins⟩ := twinned
    exact (twins.request wellFormed.shape concerted agree brings).map Reply.indexedMap

/-- Containers that have been created with the same sizing are the same. -/
theorem twinned_of_init {start : Site Left} {startOther : Site Right} {sizing : Sizing}
    (run : container.init sizing start = .ok () one)
    (runOther : container.init sizing startOther = .ok () other) :
    container.Twinned one other := by
  cases container with
  | map key =>
    obtain ⟨capacity, dataCapacity, grown, grownData, records⟩ :=
      UntypedMap.records_of_init wellFormed.key run
    obtain ⟨again, dataAgain, grownAgain, grownDataAgain, recordsOther⟩ :=
      UntypedMap.records_of_init wellFormed.key runOther
    obtain rfl := Except.ok.inj (grown.symm.trans grownAgain)
    obtain rfl := Except.ok.inj (grownData.symm.trans grownDataAgain)
    exact ⟨_, records, recordsOther⟩
  | sequence =>
    obtain ⟨capacity, dataCapacity, grown, grownData, records⟩ :=
      UntypedSequence.records_of_init run
    obtain ⟨again, dataAgain, grownAgain, grownDataAgain, recordsOther⟩ :=
      UntypedSequence.records_of_init runOther
    obtain rfl := Except.ok.inj (grown.symm.trans grownAgain)
    obtain rfl := Except.ok.inj (grownData.symm.trans grownDataAgain)
    exact ⟨_, records, recordsOther⟩
  | indexedMap shape => exact IndexedMap.twinned_of_init wellFormed.shape run runOther

/-- A container is created in both hosts or in none. -/
theorem concurs_init (concerted : Concerted agrees) (agree : agrees one.buffer other.buffer)
    (size : other.bytes.size = one.bytes.size) (sizing : Sizing) :
    Concurs (Tuned agrees fun _ _ => True) (container.init sizing) (container.init sizing)
      one other := by
  by_cases empty : one.bytes.size = 0
  · have emptyOther : other.bytes.size = 0 := size.trans empty
    have forget {Related : Site Left → Site Right → Prop} (later : Site Left)
        (laterOther : Site Right) (tuned : Tuned agrees Related later laterOther) :
        Tuned agrees (fun _ _ => True) later laterOther := ⟨tuned.buffers, trivial⟩
    cases container with
    | map key =>
      exact Concurs.weaken (.of_enacts concerted agree
        (UntypedMap.enacts_init wellFormed.key empty sizing)
        (UntypedMap.enacts_init wellFormed.key emptyOther sizing)) forget
    | sequence =>
      exact Concurs.weaken (.of_enacts concerted agree (UntypedSequence.enacts_init empty sizing)
        (UntypedSequence.enacts_init emptyOther sizing)) forget
    | indexedMap shape => exact IndexedMap.concurs_init wellFormed.shape concerted agree size sizing
  · exact concurs_init_of_used ⟨agree, trivial⟩ size empty sizing container

end

/-- The storage of a container is given back in both hosts or in none. -/
theorem concurs_dispose [LawfulHost Left] [LawfulHost Right] (concerted : Concerted agrees)
    (agree : agrees one.buffer other.buffer) (size : other.bytes.size = one.bytes.size)
    (container : Container) :
    Concurs (Tuned agrees fun one other => other.bytes.size = one.bytes.size) container.dispose
      container.dispose one other := by
  have concurs : Concurs (Tuned agrees fun one other => other.bytes.size = one.bytes.size)
      (Store.resize 0) (Store.resize 0) one other :=
    .of_asks concerted agree (.resize 0) (.resize 0) size
      (fun _ refused => Store.run_resize_error refused)
      (fun _ refused => Store.run_resize_error refused)
      fun _ _ granted grantedOther => ⟨(), _, _, Store.run_resize_ok granted,
        Store.run_resize_ok grantedOther, (LawfulHost.size_resize _ _ _ grantedOther).trans
          (LawfulHost.size_resize _ _ _ granted).symm⟩
  cases container <;> exact concurs

end Container

/-! ### Blocks in two hosts -/

/-- The blocks hold the same container, and their buffers answer the same requests in the same
way. -/
structure Block.Twinned (agrees : Left → Right → Prop) (one : Block Left) (other : Block Right) :
    Prop where
  held_eq : other.held = one.held
  size_eq : other.site.bytes.size = one.site.bytes.size
  buffers : agrees one.site.buffer other.site.buffer
  container : ∀ container, one.held = some container →
    container.WellFormed ∧ container.Twinned one.site other.site

/-- Whatever steps are taken, they have the same replies and failures in both blocks, one by one, and
leave them with the same container and the same length. -/
def Block.Matches (one : Block Left) (other : Block Right) : Prop :=
  ∀ steps, Machine.Always Step.machine Step.Asked steps one →
    Machine.answers Step.machine steps one = Machine.answers Step.machine steps other ∧
      (Machine.reached Step.machine steps one).held =
        (Machine.reached Step.machine steps other).held ∧
      (Machine.reached Step.machine steps one).site.bytes.size =
        (Machine.reached Step.machine steps other).site.bytes.size

/-- The step has the same reply at both blocks and leads to such blocks again. -/
def Step.Agrees (agrees : Left → Right → Prop) (step : Step) (one : Block Left)
    (other : Block Right) : Prop :=
  (step.machine one).1 = (step.machine other).1 ∧
    Block.Twinned agrees (step.machine one).2 (step.machine other).2

namespace Block.Twinned

variable {held : Option Container} {container : Container}

/-- Blocks that have come to hold the same container. -/
theorem of_container (wellFormed : container.WellFormed)
    (tuned : Tuned agrees container.Twinned one other) :
    Twinned agrees ⟨some container, one⟩ ⟨some container, other⟩ where
  held_eq := rfl
  size_eq := tuned.sites.size_eq
  buffers := tuned.buffers
  container _ same := Option.some.inj same ▸ ⟨wellFormed, tuned.sites⟩

section

variable [LawfulHost Left] [LawfulHost Right] (concerted : Concerted agrees)

include concerted

theorem init (twinned : Twinned agrees ⟨held, one⟩ ⟨held, other⟩)
    (wellFormed : container.WellFormed) (sizing : Sizing) :
    (Step.init container sizing).Agrees agrees ⟨held, one⟩ ⟨held, other⟩ := by
  have concurs := Container.concurs_init wellFormed concerted twinned.buffers twinned.size_eq sizing
  cases run : container.init sizing one with
  | ok answer later =>
    obtain ⟨laterOther, runOther, tuned⟩ := concurs.answered run
    rw [Step.Agrees, Step.machine_init_ok run, Step.machine_init_ok runOther]
    have same := Container.twinned_of_init wellFormed run runOther
    exact ⟨rfl, of_container wellFormed ⟨tuned.buffers, same⟩⟩
  | error failure later =>
    obtain ⟨laterOther, runOther, tuned⟩ := concurs.failed run
    rw [Step.Agrees, Step.machine_init_error run, Step.machine_init_error runOther]
    obtain ⟨-, rfl⟩ := container.init_withdraws wellFormed sizing one _ _ run
    obtain ⟨-, rfl⟩ := container.init_withdraws wellFormed sizing other _ _ runOther
    exact ⟨rfl, twinned⟩

theorem call (twinned : Twinned agrees ⟨some container, one⟩ ⟨some container, other⟩)
    {request : container.Request} (brings : container.Brings request) :
    (Step.call container request).Agrees agrees ⟨some container, one⟩
      ⟨some container, other⟩ := by
  obtain ⟨wellFormed, same⟩ := twinned.container container rfl
  obtain ⟨attached, attachedOther⟩ := same.run_attach wellFormed
  have concurs := same.ask wellFormed concerted twinned.buffers brings
  rw [Step.Agrees, Step.machine_call attached, Step.machine_call attachedOther]
  exact ⟨congrArg (Except.map some) concurs.outcome_eq, of_container wellFormed concurs.related⟩

theorem dispose (twinned : Twinned agrees ⟨some container, one⟩ ⟨some container, other⟩) :
    (Step.dispose container).Agrees agrees ⟨some container, one⟩ ⟨some container, other⟩ := by
  obtain ⟨wellFormed, same⟩ := twinned.container container rfl
  obtain ⟨attached, attachedOther⟩ := same.run_attach wellFormed
  have concurs := Container.concurs_dispose concerted twinned.buffers twinned.size_eq container
  cases run : container.dispose one with
  | ok answer later =>
    obtain ⟨laterOther, runOther, tuned⟩ := concurs.answered run
    rw [Step.Agrees, Step.machine_dispose_ok attached run,
      Step.machine_dispose_ok attachedOther runOther]
    exact ⟨rfl, rfl, tuned.sites, tuned.buffers, fun _ same => absurd same (by simp)⟩
  | error failure later =>
    obtain ⟨laterOther, runOther, tuned⟩ := concurs.failed run
    rw [Step.Agrees, Step.machine_dispose_error attached run,
      Step.machine_dispose_error attachedOther runOther]
    obtain ⟨-, rfl⟩ := container.dispose_withdraws one _ _ run
    obtain ⟨-, rfl⟩ := container.dispose_withdraws other _ _ runOther
    exact ⟨rfl, twinned⟩

/-- Every step does the same in blocks that hold the same container. -/
theorem step {first : Block Left} {second : Block Right} (twinned : Twinned agrees first second)
    {step : Step} (asked : step.Asked first) : step.Agrees agrees first second := by
  obtain ⟨held, one⟩ := first
  obtain ⟨heldOther, other⟩ := second
  obtain rfl : heldOther = held := twinned.held_eq
  cases step with
  | init container sizing => exact twinned.init concerted asked sizing
  | call container request =>
    obtain ⟨same, brings⟩ := asked
    obtain rfl : heldOther = some container := same
    exact twinned.call concerted brings
  | dispose container =>
    obtain rfl : heldOther = some container := asked
    exact twinned.dispose concerted

/-- So does every run. -/
theorem run {first : Block Left} {second : Block Right} (twinned : Twinned agrees first second)
    {steps : List Step} (asked : Machine.Always Step.machine Step.Asked steps first) :
    Machine.answers Step.machine steps first = Machine.answers Step.machine steps second ∧
      Twinned agrees (Machine.reached Step.machine steps first)
        (Machine.reached Step.machine steps second) :=
  Machine.answers_eq_of_always (fun _ _ _ asked twinned => twinned.step concerted asked) asked
    twinned

theorem all_match {first : Block Left} {second : Block Right}
    (twinned : Twinned agrees first second) : first.Matches second := by
  intro steps asked
  obtain ⟨same, reached⟩ := twinned.run concerted asked
  exact ⟨same, reached.held_eq.symm, reached.size_eq.symm⟩

end

end Block.Twinned

/-- Whatever happens in an empty block of a host with a limit, the host keeps its limit and would
grant the length that the block has. -/
theorem Limited.grants_reached [LawfulHost Left] {limit : Left → Option Nat}
    (limited : Limited limit) (empty : one.bytes.size = 0) {steps : List Step}
    (asked : Machine.Always Step.machine Step.Asked steps ⟨none, one⟩) :
    limit (Machine.reached Step.machine steps ⟨none, one⟩).site.buffer = limit one.buffer ∧
      Grants (limit one.buffer)
        (Machine.reached Step.machine steps ⟨none, one⟩).site.bytes.size := by
  let shadow : Site BlockBuffer := ⟨.empty (limit one.buffer), []⟩
  have start : Block.Twinned (fun buffer (shadow : BlockBuffer) =>
      (limit buffer = limit one.buffer ∧ shadow.limit = limit one.buffer) ∧
        Grants (limit one.buffer) shadow.length) ⟨none, one⟩ ⟨none, shadow⟩ :=
    ⟨rfl, empty.symm, ⟨⟨rfl, rfl⟩, grants_zero _⟩, fun container same => absurd same (by simp)⟩
  have reached := (start.run (limited.concerted_granted _) asked).2
  obtain ⟨⟨same, -⟩, within⟩ := reached.buffers
  rw [← BlockBuffer.size_bytes] at within
  exact ⟨same, reached.size_eq ▸ within⟩

/-- In the end the map is in the block. -/
theorem reached_sampleSteps : ∃ site : Site BlockBuffer,
    Machine.reached Step.machine sampleSteps ⟨none, ⟨.empty none, []⟩⟩ =
      ⟨some (.indexedMap (.words 2)), site⟩ := by
  obtain ⟨site, run⟩ := exists_init_sample
  refine ⟨_, Block.eq_of_held ?_⟩
  rw [sampleSteps, Machine.reached, Step.machine_init_ok run]
  exact Step.held_reached_call _ _

/-! ### Unspecified bytes -/

/-- Bytes that no one has specified are never observed: in hosts that answer the same requests in
the same way, whatever they put into the bytes that they add, blocks of the same length match in
whatever is done in them. -/
theorem Concerted.unspecified_unobserved [LawfulHost Left] [LawfulHost Right]
    (concerted : Concerted agrees) (agree : agrees one.buffer other.buffer)
    (size : other.bytes.size = one.bytes.size) : Block.Matches ⟨none, one⟩ ⟨none, other⟩ := by
  have start : Block.Twinned agrees ⟨none, one⟩ ⟨none, other⟩ :=
    ⟨rfl, size, agree, fun container same => absurd same (by simp)⟩
  exact start.all_match concerted

/-- A buffer that adds bytes of ones is not told from one that adds bytes of zeros. -/
theorem filled_unobserved :
    Machine.answers Step.machine sampleSteps ⟨none, ⟨BlockBuffer.empty none, []⟩⟩ =
      Machine.answers Step.machine sampleSteps ⟨none, ⟨FilledBuffer.empty 255 none, []⟩⟩ := by
  have concerted := BlockBuffer.limited.concerted FilledBuffer.limited none
  exact (concerted.unspecified_unobserved ⟨rfl, rfl⟩ rfl sampleSteps asked_sampleSteps).1

end PackedStore
