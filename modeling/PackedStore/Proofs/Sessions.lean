/-
This file follows a block through its life. Containers are created in it, asked for
anything through handles attached anew for every step, and disposed of; steps that
fail are steps as well. Whatever has happened, the container that was created last
is still there: it can be attached to and taken apart, and where a step fails, the
caller broke a documented rule or a resource ran out.
-/

import PackedStore.Proofs.Containers

namespace PackedStore

/-- A step in the life of a block. -/
inductive Step where
  | init (container : Container) (sizing : Sizing)
  | call (container : Container) (request : container.Request)
  | dispose (container : Container)

namespace Step

variable {Buffer : Type} [Host Buffer]

/-- A container is attached to anew for every step. -/
def run : Step → Store Buffer Unit
  | init container sizing => container.init sizing
  | call container request => do
    container.attach
    container.answer request
  | dispose container => do
    container.attach
    container.dispose

/-- The container that the block holds after a step, from the one before. A step that fails leaves
it in place. -/
def held (step : Step) (before : Option Container) (outcome : Except Failure Unit) :
    Option Container :=
  match step, outcome with
  | init container _, .ok () => some container
  | dispose _, .ok () => none
  | _, _ => before

/-- Everything but creation is asked of the container that the block holds. -/
def Admitted (known : ElementType → Prop) (before : Option Container) (site : Site Buffer) :
    Step → Prop
  | init container _ => container.WellFormed
  | call container request => before = some container ∧ container.Fits known site request
  | dispose container => before = some container

end Step

variable {Buffer : Type} [Host Buffer] {known : ElementType → Prop} {held : Option Container}
  {site : Site Buffer}

/-- What a block can have gone through, with the container that it holds. -/
inductive Session (known : ElementType → Prop) : Option Container → Site Buffer → Prop where
  | start (site : Site Buffer) : Session known none site
  | step {held : Option Container} {site : Site Buffer} (step : Step)
      (admitted : step.Admitted known held site) (session : Session known held site) :
      Session known (step.held held (Store.outcome step.run site).1)
        (Store.outcome step.run site).2

/-- The site holds the container that it should. -/
def Settled (known : ElementType → Prop) (held : Option Container) (site : Site Buffer) : Prop :=
  ∀ container, held = some container → container.WellFormed ∧ container.Sound known site

/-- The step leads to a settled site, and where it fails, its failure is a documented one. -/
structure Step.Keeps (known : ElementType → Prop) (held : Option Container) (site : Site Buffer)
    (step : Step) : Prop where
  settled : Settled known (step.held held (Store.outcome step.run site).1)
    (Store.outcome step.run site).2
  documented : ∀ failure, (Store.outcome step.run site).1 = .error failure → failure.Documented

@[simp] theorem Step.held_error (step : Step) (before : Option Container) (failure : Failure) :
    step.held before (.error failure) = before := by
  cases step <;> rfl

namespace Settled

/-- A step that withdraws where it fails has to be looked at only where it succeeds. -/
theorem keeps_of_withdraws (settled : Settled known held site) {step : Step}
    (withdraws : Store.Withdraws Failure.Documented site step.run)
    (done : ∀ later, step.run site = .ok () later → Settled known (step.held held (.ok ())) later) :
    step.Keeps known held site := by
  cases run : step.run site with
  | ok answer later =>
    refine ⟨?_, fun failure failed => ?_⟩
    · rw [Store.outcome_ok run]
      exact done later run
    · rw [Store.outcome_ok run] at failed
      exact absurd failed (by simp)
  | error failure later =>
    obtain ⟨documented, rfl⟩ := withdraws failure later run
    refine ⟨?_, fun other failed => ?_⟩
    · rw [Store.outcome_error run, Step.held_error]
      exact settled
    · rw [Store.outcome_error run] at failed
      exact Except.error.inj failed ▸ documented

variable [LawfulHost Buffer]

theorem init (settled : Settled known held site) {container : Container}
    (wellFormed : container.WellFormed) (sizing : Sizing) :
    (Step.init container sizing).Keeps known held site := by
  refine settled.keeps_of_withdraws (container.init_withdraws wellFormed sizing site)
    fun later run other same => ?_
  obtain rfl := Option.some.inj same
  exact ⟨wellFormed, Container.sound_of_init wellFormed run⟩

theorem call {container : Container} (settled : Settled known (some container) site)
    (types : AlignedTypes known) {request : container.Request}
    (fits : container.Fits known site request) :
    (Step.call container request).Keeps known (some container) site := by
  obtain ⟨wellFormed, sound⟩ := settled container rfl
  have safe : Store.Safe (container.Sound known ·) site (Step.call container request).run :=
    .after (sound.run_attach wellFormed) (sound.safe types wellFormed fits)
  refine ⟨fun other same => ?_, safe.documented⟩
  obtain rfl := Option.some.inj same
  exact ⟨wellFormed, safe.sound⟩

omit [LawfulHost Buffer] in
theorem dispose {container : Container} (settled : Settled known (some container) site) :
    (Step.dispose container).Keeps known (some container) site := by
  obtain ⟨wellFormed, sound⟩ := settled container rfl
  exact settled.keeps_of_withdraws
    (.read (sound.run_attach wellFormed) (container.dispose_withdraws site))
    fun later _ other same => absurd same (by simp [Step.held])

/-- Every step leads from a settled site to a settled site. -/
theorem step (types : AlignedTypes known) (settled : Settled known held site) {step : Step}
    (admitted : step.Admitted known held site) : step.Keeps known held site := by
  cases step with
  | init container sizing => exact settled.init admitted sizing
  | call container request =>
    obtain ⟨rfl, fits⟩ := admitted
    exact settled.call types fits
  | dispose container =>
    obtain rfl := admitted
    exact settled.dispose

end Settled

/-- Every site of a session holds the container that it should. -/
theorem Session.settled [LawfulHost Buffer] (types : AlignedTypes known)
    (session : Session known held site) : Settled known held site := by
  induction session with
  | start site => exact fun container same => absurd same (by simp)
  | step step admitted _ inductionHypothesis => exact (inductionHypothesis.step types admitted).settled

/-- Whatever a block has gone through, the container that it holds can be attached to and taken
apart, and whatever bytes stand in the block in the middle of a step, the parts found there do not
overlap and have the right places and lengths. The next step, whatever it is, fails only where a
documented rule is broken or a resource runs out: no index is out of range, no number overflows, no
value is misaligned and no invariant is found broken. Types that share a tag and a size are aligned
alike, and keys and rows that are to be inserted take bytes in all their parts. -/
theorem Session.unbroken [LawfulHost Buffer] (types : AlignedTypes known)
    (session : Session known held site) :
    (∀ container, held = some container →
        container.attach site = .ok () site ∧ container.Intact site.bytes ∧
          ∀ bytes taken, container.parts bytes = .ok taken → Segment.Carved bytes taken) ∧
      ∀ step : Step, step.Admitted known held site → ∀ failure later,
        step.run site = .error failure later → failure.Documented := by
  have settled := session.settled types
  refine ⟨fun container same => ?_, fun step admitted failure later failed => ?_⟩
  · obtain ⟨wellFormed, sound⟩ := settled container same
    exact ⟨sound.run_attach wellFormed, sound.intact wellFormed, fun _ _ isParts =>
      Container.carved_parts wellFormed isParts⟩
  · refine (settled.step types admitted).documented failure ?_
    rw [Store.outcome_error failed]

open UntypedMap (keyOf wideDatum) in
/-- A map is created and takes a wide value. A value without bytes is refused, and the map is still
there. -/
theorem wide_unbroken :
    ∃ site : Site BlockBuffer, (Container.map wordKey).init {} ⟨.empty none, []⟩ = .ok () site ∧
      ∃ later, later = (Store.outcome (Step.call (.map wordKey)
          (.perform (.add (keyOf 7) (wideDatum 1)))).run site).2 ∧
        (Container.map wordKey).attach later = .ok () later ∧
        (Container.map wordKey).Intact later.bytes ∧
        ∃ failure, (Step.call (.map wordKey)
            (.perform (.addBytes (keyOf 8) ⟨0⟩ #[]))).run later = .error failure later ∧
          failure.Documented := by
  obtain ⟨site, run⟩ := @UntypedMap.run_init_of_granting BlockBuffer _ wordKey ⟨.empty none, []⟩ _ _
    BlockBuffer.granting rfl ElementType.wellFormed_word32 (by decide) (by decide) rfl {}
    (by decide) (by decide) (by decide)
  have wellFormed : (Container.map wordKey).WellFormed := .of_key ElementType.wellFormed_word32
  have created := Session.step (.init (.map wordKey) {}) wellFormed
    (@Session.start BlockBuffer _ UntypedMap.WordOrWide ⟨.empty none, []⟩)
  rw [show Store.outcome (Step.init (.map wordKey) {}).run ⟨.empty none, []⟩ = (.ok (), site) from
    Store.outcome_ok run] at created
  have added := Session.step (.call (.map wordKey) (.perform (.add (keyOf 7) (wideDatum 1))))
    ⟨rfl, Or.inl ⟨UntypedMap.fits_keyOf rfl 7, Or.inr rfl⟩⟩ created
  obtain ⟨intact, documented⟩ := added.unbroken UntypedMap.family_wordOrWide.aligned
  obtain ⟨attached, whole, -⟩ := intact (.map wordKey) rfl
  have refused : (Step.call (.map wordKey) (.perform (.addBytes (keyOf 8) ⟨0⟩ #[]))).run _ =
      .error (.misuse .emptyValue) _ :=
    (Edit.run_bind _ _ _).trans (by rw [attached]; rfl)
  refine ⟨site, run, _, rfl, attached, whole, _, refused, ?_⟩
  exact documented (.call (.map wordKey) (.perform (.addBytes (keyOf 8) ⟨0⟩ #[])))
    ⟨rfl, Or.inl (UntypedMap.fits_keyOf rfl 8)⟩ _ _ refused

open IndexedMap (Row Shape) in
/-- An indexed map for rows without values has been created. The first row that it is to take ends in
a fault, for which there is no rule that the caller broke. -/
theorem valueless_row_breaks :
    ∃ site later : Site BlockBuffer,
      Session UntypedMap.WordOrWide (some (.indexedMap Shape.valueless)) site ∧
      Row.valueless.Typed Shape.valueless ∧
      (Step.call (.indexedMap Shape.valueless) (.perform (.single (.add Row.valueless)))).run site =
        .error (.fault .outOfRange) later ∧
      ¬ (Failure.fault .outOfRange).Documented := by
  obtain ⟨site, later, run, fails⟩ := IndexedMap.run_add_valueless
  have wellFormed : (Container.indexedMap Shape.valueless).WellFormed :=
    .of_shape Shape.wellFormed_valueless
  have created := Session.step (.init (.indexedMap Shape.valueless) {}) wellFormed
    (@Session.start BlockBuffer _ UntypedMap.WordOrWide ⟨.empty none, []⟩)
  rw [show Store.outcome (Step.init (.indexedMap Shape.valueless) {}).run ⟨.empty none, []⟩ =
    (.ok (), site) from Store.outcome_ok run] at created
  have settled := created.settled UntypedMap.family_wordOrWide.aligned
  have attached := (settled _ rfl).2.run_attach wellFormed
  refine ⟨site, later, created, Row.typed_valueless, ?_, id⟩
  simp only [Step.run, Edit.run_bind, attached, Container.answer, IndexedMap.Request.run,
    IndexedMap.Change.run, IndexedMap.Operation.run, Edit.run_discard, fails]

end PackedStore
