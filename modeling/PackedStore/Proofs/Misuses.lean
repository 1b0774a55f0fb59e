/-
This file states what is left of a block when a caller breaks a rule: all of it.
Every rule is checked before a container grows and before it writes, so a call that
breaks one leaves the block as long as it was and with the bytes that it had. The
only failures that leave a trace are those of insertions for which an arena cannot
grow, and they are no misuse.
-/

import PackedStore.Proofs.Replies
import PackedStore.Proofs.Sessions
import PackedStore.Proofs.Sparing

namespace PackedStore

variable {Buffer : Type} [Host Buffer] {known : ElementType → Prop} {held : Option Container}
  {site later : Site Buffer} {failure : Failure}

/-- A resource ran out, or the block is as it was. -/
def Unharmed (site : Site Buffer) (failure : Failure) (later : Site Buffer) : Prop :=
  failure.IsStorage ∨ later.bytes = site.bytes

theorem Unharmed.of_same (failure : Failure) (later : Site Buffer) (same : later = site) :
    Unharmed site failure later :=
  Or.inr (congrArg Site.bytes same)

theorem Unharmed.of_withdraws {allowed : Failure → Prop} {operation : Store Buffer Unit}
    (withdraws : Store.Withdraws allowed site operation) :
    Store.Leaves (Unharmed site) site operation :=
  fun failure later failed => of_same failure later (withdraws failure later failed).2

/-! ### Requests to the containers -/

namespace UntypedMap

variable {key : KeyType} {ledger : Ledger}

theorem Remains.unharmed {operation : Operation}
    (remains : Remains key operation site failure later) : Unharmed site failure later :=
  remains.symm.imp_left fun ⟨_, _, half⟩ => half.storage

theorem Records.leaves_request [LawfulHost Buffer] (wellFormed : key.toElementType.WellFormed)
    (records : Records key site ledger) (types : ∀ type, known type → type.WellFormed)
    {request : Request} (fits : request.Fits (OrOverAligned known) key) :
    Store.Leaves (Unharmed site) site (request.run key) := by
  obtain ⟨image, order, holds, -, -⟩ := id records
  cases request with
  | perform operation =>
    rcases fits with fits | unaligned
    · exact ((records.leaves wellFormed types fits).weaken fun _ _ => Remains.unharmed).map _
    · obtain ⟨type, run⟩ := @Operation.OverAligned.run_eq _ _ key site operation unaligned
      exact (Store.Leaves.of_error run (Unharmed.of_same _ _ rfl)).map _
  | header => exact (Store.Leaves.of_ok holds.run_header).map _
  | listing keyText =>
    obtain ⟨text, run⟩ := holds.run_listing keyText
    exact (Store.Leaves.of_ok run).map _

end UntypedMap

namespace UntypedSequence

variable {image : Image} {elements : List Datum}

theorem Remains.unharmed {operation : Operation}
    (remains : Remains operation site failure later) : Unharmed site failure later :=
  remains.symm.imp_left fun ⟨_, half⟩ => half.storage

theorem Operation.Fits.aligned_or_overAligned (types : ∀ type, known type → type.WellFormed)
    {operation : Operation} (fits : operation.Fits (OrOverAligned known)) :
    operation.Aligned ∨ operation.OverAligned := by
  cases operation with
  | add datum => exact fits.imp_left fun isKnown => (types _ isKnown).align_eq
  | _ => exact Or.inl trivial

theorem Holds.leaves_request [LawfulHost Buffer] (holds : Holds site image elements)
    (types : ∀ type, known type → type.WellFormed) {request : Request}
    (fits : request.Fits (OrOverAligned known)) :
    Store.Leaves (Unharmed site) site request.run := by
  cases request with
  | perform operation =>
    have aligned := fits.elim (Operation.Fits.aligned_or_overAligned types) Or.inr
    exact ((holds.leaves aligned).weaken fun _ _ => Remains.unharmed).map _
  | header => exact (Store.Leaves.of_ok holds.run_header).map _
  | listing tagText =>
    obtain ⟨text, run⟩ := holds.run_listing tagText
    exact (Store.Leaves.of_ok run).map _

end UntypedSequence

namespace IndexedMap

variable {shape : Shape} {image : Image} {table : SlotTable} {orders : Nat → Nat → List Nat}

namespace Holds

variable [LawfulHost Buffer] (wellFormed : shape.WellFormed)
  (holds : Holds shape site image table orders)

include wellFormed holds

/-- A single operation that fails is refused by the table, which then stays as it is, or refused a
larger block. -/
theorem operation_withdraws {operation : Operation} (fits : operation.Fits shape) :
    Store.Withdraws Failure.Documented site (operation.run shape) := by
  have answered {answer : Answer} (same : (SlotTable.step operation table).1 = .ok answer) :
      Store.Withdraws Failure.Documented site (operation.run shape) := by
    intro failure later failed
    rcases holds.agrees wellFormed fits with ⟨other, outcome, cannotGrow⟩ | ⟨other, outcome, -⟩
    · rw [Store.outcome_error failed] at outcome
      obtain ⟨isFailure, rfl⟩ := Prod.mk.inj outcome
      exact ⟨Except.error.inj isFailure ▸ cannotGrow.documented, rfl⟩
    · rw [Store.outcome_error failed] at outcome
      exact absurd ((Prod.mk.inj outcome).1.trans same) (by simp)
  cases operation with
  | tryAdd row => exact (holds.tryAdd_withdraws wellFormed fits).map _
  | add row => exact (holds.add_withdraws wellFormed fits).map _
  | setCapacity capacity => exact (holds.setCapacity_withdraws wellFormed capacity).map _
  | remove key | exchange key value =>
    cases found : table.find key <;> exact answered (by rw [SlotTable.step, found])
  | _ => exact answered rfl

/-- Every request that fails leaves the site as it was. -/
theorem request_withdraws {request : Request} (fits : request.Fits shape site) :
    Store.Withdraws Failure.Documented site (request.run shape) := by
  cases request with
  | perform change =>
    cases change with
    | single operation => exact (holds.operation_withdraws wellFormed fits).map _
    | flatten => exact holds.flatten_withdraws wellFormed
    | removeRange start count =>
      rcases holds.run_removeRange wellFormed start count with
        ⟨misuse, refused, documented, -⟩ | ⟨later, run, -⟩
      · exact .of_error refused documented
      · exact .of_ok run
  | header => exact (Store.Withdraws.of_ok holds.run_header).map _
  | entryAt slot => exact (Store.Withdraws.of_ok (holds.run_entryAt slot)).map _
  | entriesFor position index =>
    exact (Store.Withdraws.of_ok
      (holds.run_entriesFor (List.getElem?_eq_getElem fits) index)).map _
  | entries => exact (Store.Withdraws.of_ok holds.run_entries).map _
  | first position index =>
    rcases holds.run_first (List.getElem?_eq_getElem fits) index with run | ⟨_, _, -, -, run⟩
    · exact (Store.Withdraws.of_ok run).map _
    · exact (Store.Withdraws.of_ok run).map _
  | next position cursor =>
    rcases holds.run_next (List.getElem?_eq_getElem fits.1) (fits.2.live holds) with
      run | ⟨_, _, -, -, run⟩
    · exact (Store.Withdraws.of_ok run).map _
    · exact (Store.Withdraws.of_ok run).map _
  | listing text =>
    obtain ⟨listed, run⟩ := holds.run_listing text
    exact (Store.Withdraws.of_ok run).map _

end Holds

end IndexedMap

/-! ### Containers -/

namespace Container

variable {container : Container}

/-- A request that breaks a rule leaves the block as it was. -/
theorem Stands.leaves [LawfulHost Buffer] (types : ∀ type, known type → type.WellFormed)
    (wellFormed : container.WellFormed) (stands : container.Stands site)
    {request : container.Request} (fits : container.Fits (OrOverAligned known) site request) :
    Store.Leaves (Unharmed site) site (container.answer request) := by
  cases container with
  | map key =>
    obtain ⟨ledger, records⟩ := stands
    exact records.leaves_request wellFormed.key types fits
  | sequence =>
    obtain ⟨ledger, image, holds, -⟩ := stands
    exact holds.leaves_request types fits
  | indexedMap shape =>
    obtain ⟨image, table, orders, holds⟩ := stands
    exact .of_withdraws (holds.request_withdraws wellFormed.shape fits)

/-- A request leads to the same site whether its reply is kept or not. -/
theorem site_answer (container : Container) (request : container.Request)
    (site : Site Buffer) :
    (Store.outcome (container.answer request) site).2 =
      (Store.outcome (container.ask request) site).2 := by
  cases container with
  | map key =>
    cases request <;>
      simp only [answer, ask, UntypedMap.Request.run, UntypedMap.Request.ask, Store.outcome_discard,
        Store.outcome_map]
  | sequence =>
    cases request <;>
      simp only [answer, ask, UntypedSequence.Request.run, UntypedSequence.Request.ask,
        Store.outcome_discard, Store.outcome_map]
  | indexedMap shape =>
    cases request with
    | perform change =>
      simp only [answer, ask, IndexedMap.Request.run, IndexedMap.Request.ask, Store.outcome_map,
        IndexedMap.Change.outcome_ask]
    | _ =>
      simp only [answer, ask, IndexedMap.Request.run, IndexedMap.Request.ask,
        Store.outcome_discard, Store.outcome_map]

/-- Whatever is asked of a container, it is there afterwards, however its types are tagged. -/
theorem Stands.answer [LawfulHost Buffer] (types : ∀ type, known type → type.WellFormed)
    (wellFormed : container.WellFormed) (stands : container.Stands site)
    {request : container.Request} (fits : container.Fits known site request) :
    container.Stands (Store.outcome (container.answer request) site).2 := by
  have asked (brings : container.Brings request) :
      container.Stands (Store.outcome (container.answer request) site).2 := by
    rw [site_answer]
    exact stands.ask wellFormed brings
  cases container with
  | map key =>
    cases request with
    | perform operation =>
      refine fits.elim (fun fits => asked (fits.weaken types)) fun unaligned => ?_
      obtain ⟨type, run⟩ := @UntypedMap.Operation.OverAligned.run_eq _ _ key site _ unaligned
      rw [Container.answer, UntypedMap.Request.run, Store.outcome_discard, Store.outcome_error run]
      exact stands
    | _ => exact asked trivial
  | sequence =>
    cases request with
    | perform operation =>
      refine fits.elim (fun fits => asked (fits.weaken types)) fun unaligned => ?_
      obtain ⟨type, run⟩ := @UntypedSequence.Operation.OverAligned.run_eq _ _ site _ unaligned
      rw [Container.answer, UntypedSequence.Request.run, Store.outcome_discard,
        Store.outcome_error run]
      exact stands
    | _ => exact asked trivial
  | indexedMap shape =>
    refine asked ?_
    cases request with
    | perform change => exact fits
    | next position cursor => exact fits.1
    | entriesFor position index | first position index => exact fits
    | _ => trivial

/-- A block that is rejected when it is attached to has only been read. -/
theorem leaves_attach (container : Container) (site : Site Buffer) :
    Store.Leaves (fun _ later => later = site) site container.attach := by
  cases container with
  | map key =>
    exact .read Store.run_bytes <| .check (fun _ _ => rfl) fun _ _ =>
      .check (fun _ _ => rfl) fun _ _ => .check (fun _ _ => rfl) fun _ _ =>
      .check (fun _ _ => rfl) fun _ _ => .check (fun _ _ => rfl) fun _ _ => .of_checked rfl
  | sequence =>
    exact .read Store.run_bytes <| .check (fun _ _ => rfl) fun _ _ =>
      .check (fun _ _ => rfl) fun _ _ => .check (fun _ _ => rfl) fun _ _ =>
      .check (fun _ _ => rfl) fun _ _ => .of_checked rfl
  | indexedMap shape =>
    exact .read Store.run_bytes <| .check (fun _ _ => rfl) fun _ _ =>
      .check (fun _ _ => rfl) fun _ _ => .check (fun _ _ => rfl) fun _ _ =>
      .check (fun _ _ => rfl) fun _ _ => .check (fun _ _ => rfl) fun _ _ => .of_checked rfl

end Container

/-! ### Sessions -/

/-- The site holds the container that it should. -/
theorem Session.stands [LawfulHost Buffer] (types : ∀ type, known type → type.WellFormed)
    (session : Session known held site) :
    ∀ container, held = some container → container.WellFormed ∧ container.Stands site := by
  induction session with
  | start site => exact fun container same => absurd same (by simp)
  | @step held site step admitted _ inductionHypothesis =>
    cases step with
    | init container sizing =>
      cases run : container.init sizing site with
      | ok answer later =>
        rw [show Store.outcome (Step.init container sizing).run site = (.ok (), later) from
          Store.outcome_ok run]
        rintro other ⟨⟩
        exact ⟨admitted, .of_init admitted run⟩
      | error failure later =>
        obtain ⟨-, rfl⟩ := container.init_withdraws admitted sizing site _ _ run
        rw [show Store.outcome (Step.init container sizing).run later = (.error failure, later) from
          Store.outcome_error run]
        exact inductionHypothesis
    | call container request =>
      obtain ⟨rfl, fits⟩ := admitted
      obtain ⟨wellFormed, stands⟩ := inductionHypothesis container rfl
      rintro other ⟨⟩
      rw [Step.run, Store.outcome_read (stands.run_attach wellFormed)]
      exact ⟨wellFormed, stands.answer types wellFormed fits⟩
    | dispose container =>
      obtain rfl := admitted
      obtain ⟨wellFormed, stands⟩ := inductionHypothesis container rfl
      cases run : container.dispose site with
      | ok answer later =>
        rw [Step.run, Store.outcome_read (stands.run_attach wellFormed), Store.outcome_ok run]
        rintro other ⟨⟩
      | error failure later =>
        obtain ⟨-, rfl⟩ := container.dispose_withdraws site _ _ run
        rw [Step.run, Store.outcome_read (stands.run_attach wellFormed), Store.outcome_error run]
        exact inductionHypothesis

/-- A step that breaks a rule leaves the block as it was. -/
theorem Session.leaves [LawfulHost Buffer] (types : ∀ type, known type → type.WellFormed)
    (session : Session known held site) {step : Step}
    (admitted : step.Admitted (OrOverAligned known) held site) :
    Store.Leaves (Unharmed site) site step.run := by
  cases step with
  | init container sizing =>
    exact .of_withdraws (container.init_withdraws admitted sizing site)
  | call container request =>
    obtain ⟨rfl, fits⟩ := admitted
    obtain ⟨wellFormed, stands⟩ := session.stands types container rfl
    exact .read (stands.run_attach wellFormed) (stands.leaves types wellFormed fits)
  | dispose container =>
    obtain rfl := admitted
    obtain ⟨wellFormed, stands⟩ := session.stands types container rfl
    exact .read (stands.run_attach wellFormed) (.of_withdraws (container.dispose_withdraws site))

/-- Whatever a block has gone through, a step that breaks a rule leaves it as long as it was and
with all its bytes, and so does attaching to any block as a container that it does not hold. -/
theorem Session.misuse_harmless [LawfulHost Buffer] (types : ∀ type, known type → type.WellFormed)
    (session : Session known held site) :
    (∀ step : Step, step.Admitted (OrOverAligned known) held site → ∀ rule later,
        step.run site = .error (.misuse rule) later → later.bytes = site.bytes) ∧
      ∀ (container : Container) (block : Site Buffer) failure later,
        container.attach block = .error failure later → later.bytes = block.bytes := by
  constructor
  · intro step admitted rule later failed
    rcases session.leaves types admitted _ later failed with ⟨_, storage⟩ | same
    · exact absurd storage (by simp)
    · exact same
  · intro container block failure later failed
    exact congrArg Site.bytes (container.leaves_attach block failure later failed)

section

open UntypedMap (keyOf wideDatum)
open UntypedSequence (wordDatum)

/-- A block with a map of one word. -/
def singleWord : Site BlockBuffer :=
  (Store.machine Step.run).reached
    [.init (.map wordKey) { capacity := 1, minGrowth := 1 },
      .call (.map wordKey) (.perform (.add (keyOf 7) (wordDatum 1)))] ⟨.empty none, []⟩

/-- The word is not overwritten by a wide value, and the map is not attached to as a sequence. -/
theorem mismatch_harmless :
    Session UntypedMap.WordOrWide (some (.map wordKey)) singleWord ∧
      (∃ later, (Step.call (.map wordKey) (.perform (.exchange (keyOf 7) (wideDatum 2)))).run
            singleWord = .error (.misuse (.typeMismatch (.slot 0) ElementType.word32.tag 4
              DataType.wide.element)) later ∧
          later.bytes = singleWord.bytes) ∧
        ∃ later, Container.sequence.attach singleWord =
            .error (.misuse (.otherContent .untypedSequence)) later ∧
          later.bytes = singleWord.bytes := by
  have wellFormed : (Container.map wordKey).WellFormed := .of_key ElementType.wellFormed_word32
  have created := Session.step (.init (.map wordKey) { capacity := 1, minGrowth := 1 }) wellFormed
    (@Session.start BlockBuffer _ UntypedMap.WordOrWide ⟨.empty none, []⟩)
  have run : (Store.outcome (Step.init (.map wordKey) { capacity := 1, minGrowth := 1 }).run
      (⟨.empty none, []⟩ : Site BlockBuffer)).1 = .ok () := by decide +kernel
  rw [run] at created
  have session : Session UntypedMap.WordOrWide (some (.map wordKey)) singleWord :=
    .step (.call (.map wordKey) (.perform (.add (keyOf 7) (wordDatum 1))))
      ⟨rfl, Or.inl ⟨UntypedMap.fits_keyOf rfl 7, Or.inl rfl⟩⟩ created
  obtain ⟨misuse, rejected⟩ := session.misuse_harmless UntypedMap.family_wordOrWide.wellFormed
  have failed : (Step.call (.map wordKey) (.perform (.exchange (keyOf 7) (wideDatum 2)))).run
      singleWord = .error (.misuse (.typeMismatch (.slot 0) ElementType.word32.tag 4
        DataType.wide.element)) _ := Store.run_of_outcome_error (by decide +kernel)
  have other : Container.sequence.attach singleWord =
      .error (.misuse (.otherContent .untypedSequence)) _ :=
    Store.run_of_outcome_error (by decide +kernel)
  have same := misuse (.call (.map wordKey) (.perform (.exchange (keyOf 7) (wideDatum 2))))
    ⟨rfl, Or.inl (Or.inl (Or.inr rfl))⟩ _ _ failed
  exact ⟨session, ⟨_, failed, same⟩, ⟨_, other, rejected _ _ _ _ other⟩⟩

end

end PackedStore
