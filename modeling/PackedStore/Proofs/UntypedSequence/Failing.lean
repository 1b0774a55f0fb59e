/-
This file says what an operation on an untyped sequence leaves when it fails. A
value is added in an order in which nothing has to be taken back: it is checked,
its place is computed, a record is found for it, and then room for its bytes. So
the block is what it was, to the last byte, unless all records were in use: then
their number may have grown when the arena could not, and the sequence holds the
same elements.
-/

import PackedStore.Proofs.UntypedSequence.Reachable
import PackedStore.Proofs.UntypedSequence.Safety

namespace PackedStore.UntypedSequence

variable {Buffer α : Type} [Host Buffer] {site later : Site Buffer} {image : Image}
  {elements : List Datum}

/-! ### Half additions -/

/-- All slots were in use and have grown for one more element. Then the arena could not grow for its
value. -/
structure HalfAdded (site : Site Buffer) (failure : Failure) (later : Site Buffer) : Prop where
  grew : ∃ before capacity, header site = .ok before site ∧ before.count = before.capacity ∧
    nextCapacity before.count before.capacity before.log2MinGrowth = .ok capacity ∧
    grow capacity site = .ok () later
  refused : ∃ required, ensureData required later = .error failure later
  storage : failure.IsStorage

/-- What a failed operation leaves. -/
def Remains (operation : Operation) (site : Site Buffer) (failure : Failure)
    (later : Site Buffer) : Prop :=
  later.bytes = site.bytes ∨ (∃ datum, operation = .add datum) ∧ HalfAdded site failure later

theorem Remains.of_untouched {operation : Operation} (failure : Failure) (later : Site Buffer)
    (same : later = site) : Remains operation site failure later :=
  Or.inl (congrArg Site.bytes same)

namespace Holds

variable (holds : Holds site image elements)

include holds

/-- Room for one more record is there already, or the slots grow. -/
theorem grew_of_makeRoom (made : makeRoom image.header site = .ok () later) :
    later = site ∨ ∃ before capacity, header site = .ok before site ∧
      before.count = before.capacity ∧
      nextCapacity before.count before.capacity before.log2MinGrowth = .ok capacity ∧
      grow capacity site = .ok () later := by
  unfold makeRoom at made
  by_cases full : image.header.count = image.header.capacity
  · rw [if_pos full] at made
    obtain ⟨capacity, next, grew⟩ := Edit.lift_bind_eq_ok.mp made
    exact Or.inr ⟨image.header, capacity, holds.run_header, full, next, grew⟩
  · rw [if_neg full, Edit.run_pure] at made
    exact Or.inl (EStateM.Result.ok.inj made).2.symm

/-- An operation on an element leaves the site as it is if there is none with the index. -/
theorem leaves_at {expected : Failure → Site Buffer → Prop} {index : Nat}
    {operation : Store Buffer α} (refused : ∀ failure, expected failure site)
    (leaves : ∀ datum, elements[index]? = some datum → Store.Leaves expected site operation) :
    Store.Leaves expected site (do
      demandIndex index
      operation) := by
  by_cases inside : index < elements.length
  · have found : demandIndex index site = .ok () site := by
      simp only [demandIndex, Edit.run_bind, holds.run_header, holds.represents.count,
        demand_of inside, Edit.run_lift_ok]
    exact .read found (leaves _ (List.getElem?_eq_getElem inside))
  · refine .of_error ?_ (refused (.misuse (.indexOutOfRange index elements.length)))
    simp only [demandIndex, Edit.run_bind, holds.run_header, holds.represents.count,
      demand_of_not inside, Edit.run_lift_error]

variable [LawfulHost Buffer]

/-! ### Single operations -/

/-- A failed addition leaves the site as it was, or half an addition. -/
theorem leaves_add {datum : Datum} (power : ∃ exponent, datum.type.align = 2 ^ exponent) :
    Store.Leaves (fun failure later => later = site ∨ HalfAdded site failure later) site
      (add datum) := by
  rw [add_eq]
  refine .check (fun _ _ => Or.inl rfl) fun _ checked => .read holds.run_header
    (.check (fun _ _ => Or.inl rfl) fun place placed => ?_)
  have storable := storable_of power checked
  have near : packedFrom 0 elements < 2 ^ 32 :=
    Nat.lt_of_le_of_lt holds.represents.packed_le_max (by decide)
  rw [holds.represents.allocated] at placed
  obtain ⟨-, rfl⟩ := (placeBehind_eq_ok storable near).mp placed
  show Store.Leaves _ site (do
    makeRoom image.header
    fillSlot datum (startFrom (packedFrom 0 elements) datum)
      (stopFrom (packedFrom 0 elements) datum))
  rcases holds.run_makeRoom with
    ⟨failure, refused, -, -⟩ | ⟨roomy, larger, made, holdsRoomy, below, -⟩
  · exact .of_error (by rw [Edit.run_bind, refused]) (Or.inl rfl)
  · refine .bind (.of_ok made) fun _ middle ran => ?_
    obtain ⟨-, rfl⟩ := EStateM.Result.ok.inj (made.symm.trans ran)
    have filling := holdsRoomy.run_fillSlot storable below
    rw [packedFrom_append, packedFrom_cons, packedFrom_nil] at filling
    rcases filling with ⟨failure, refused, storage, short, -⟩ | ⟨later, filled, -⟩
    · exact .of_error refused ((holds.grew_of_makeRoom made).imp id fun grew =>
        ⟨grew, ⟨_, short⟩, storage⟩)
    · exact .of_ok filled

/-- A failed typed write leaves every byte as it was, whatever the type. -/
theorem leaves_exchange (index : Nat) (datum : Datum) :
    Store.Leaves (fun _ later => later.bytes = site.bytes) site (exchange index datum) := by
  refine holds.leaves_at (fun _ => rfl) fun old there => ?_
  rcases holds.represents.replacement_spec there datum with
    ⟨failure, -, run⟩ | ⟨content, changed, -, run, -⟩
  · obtain ⟨later, refused, same, -⟩ := holds.run_edit_failed run
    exact .of_error refused same
  · exact .of_ok (Store.run_edit_ok holds.loaded run)

theorem leaves_setCapacity (capacity : Nat) :
    Store.Leaves (fun _ later => later = site) site (setCapacity capacity) := by
  refine .read holds.run_header ?_
  split
  · next more =>
    refine .check (fun _ _ => rfl) fun larger grown => ?_
    obtain ⟨reached, -, room⟩ := IsCapacity.of_grown grown
    rcases holds.run_grow reached (Nat.lt_of_lt_of_le more room) with
      ⟨failure, refused, -⟩ | ⟨later, _, grew, -⟩
    · exact .of_error refused rfl
    · exact .of_ok grew
  · exact .of_ok (Edit.run_pure () site)

omit [LawfulHost Buffer] in
theorem leaves_removeAt (index : Nat) :
    Store.Leaves (fun _ later => later = site) site (removeAt index) := by
  refine holds.leaves_at (fun _ => rfl) fun datum there => ?_
  obtain ⟨changed, run, -⟩ :=
    holds.represents.removal_spec (List.getElem?_eq_some_iff.mp there).1
  unfold removal at run
  exact (Store.Leaves.of_ok (Store.run_edit_ok holds.loaded run)).bind fun _ _ _ => .of_ok rfl

theorem leaves_clear {expected : Failure → Site Buffer → Prop} :
    Store.Leaves expected site clear := by
  obtain ⟨later, written, -⟩ := run_writeHeader holds.represents.regular.cleared.fits
    holds.represents.sound.computed holds.size_eq
  exact .read holds.run_header (.of_ok written)

/-! ### Any operation -/

/-- A failed operation leaves the block as it was, or half an addition. -/
theorem leaves {operation : Operation} (aligned : operation.Aligned ∨ operation.OverAligned) :
    Store.Leaves (Remains operation site) site operation.run := by
  rcases aligned with aligned | unaligned
  · cases operation with
    | add datum =>
      exact ((holds.leaves_add aligned).map Answer.number).weaken fun failure later either =>
        either.imp (congrArg Site.bytes) fun half => ⟨⟨datum, rfl⟩, half⟩
    | exchange index datum =>
      exact ((holds.leaves_exchange index datum).map Answer.content).weaken fun _ _ => Or.inl
    | removeAt index =>
      exact ((holds.leaves_removeAt index).map fun _ => Answer.done).weaken Remains.of_untouched
    | setCapacity capacity =>
      exact ((holds.leaves_setCapacity capacity).map fun _ => Answer.done).weaken
        Remains.of_untouched
    | clear => exact holds.leaves_clear.map fun _ => Answer.done
    | elementAt index type =>
      exact ((Store.Leaves.of_checked (holds.run_elementAt index type)).map
        Answer.content).weaken Remains.of_untouched
    | bytesAt index =>
      exact ((Store.Leaves.of_checked (holds.run_bytesAt index)).map fun found =>
        Answer.stored found.1 found.2).weaken Remains.of_untouched
    | tagAt index =>
      exact ((Store.Leaves.of_checked (holds.run_tagAt index)).map Answer.tag).weaken
        Remains.of_untouched
    | sizeAt index =>
      exact ((Store.Leaves.of_checked (holds.run_sizeAt index)).map Answer.number).weaken
        Remains.of_untouched
    | count =>
      exact (Store.Leaves.of_ok holds.run_header).map fun header => Answer.number header.count
  · obtain ⟨type, run⟩ := @Operation.OverAligned.run_eq _ _ site operation unaligned
    exact .of_error run (Or.inl rfl)

/-! ### The sequence after a failure -/

/-- What remains of a sequence holds the same elements, perhaps in more slots. -/
theorem holds_of_remains {operation : Operation} {failure : Failure}
    (remains : Remains operation site failure later) :
    ∃ after, Holds later after elements ∧
      after.header = image.header.resized after.header.capacity image.header.dataCapacity ∧
      image.header.capacity ≤ after.header.capacity := by
  have regular := holds.represents.regular
  rcases remains with same | ⟨-, ⟨before, capacity, isHeader, full, next, grew⟩, -, -⟩
  · exact ⟨image, holds.of_bytes same, rfl, Nat.le_refl _⟩
  · obtain ⟨rfl, -⟩ := EStateM.Result.ok.inj (holds.run_header.symm.trans isHeader)
    rw [nextCapacity_eq regular.reached (Nat.le_of_eq full)] at next
    by_cases largest : image.header.capacity = maxCapacity
    · rw [if_pos largest] at next
      exact absurd next (by simp)
    · rw [if_neg largest] at next
      obtain rfl := Except.ok.inj next
      have double := regular.reached.lt_double
      rcases holds.run_grow (regular.reached.double largest) double with
        ⟨other, refused, -⟩ | ⟨other, grown, ran, holdsLater, resized, -⟩
      · exact absurd (grew.symm.trans refused) (by simp)
      · obtain ⟨-, rfl⟩ := EStateM.Result.ok.inj (grew.symm.trans ran)
        have larger : grown.header.capacity = 2 * image.header.capacity := by
          rw [resized]
          rfl
        refine ⟨grown, holdsLater, by rw [larger]; exact resized, ?_⟩
        rw [larger]
        exact Nat.le_of_lt double

end Holds

/-- Every question about elements has the same answer at both sites, the elements are recorded
alike, and the headers differ at most in the number of slots, of which there may be more at the
second site. -/
structure SameElements (site later : Site Buffer) : Prop where
  headers : ∃ before after, header site = .ok before site ∧ header later = .ok after later ∧
    after = before.resized after.capacity before.dataCapacity ∧ before.capacity ≤ after.capacity
  records : ∃ image after, Image.load site.bytes = .ok image ∧ Image.load later.bytes = .ok after ∧
    image.SameRecords after
  values : ∀ index, ∃ stored : Checked (TypeTag × Bytes),
    bytesAt index site = (liftM stored : Store Buffer _) site ∧
      bytesAt index later = (liftM stored : Store Buffer _) later

/-- What is left of a sequence after an operation that failed. -/
structure Spared (operation : Operation) (elements : List Datum) (site : Site Buffer)
    (failure : Failure) (later : Site Buffer) : Prop where
  sameElements : SameElements site later
  carries : Carries later elements
  canonical : ∃ after, Image.load later.bytes = .ok after ∧ after.Canonical elements
  remains : Remains operation site failure later

/-- A failed operation spares the elements of a sequence. -/
theorem Holds.spared [LawfulHost Buffer] (holds : Holds site image elements) {operation : Operation}
    (aligned : operation.Aligned ∨ operation.OverAligned) {failure : Failure}
    (failed : operation.run site = .error failure later) :
    Spared operation elements site failure later := by
  have remains := holds.leaves aligned failure later failed
  obtain ⟨after, holdsLater, resized, more⟩ := holds.holds_of_remains remains
  exact {
    sameElements := {
      headers := ⟨_, _, holds.run_header, holdsLater.run_header, resized, more⟩
      records := ⟨_, _, holds.loaded, holdsLater.loaded,
        holds.represents.sameRecords holdsLater.represents⟩
      values := fun index => ⟨_, holds.run_bytesAt index, holdsLater.run_bytesAt index⟩ }
    carries := ⟨after, holdsLater⟩
    canonical := ⟨after, holdsLater.loaded, holdsLater.represents.isCanonical⟩
    remains := remains }

end PackedStore.UntypedSequence
