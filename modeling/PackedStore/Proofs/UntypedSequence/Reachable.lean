/-
This file states what is true of the arena of a sequence at all times. However the
sequence was used, and whichever operations failed, its values stand where they
would stand if only the ones that are left had been added, one after another: each
at the first place behind the one before that suits its type. So the arena has no
memory of what was removed, and removing a value moves no other one up.
-/

import Mathlib.Order.Bounds.Defs
import PackedStore.Proofs.UntypedSequence.Simulation

namespace PackedStore.UntypedSequence

open UntypedMap (WordOrWide family_wordOrWide wideDatum)

variable {Buffer : Type} [Host Buffer] {site : Site Buffer} {image : Image}
  {elements front back : List Datum} {operation : Operation} {index : Nat} {datum : Datum}

/-! ### Reachable sites -/

/-- The elements that are left after an operation, which changes none if it fails. -/
def Operation.survivors : Operation → Except Failure Answer → List Datum → List Datum
  | _, .error _, elements => elements
  | add datum, .ok _, elements => elements ++ [datum]
  | exchange index datum, .ok _, elements => Elements.write elements index datum.bytes
  | removeAt index, .ok _, elements => elements.eraseIdx index
  | clear, .ok _, _ => []
  | _, .ok _, elements => elements

/-- The sites that creation and operations lead to, failed operations included, with the elements
that are left. -/
inductive Reachable : Site Buffer → List Datum → Prop where
  | created {start site : Site Buffer} (sizing : Sizing) (run : init sizing start = .ok () site) :
      Reachable site []
  | step {site : Site Buffer} {elements : List Datum} (operation : Operation)
      (aligned : operation.Aligned) (reachable : Reachable site elements) :
      Reachable (Store.machine Operation.run operation site).2
        (operation.survivors (Store.machine Operation.run operation site).1 elements)

theorem survivors_of_perform {answer : Answer} {changed : List Datum}
    (performs : Elements.perform operation elements = .ok (answer, changed)) :
    operation.survivors (.ok answer) elements = changed := by
  have second {α : Type} {checked : Checked α} {next : α → Answer × List Datum}
      (same : (checked >>= fun value => pure (next value)) = .ok (answer, changed)) :
      ∃ value, (next value).2 = changed := by
    obtain ⟨value, -, same⟩ := Checked.bind_eq_ok.mp same
    exact ⟨value, congrArg Prod.snd (Except.ok.inj same)⟩
  cases operation with
  | clear => exact congrArg Prod.snd (Except.ok.inj performs)
  | count => exact congrArg Prod.snd (Except.ok.inj performs)
  | _ =>
    obtain ⟨_, same⟩ := second performs
    exact same

/-- Every reachable site carries the elements that are left. -/
theorem Reachable.carries [LawfulHost Buffer] (reachable : Reachable site elements) :
    Carries site elements := by
  induction reachable with
  | created sizing run =>
    obtain ⟨image, created, -⟩ := holds_of_init run
    exact ⟨image, created⟩
  | step operation aligned _ inductionHypothesis =>
    obtain ⟨image, holds⟩ := inductionHypothesis
    rcases (holds.performs aligned).settled with
      ⟨answer, changed, answers, performs, follows⟩ | ⟨failure, fails, -, follows⟩
    · rw [Store.machine, answers, survivors_of_perform performs]
      exact follows.stands
    · rw [Store.machine, fails]
      exact follows.stands

/-- What is left after an operation is what the list of values says. -/
theorem survivors_step {known : ElementType → Prop} (family : TypeFamily known)
    (fits : operation.Fits known)
    (storable : ∀ datum ∈ elements, known datum.type ∧ Storable datum.type) :
    operation.survivors (Elements.step operation elements).1 elements =
      (Elements.step operation elements).2 := by
  rw [Elements.step, ← Elements.perform_eq_respond family fits storable]
  cases performs : Elements.perform operation elements with
  | error failure => rfl
  | ok both => exact survivors_of_perform performs

/-- The sites of a run with known types, on a host that grants resizes, are reachable. -/
theorem Reachable.reached [LawfulHost Buffer] {granted : Buffer → Prop} {known : ElementType → Prop}
    (granting : Granting granted) (family : TypeFamily known)
    (mirrors : Mirrors granted known elements site) (reachable : Reachable site elements)
    {operations : List Operation} (fits : ∀ operation ∈ operations, operation.Fits known)
    (within : Elements.step.Always Operation.Room operations elements) :
    Reachable ((Store.machine Operation.run).reached operations site)
      (Elements.step.reached operations elements) := by
  have step (operation : Operation) (elements : List Datum) (site : Site Buffer)
      (allowed : operation.Fits known ∧ operation.Room elements)
      (both : Mirrors granted known elements site ∧ Reachable site elements) :
      (Elements.step operation elements).1 = (Store.machine Operation.run operation site).1 ∧
        Mirrors granted known (Elements.step operation elements).2
          (Store.machine Operation.run operation site).2 ∧
        Reachable (Store.machine Operation.run operation site).2
          (Elements.step operation elements).2 := by
    obtain ⟨mirrors, reachable⟩ := both
    obtain ⟨same, mirrorsLater⟩ := mirrors.step granting family allowed
    have reachableLater := reachable.step operation (allowed.1.aligned family.aligned)
    rw [← same, survivors_step family allowed.1 mirrors.storable] at reachableLater
    exact ⟨same, mirrorsLater, reachableLater⟩
  exact (Machine.answers_eq_of_always step (Machine.always_and fits within)
    ⟨mirrors, reachable⟩).2.2

/-! ### Canonical arenas -/

/-- Where the elements in front of an index end. -/
def Image.stopBefore (image : Image) : Nat → Nat
  | 0 => 0
  | index + 1 => image.offsets.getD index 0 + image.sizes.getD index 0

/-- The image records the sizes, types and alignments of the elements, each of which stands at the
first place behind the one before that suits it, and the arena ends with the last one. -/
structure Image.Canonical (image : Image) (elements : List Datum) : Prop where
  count : image.header.count = elements.length
  recorded : ∀ (index : Nat) (datum : Datum), elements[index]? = some datum →
    image.sizes[index]? = some datum.type.size ∧ image.types[index]? = some datum.type.tag ∧
      image.aligns[index]? = some (max datum.type.align minElementAlign)
  first : elements ≠ [] → image.offsets[0]? = some 0
  least : ∀ (index : Nat) (datum : Datum), elements[index]? = some datum → ∃ offset,
    image.offsets[index]? = some offset ∧
      IsLeast {place | max datum.type.align minElementAlign ∣ place ∧ image.stopBefore index ≤ place}
        offset
  allocated : image.header.dataAllocated = image.stopBefore elements.length

/-- The two images count the same elements and record them at the same offsets, with the same
sizes, types and alignments. -/
structure Image.SameRecords (image other : Image) : Prop where
  count : other.header.count = image.header.count
  allocated : other.header.dataAllocated = image.header.dataAllocated
  described : ∀ index, index < image.header.count → other.descriptor index = image.descriptor index

section

variable (represents : Represents image elements)

include represents

theorem Represents.stopBefore_eq (inside : index ≤ elements.length) :
    image.stopBefore index = packedFrom 0 (elements.take index) := by
  cases index with
  | zero => rfl
  | succ index =>
    have there := List.getElem?_eq_getElem (Nat.lt_of_succ_le inside)
    have stored := represents.stored there
    rw [Image.stopBefore, Array.getD_eq_getD_getElem?, Array.getD_eq_getD_getElem?, stored.offset_eq,
      stored.size_eq, List.take_succ_eq_append_getElem (Nat.lt_of_succ_le inside), packedFrom_append]
    rfl

theorem Represents.isCanonical : image.Canonical elements where
  count := represents.count
  recorded index datum there := by
    have stored := represents.stored there
    exact ⟨by rw [← datum.size_bytes]; exact stored.size_eq, stored.tag_eq, stored.align_eq⟩
  first some := by
    obtain ⟨datum, rest, rfl⟩ := List.exists_cons_of_ne_nil some
    have front : startFrom 0 datum = 0 := Nat.le_zero.mp
      (Placement.raise_le_of_dvd (elementAlign_pos _) (Nat.le_refl 0) (Nat.dvd_zero _))
    rw [(@Represents.stored _ _ 0 datum represents rfl).offset_eq]
    exact congrArg Option.some front
  least index datum there := by
    have inside := (List.getElem?_eq_some_iff.mp there).1
    refine ⟨_, (represents.stored there).offset_eq, ?_⟩
    rw [represents.stopBefore_eq (Nat.le_of_lt inside)]
    exact ⟨⟨Placement.dvd_raise, le_startFrom⟩, fun place ⟨divides, behind⟩ =>
      Placement.raise_le_of_dvd (elementAlign_pos _) behind divides⟩
  allocated := by
    rw [represents.stopBefore_eq (Nat.le_refl _), List.take_length]
    exact represents.allocated

theorem Represents.sameRecords {other : Image} (again : Represents other elements) :
    image.SameRecords other where
  count := again.count.trans represents.count.symm
  allocated := again.allocated.trans represents.allocated.symm
  described index below := by
    rw [represents.count] at below
    have there := List.getElem?_eq_getElem below
    rw [(again.stored there).descriptor, (represents.stored there).descriptor]

end

/-! ### Adding elements again -/

/-- Elements that have room are added one after another on a host that grants resizes. -/
theorem Carries.run_adds [LawfulHost Buffer] {granted : Buffer → Prop} (granting : Granting granted)
    (here : granted site.buffer) (carries : Carries site front)
    (storable : ∀ datum ∈ back, Storable datum.type)
    (room : packedFrom 0 (front ++ back) ≤ maxCapacity) :
    (Store.machine Operation.run).answers (back.map .add) site =
        (List.range' front.length back.length).map (fun index => .ok (.number index)) ∧
      Carries ((Store.machine Operation.run).reached (back.map .add) site) (front ++ back) := by
  induction back generalizing site front with
  | nil => exact ⟨rfl, by rw [List.append_nil]; exact carries⟩
  | cons datum rest inductionHypothesis =>
    obtain ⟨image, holds⟩ := carries
    have suits := storable datum List.mem_cons_self
    have expects : Elements.perform (.add datum) front =
        .ok (.number front.length, front ++ [datum]) := by
      rw [Elements.perform, demandStorable_of suits, Checked.bind_ok]
      rfl
    have fits : packedFrom 0 (front ++ [datum]) ≤ maxCapacity := by
      refine Nat.le_trans (packedFrom_sublist ?_) room
      exact (List.Sublist.refl front).append (List.singleton_sublist.mpr List.mem_cons_self)
    have performs := @Holds.performs _ _ _ _ _ _ holds (.add datum)
      (Exists.imp (fun _ power => power.2) suits.supported)
    rw [expects] at performs
    rcases performs.agrees fits (fun middle failure continues =>
        not_cannotGrow granting (continues granted granting here)) with
      ⟨answer, changed, same, answers, follows⟩ | ⟨failure, same, -⟩
    · obtain ⟨rfl, rfl⟩ := Prod.mk.inj (Except.ok.inj same)
      obtain ⟨rest, carries⟩ := inductionHypothesis (follows.continues granted granting here)
        follows.stands (fun other member => storable other (List.mem_cons_of_mem _ member))
        (by rwa [List.append_assoc])
      rw [List.append_assoc] at carries
      refine ⟨?_, carries⟩
      rw [List.map_cons, Machine.answers, List.length_cons, List.range'_succ, List.map_cons]
      refine congrArg₂ List.cons answers (rest.trans ?_)
      rw [List.length_append, List.length_singleton]
    · exact absurd same (by simp)

/-! ### Removing an element -/

/-- Only an element that is there can have been removed. -/
theorem Holds.removeAt_eq_ok [LawfulHost Buffer] (holds : Holds site image elements) {removed : Nat}
    {later : Site Buffer} (run : removeAt removed site = .ok () later) :
    removed < elements.length ∧ Carries later (elements.eraseIdx removed) := by
  cases holds.run_removeAt removed with
  | answered ran same follows =>
    obtain ⟨-, rfl⟩ := EStateM.Result.ok.inj (run.symm.trans ran)
    obtain ⟨datum, there, same⟩ := Checked.bind_eq_ok.mp same
    obtain ⟨-, rfl⟩ := Prod.mk.inj (Except.ok.inj same)
    exact ⟨(List.getElem?_eq_some_iff.mp (orFail_eq_ok.mp there)).1, follows.stands⟩
  | failed ran => exact absurd (run.symm.trans ran) (by simp)
  | refused ran => exact absurd (run.symm.trans ran) (by simp)

theorem Represents.exists_place (represents : Represents image elements)
    (inside : index < elements.length) :
    ∃ place, placeOf? elements index = some place ∧ image.offsets[index]? = some place := by
  have there := List.getElem?_eq_getElem inside
  exact ⟨_, by rw [placeOf?, there, Option.map_some], (represents.stored there).offset_eq⟩

/-! ### The arena at all times -/

/-- Whatever was done, the arena is as if the elements that are left had just been added, and
removing one moves no other one to a higher offset. -/
theorem Reachable.canonical [LawfulHost Buffer] (reachable : Reachable site elements) :
    ∃ image, Image.load site.bytes = .ok image ∧ image.Canonical elements ∧
      (∀ (granted : Buffer → Prop) (start fresh : Site Buffer) (sizing : Sizing), Granting granted →
        granted start.buffer → init sizing start = .ok () fresh →
        (Store.machine Operation.run).answers (elements.map .add) fresh =
            (List.range elements.length).map (fun index => .ok (.number index)) ∧
          ∃ again, Image.load ((Store.machine Operation.run).reached (elements.map .add) fresh).bytes =
              .ok again ∧ image.SameRecords again) ∧
      ∀ (removed : Nat) (later : Site Buffer), removeAt removed site = .ok () later →
        ∃ changed, Image.load later.bytes = .ok changed ∧
          changed.header.count + 1 = image.header.count ∧
          ∀ index, index < changed.header.count → ∃ before after,
            image.offsets[indexBefore removed index]? = some before ∧
              changed.offsets[index]? = some after ∧ after ≤ before := by
  obtain ⟨image, holds⟩ := reachable.carries
  have represents := holds.represents
  refine ⟨image, holds.loaded, represents.isCanonical, ?_, ?_⟩
  · intro granted start fresh sizing granting here run
    obtain ⟨empty, created, continues⟩ := holds_of_init run
    obtain ⟨answers, again, holdsAgain⟩ := Carries.run_adds granting
      (continues granted granting here) ⟨empty, created⟩ represents.storable represents.packed_le_max
    rw [List.nil_append] at holdsAgain
    refine ⟨?_, again, holdsAgain.loaded, represents.sameRecords holdsAgain.represents⟩
    rw [answers, List.range_eq_range']
    rfl
  · intro removed later run
    obtain ⟨inside, changed, holdsLater⟩ := holds.removeAt_eq_ok run
    have fewer := List.length_eraseIdx_of_lt inside
    refine ⟨changed, holdsLater.loaded, ?_, fun index below => ?_⟩
    · rw [holdsLater.represents.count, represents.count, fewer]
      omega
    · rw [holdsLater.represents.count] at below
      have inFront : indexBefore removed index < elements.length := by
        unfold indexBefore
        split <;> omega
      obtain ⟨before, placed, foundBefore⟩ := represents.exists_place inFront
      obtain ⟨after, moved, foundAfter⟩ := holdsLater.represents.exists_place below
      exact ⟨before, after, foundBefore, foundAfter, placeOf?_eraseIdx_le placed moved⟩

/-- A wide value moves to the front of the arena when the word in front of it is removed. -/
theorem wide_canonical :
    ∃ (site : Site BlockBuffer) (image : Image), Reachable site [wideDatum 2, wordDatum 3] ∧
      Image.load site.bytes = .ok image ∧ image.Canonical [wideDatum 2, wordDatum 3] := by
  obtain ⟨site, run⟩ := @run_init_of_granting BlockBuffer _ ⟨.empty none, []⟩ _ _
    BlockBuffer.granting rfl rfl {} (by decide) (by decide) (by decide)
  have reachable := @Reachable.reached _ _ _ _ _ _ WordOrWide BlockBuffer.granting
    family_wordOrWide (Mirrors.of_init BlockBuffer.granting rfl run) (.created {} run)
    [.add (wordDatum 1), .add (wideDatum 2), .add (wordDatum 3), .removeAt 0, .removeAt 5]
    (by
      simp only [List.mem_cons, List.not_mem_nil, or_false, forall_eq_or_imp, forall_eq]
      exact ⟨Or.inl rfl, Or.inr rfl, Or.inl rfl, trivial, trivial⟩)
    ⟨Nat.le_of_ble_eq_true rfl, Nat.le_of_ble_eq_true rfl, Nat.le_of_ble_eq_true rfl, trivial,
      trivial, trivial⟩
  obtain ⟨image, loaded, canonical, -⟩ := Reachable.canonical reachable
  exact ⟨_, image, reachable, loaded, canonical⟩

end PackedStore.UntypedSequence
