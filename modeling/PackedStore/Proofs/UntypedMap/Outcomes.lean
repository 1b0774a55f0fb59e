/-
This file says which operations on an untyped map perform what is expected of the
entries of its site, and within which limits of slots and arena. Growth and
clearing are the first ones of which this holds: more room changes no entry, and
is refused for want of a resource only.
-/

import PackedStore.Proofs.Host.Outcomes
import PackedStore.Proofs.UntypedMap.Arena

namespace PackedStore.UntypedMap

variable {Buffer α : Type} [Host Buffer] {known : ElementType → Prop} {key : KeyType}
  {site : Site Buffer} {image : Image} {entries : List Entry} {order : Nat → List Nat}

/-! ### Outcomes -/

/-- The site holds the entries in some image. -/
def Carries (known : ElementType → Prop) (key : KeyType) (site : Site Buffer)
    (entries : List Entry) : Prop :=
  ∃ image order, Holds known key site image entries order

/-- The second site carries the entries, and its host grants what the first one's grants. -/
abbrev Follows (known : ElementType → Prop) (key : KeyType) (site later : Site Buffer)
    (entries : List Entry) : Prop :=
  Store.Follows (Carries known key) site later entries

theorem Holds.carries (holds : Holds known key site image entries order) :
    Carries known key site entries :=
  ⟨image, order, holds⟩

theorem Holds.follows (holds : Holds known key site image entries order) :
    Follows known key site site entries :=
  .refl holds.carries

/-- An operation on a site does what is expected of the entries, unless it is refused. -/
abbrev Performs (known : ElementType → Prop) (key : KeyType) (site : Site Buffer)
    (entries : List Entry) (limits : Prop) (operation : Store Buffer α)
    (expected : Checked (α × List Entry)) : Prop :=
  Store.Performs (Carries known key) (CannotGrow key) site entries limits operation expected

/-! ### Limits -/

namespace Image

/-- The arena has room for a value, or could have it. -/
def ArenaRoom (image : Image) (payload : Payload) : Prop :=
  payload.bytes.size ≤ 4 ∨ ∃ allocation,
    planAllocation image.header.dataAllocated payload.bytes.size payload.align = some allocation ∧
      allocation.stop ≤ maxCapacity

/-- There is room for a new entry with a value. -/
def InsertRoom (image : Image) (payload : Payload) : Prop :=
  image.header.count < maxCapacity ∧ image.ArenaRoom payload

/-- A value can take the place of the one in a slot. -/
def Keeps (image : Image) (slot : Nat) (payload : Payload) : Prop :=
  payload.bytes.size ≤ 4 ∨ ∀ word, image.cells.words[slot]? = some word →
    payload.align ∣ word.toNat * wordSize

/-- A value of the size of the one in a slot can take its place, or there is room for it. -/
def ReplaceRoom (image : Image) (slot : Nat) (payload : Payload) : Prop :=
  image.sizes[slot]? = some payload.bytes.size → image.Keeps slot payload ∨ image.ArenaRoom payload

end Image

namespace Holds

variable [LawfulHost Buffer] (wellFormed : key.toElementType.WellFormed)
  (holds : Holds known key site image entries order)

include wellFormed holds

/-! ### Capacity -/

/-- The map has a larger number of slots, or that number is refused. -/
theorem run_larger {capacity : Nat} (reached : IsCapacity image.header.log2MinGrowth capacity)
    (grows : image.header.capacity < capacity) :
    (∃ failure, grow key capacity site = .error failure site ∧ CannotGrow key site failure) ∨
    ∃ later grown relinked, grow key capacity site = .ok () later ∧
      Holds known key later grown entries relinked ∧
      grown.header = image.header.resized capacity ∧ site.Continues later := by
  rcases refuses_or_grants key site capacity image.header.dataCapacity with
    ⟨failure, refuses⟩ | ⟨new, buffer, computed, resized⟩
  · exact Or.inl ⟨failure, holds.run_grow_refused wellFormed reached grows refuses, capacity,
      image.header.dataCapacity, reached.le_max,
      holds.represents.framed.header.dataReached.le_max, refuses⟩
  · obtain ⟨later, grown, relinked, run, holdsLater, isHeader, -, continues⟩ :=
      holds.run_grow wellFormed reached grows computed resized
    exact Or.inr ⟨later, grown, relinked, run, holdsLater, isHeader, continues⟩

/-- More slots change no entry. -/
theorem run_setCapacity (capacity : Nat) :
    Performs known key site entries (capacity ≤ maxCapacity) (setCapacity key capacity)
      (.ok ((), entries)) := by
  have represents := holds.represents
  have reached := represents.framed.header.reached
  by_cases enough : image.header.capacity < capacity
  · have run : setCapacity key capacity site =
        (liftM (grownCapacity image.header.count capacity image.header.log2MinGrowth) >>=
          grow key : Store Buffer Unit) site := by
      simp only [setCapacity, Edit.run_bind, holds.run_header, if_pos enough]
    by_cases large : maxCapacity < capacity
    · have step := reached.le_log2
      rw [grownCapacity_eq_error (by omega) large] at run
      exact .refused run holds.follows (Failure.isStorage_overflow _)
        (Or.inl (Nat.not_le_of_lt large))
    · have rows : image.header.count ≤ maxCapacity :=
        Nat.le_trans represents.framed.header.count_le represents.capacity_le
      obtain ⟨larger, grown⟩ := grownCapacity_of rows (Nat.le_of_not_lt large) reached.le_log2
      obtain ⟨reachedLarger, -, room⟩ := IsCapacity.of_grown grown
      rw [Edit.run_bind, grown, Edit.run_lift_ok] at run
      rcases holds.run_larger wellFormed reachedLarger (by omega) with
        ⟨failure, refused, cause⟩ | ⟨later, image', relinked, runGrow, holdsLater, -, continues⟩
      · exact .refused (run.trans refused) holds.follows
          (cause.isStorage (holds.supported wellFormed))
          (Or.inr ⟨site, Site.Continues.refl site, cause⟩)
      · exact .answered (run.trans runGrow) rfl ⟨continues, image', relinked, holdsLater⟩
  · refine .answered ?_ rfl holds.follows
    simp only [setCapacity, Edit.run_bind, holds.run_header, if_neg enough, Edit.run_pure]

/-- More arena changes no entry. -/
theorem run_reserveData (additional : Nat) :
    Performs known key site entries (image.header.dataAllocated + additional ≤ maxCapacity)
      (reserveData key additional) (.ok ((), entries)) := by
  by_cases sized : image.header.dataAllocated + additional < sizeLimit
  · have run : reserveData key additional site =
        ensureData key (image.header.dataAllocated + additional) site := by
      simp only [reserveData, Edit.run_bind, holds.run_header, size?, if_pos sized, orFail,
        Edit.run_lift_ok]
    rcases holds.run_ensureData wellFormed (image.header.dataAllocated + additional) with
      ⟨failure, refused, cause⟩ | ⟨-, later, wide, -, ensured, holdsLater, -, -, -, -, continues⟩
    · exact .refused (run.trans refused) holds.follows (holds.isStorage_of_arena wellFormed cause)
        (cause.imp (fun beyond => Nat.not_le_of_lt beyond.1)
          fun cannotGrow => ⟨site, Site.Continues.refl site, cannotGrow⟩)
    · exact .answered (run.trans ensured) rfl ⟨continues, wide, order, holdsLater⟩
  · have run : reserveData key additional site = .error (.overflow .arenaCapacity) site := by
      simp only [reserveData, Edit.run_bind, holds.run_header, size?, if_neg sized, orFail,
        Edit.run_lift_error]
    refine .refused run holds.follows (Failure.isStorage_overflow _) (Or.inl ?_)
    unfold sizeLimit at sized
    unfold maxCapacity
    omega

/-- A cleared map has no entries. -/
theorem run_clear : Performs known key site entries True (clear key) (.ok ((), [])) := by
  have represents := holds.represents
  obtain ⟨changed, run, layout, -, cleared⟩ :=
    @clear_spec known key image represents.sound represents.framed.header
  obtain ⟨later, runEdit, holdsLater, continues⟩ :=
    run_edit wellFormed holds.loaded holds.size_eq run layout cleared
  exact .answered runEdit rfl ⟨continues, changed, _, holdsLater⟩

end Holds

end PackedStore.UntypedMap
