/-
This file says what the operations on a sequence do to the values of its site. A
value is added in three steps: its place is computed, room is made for its record
and for its bytes, and only then is anything written, so it is added whole or not
at all. The other changes need no room. Each operation does what the same one does
to the list of values, or is refused for want of room.
-/

import PackedStore.Proofs.Host.Outcomes
import PackedStore.Proofs.UntypedSequence.Resizing

namespace PackedStore.UntypedSequence

/-! ### Operations -/

/-- An operation on a sequence. -/
inductive Operation where
  | add (datum : Datum)
  | exchange (index : Nat) (datum : Datum)
  | removeAt (index : Nat)
  | setCapacity (capacity : Nat)
  | clear
  | elementAt (index : Nat) (type : ElementType)
  | bytesAt (index : Nat)
  | tagAt (index : Nat)
  | sizeAt (index : Nat)
  | count

/-- What an operation on a sequence answers. -/
inductive Answer where
  | done
  | number (value : Nat)
  | tag (tag : TypeTag)
  | content (content : Bytes)
  | stored (tag : TypeTag) (content : Bytes)
deriving DecidableEq

namespace Operation

/-- The operation on the sequence in a host. -/
def run {Buffer : Type} [Host Buffer] : Operation → Store Buffer Answer
  | add datum => .number <$> UntypedSequence.add datum
  | exchange index datum => .content <$> UntypedSequence.exchange index datum
  | removeAt index => (fun _ => .done) <$> UntypedSequence.removeAt index
  | setCapacity capacity => (fun _ => .done) <$> UntypedSequence.setCapacity capacity
  | clear => (fun _ => .done) <$> UntypedSequence.clear
  | elementAt index type => .content <$> UntypedSequence.elementAt index type
  | bytesAt index => (fun found => .stored found.1 found.2) <$> UntypedSequence.bytesAt index
  | tagAt index => .tag <$> UntypedSequence.tagAt index
  | sizeAt index => .number <$> UntypedSequence.sizeAt index
  | count => (fun header => .number header.count) <$> header

/-- The alignment of the type that an operation adds is a power of two. -/
def Aligned : Operation → Prop
  | add datum => ∃ exponent, datum.type.align = 2 ^ exponent
  | _ => True

/-- The values of a sequence stay within the arena that it can have. -/
def Room : Operation → List Datum → Prop
  | add datum, elements => packedFrom 0 (elements ++ [datum]) ≤ maxCapacity
  | _, _ => True

end Operation

namespace Elements

/-- What is checked before room is made for a number of elements. -/
def demandCapacity (capacity : Nat) : Checked Unit :=
  if capacity ≤ maxCapacity then .ok () else .error (.overflow .slotCapacity)

/-- What an operation answers from the elements, and the elements after it. -/
def perform : Operation → List Datum → Checked (Answer × List Datum)
  | .add datum, elements => do
    demandStorable datum.type
    return (.number elements.length, elements ++ [datum])
  | .exchange index datum, elements => do
    return (.content (← access elements index datum.type), write elements index datum.bytes)
  | .removeAt index, elements => do
    let _ ← element elements index
    return (.done, elements.eraseIdx index)
  | .setCapacity capacity, elements => do
    demandCapacity capacity
    return (.done, elements)
  | .clear, _ => return (.done, [])
  | .elementAt index type, elements => do
    return (.content (← access elements index type), elements)
  | .bytesAt index, elements => do
    let datum ← element elements index
    return (.stored datum.type.tag datum.bytes, elements)
  | .tagAt index, elements => do return (.tag (← element elements index).type.tag, elements)
  | .sizeAt index, elements => do return (.number (← element elements index).bytes.size, elements)
  | .count, elements => return (.number elements.length, elements)

end Elements

variable {Buffer : Type} [Host Buffer] {site : Site Buffer} {image : Image} {elements : List Datum}

/-! ### Sites that carry elements -/

/-- The site holds the elements in some image. -/
def Carries (site : Site Buffer) (elements : List Datum) : Prop :=
  ∃ image, Holds site image elements

/-- An operation on a site does what is expected of the elements, unless it is refused. -/
abbrev Performs {α : Type} (site : Site Buffer) (elements : List Datum) (limits : Prop)
    (operation : Store Buffer α) (expected : Checked (α × List Datum)) : Prop :=
  Store.Performs Carries CannotGrow site elements limits operation expected

/-! ### Adding -/

/-- Where a value starts and ends behind the ones that are there. -/
def placeBehind (allocated : Nat) (datum : Datum) : Checked (Nat × Nat) := do
  let offset ← orFail (alignUp? allocated (elementAlign datum.type)) (.overflow .arenaSize)
  let stop ← orFail (size? (offset + datum.type.size)) (.overflow .arenaSize)
  let offset ← toWord32 offset .arenaSize
  let stop ← toWord32 stop .arenaSize
  return (offset, stop)

/-- What makes room for one more element. -/
def makeRoom (before : Header) : Store Buffer Unit := do
  if before.count = before.capacity then
    grow (← nextCapacity before.count before.capacity before.log2MinGrowth)

/-- What puts a value into a free slot once there is room for its bytes. -/
def fillSlot (datum : Datum) (offset stop : Nat) : Store Buffer Nat := do
  ensureData stop
  Store.edit format (place datum offset (elementAlign datum.type))

theorem add_eq (datum : Datum) : (add datum : Store Buffer Nat) = (do
    demandStorable datum.type
    let before ← header
    let (offset, stop) ← placeBehind before.dataAllocated datum
    makeRoom before
    fillSlot datum offset stop) := by
  simp only [add, placeBehind, makeRoom, fillSlot, elementAlign, Edit.lift_bind, bind_assoc]
  refine bind_congr fun _ => bind_congr fun before => bind_congr fun offset => bind_congr fun stop =>
    bind_congr fun _ => bind_congr fun _ => ?_
  split
  · exact (bind_assoc _ _ _).symm
  · rfl

theorem bounded_placeBehind (allocated : Nat) (datum : Datum) :
    (placeBehind allocated datum).Bounded := by
  unfold placeBehind
  refine (Checked.bounded_orFail _ _).bind fun _ => (Checked.bounded_orFail _ _).bind fun _ =>
    (bounded_toWord32 _ _).bind fun _ => (bounded_toWord32 _ _).bind fun _ => .ok _

/-- There is a place for every value that ends within the words. -/
theorem placeBehind_eq_ok {cursor : Nat} {datum : Datum} (storable : Storable datum.type)
    (near : cursor < 2 ^ 32) {place : Nat × Nat} :
    placeBehind cursor datum = .ok place ↔
      stopFrom cursor datum < 2 ^ 32 ∧ place = (startFrom cursor datum, stopFrom cursor datum) := by
  have size : startFrom cursor datum + datum.type.size = stopFrom cursor datum := by
    rw [stopFrom, datum.size_bytes]
  have behind : startFrom cursor datum ≤ stopFrom cursor datum := Nat.le_add_right _ _
  simp only [placeBehind, Checked.bind_eq_ok, orFail_eq_ok, size?_eq_some_iff, toWord32_eq_ok,
    storable.alignUp?_eq near]
  constructor
  · rintro ⟨_, ⟨⟩, _, ⟨-, rfl⟩, _, ⟨-, rfl⟩, _, ⟨small, rfl⟩, same⟩
    rw [size] at small same
    exact ⟨small, (Except.ok.inj same).symm⟩
  · rintro ⟨small, rfl⟩
    refine ⟨_, rfl, _, ⟨?_, rfl⟩, _, ⟨Nat.lt_of_le_of_lt behind small, rfl⟩, _, ⟨?_, rfl⟩, ?_⟩
    · rw [size]
      exact Nat.lt_of_lt_of_le small (by decide)
    · rw [size]
      exact small
    · rw [size]
      rfl

theorem storable_of {type : ElementType} (power : ∃ exponent, type.align = 2 ^ exponent)
    (checked : demandStorable type = .ok ()) : Storable type := by
  simp only [demandStorable, Checked.bind_eq_ok, demand_eq_ok] at checked
  obtain ⟨_, supported, positive⟩ := checked
  exact ⟨isAlign_of_two_pow power supported, positive⟩

theorem demandStorable_of {type : ElementType} (storable : Storable type) :
    demandStorable type = .ok () := by
  rw [demandStorable, demand_of storable.supported.le, Checked.bind_ok, demand_of storable.positive]

/-- How a value is written over an element of its type. -/
def replacement (index : Nat) (datum : Datum) : Edit Image Bytes := do
  let image ← get
  let old ← readAt index datum.type image
  putData (← fetch image.offsets index) datum.bytes
  return old

/-- A value is written over an element where the element can be accessed as the value's type. -/
theorem Represents.replacement_spec (represents : Represents image elements) {index : Nat}
    {old : Datum} (there : elements[index]? = some old) (datum : Datum) :
    (∃ failure, Elements.access elements index datum.type = .error failure ∧
      replacement index datum image = .error failure image) ∨
    ∃ content changed, Elements.access elements index datum.type = .ok content ∧
      replacement index datum image = .ok content changed ∧ changed.layout = image.layout ∧
      Represents changed (Elements.write elements index datum.bytes) ∧
      changed.header.log2MinGrowth = image.header.log2MinGrowth := by
  have read := represents.readAt_eq there datum.type
  cases accessed : Elements.access elements index datum.type with
  | error failure =>
    rw [accessed] at read
    refine Or.inl ⟨failure, rfl, ?_⟩
    simp only [replacement, Edit.run_bind, Edit.run_get, read, Edit.run_lift_error]
  | ok content =>
    rw [accessed] at read
    have size : datum.bytes.size = old.bytes.size := by
      rw [Elements.access, Elements.element_of there, Checked.bind_ok, demandType] at accessed
      obtain ⟨_, matching, -⟩ := Checked.bind_eq_ok.mp accessed
      rw [(demand_eq_ok.mp matching).2, datum.size_bytes]
    obtain ⟨changed, written, layout, representsChanged, step⟩ := represents.write_spec there size
    refine Or.inr ⟨content, changed, rfl, ?_, layout, representsChanged, step⟩
    simp only [replacement, Edit.run_bind, Edit.run_get, read, Edit.run_lift_ok,
      fetch_of (represents.stored there).offset_eq, written, Edit.run_pure]

namespace Holds

section

variable [LawfulHost Buffer] (holds : Holds site image elements)

include holds

/-- There is a record for one more element, or there are too many elements already. -/
theorem run_makeRoom :
    (∃ failure, makeRoom image.header site = .error failure site ∧ failure.IsStorage ∧
      (maxCapacity ≤ elements.length ∨ CannotGrow site failure)) ∨
    ∃ later roomy, makeRoom image.header site = .ok () later ∧ Holds later roomy elements ∧
      elements.length < roomy.header.capacity ∧ site.Continues later := by
  have regular := holds.represents.regular
  have reached := regular.reached
  have count := holds.represents.count
  by_cases full : image.header.count = image.header.capacity
  · have run : makeRoom image.header site =
        (liftM (nextCapacity image.header.count image.header.capacity
          image.header.log2MinGrowth) >>= grow : Store Buffer Unit) site := by
      simp only [makeRoom, if_pos full]
    rw [nextCapacity_eq reached (Nat.le_of_eq full)] at run
    by_cases largest : image.header.capacity = maxCapacity
    · refine Or.inl ⟨.overflow .slotCapacity, ?_, Failure.isStorage_overflow _,
        Or.inl (by omega)⟩
      rw [run, if_pos largest]
      rfl
    · rw [if_neg largest, Edit.run_bind, Edit.run_lift_ok] at run
      have double := reached.double largest
      rcases holds.run_grow double reached.lt_double with
        ⟨failure, refused, refuses⟩ | ⟨later, grown, runGrow, holdsLater, isHeader, continues⟩
      · exact Or.inl ⟨failure, run.trans refused, refuses.isStorage, Or.inr
          ⟨_, _, double.le_max, regular.dataReached.le_max, refuses⟩⟩
      · have more := reached.lt_double
        refine Or.inr ⟨later, grown, run.trans runGrow, holdsLater, ?_, continues⟩
        rw [isHeader]
        show elements.length < 2 * image.header.capacity
        omega
  · have least := regular.count_le
    refine Or.inr ⟨site, image, ?_, holds, by omega, Site.Continues.refl site⟩
    simp only [makeRoom, if_neg full, Edit.run_pure]

/-- A value takes a free slot, or the arena has no room for its bytes. -/
theorem run_fillSlot {datum : Datum} (storable : Storable datum.type)
    (below : elements.length < image.header.capacity) :
    (∃ failure, fillSlot datum (startFrom (packedFrom 0 elements) datum)
        (packedFrom 0 (elements ++ [datum])) site = .error failure site ∧ failure.IsStorage ∧
      ensureData (packedFrom 0 (elements ++ [datum])) site = .error failure site ∧
      (maxCapacity < packedFrom 0 (elements ++ [datum]) ∨ CannotGrow site failure)) ∨
    ∃ later, fillSlot datum (startFrom (packedFrom 0 elements) datum)
        (packedFrom 0 (elements ++ [datum])) site = .ok elements.length later ∧
      Store.Follows Carries site later (elements ++ [datum]) := by
  rcases holds.run_ensureData (packedFrom 0 (elements ++ [datum])) with
    ⟨failure, refused, storage, cause⟩ | ⟨middle, wide, widened, holdsWide, fits, capacity, continues⟩
  · exact Or.inl ⟨failure, by simp only [fillSlot, Edit.run_bind, refused], storage, refused, cause⟩
  · rw [← capacity] at below
    obtain ⟨changed, runPlace, layout, represents, -⟩ :=
      holdsWide.represents.place_spec below storable fits
    obtain ⟨later, runEdit, holdsLater, continuesLater⟩ :=
      holdsWide.run_edit runPlace layout represents
    exact Or.inr ⟨later, by simp only [fillSlot, Edit.run_bind, widened, runEdit],
      continues.trans continuesLater, changed, holdsLater⟩

/-- A value with a place is added once there is room for its record and its bytes. -/
theorem performs_insert {datum : Datum} (storable : Storable datum.type) :
    Performs site elements (packedFrom 0 (elements ++ [datum]) ≤ maxCapacity)
      (do
        makeRoom image.header
        fillSlot datum (startFrom (packedFrom 0 elements) datum)
          (packedFrom 0 (elements ++ [datum])))
      (.ok (elements.length, elements ++ [datum])) := by
  have positive : ∀ other ∈ elements ++ [datum], 0 < other.type.size := by
    intro other member
    rcases List.mem_append.mp member with there | there
    · exact (holds.represents.storable other there).positive
    · rw [List.mem_singleton.mp there]
      exact storable.positive
  have many := @length_le_packedFrom 0 _ positive
  rw [List.length_append, List.length_singleton] at many
  rcases holds.run_makeRoom with
    ⟨failure, refused, storage, cause⟩ | ⟨middle, roomy, runRoom, holdsRoomy, below, continues⟩
  · refine .refused (by rw [Edit.run_bind, refused]) (.refl ⟨image, holds⟩) storage ?_
    exact cause.imp (fun full within => by omega)
      fun cannot => ⟨site, Site.Continues.refl site, cannot⟩
  · rcases holdsRoomy.run_fillSlot storable below with
      ⟨failure, refused, storage, -, cause⟩ | ⟨later, filled, follows⟩
    · refine .refused (by rw [Edit.run_bind, runRoom]; exact refused)
        ⟨continues, roomy, holdsRoomy⟩ storage ?_
      exact cause.imp (fun large within => by omega) fun cannot => ⟨middle, continues, cannot⟩
    · exact .answered (by rw [Edit.run_bind, runRoom]; exact filled) rfl (follows.after continues)

/-- A value is added behind the others and has their number as its index. -/
theorem run_add {datum : Datum} (power : ∃ exponent, datum.type.align = 2 ^ exponent) :
    Performs site elements (packedFrom 0 (elements ++ [datum]) ≤ maxCapacity) (add datum) (do
      demandStorable datum.type
      return (elements.length, elements ++ [datum])) := by
  rw [add_eq]
  refine Store.Performs.guard ⟨image, holds⟩ fun checked => ?_
  have storable := storable_of power checked
  have bound := holds.represents.packed_le_max
  have near : packedFrom 0 elements < 2 ^ 32 := Nat.lt_of_le_of_lt bound (by decide)
  have ends : packedFrom 0 (elements ++ [datum]) = stopFrom (packedFrom 0 elements) datum := by
    rw [packedFrom_append, packedFrom_cons, packedFrom_nil]
  cases placed : placeBehind (packedFrom 0 elements) datum with
  | error failure =>
    refine .refused ?_ (.refl ⟨image, holds⟩) (bounded_placeBehind _ _ failure placed)
      (Or.inl fun within => ?_)
    · simp only [Edit.run_bind, holds.run_header, holds.represents.allocated, placed,
        Edit.run_lift_error]
    · have small : stopFrom (packedFrom 0 elements) datum < 2 ^ 32 := by
        rw [← ends]
        exact Nat.lt_of_le_of_lt within (by decide)
      have there := (placeBehind_eq_ok storable near).mpr ⟨small, rfl⟩
      exact absurd (there.symm.trans placed) (by simp)
  | ok place =>
    obtain ⟨-, rfl⟩ := (placeBehind_eq_ok storable near).mp placed
    refine (holds.performs_insert storable).congr ?_
    simp only [Edit.run_bind, holds.run_header, holds.represents.allocated, placed,
      Edit.run_lift_ok, ends]

/-! ### Writing and removing -/

omit [LawfulHost Buffer] in
/-- An operation on an element fails if there is none with the index. -/
theorem performs_at {α : Type} {index : Nat} {limits : Prop} {operation : Store Buffer α}
    {expected : Datum → Checked (α × List Datum)}
    (performs : ∀ datum, elements[index]? = some datum →
      Performs site elements limits operation (expected datum)) :
    Performs site elements limits
      (do
        demandIndex index
        operation)
      (Elements.element elements index >>= expected) := by
  cases there : elements[index]? with
  | none =>
    have outside := Nat.not_lt_of_le (List.getElem?_eq_none_iff.mp there)
    rw [Elements.element_of_none there]
    refine .failed ?_ rfl (.refl ⟨image, holds⟩)
    simp only [demandIndex, Edit.run_bind, holds.run_header, holds.represents.count,
      demand_of_not outside, Edit.run_lift_error]
  | some datum =>
    have inside := (List.getElem?_eq_some_iff.mp there).1
    rw [Elements.element_of there]
    refine (performs datum there).congr ?_
    simp only [demandIndex, Edit.run_bind, holds.run_header, holds.represents.count,
      demand_of inside, Edit.run_lift_ok]

/-- What is written to an element takes the place of its old bytes, if it is one of its type. -/
theorem run_exchange (index : Nat) (datum : Datum) :
    Performs site elements True (exchange index datum) (do
      let old ← Elements.access elements index datum.type
      return (old, Elements.write elements index datum.bytes)) := by
  have expects : (do
      let old ← Elements.access elements index datum.type
      return (old, Elements.write elements index datum.bytes)) =
      (Elements.element elements index >>= fun _ => do
        let old ← Elements.access elements index datum.type
        return (old, Elements.write elements index datum.bytes)) := by
    cases found : Elements.element elements index with
    | error failure =>
      rw [Elements.access, found, Checked.bind_error, Checked.bind_error, Checked.bind_error]
    | ok datum => rw [Elements.access, found, Checked.bind_ok, Checked.bind_ok]
  rw [expects]
  refine holds.performs_at fun old there => ?_
  rcases holds.represents.replacement_spec there datum with
    ⟨failure, accessed, run⟩ | ⟨content, changed, accessed, run, layout, represents, -⟩
  · obtain ⟨later, runEdit, same, continues⟩ := holds.run_edit_failed run
    rw [accessed]
    exact .failed runEdit rfl ⟨continues, image, holds.of_bytes same⟩
  · obtain ⟨later, runEdit, holdsLater, continues⟩ := holds.run_edit run layout represents
    rw [accessed]
    exact .answered runEdit rfl ⟨continues, changed, holdsLater⟩

/-- The elements behind a removed one move up by one index. -/
theorem run_removeAt (index : Nat) :
    Performs site elements True (removeAt index) (do
      let _ ← Elements.element elements index
      return ((), elements.eraseIdx index)) := by
  refine holds.performs_at fun datum there => ?_
  obtain ⟨inside, -⟩ := List.getElem?_eq_some_iff.mp there
  obtain ⟨changed, run, layout, represents, -⟩ := holds.represents.removal_spec inside
  obtain ⟨later, runEdit, holdsLater, continues⟩ := holds.run_edit run layout represents
  unfold removal at runEdit
  refine @Store.Performs.answered _ _ _ _ _ _ _ _ _ _ _ () _ { later with events := later.events ++
      [.elementRemoved index (packedFrom 0 (elements.eraseIdx index))] } ?_ rfl
    ⟨continues.trans (Site.Continues.report later _), changed,
      ⟨holdsLater.loaded, holdsLater.size_eq, holdsLater.represents⟩⟩
  rw [Edit.run_bind, runEdit]
  rfl

/-! ### Making room and clearing -/

/-- More room changes no element. -/
theorem run_setCapacity (capacity : Nat) :
    Performs site elements True (setCapacity capacity) (do
      Elements.demandCapacity capacity
      return ((), elements)) := by
  have regular := holds.represents.regular
  have reached := regular.reached
  by_cases more : image.header.capacity < capacity
  · have run : setCapacity capacity site =
        (liftM (grownCapacity image.header.count capacity image.header.log2MinGrowth) >>=
          grow : Store Buffer Unit) site := by
      simp only [setCapacity, Edit.run_bind, holds.run_header, if_pos more]
    by_cases large : maxCapacity < capacity
    · have step := reached.le_log2
      rw [grownCapacity_eq_error (by omega) large] at run
      refine .failed run ?_ (.refl ⟨image, holds⟩)
      rw [Elements.demandCapacity, if_neg (Nat.not_le_of_lt large)]
      rfl
    · have within := Nat.le_of_not_lt large
      obtain ⟨larger, grown⟩ := grownCapacity_of (Nat.le_trans regular.count_le reached.le_max)
        within reached.le_log2
      obtain ⟨reachedLarger, -, room⟩ := IsCapacity.of_grown grown
      rw [Edit.run_bind, grown, Edit.run_lift_ok] at run
      rcases holds.run_grow reachedLarger (Nat.lt_of_lt_of_le more room) with
        ⟨failure, refused, refuses⟩ | ⟨later, wide, runGrow, holdsLater, -, continues⟩
      · exact .refused (run.trans refused) (.refl ⟨image, holds⟩) refuses.isStorage
          (Or.inr ⟨site, Site.Continues.refl site, _, _, reachedLarger.le_max,
            regular.dataReached.le_max, refuses⟩)
      · refine .answered (run.trans runGrow) ?_ ⟨continues, wide, holdsLater⟩
        rw [Elements.demandCapacity, if_pos within]
        rfl
  · have within : capacity ≤ maxCapacity := Nat.le_trans (Nat.le_of_not_lt more) reached.le_max
    refine @Store.Performs.answered _ _ _ _ _ _ _ _ _ _ _ () elements site ?_ ?_ (.refl ⟨image, holds⟩)
    · simp only [setCapacity, Edit.run_bind, holds.run_header, if_neg more, Edit.run_pure]
    · rw [Elements.demandCapacity, if_pos within]
      rfl

theorem run_clear : Performs site elements True clear (.ok ((), [])) := by
  have cleared := holds.represents.regular.cleared
  obtain ⟨later, run, -, size, loaded, continues⟩ :=
    run_writeHeader cleared.fits holds.represents.sound.computed holds.size_eq
  refine @Store.Performs.answered _ _ _ _ _ _ _ _ _ _ _ () _ later ?_ rfl ⟨continues, _, loaded, size,
    (Image.sound_of_load loaded).represents_nil cleared rfl rfl⟩
  simp only [clear, Edit.run_bind, holds.run_header, run]

/-! ### Any operation -/

omit [LawfulHost Buffer] in
/-- A question to an element changes nothing. -/
theorem performs_ask {α : Type} {limits : Prop} {operation : Store Buffer α}
    {expected : Checked α} (run : operation site = (liftM expected : Store Buffer α) site)
    (change : α → Answer) :
    Performs site elements limits (change <$> operation)
      (expected >>= fun answer => pure (change answer, elements)) := by
  have performs : Performs site elements limits operation _ := .of_checked ⟨image, holds⟩ run
  refine (performs.map change).expects ?_
  simp only [map_eq_pure_bind, bind_assoc, pure_bind, Prod.map, id]

/-- Every operation on the sequence performs as the same operation on its elements. -/
theorem performs {operation : Operation} (aligned : operation.Aligned) :
    Performs site elements (operation.Room elements) operation.run
      (Elements.perform operation elements) := by
  cases operation with
  | add datum =>
    refine ((holds.run_add aligned).map Answer.number).expects ?_
    simp only [Elements.perform, map_bind, map_pure, Prod.map, id]
  | exchange index datum =>
    refine ((holds.run_exchange index datum).map Answer.content).expects ?_
    simp only [Elements.perform, map_bind, map_pure, Prod.map, id]
  | removeAt index =>
    refine ((holds.run_removeAt index).map fun _ => Answer.done).expects ?_
    simp only [Elements.perform, map_bind, map_pure, Prod.map, id]
  | setCapacity capacity =>
    refine ((holds.run_setCapacity capacity).map fun _ => Answer.done).expects ?_
    simp only [Elements.perform, map_bind, map_pure, Prod.map, id]
  | clear => exact holds.run_clear.map fun _ => Answer.done
  | elementAt index type => exact holds.performs_ask (holds.run_elementAt index type) Answer.content
  | bytesAt index =>
    refine (holds.performs_ask (holds.run_bytesAt index) fun found =>
      Answer.stored found.1 found.2).expects ?_
    simp only [Elements.perform, bind_assoc, pure_bind]
  | tagAt index =>
    refine (holds.performs_ask (holds.run_tagAt index) Answer.tag).expects ?_
    simp only [Elements.perform, bind_assoc, pure_bind]
  | sizeAt index =>
    refine (holds.performs_ask (holds.run_sizeAt index) Answer.number).expects ?_
    simp only [Elements.perform, bind_assoc, pure_bind]
  | count =>
    refine @Store.Performs.answered _ _ _ _ _ _ _ _ _ _ _ _ _ site ?_ rfl (.refl ⟨image, holds⟩)
    show ((fun header => Answer.number header.count) <$> header) site = _
    simp only [Edit.run_map, holds.run_header, holds.represents.count]

end

end Holds

end PackedStore.UntypedSequence
