/-
This file compares the runs of an untyped sequence with the list of its values. On
the list, an access as a type asks whether the value was added as one of that type,
and a value that is written takes the place of the old one. From the creation of
the sequence on, on a host that grants resizes, the sequence and the list answer
every run alike, as long as the arena is large enough for the values.
-/

import PackedStore.Proofs.UntypedMap.Simulation
import PackedStore.Proofs.UntypedSequence.Operations

namespace PackedStore.UntypedSequence

open UntypedMap (WordOrWide family_wordOrWide wideDatum)

/-- The types that an operation brings are known. -/
def Operation.Fits (known : ElementType → Prop) : Operation → Prop
  | add datum | exchange _ datum => known datum.type
  | elementAt _ type => known type
  | _ => True

/-- An operation fits with more known types as well. -/
theorem Operation.Fits.weaken {known wider : ElementType → Prop}
    (le : ∀ type, known type → wider type) {operation : Operation} (fits : operation.Fits known) :
    operation.Fits wider := by
  cases operation with
  | add | exchange | elementAt => exact le _ fits
  | _ => trivial

theorem Operation.Fits.aligned {known : ElementType → Prop} (types : AlignedTypes known)
    {operation : Operation} (fits : operation.Fits known) : operation.Aligned := by
  cases operation with
  | add datum => exact (types.wellFormed datum.type fits).align_eq
  | _ => trivial

namespace Elements

/-- What an operation answers from a list of values, and the list after it. -/
def respond : Operation → List Datum → Checked (Answer × List Datum)
  | .add datum, elements => do
    demandStorable datum.type
    return (.number elements.length, elements ++ [datum])
  | .exchange index datum, elements => do
    let old ← read elements index datum.type
    return (.content old, elements.set index datum)
  | .removeAt index, elements => do
    let _ ← element elements index
    return (.done, elements.eraseIdx index)
  | .setCapacity capacity, elements => do
    demandCapacity capacity
    return (.done, elements)
  | .clear, _ => return (.done, [])
  | .elementAt index type, elements => do
    return (.content (← read elements index type), elements)
  | .bytesAt index, elements => do
    let datum ← element elements index
    return (.stored datum.type.tag datum.bytes, elements)
  | .tagAt index, elements => do return (.tag (← element elements index).type.tag, elements)
  | .sizeAt index, elements => do return (.number (← element elements index).bytes.size, elements)
  | .count, elements => return (.number elements.length, elements)

/-- The list as a machine: an operation that fails leaves it as it was. -/
def step : Machine Operation (List Datum) Answer := fun operation elements =>
  match respond operation elements with
  | .ok (answer, changed) => (.ok answer, changed)
  | .error failure => (.error failure, elements)

variable {known : ElementType → Prop} {elements changed : List Datum} {operation : Operation}
  {index : Nat} {type : ElementType} {content : Bytes}

/-- An element that is read as a type was added as a value of that type. -/
theorem read_eq_ok : read elements index type = .ok content ↔
    ∃ datum, elements[index]? = some datum ∧ datum.type = type ∧ datum.bytes = content := by
  unfold read
  cases there : elements[index]? with
  | none => simp [element_of_none there]
  | some datum => simp [element_of there, Checked.bind_eq_ok, demand_eq_ok, pure, Except.pure]

/-- Within a family of types, the tags and sizes that are kept tell what was added. -/
theorem perform_eq_respond (family : TypeFamily known) (fits : operation.Fits known)
    (storable : ∀ datum ∈ elements, known datum.type ∧ Storable datum.type) :
    perform operation elements = respond operation elements := by
  cases operation with
  | exchange index datum =>
    rw [perform, respond, access_eq_read family fits storable]
    cases found : read elements index datum.type with
    | error failure => rfl
    | ok old =>
      obtain ⟨replaced, there, same, -⟩ := read_eq_ok.mp found
      rw [write_eq_set there same]
  | elementAt index type => rw [perform, respond, access_eq_read family fits storable]
  | _ => rfl

/-- The types of all values stay known. -/
theorem known_of_perform (fits : operation.Fits known) (allKnown : ∀ datum ∈ elements, known datum.type)
    {answer : Answer} (performs : perform operation elements = .ok (answer, changed)) :
    ∀ datum ∈ changed, known datum.type := by
  have unchanged {α : Type} {checked : Checked α} {next : α → Answer}
      (same : (checked >>= fun value => pure (next value, elements)) = .ok (answer, changed)) :
      ∀ datum ∈ changed, known datum.type := by
    obtain ⟨_, -, same⟩ := Checked.bind_eq_ok.mp same
    obtain ⟨-, rfl⟩ := Prod.mk.inj (Except.ok.inj same)
    exact allKnown
  cases operation with
  | add datum =>
    obtain ⟨_, -, same⟩ := Checked.bind_eq_ok.mp performs
    obtain ⟨-, rfl⟩ := Prod.mk.inj (Except.ok.inj same)
    intro other member
    rcases List.mem_append.mp member with there | there
    · exact allKnown other there
    · rw [List.mem_singleton.mp there]
      exact fits
  | exchange index datum =>
    obtain ⟨_, -, same⟩ := Checked.bind_eq_ok.mp performs
    obtain ⟨-, rfl⟩ := Prod.mk.inj (Except.ok.inj same)
    exact known_write allKnown
  | removeAt index =>
    obtain ⟨_, -, same⟩ := Checked.bind_eq_ok.mp performs
    obtain ⟨-, rfl⟩ := Prod.mk.inj (Except.ok.inj same)
    exact fun other member => allKnown other (List.mem_of_mem_eraseIdx member)
  | clear =>
    obtain ⟨-, rfl⟩ := Prod.mk.inj (Except.ok.inj performs)
    simp
  | setCapacity capacity => exact unchanged performs
  | elementAt index type => exact unchanged performs
  | bytesAt index => exact unchanged performs
  | tagAt index => exact unchanged performs
  | sizeAt index => exact unchanged performs
  | count =>
    obtain ⟨-, rfl⟩ := Prod.mk.inj (Except.ok.inj performs)
    exact allKnown

end Elements

/-! ### Runs -/

variable {Buffer : Type} [Host Buffer] [LawfulHost Buffer] {granted : Buffer → Prop}
  {known : ElementType → Prop} {site : Site Buffer} {elements : List Datum}

/-- The host of the site grants resizes, and the site carries the elements, whose types are
known. -/
structure Mirrors (granted : Buffer → Prop) (known : ElementType → Prop) (elements : List Datum)
    (site : Site Buffer) : Prop where
  here : granted site.buffer
  carries : Carries site elements
  known : ∀ datum ∈ elements, known datum.type

theorem Mirrors.of_init (granting : Granting granted) {start : Site Buffer}
    (here : granted start.buffer) {sizing : Sizing} (run : init sizing start = .ok () site) :
    Mirrors granted known [] site := by
  obtain ⟨image, created, continues⟩ := holds_of_init run
  exact ⟨continues granted granting here, ⟨image, created⟩, by simp⟩

omit [LawfulHost Buffer] in
/-- The types of the values are known, and a sequence takes them. -/
theorem Mirrors.storable (mirrors : Mirrors granted known elements site) :
    ∀ datum ∈ elements, known datum.type ∧ Storable datum.type := by
  obtain ⟨image, holds⟩ := mirrors.carries
  exact fun datum member => ⟨mirrors.known datum member, holds.represents.storable datum member⟩

/-- As long as the arena is large enough, a host that grants resizes is never in the way. -/
theorem Mirrors.step (granting : Granting granted) (family : TypeFamily known) {operation : Operation}
    (allowed : operation.Fits known ∧ operation.Room elements)
    (mirrors : Mirrors granted known elements site) :
    (Elements.step operation elements).1 = (Store.machine Operation.run operation site).1 ∧
      Mirrors granted known (Elements.step operation elements).2
        (Store.machine Operation.run operation site).2 := by
  obtain ⟨fits, room⟩ := allowed
  obtain ⟨image, holds⟩ := mirrors.carries
  have granted (middle : Site Buffer) (failure : Failure) (continues : site.Continues middle) :=
    @not_cannotGrow _ _ middle _ granting (continues granted granting mirrors.here) failure
  have same := Elements.perform_eq_respond family fits mirrors.storable
  have performs := (holds.performs (fits.aligned family.aligned)).expects same.symm
  rcases performs.agrees room granted with
    ⟨answer, changed, responds, answers, follows⟩ | ⟨failure, responds, fails, follows⟩
  · rw [Store.machine, Elements.step, responds]
    exact ⟨answers.symm, follows.continues _ granting mirrors.here, follows.stands,
      Elements.known_of_perform fits mirrors.known (same.trans responds)⟩
  · rw [Store.machine, Elements.step, responds]
    exact ⟨fails.symm, follows.continues _ granting mirrors.here, follows.stands, mirrors.known⟩

/-- On a host that grants resizes, a sequence answers every run that its arena has room for, from
its creation on, as the list of values does. -/
theorem answers_eq_elements (granting : Granting granted) (family : TypeFamily known)
    {start : Site Buffer} (here : granted start.buffer) {sizing : Sizing}
    (run : init sizing start = .ok () site) {operations : List Operation}
    (fits : ∀ operation ∈ operations, operation.Fits known)
    (within : Elements.step.Always Operation.Room operations []) :
    (Store.machine Operation.run).answers operations site = Elements.step.answers operations [] := by
  have step (operation : Operation) (elements : List Datum) (site : Site Buffer)
      (allowed : operation.Fits known ∧ operation.Room elements)
      (mirrors : Mirrors granted known elements site) := mirrors.step granting family allowed
  exact (Machine.answers_eq_of_always step (Machine.always_and fits within)
    (Mirrors.of_init granting here run)).1.symm

/-- A word. -/
def wordDatum (value : Nat) : Datum :=
  ⟨.word32, (Bytes.littleEndian 4 value).toArray, Bytes.length_littleEndian 4 value⟩

/-- Wide values stay what they are when words in front of them are removed. -/
theorem wide_answers_as_elements :
    ∃ site : Site BlockBuffer, init {} ⟨.empty none, []⟩ = .ok () site ∧
      (Store.machine Operation.run).answers
        [.add (wordDatum 1), .add (wideDatum 2), .add (wordDatum 3), .setCapacity 1000,
          .exchange 1 (wideDatum 4), .removeAt 0, .elementAt 0 DataType.wide.element,
          .elementAt 0 .word32, .bytesAt 1, .sizeAt 0, .tagAt 2, .count, .clear, .count] site =
        [.ok (.number 0), .ok (.number 1), .ok (.number 2), .ok .done,
          .ok (.content (wideDatum 2).bytes), .ok .done, .ok (.content (wideDatum 4).bytes),
          .error (.misuse (.typeMismatch (.index 0) DataType.wide.element.tag 16 .word32)),
          .ok (.stored ElementType.word32.tag (wordDatum 3).bytes), .ok (.number 16),
          .error (.misuse (.indexOutOfRange 2 2)), .ok (.number 2), .ok .done, .ok (.number 0)] := by
  obtain ⟨site, run⟩ := @run_init_of_granting BlockBuffer _ ⟨.empty none, []⟩ _ _
    BlockBuffer.granting rfl rfl {} (by decide) (by decide) (by decide)
  refine ⟨site, run, (answers_eq_elements BlockBuffer.granting family_wordOrWide rfl run ?_ ?_).trans
    ?_⟩
  · simp only [List.mem_cons, List.not_mem_nil, or_false, forall_eq_or_imp, forall_eq]
    exact ⟨Or.inl rfl, Or.inr rfl, Or.inl rfl, trivial, Or.inr rfl, trivial, Or.inr rfl, Or.inl rfl,
      trivial, trivial, trivial, trivial, trivial, trivial⟩
  · refine ⟨Nat.le_of_ble_eq_true rfl, Nat.le_of_ble_eq_true rfl, Nat.le_of_ble_eq_true rfl, trivial,
      trivial, trivial, trivial, trivial, trivial, trivial, trivial, trivial, trivial, trivial,
      trivial⟩
  · rfl

end PackedStore.UntypedSequence
