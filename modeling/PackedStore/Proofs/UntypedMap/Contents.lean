/-
This file lifts the entries of an image to the block of a host. A site holds a
list of entries when its block is exactly as long as the layout and its image
stands for the entries. Reading operations answer from the list and change
nothing. A value is read as a type of the family exactly when its tag and size are
those of the type; its place is then aligned for the type.
-/

import PackedStore.Proofs.UntypedMap.WholeChanges

namespace PackedStore.UntypedMap

variable {Buffer : Type} [Host Buffer] {known : ElementType → Prop} {key : KeyType}
  {site : Site Buffer} {image : Image} {entries : List Entry} {order : Nat → List Nat}

/-- The block of the site is the one of the image, which stands for the entries. -/
structure Holds (known : ElementType → Prop) (key : KeyType) (site : Site Buffer) (image : Image)
    (entries : List Entry) (order : Nat → List Nat) : Prop where
  loaded : Image.load key.toElementType site.bytes = .ok image
  size_eq : site.bytes.size = image.layout.total
  represents : Represents known key image entries order

theorem format_save : (format key.toElementType).save = Image.save key.toElementType := by
  rw [format]

/-! ### Reading an image -/

namespace Represents

variable (represents : Represents known key image entries order)

include represents

theorem find_eq (wanted : Bytes) :
    image.chains.find key.hash wanted = .ok (Entries.find entries wanted) := by
  obtain ⟨found, run, spec⟩ :=
    represents.chains.find_spec (fun _ _ _ => represents.distinct.cell_inj) wanted
  rw [run]
  congr 1
  refine Option.ext fun slot => ?_
  rw [spec, represents.distinct.find_eq_some]

/-- The place of a value suits every known type that it can be read as. -/
theorem checkAligned_eq {slot : Nat} {value : Value}
    (there : Entries.stored entries slot = some value) {type : ElementType} (isKnown : known type)
    (positive : 0 < type.align) (sameTag : value.tag = type.tag)
    (sameSize : value.bytes.size = type.size) : image.cells.checkAligned slot type = .ok () := by
  have values := represents.values
  obtain ⟨word, isWord⟩ := values.exists_word (values.lt_capacity slot value there)
  rw [ValueCells.checkAligned, fetch_of isWord, Checked.bind_ok]
  by_cases large : 4 < type.size
  · have aligned := values.suits slot value word ⟨there, by rw [sameSize]; exact large, isWord⟩ type
      isKnown sameTag.symm sameSize.symm
    rw [if_pos (isLarge_iff.mpr large), isAligned_eq positive, Checked.bind_ok,
      require_of (decide_eq_true aligned)]
  · rw [not_isLarge_iff.mpr (Nat.le_of_not_lt large)]
    rfl

/-- A typed read of a slot answers the value or finds that it has another type. -/
theorem readSlot_eq {slot : Nat} {value : Value}
    (there : Entries.stored entries slot = some value) {type : ElementType} (isKnown : known type)
    (positive : 0 < type.align) : readSlot slot type image = Entries.read entries slot type := by
  have described := represents.described
  rw [Entries.read_of_stored there, readSlot, fetch_of (described.tags slot value there),
    Checked.bind_ok, fetch_of (described.sizes slot value there), Checked.bind_ok, Value.readAs,
    demandType]
  by_cases same : value.tag = type.tag ∧ value.bytes.size = type.size
  · have read := represents.values.read slot value there
    rw [same.2] at read
    rw [demand_of same, Checked.bind_ok, ValueCells.read, read, Checked.bind_ok,
      represents.checkAligned_eq there isKnown positive same.1 same.2]
  · rw [demand_of_not same]
    rfl

theorem bytes_eq {slot : Nat} {value : Value}
    (there : Entries.stored entries slot = some value) :
    (do
      let content ← image.cells.bytes slot (← fetch image.sizes slot)
      return some (← fetch image.types slot, content) : Checked (Option (TypeTag × Bytes))) =
      .ok (some (value.tag, value.bytes)) := by
  have described := represents.described
  rw [fetch_of (described.sizes slot value there), Checked.bind_ok,
    represents.values.read slot value there, Checked.bind_ok,
    fetch_of (described.tags slot value there)]
  rfl

/-- The keys of the entries are the first ones of the key array. -/
theorem keys_eq :
    takeFront? image.chains.keys image.header.count = .ok (entries.map Entry.key) := by
  have room : entries.length ≤ image.chains.keys.size :=
    represents.chains.le_size_keys fun slot inside => by
      rw [Entries.cell, List.getElem?_eq_getElem inside]
      rfl
  rw [represents.count, takeFront?_of room]
  refine congrArg Except.ok (List.ext_getElem? fun slot => ?_)
  rw [List.getElem?_map, List.getElem?_take]
  by_cases inside : slot < entries.length
  · have there : Entries.cell entries slot = some entries[slot].key := by
      rw [Entries.cell, List.getElem?_eq_getElem inside, Option.map_some]
    rw [if_pos inside, Array.getElem?_toList, represents.chains.getElem?_keys slot _ there,
      List.getElem?_eq_getElem inside, Option.map_some]
  · rw [if_neg inside, List.getElem?_eq_none (Nat.le_of_not_lt inside), Option.map_none]

end Represents

/-! ### Reading a site -/

namespace Holds

variable (holds : Holds known key site image entries order)

include holds

/-- What a site holds depends on its bytes only. -/
theorem of_bytes {later : Site Buffer} (same : later.bytes = site.bytes) :
    Holds known key later image entries order :=
  ⟨by rw [same]; exact holds.loaded, by rw [same]; exact holds.size_eq, holds.represents⟩

theorem load_header : Header.load site.bytes = .ok image.header := by
  obtain ⟨header, layout, loaded, -, -, rfl⟩ := Image.load_eq_ok.mp holds.loaded
  exact loaded

theorem run_header : header site = .ok image.header site := by
  simp only [header, Edit.run_bind, Store.run_bytes, holds.load_header, Edit.run_lift_ok]

theorem run_find (wanted : Bytes) :
    find key wanted site = .ok (Entries.find entries wanted) site :=
  Store.run_view_ok holds.loaded (holds.represents.find_eq wanted)

theorem run_contains (wanted : Bytes) :
    contains key wanted site = .ok (Entries.find entries wanted).isSome site := by
  simp only [contains, Edit.run_bind, holds.run_find, Edit.run_pure]

/-- The tag and the bytes of a key, as the entries have them. -/
theorem run_getBytes? (wanted : Bytes) :
    getBytes? key wanted site =
      .ok ((Entries.lookup entries wanted).map fun value => (value.tag, value.bytes)) site := by
  refine Store.run_view_ok holds.loaded ?_
  rw [holds.represents.find_eq, Checked.bind_ok, Entries.lookup]
  cases found : Entries.find entries wanted with
  | none => rfl
  | some slot =>
    obtain ⟨value, there⟩ := Entries.exists_stored found
    rw [Option.bind_some, there]
    exact holds.represents.bytes_eq there

theorem run_keys : keys key site = .ok (entries.map Entry.key) site :=
  Store.run_view_ok holds.loaded holds.represents.keys_eq

/-- A typed read of a slot answers its value or that the value has another type. -/
theorem run_readSlot {slot : Nat} {value : Value}
    (there : Entries.stored entries slot = some value) {type : ElementType} (isKnown : known type)
    (positive : 0 < type.align) :
    Store.view (format key.toElementType) (readSlot slot type) site =
      (liftM (Entries.read entries slot type) : Store Buffer Bytes) site := by
  simp only [Store.view, Edit.run_bind, Store.run_bytes, format, holds.loaded, Edit.run_lift_ok,
    holds.represents.readSlot_eq there isKnown positive]

/-- A typed read of a key answers its value, none, or that the value has another type. -/
theorem run_get? (wanted : Bytes) {type : ElementType} (isKnown : known type)
    (positive : 0 < type.align) :
    get? key wanted type site =
      (liftM (Entries.get? entries wanted type) : Store Buffer (Option Bytes)) site := by
  simp only [get?, Store.view, Edit.run_bind, Store.run_bytes, format, holds.loaded,
    Edit.run_lift_ok, holds.represents.find_eq, Checked.bind_ok, Entries.get?]
  cases found : Entries.find entries wanted with
  | none => rfl
  | some slot =>
    obtain ⟨value, there⟩ := Entries.exists_stored found
    simp only [holds.represents.readSlot_eq there isKnown positive]
    rfl

end Holds

/-! ### Changing the image -/

/-- An edit that keeps the layout and leads to a sound image leaves that image in the block. -/
theorem run_edit_of_sound [LawfulHost Buffer] (wellFormed : key.toElementType.WellFormed)
    (loaded : Image.load key.toElementType site.bytes = .ok image)
    (size_eq : site.bytes.size = image.layout.total) {α : Type} {change : Edit Image α} {answer : α}
    {changed : Image} (run : change image = .ok answer changed)
    (layout : changed.layout = image.layout) (sound : changed.Sound key) :
    ∃ later, Store.edit (format key.toElementType) change site = .ok answer later ∧
      Image.load key.toElementType later.bytes = .ok changed ∧
      later.bytes.size = changed.layout.total ∧ site.Continues later := by
  have size : (Image.save key.toElementType changed site.bytes).size = site.bytes.size := by
    rw [Image.save_eq, Segment.size_writeAll]
  have bytes : (site.put (Image.save key.toElementType changed site.bytes)).bytes =
      Image.save key.toElementType changed site.bytes := Site.bytes_put size
  have total : changed.layout.total ≤ site.bytes.size :=
    Nat.le_of_eq (by rw [layout, size_eq])
  have edited := @Store.run_edit_ok _ _ _ _ site (format key.toElementType) image loaded change
    answer changed run
  rw [format_save] at edited
  refine ⟨_, edited, ?_, ?_, Site.Continues.put site _⟩
  · rw [bytes]
    exact sound.load_save wellFormed total
  · rw [bytes, size, size_eq, layout]

/-- An edit that makes the image stand for entries does so in the block. -/
theorem run_edit [LawfulHost Buffer] (wellFormed : key.toElementType.WellFormed)
    (loaded : Image.load key.toElementType site.bytes = .ok image)
    (size_eq : site.bytes.size = image.layout.total) {α : Type} {change : Edit Image α} {answer : α}
    {changed : Image} (run : change image = .ok answer changed)
    (layout : changed.layout = image.layout)
    (represents : Represents known key changed entries order) :
    ∃ later, Store.edit (format key.toElementType) change site = .ok answer later ∧
      Holds known key later changed entries order ∧ site.Continues later := by
  obtain ⟨later, edited, loadedLater, sizeLater, continues⟩ :=
    run_edit_of_sound wellFormed loaded size_eq run layout represents.sound
  exact ⟨later, edited, ⟨loadedLater, sizeLater, represents⟩, continues⟩

end PackedStore.UntypedMap
