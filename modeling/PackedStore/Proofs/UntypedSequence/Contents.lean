/-
This file lifts the elements of an image to the block of a host. A site holds a
list of values when its block is exactly as long as the layout and its image
stands for the values. Reading operations answer from the list and change nothing;
an edit that makes the image stand for other values does so in the block.
-/

import PackedStore.Proofs.UntypedSequence.Removal

namespace PackedStore.UntypedSequence

variable {Buffer : Type} [Host Buffer] {site : Site Buffer} {image : Image} {elements : List Datum}

/-- The block of the site is the one of the image, which stands for the elements. -/
structure Holds (site : Site Buffer) (image : Image) (elements : List Datum) : Prop where
  loaded : Image.load site.bytes = .ok image
  size_eq : site.bytes.size = image.layout.total
  represents : Represents image elements

/-! ### Reading -/

namespace Holds

variable (holds : Holds site image elements)

include holds

theorem load_header : Header.load site.bytes = .ok image.header := by
  obtain ⟨header, layout, loaded, -, -, rfl⟩ := Image.load_eq_ok.mp holds.loaded
  exact loaded

theorem run_header : header site = .ok image.header site := by
  simp only [header, Edit.run_bind, Store.run_bytes, holds.load_header, Edit.run_lift_ok]

/-- What a site holds depends on its bytes only. -/
theorem of_bytes {later : Site Buffer} (same : later.bytes = site.bytes) :
    Holds later image elements :=
  ⟨by rw [same]; exact holds.loaded, by rw [same]; exact holds.size_eq, holds.represents⟩

/-- An image that has been read stands in its block. -/
theorem at_eq : Image.at image.layout image.header site.bytes = image := by
  obtain ⟨header, layout, -, -, -, rfl⟩ := Image.load_eq_ok.mp holds.loaded
  rfl

/-- What an element answers to a question is asked of its value. -/
theorem run_ask {α : Type} {index : Nat} {read : Image → Checked α} {expected : Datum → Checked α}
    (same : ∀ datum, elements[index]? = some datum → read image = expected datum) :
    (do
      demandIndex index
      Store.view format read : Store Buffer α) site =
      (liftM (Elements.element elements index >>= expected) : Store Buffer α) site := by
  by_cases inside : index < elements.length
  · have there := List.getElem?_eq_getElem inside
    simp only [demandIndex, Store.view, Edit.run_bind, holds.run_header, holds.represents.count,
      demand_of inside, Edit.run_lift_ok, Store.run_bytes, format, holds.loaded, same _ there,
      Elements.element_of there, Checked.bind_ok]
  · have absent := List.getElem?_eq_none (Nat.le_of_not_lt inside)
    simp only [demandIndex, Edit.run_bind, holds.run_header, holds.represents.count,
      demand_of_not inside, Edit.run_lift_error, Elements.element_of_none absent,
      Checked.bind_error]

theorem run_tagAt (index : Nat) :
    tagAt index site =
      (liftM (Elements.element elements index >>= fun datum => pure datum.type.tag) :
        Store Buffer TypeTag) site :=
  holds.run_ask fun _ there => fetch_of (holds.represents.stored there).tag_eq

theorem run_sizeAt (index : Nat) :
    sizeAt index site =
      (liftM (Elements.element elements index >>= fun datum => pure datum.bytes.size) :
        Store Buffer Nat) site :=
  holds.run_ask fun _ there => fetch_of (holds.represents.stored there).size_eq

theorem run_bytesAt (index : Nat) :
    bytesAt index site =
      (liftM (Elements.element elements index >>= fun datum => pure (datum.type.tag, datum.bytes)) :
        Store Buffer (TypeTag × Bytes)) site := by
  refine holds.run_ask fun datum there => ?_
  rw [holds.represents.contentAt_eq there, Checked.bind_ok,
    fetch_of (holds.represents.stored there).tag_eq, Checked.bind_ok]

theorem run_elementAt (index : Nat) (type : ElementType) :
    elementAt index type site =
      (liftM (Elements.access elements index type) : Store Buffer Bytes) site := by
  refine holds.run_ask fun datum there => ?_
  rw [holds.represents.readAt_eq there, Elements.access, Elements.element_of there, Checked.bind_ok]

end Holds

/-! ### Changing the image -/

/-- A block with a sound image of the same layout saved to it holds that image. -/
theorem holds_put [LawfulHost Buffer] (size_eq : site.bytes.size = image.layout.total)
    (represents : Represents image elements) :
    Holds (site.put (Image.save image site.bytes)) image elements := by
  have size : (Image.save image site.bytes).size = site.bytes.size := by
    rw [Image.save_eq, Segment.size_writeAll]
  have bytes : (site.put (Image.save image site.bytes)).bytes = Image.save image site.bytes :=
    Site.bytes_put size
  refine ⟨?_, by rw [bytes, size, size_eq], represents⟩
  rw [bytes]
  exact represents.sound.load_save (Nat.le_of_eq size_eq.symm)

namespace Holds

variable [LawfulHost Buffer] (holds : Holds site image elements) {α : Type}
  {change : Edit Image α}

include holds

/-- An edit that makes the image stand for other elements does so in the block. -/
theorem run_edit {answer : α} {changed : Image} {others : List Datum}
    (run : change image = .ok answer changed) (layout : changed.layout = image.layout)
    (represents : Represents changed others) :
    ∃ later, Store.edit format change site = .ok answer later ∧ Holds later changed others ∧
      site.Continues later :=
  ⟨_, Store.run_edit_ok holds.loaded run,
    holds_put (by rw [layout]; exact holds.size_eq) represents, Site.Continues.put site _⟩

/-- An edit that fails before it changes anything changes no byte. -/
theorem run_edit_failed {failure : Failure} (run : change image = .error failure image) :
    ∃ later, Store.edit format change site = .error failure later ∧ later.bytes = site.bytes ∧
      site.Continues later := by
  have edited := @Store.run_edit_error _ _ _ _ site format image holds.loaded change failure image run
  rw [show format.save image site.bytes = site.bytes from Image.save_of_load holds.loaded] at edited
  exact ⟨_, edited, Site.bytes_put rfl, Site.Continues.put site _⟩

end Holds

end PackedStore.UntypedSequence
