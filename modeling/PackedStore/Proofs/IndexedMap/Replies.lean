/-
This file says what an indexed map replies to everything that can be asked of it.
Requests bring rows of the shape of the map, and name indices that the map has; a
cursor may be any, also one that has been carried over from another state.
-/

import PackedStore.Proofs.Host.Scripts
import PackedStore.Proofs.IndexedMap.Safety
import PackedStore.Proofs.IndexedMap.Tracking

namespace PackedStore.IndexedMap

/-- What an indexed map replies. -/
inductive Reply where
  | answer (answer : Answer)
  | header (header : Header)
  | entry (entry : Option Entry)
  | entries (entries : List Entry)
  | first (found : Option (Entry × Cursor))
  | next (found : Option Entry × Cursor)
  | text (text : String)

namespace Request

/-- The request to an indexed map in a host, with its reply. -/
def ask {Buffer : Type} [Host Buffer] (shape : Shape) : Request → Store Buffer Reply
  | perform change => .answer <$> change.ask shape
  | header => .header <$> IndexedMap.header
  | entryAt slot => .entry <$> IndexedMap.entryAt shape slot
  | entriesFor position index => .entries <$> IndexedMap.entriesFor shape position index
  | entries => .entries <$> IndexedMap.entries shape
  | first position index => .first <$> IndexedMap.first shape position index
  | next position cursor => .next <$> IndexedMap.next shape position cursor
  | listing text => .text <$> IndexedMap.listing shape text

/-- The request brings rows and values of the types of the shape and names an index that the map
has. -/
def Brings (shape : Shape) : Request → Prop
  | perform change => change.Fits shape
  | entriesFor position _ | first position _ | next position _ => position < shape.indices.length
  | _ => True

/-- All requests but changes only read, also where they fail. -/
theorem reads_ask {Buffer : Type} [Host Buffer] (shape : Shape) {request : Request}
    (reading : ∀ change, request ≠ .perform change) :
    Store.Reads (request.ask shape : Store Buffer Reply) := by
  cases request with
  | perform change => exact absurd rfl (reading change)
  | header => exact (Store.Reads.bytes.bind fun _ => .lift _).map _
  | entryAt | entriesFor | entries | next => exact (Store.Reads.view _ _).map _
  | first position index =>
    refine Store.Reads.map (.bind (.view _ _) fun found => ?_) _
    cases found with
    | mk entry cursor => cases entry <;> exact .pure _
  | listing text => exact ((Store.Reads.view _ _).bind fun _ => .pure _).map _

end Request

/-- The answer of a change plays no part in what it leads to. -/
theorem Change.outcome_ask {Buffer : Type} [Host Buffer] (shape : Shape) (change : Change)
    (site : Site Buffer) :
    (Store.outcome (change.ask shape) site).2 = (Store.outcome (change.run shape) site).2 := by
  cases change with
  | single operation => exact (Change.outcome_single operation site).symm
  | flatten =>
    rw [Change.ask, bind_pure_comp]
    exact congrArg Prod.snd (Store.outcome_map _ _ site)
  | removeRange start count =>
    rw [Change.ask, bind_pure_comp]
    exact congrArg Prod.snd (Store.outcome_map _ _ site)

/-- Runs of changes lead to reachable sites. -/
theorem Reachable.followed {Buffer : Type} [Host Buffer] {shape : Shape} {site : Site Buffer}
    (reachable : Reachable shape site) {changes : List Change}
    (fits : ∀ change ∈ changes, change.Fits shape) :
    Reachable shape ((Store.machine (Change.ask shape)).reached changes site) := by
  induction changes generalizing site with
  | nil => exact reachable
  | cons change rest inductionHypothesis =>
    have next := reachable.change change (fits change List.mem_cons_self)
    rw [← Change.outcome_ask] at next
    exact inductionHypothesis next fun other member => fits other (List.mem_cons_of_mem _ member)

/-- Whatever is asked of a map, it is a map afterwards. -/
theorem Sound.ask {Buffer : Type} [Host Buffer] [LawfulHost Buffer] {shape : Shape}
    {site : Site Buffer} (wellFormed : shape.WellFormed) (sound : Sound shape site)
    {request : Request} (brings : request.Brings shape) :
    Sound shape (Store.outcome (request.ask shape) site).2 := by
  cases request with
  | perform change =>
    rw [Request.ask, Store.outcome_map, Change.outcome_ask]
    exact sound.change wellFormed brings
  | _ =>
    rw [Request.reads_ask shape (by simp) site]
    exact sound

end PackedStore.IndexedMap
