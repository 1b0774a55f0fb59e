/-
This file treats the replies of all containers alike: what can be asked of each one
with an answer, which keys, rows and values a request may bring, and how much of a
container is there and in use. Whatever is asked, the container is there afterwards.
-/

import PackedStore.Proofs.Containers
import PackedStore.Proofs.IndexedMap.Replies
import PackedStore.Proofs.Layout.Peaks
import PackedStore.Proofs.UntypedMap.LedgerReplies
import PackedStore.Proofs.UntypedMap.LedgerUsage
import PackedStore.Proofs.UntypedSequence.LedgerReplies
import PackedStore.Proofs.UntypedSequence.LedgerUsage

namespace PackedStore

/-- What a container replies. -/
inductive Reply where
  | map (reply : UntypedMap.Reply)
  | sequence (reply : UntypedSequence.Reply)
  | indexedMap (reply : IndexedMap.Reply)

namespace Container

variable {Buffer : Type} [Host Buffer]

/-- The request to a container in a host, with its reply. -/
def ask : (container : Container) → container.Request → Store Buffer Reply
  | map key, request => .map <$> UntypedMap.Request.ask key request
  | sequence, request => .sequence <$> UntypedSequence.Request.ask request
  | indexedMap shape, request => .indexedMap <$> IndexedMap.Request.ask shape request

/-- The request brings keys, rows and values of the types of the container, and other values of
any types that there can be. -/
def Brings : (container : Container) → container.Request → Prop
  | map key, request => UntypedMap.Request.Brings key request
  | sequence, request => UntypedSequence.Request.Brings request
  | indexedMap shape, request => IndexedMap.Request.Brings shape request

/-- How much of the container is there and in use, as its header says. -/
def usage : Container → Store Buffer Usage
  | map _ => UntypedMap.Header.usage <$> UntypedMap.header
  | sequence => UntypedSequence.Header.usage <$> UntypedSequence.header
  | indexedMap _ =>
    (fun header => ⟨header.count, header.capacity, 0, 0, header.log2MinGrowth⟩) <$>
      IndexedMap.header

/-- The length of a container with given capacities. -/
def total (capacity dataCapacity : Nat) : Container → Checked Nat
  | map key =>
    (·.total) <$> UntypedMap.Layout.compute key.toElementType capacity (2 * capacity) dataCapacity
  | sequence => (·.total) <$> UntypedSequence.Layout.compute capacity dataCapacity
  | indexedMap shape => (·.total) <$> IndexedMap.Layout.compute shape capacity (2 * capacity)

/-! ### What stands in a block -/

variable {site later : Site Buffer} {container : Container}

/-- The site holds the container, whatever there is in it. -/
def Stands (site : Site Buffer) : Container → Prop
  | map key => ∃ ledger, UntypedMap.Records key site ledger
  | sequence => ∃ ledger, UntypedSequence.Records site ledger
  | indexedMap shape => IndexedMap.Sound shape site

theorem Stands.of_init [LawfulHost Buffer] (types : container.WellFormed) {sizing : Sizing}
    (run : container.init sizing site = .ok () later) : container.Stands later := by
  cases container with
  | map key =>
    obtain ⟨_, _, -, -, records⟩ := UntypedMap.records_of_init types.key run
    exact ⟨_, records⟩
  | sequence =>
    obtain ⟨_, _, -, -, records⟩ := UntypedSequence.records_of_init run
    exact ⟨_, records⟩
  | indexedMap shape =>
    obtain ⟨image, holds, -⟩ := IndexedMap.holds_of_init types.shape run
    exact holds.sound

theorem Stands.run_attach (types : container.WellFormed) (stands : container.Stands site) :
    container.attach site = .ok () site := by
  cases container with
  | map key =>
    obtain ⟨ledger, records⟩ := stands
    exact records.run_attach types.key
  | sequence =>
    obtain ⟨ledger, records⟩ := stands
    exact records.run_attach
  | indexedMap shape =>
    obtain ⟨image, table, orders, holds⟩ := stands
    exact holds.run_attach types.shape

/-- Whatever is asked of a container, it is there afterwards. -/
theorem Stands.ask [LawfulHost Buffer] (types : container.WellFormed)
    (stands : container.Stands site) {request : container.Request}
    (brings : container.Brings request) :
    container.Stands (Store.outcome (container.ask request) site).2 := by
  cases container with
  | map key =>
    obtain ⟨ledger, records⟩ := stands
    exact ((records.enacts_request types.key brings).map Reply.map).stands
  | sequence =>
    obtain ⟨ledger, records⟩ := stands
    exact ((records.enacts_request brings).map Reply.sequence).stands
  | indexedMap shape =>
    rw [Container.ask, Store.outcome_map]
    exact IndexedMap.Sound.ask types.shape stands brings

end Container

end PackedStore
