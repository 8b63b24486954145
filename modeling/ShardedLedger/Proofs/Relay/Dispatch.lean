import ShardedLedger.Relay.Cluster

namespace ShardedLedger

open Relay

section Dispatch

variable {request : RelayRequest} {shards : List Shard}

theorem dispatch_transport {slot : Nat} {shard after : Shard} {reply : Option ShardReply}
    (hslot : shards[slot]? = some shard)
    (hanswer : ∀ connection, shard.answer (request.forwarded connection) = (after, reply))
    (pool : ConnectionPool) :
    ∃ endpoint, (dispatch (Cluster.transport true) request slot pool shards).2 =
      (shards.set slot after, reply.elim (.error (.unavailable endpoint)) .ok) := by
  refine ⟨pool.acquire.1.endpoint, ?_⟩
  simp only [dispatch, Cluster.transport, hslot, hanswer]
  cases reply <;> rfl

-- Shards that a request leaves as they are give their replies in the order of their slots.
theorem askEach_of_steady {reply? : Shard → Option ShardReply}
    (hsteady : ∀ shard ∈ shards, ∀ connection,
      shard.answer (request.forwarded connection) = (shard, reply? shard))
    (slot : Nat) (pools : List ConnectionPool) (hlength : slot + pools.length = shards.length) :
    (askEach (Cluster.transport true) request slot pools shards).2 =
      (shards, (shards.drop slot).filterMap reply?) := by
  induction pools generalizing slot with
  | nil =>
      have hdrop : shards.drop slot = [] := List.drop_eq_nil_of_le (by simp at hlength; omega)
      simp [askEach, hdrop]
  | cons pool pools ih =>
      have hslot : slot < shards.length := by
        rw [List.length_cons] at hlength
        omega
      have hget := List.getElem?_eq_getElem hslot
      obtain ⟨endpoint, hdispatch⟩ :=
        dispatch_transport hget (hsteady shards[slot] (List.getElem_mem hslot)) pool
      have hsame : shards.set slot shards[slot] = shards := List.set_getElem_self hslot
      have hothers := ih (slot + 1) (by rw [List.length_cons] at hlength; omega)
      rw [hsame] at hdispatch
      simp only [askEach, hdispatch, hothers]
      rw [List.drop_eq_getElem_cons hslot, List.filterMap_cons]
      cases reply? shards[slot] <;> rfl

end Dispatch

namespace Relay

-- Requests use the connections of a relay and nothing else of it.
theorem relay_frame {σ : Type} (relay : Relay) (transport : Transport σ) (request : RelayRequest)
    (shards : σ) :
    (relay.relay transport request shards).1.paths = relay.paths ∧
      (relay.relay transport request shards).1.table = relay.table := by
  unfold Relay.relay
  cases request.parent relay.paths with
  | error error => exact ⟨rfl, rfl⟩
  | ok root =>
      by_cases hroot : root = allAccounts
      · simp only [hroot, ite_true, fanOut]
        cases ShardReply.merge (askEach transport request 0 relay.pools shards).2.2 <;>
          exact ⟨rfl, rfl⟩
      · simp only [hroot, ite_false]
        exact ⟨rfl, rfl⟩

-- The outcome of a fan-out whose replies arrive in this order.
def gathered (request : RelayRequest) (arrived : List ShardReply) : Except RelayError ShardReply :=
  match ShardReply.merge arrived with
  | some reply => .ok reply
  | none => .error (.noReplies request.method request.target.print)

end Relay

namespace Cluster

-- What the shards reply to a request that concerns them all, in the order of their slots.
def replies (cluster : Cluster) (request : RelayRequest) : List ShardReply :=
  (askEach (transport cluster.connected) request 0 cluster.relay.pools cluster.shards).2.2

-- What may come of a request: the replies of a fan-out are merged as they arrive, in any order.
inductive MayReply (cluster : Cluster) (request : RelayRequest) :
    Except RelayError ShardReply → Prop where
  | direct (hparent : request.parent cluster.relay.paths ≠ .ok allAccounts) :
      cluster.MayReply request (cluster.request request).2
  | merged {arrived : List ShardReply}
      (hparent : request.parent cluster.relay.paths = .ok allAccounts)
      (horder : arrived.Perm (cluster.replies request)) :
      cluster.MayReply request (gathered request arrived)

namespace MayReply

variable {cluster : Cluster} {request : RelayRequest} {outcome : Except RelayError ShardReply}

theorem eq_of_ne_all (h : cluster.MayReply request outcome)
    (hparent : request.parent cluster.relay.paths ≠ .ok allAccounts) :
    outcome = (cluster.request request).2 := by
  cases h with
  | direct => rfl
  | merged hall => exact absurd hall hparent

theorem exists_order (h : cluster.MayReply request outcome)
    (hparent : request.parent cluster.relay.paths = .ok allAccounts) :
    ∃ arrived : List ShardReply,
      arrived.Perm (cluster.replies request) ∧ outcome = gathered request arrived := by
  cases h with
  | direct hne => exact absurd hparent hne
  | merged _ horder => exact ⟨_, horder, rfl⟩

end MayReply

section Request

variable {cluster : Cluster} {request : RelayRequest}

theorem request_of_error {error : RelayError}
    (h : request.parent cluster.relay.paths = .error error) :
    cluster.request request = (cluster, .error error) := by
  unfold Cluster.request Relay.relay
  rw [h]

theorem request_of_root {root : String} (h : request.parent cluster.relay.paths = .ok root)
    (hroot : root ≠ allAccounts) : ∃ pool,
      ((cluster.request request).1.shards, (cluster.request request).2) =
        (dispatch (transport cluster.connected) request (cluster.relay.table.slotFor root) pool
          cluster.shards).2 := by
  unfold Cluster.request Relay.relay
  rw [h]
  simp only [hroot, ite_false]
  exact ⟨_, rfl⟩

theorem request_of_all (h : request.parent cluster.relay.paths = .ok allAccounts) :
    ((cluster.request request).1.shards, (cluster.request request).2) =
      ((askEach (transport cluster.connected) request 0 cluster.relay.pools cluster.shards).2.1,
        gathered request (cluster.replies request)) := by
  unfold Cluster.request Relay.relay replies gathered
  rw [h]
  simp only [ite_true, fanOut]
  cases ShardReply.merge (askEach (transport cluster.connected) request 0 cluster.relay.pools
    cluster.shards).2.2 <;> rfl

theorem request_frame (cluster : Cluster) (request : RelayRequest) :
    (cluster.request request).1.relay.paths = cluster.relay.paths ∧
      (cluster.request request).1.relay.table = cluster.relay.table ∧
      (cluster.request request).1.connected = cluster.connected := by
  obtain ⟨hpaths, htable⟩ :=
    relay_frame cluster.relay (transport cluster.connected) request cluster.shards
  exact ⟨hpaths, htable, rfl⟩

-- The order of the slots is one in which replies may arrive.
theorem mayReply_request (cluster : Cluster) (request : RelayRequest) :
    cluster.MayReply request (cluster.request request).2 := by
  by_cases h : request.parent cluster.relay.paths = .ok allAccounts
  · rw [(Prod.mk.inj (request_of_all h)).2]
    exact .merged h (.refl _)
  · exact .direct h

end Request

end Cluster

end ShardedLedger
