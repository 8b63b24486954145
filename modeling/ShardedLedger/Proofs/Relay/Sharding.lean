import Mathlib.Data.List.Perm.Basic
import ShardedLedger.Proofs.Ledger.Parts
import ShardedLedger.Proofs.Relay.Dispatch
import ShardedLedger.Proofs.Relay.Shard

namespace ShardedLedger

theorem exists_map_eq_of_perm {α β : Type} {f : α → β} {list : List α} {arrived : List β}
    (h : arrived.Perm (list.map f)) :
    ∃ order : List α, order.Perm list ∧ order.map f = arrived := by
  have hlist : List.Forall₂ (fun item source => item = f source) (list.map f) list :=
    List.forall₂_map_left_iff.mpr (List.forall₂_same.mpr fun _ _ => rfl)
  obtain ⟨order, horder, hperm⟩ := List.perm_comp_forall₂ h hlist
  have heq : List.Forall₂ Eq arrived (order.map f) := List.forall₂_map_right_iff.mpr horder
  exact ⟨order, hperm, (List.forall₂_eq_eq_eq ▸ heq : arrived = order.map f).symm⟩

namespace Shard

def ledger? : Shard → Option Ledger
  | .ledger service => some service.ledger
  | _ => none

end Shard

theorem Method.eq_name_of_ofName? {name : String} {method : Method}
    (h : Method.ofName? name = some method) : name = method.name := by
  unfold Method.ofName? at h
  simpa [eq_comm] using List.find?_some h

namespace RelayRequest

-- A request as it comes in over the network that does not name all accounts where one is named.
structure IsPlain (paths : Paths) (request : RelayRequest) : Prop where
  query : request.query = request.target.query
  body : request.body.text?.isSome = true
  name : ∀ name ∈ request.query.get? Endpoint.nameParameter, Key.rootOf name ≠ allAccounts
  account : paths.isGlobal request.target.path = false →
    ∀ destination ∈ paths.resolve request.target.path, Key.rootOf destination.account ≠ allAccounts

instance (paths : Paths) (request : RelayRequest) : Decidable (request.IsPlain paths) :=
  decidable_of_iff
    (request.query = request.target.query ∧ request.body.text?.isSome = true ∧
      (∀ name ∈ request.query.get? Endpoint.nameParameter, Key.rootOf name ≠ allAccounts) ∧
      (paths.isGlobal request.target.path = false →
        ∀ destination ∈ paths.resolve request.target.path,
          Key.rootOf destination.account ≠ allAccounts))
    ⟨fun ⟨query, body, name, account⟩ => ⟨query, body, name, account⟩,
      fun ⟨query, body, name, account⟩ => ⟨query, body, name, account⟩⟩

theorem IsPlain.exists_text {paths : Paths} {request : RelayRequest} (h : request.IsPlain paths) :
    ∃ body, request.body = .text body := by
  have hbody := h.body
  cases hcases : request.body with
  | text body => exact ⟨body, rfl⟩
  | binary bytes =>
      rw [hcases] at hbody
      cases hbody

def IsListing (paths : Paths) (request : RelayRequest) : Prop :=
  request.method = "GET" ∧
    (request.target.path = paths.accounts ∨ request.target.path = paths.activeAccounts)

theorem parent?_of_isListing {paths : Paths} {request : RelayRequest}
    (h : request.IsListing paths) : request.parent? paths = some allAccounts := by
  have hglobal : paths.isGlobal request.target.path = true := by
    rw [Paths.isGlobal_iff]
    exact h.2.imp_right .inl
  have hmethod : Method.ofName? request.method = some .get := by
    rw [h.1]
    decide
  unfold parent?
  rw [hmethod]
  simp only [Option.bind_eq_bind, Option.bind_some, hglobal, ite_true]
  rfl

-- Only a reading request for all accounts concerns all of them.
theorem IsPlain.get_of_all {paths : Paths} {request : RelayRequest} (h : request.IsPlain paths)
    (hparent : request.parent? paths = some allAccounts) :
    Method.ofName? request.method = some .get ∧
      paths.isGlobal request.target.path = true := by
  obtain ⟨method, hmethod, -, hcases⟩ := parent?_cases hparent
  rcases hcases with ⟨rfl, hglobal, _⟩ | ⟨_, _, name, hname, hroot⟩ |
    ⟨hglobal, destination, hresolve, _, _, hroot⟩
  · exact ⟨hmethod, hglobal⟩
  · exact absurd hroot (h.name name hname)
  · exact absurd hroot (h.account hglobal destination hresolve)

end RelayRequest

namespace Cluster

def ledgers (cluster : Cluster) : List Ledger := cluster.shards.filterMap Shard.ledger?

-- The shards of the cluster have the parts of the ledger, each below the roots of its slot.
structure Holds (apiPrefix : String) (ledger : Ledger) (cluster : Cluster) : Prop where
  paths : cluster.relay.paths = .below apiPrefix
  connected : cluster.connected = true
  services : ∃ services : List Service, cluster.shards = services.map .ledger ∧
    (∀ service ∈ services, service.settings.apiPrefix = apiPrefix) ∧
    services.map (·.ledger) = ledger.split cluster.relay.table.slotFor

-- Connected shards, all of them ledgers with nothing in them yet.
structure IsFresh (apiPrefix : String) (cluster : Cluster) : Prop where
  paths : cluster.relay.paths = .below apiPrefix
  connected : cluster.connected = true
  services : ∃ services : List Service, cluster.shards = services.map .ledger ∧
    services.length = cluster.relay.table.size ∧
    ∀ service ∈ services, service.settings.apiPrefix = apiPrefix ∧ service.ledger = .empty

section Holding

variable {apiPrefix : String} {ledger : Ledger} {cluster : Cluster} {request : RelayRequest}

theorem IsFresh.holds (h : cluster.IsFresh apiPrefix) : cluster.Holds apiPrefix .empty := by
  obtain ⟨services, hshards, hlength, hservices⟩ := h.services
  refine ⟨h.paths, h.connected, services, hshards, fun service hs => (hservices service hs).1, ?_⟩
  refine List.ext_getElem (by simp [hlength]) fun slot hslot _ => ?_
  rw [List.length_map] at hslot
  have hempty := (hservices services[slot] (List.getElem_mem hslot)).2
  simp [Ledger.split, hempty]

-- A relay with new shards behind it, one for each entry of its table.
def new (settings : ServiceSettings) (table : ShardTable) : Cluster where
  relay := {
    paths := .below settings.apiPrefix
    table
    pools := table.entries.map fun entry => .new entry.endpoint .default
    length_pools := by simp [ShardTable.size] }
  shards := table.entries.map fun _ => .ledger (.new settings .empty)
  connected := true

theorem isFresh_new (settings : ServiceSettings) (table : ShardTable) :
    (new settings table).IsFresh settings.apiPrefix := by
  refine ⟨rfl, rfl, table.entries.map fun _ => .new settings .empty, ?_, List.length_map _, ?_⟩
  · rw [List.map_map]
    rfl
  · intro service hservice
    obtain ⟨_, _, rfl⟩ := List.mem_map.mp hservice
    exact ⟨rfl, rfl⟩

theorem Holds.ledgers (h : cluster.Holds apiPrefix ledger) :
    cluster.ledgers = ledger.split cluster.relay.table.slotFor := by
  obtain ⟨services, hshards, -, hledgers⟩ := h.services
  rw [← hledgers, Cluster.ledgers, hshards, List.filterMap_map]
  exact congrFun List.filterMap_eq_map services

theorem Holds.parent_eq_ok (h : cluster.Holds apiPrefix ledger) {root : String}
    (hparent : request.parent? (.below apiPrefix) = some root) :
    request.parent cluster.relay.paths = .ok root := by
  rw [RelayRequest.parent, h.paths, hparent]

theorem Holds.parent_ne_all (h : cluster.Holds apiPrefix ledger) {root : String}
    (hparent : request.parent? (.below apiPrefix) = some root) (hroot : root ≠ allAccounts) :
    request.parent cluster.relay.paths ≠ .ok allAccounts := by
  rw [h.parent_eq_ok hparent]
  exact fun he => hroot (Except.ok.inj he)

theorem Holds.parent_eq_error (h : cluster.Holds apiPrefix ledger)
    (hparent : request.parent? (.below apiPrefix) = none) :
    request.parent cluster.relay.paths =
      .error (.unresolved request.method request.target.path) := by
  rw [RelayRequest.parent, h.paths, hparent]

theorem answer_forwarded (service : Service) (request : RelayRequest) (connection : String) :
    (Shard.ledger service).answer (request.forwarded connection) =
      (.ledger { service with
        ledger := (service.ledger.reply service.settings.apiPrefix request.toRequest).1 },
        (service.ledger.reply service.settings.apiPrefix request.toRequest).2) :=
  Shard.answer_ledger service (request.forwarded connection)

-- The shard with the root of the request does what a single one with the whole ledger would do.
theorem Holds.request_of_root (h : cluster.Holds apiPrefix ledger)
    (hplain : request.IsPlain (.below apiPrefix)) {root : String}
    (hparent : request.parent? (.below apiPrefix) = some root) (hroot : root ≠ allAccounts) :
    (cluster.request request).1.Holds apiPrefix (ledger.reply apiPrefix request.toRequest).1 ∧
      ∃ endpoint, (cluster.request request).2 =
        (ledger.reply apiPrefix request.toRequest).2.elim (.error (.unavailable endpoint)) .ok := by
  obtain ⟨services, hshards, hsettings, hledgers⟩ := h.services
  obtain ⟨body, hbody⟩ := hplain.exists_text
  have hlocal := Ledger.isLocal_reply hplain.query hbody hparent hroot
  have hpart := Ledger.getElem?_split cluster.relay.table.slotFor ledger
    (cluster.relay.table.slotFor root)
  rw [← hledgers, List.getElem?_map, Option.map_eq_some_iff] at hpart
  obtain ⟨service, hservice, hledger⟩ := hpart
  have hinside := hlocal.inside
    (fun other => cluster.relay.table.slotFor other = cluster.relay.table.slotFor root) ledger
    (by simp)
  have hanswer (connection : String) :
      (Shard.ledger service).answer (request.forwarded connection) =
        (.ledger { service with ledger := (service.ledger.reply apiPrefix request.toRequest).1 },
        (ledger.reply apiPrefix request.toRequest).2) := by
    rw [answer_forwarded, hsettings service (List.mem_of_getElem? hservice), hledger, hinside]
  have hslot : cluster.shards[(cluster.relay.table.slotFor root).val]? =
      some (.ledger service) := by
    rw [hshards, List.getElem?_map, hservice]
    rfl
  obtain ⟨pool, hrequest⟩ := Cluster.request_of_root (h.parent_eq_ok hparent) hroot
  obtain ⟨endpoint, hdispatch⟩ := dispatch_transport hslot hanswer pool
  rw [h.connected, hdispatch] at hrequest
  obtain ⟨hafter, houtcome⟩ := Prod.mk.inj hrequest
  obtain ⟨hpaths, htable, hconnected⟩ := request_frame cluster request
  refine ⟨⟨hpaths.trans h.paths, hconnected.trans h.connected, services.set
    (cluster.relay.table.slotFor root)
      { service with ledger := (service.ledger.reply apiPrefix request.toRequest).1 }, ?_, ?_, ?_⟩,
    endpoint, houtcome⟩
  · rw [hafter, hshards, List.map_set]
  · intro other hother
    rcases List.mem_or_eq_of_mem_set hother with hold | rfl
    · exact hsettings other hold
    · exact hsettings service (List.mem_of_getElem? hservice)
  · rw [htable, List.map_set, hledgers, hledger]
    exact Ledger.set_split_of_isLocal cluster.relay.table.slotFor ledger hlocal

section All

variable {reply? : Ledger → Option ShardReply}

theorem Holds.askEach (h : cluster.Holds apiPrefix ledger)
    (hsteady : ∀ part : Ledger, part.reply apiPrefix request.toRequest = (part, reply? part)) :
    (Relay.askEach (transport cluster.connected) request 0 cluster.relay.pools cluster.shards).2 =
      (cluster.shards, (ledger.split cluster.relay.table.slotFor).filterMap reply?) := by
  obtain ⟨services, hshards, hsettings, hledgers⟩ := h.services
  have hlength : 0 + cluster.relay.pools.length = cluster.shards.length := by
    rw [Nat.zero_add, cluster.relay.length_pools, hshards, List.length_map,
      ← List.length_map (·.ledger), hledgers, Ledger.length_split]
  have hshard : ∀ shard ∈ cluster.shards, ∀ connection,
      shard.answer (request.forwarded connection) = (shard, shard.ledger?.bind reply?) := by
    intro shard hshard connection
    rw [hshards] at hshard
    obtain ⟨service, hservice, rfl⟩ := List.mem_map.mp hshard
    rw [answer_forwarded, hsettings service hservice, hsteady]
    rfl
  rw [h.connected, askEach_of_steady hshard 0 cluster.relay.pools hlength, List.drop_zero,
    ← h.ledgers, Cluster.ledgers, List.filterMap_filterMap]

theorem Holds.request_of_all (h : cluster.Holds apiPrefix ledger)
    (hparent : request.parent? (.below apiPrefix) = some allAccounts)
    (hsteady : ∀ part : Ledger, part.reply apiPrefix request.toRequest = (part, reply? part)) :
    (cluster.request request).1.Holds apiPrefix ledger ∧
      cluster.replies request =
        (ledger.split cluster.relay.table.slotFor).filterMap reply? := by
  have hasked := h.askEach hsteady
  have hrequest := Cluster.request_of_all (h.parent_eq_ok hparent)
  rw [hasked] at hrequest
  obtain ⟨hpaths, htable, hconnected⟩ := request_frame cluster request
  refine ⟨⟨hpaths.trans h.paths, hconnected.trans h.connected, ?_⟩, congrArg Prod.snd hasked⟩
  rw [(Prod.mk.inj hrequest).1, htable]
  exact h.services

-- In whatever order the lists of the parts arrive, they make up the list of the whole.
theorem gathered_names {arrived : List ShardReply} (list : Ledger → List Key)
    (hlist : ((ledger.split cluster.relay.table.slotFor).flatMap list).Perm (list ledger))
    (horder : arrived.Perm ((ledger.split cluster.relay.table.slotFor).map fun part =>
      .names ((list part).map (·.text)))) :
    ∃ names, Relay.gathered request arrived = .ok (.names names) ∧
      names.Perm ((list ledger).map (·.text)) := by
  obtain ⟨order, hperm, rfl⟩ := exists_map_eq_of_perm horder
  have hne : order ≠ [] := by
    have hlength := hperm.length_eq
    have hpos := cluster.relay.table.size_pos
    rw [Ledger.length_split] at hlength
    exact List.ne_nil_of_length_pos (by omega)
  refine ⟨order.flatMap fun part => (list part).map (·.text), ?_, ?_⟩
  · rw [Relay.gathered, ShardReply.merge_names hne]
  · rw [← List.map_flatMap]
    exact ((hperm.flatMap_right list).trans hlist).map _

theorem gathered_summaries {arrived : List ShardReply} {whole : SortedMap String Summary}
    (hwhole : ledger.globalSummary = .ok whole)
    (horder : arrived.Perm ((ledger.split cluster.relay.table.slotFor).filterMap fun part =>
      part.globalSummary.toOption.map .summaries)) :
    Relay.gathered request arrived =
      .ok ⟨200, .text (Json.ofMap (fun summary => summary.toJson.asRead) whole).print⟩ := by
  have hpart (slot : Fin cluster.relay.table.size) :=
    Ledger.globalSummary_within (fun root => cluster.relay.table.slotFor root = slot) hwhole
  have hreplies : ((ledger.split cluster.relay.table.slotFor).filterMap fun part =>
      part.globalSummary.toOption.map ShardReply.summaries) =
        (List.finRange cluster.relay.table.size).map fun slot =>
          .summaries (whole.filter fun root _ => cluster.relay.table.slotFor root = slot) := by
    rw [Ledger.split, List.filterMap_map, ← List.filterMap_eq_map]
    refine List.filterMap_congr fun slot _ => ?_
    simp only [Function.comp_apply, hpart]
    rfl
  rw [hreplies] at horder
  obtain ⟨order, hperm, rfl⟩ := exists_map_eq_of_perm horder
  have hmem (slot : Fin cluster.relay.table.size) : slot ∈ order :=
    hperm.mem_iff.mpr (List.mem_finRange slot)
  have hspread (root : String) (summary : Summary) : whole.get? root = some summary ↔
      ∃ slot ∈ order, (whole.filter fun root _ =>
        cluster.relay.table.slotFor root = slot).get? root = some summary := by
    simp only [SortedMap.get?_filter]
    constructor
    · intro hget
      exact ⟨cluster.relay.table.slotFor root, hmem _, by simp [hget]⟩
    · rintro ⟨slot, -, hget⟩
      exact (Option.filter_eq_some_iff.mp hget).1
  rw [Relay.gathered, ShardReply.merge_summaries (List.ne_nil_of_mem
    (hmem (cluster.relay.table.slotFor ""))) hspread]

end All

end Holding

end Cluster

end ShardedLedger
