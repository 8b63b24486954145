import ShardedLedger.Proofs.Relay.Transparency

namespace ShardedLedger

namespace RelayRequest

-- What is asked about all accounts.
def IsOverall (paths : Paths) (request : RelayRequest) : Prop :=
  request.method = "GET" ∧ paths.isGlobal request.target.path = true

instance (paths : Paths) (request : RelayRequest) : Decidable (request.IsOverall paths) :=
  inferInstanceAs (Decidable (_ ∧ _))

-- The name that a request is about: that in its query if it has the path of a listing, and else
-- that in its path.
def account? (paths : Paths) (request : RelayRequest) : Option String :=
  if paths.isGlobal request.target.path then request.query.get? Endpoint.nameParameter
  else (paths.resolve request.target.path).map (·.account)

variable {paths : Paths} {request : RelayRequest} {root : String}

theorem eq_all_of_isOverall (h : request.parent? paths = some root)
    (hoverall : request.IsOverall paths) : root = allAccounts := by
  obtain ⟨hmethod, hglobal⟩ := hoverall
  obtain ⟨method, hofName, -, hcases⟩ := parent?_cases h
  have hget : Method.ofName? "GET" = some .get := by decide
  rw [hmethod, hget] at hofName
  rcases hcases with ⟨_, _, hall⟩ | ⟨hpost, _⟩ | ⟨hpath, _⟩
  · exact hall
  · rw [hpost] at hofName
    cases hofName
  · rw [hpath] at hglobal
    cases hglobal

theorem exists_account_of_not_isOverall (h : request.parent? paths = some root)
    (hoverall : ¬request.IsOverall paths) :
    ∃ name, request.account? paths = some name ∧ Key.rootOf name = root := by
  obtain ⟨method, hmethod, -, hcases⟩ := parent?_cases h
  rcases hcases with ⟨rfl, hglobal, -⟩ | ⟨-, hpath, name, hname, hroot⟩ |
    ⟨hglobal, destination, hresolve, -, -, hroot⟩
  · exact absurd ⟨Method.eq_name_of_ofName? hmethod, hglobal⟩ hoverall
  · have hglobal := (paths.isGlobal_iff request.target.path).mpr (.inl hpath)
    exact ⟨name, by rw [account?, if_pos hglobal, hname], hroot⟩
  · refine ⟨destination.account, ?_, hroot⟩
    rw [account?, hglobal, hresolve]
    rfl

end RelayRequest

namespace Relay

section Asked

variable {σ : Type}

-- The same transport, which notes down the slots of the shards that it is used for.
def recorded (transport : Transport σ) : Transport (List Nat × σ) :=
  fun slot request (slots, shards) =>
    let (shards, reply) := transport slot request shards
    ((slots ++ [slot], shards), reply)

-- The slots that the root of a request decides on.
def slots (relay : Relay) (request : RelayRequest) : List Nat :=
  match request.parent relay.paths with
  | .error _ => []
  | .ok root =>
      if root = allAccounts then List.range relay.table.size
      else [(relay.table.slotFor root).val]

-- The slots of the shards that a request is sent to.
def asked (transport : Transport σ) (relay : Relay) (request : RelayRequest) (shards : σ) :
    List Nat :=
  (relay.relay (recorded transport) request ([], shards)).2.1.1

variable (transport : Transport σ) (request : RelayRequest)

theorem dispatch_recorded (slot : Nat) (pool : ConnectionPool) (slots : List Nat) (shards : σ) :
    dispatch (recorded transport) request slot pool (slots, shards) =
      ((dispatch transport request slot pool shards).1,
        (slots ++ [slot], (dispatch transport request slot pool shards).2.1),
        (dispatch transport request slot pool shards).2.2) := by
  simp only [dispatch, recorded]
  rcases transport slot (request.forwarded (pool.acquire.1.connectionHeader pool.acquire.2)) shards
    with ⟨after, _ | reply⟩ <;> rfl

theorem askEach_recorded (slot : Nat) (pools : List ConnectionPool) (slots : List Nat)
    (shards : σ) :
    askEach (recorded transport) request slot pools (slots, shards) =
      ((askEach transport request slot pools shards).1,
        (slots ++ List.range' slot pools.length, (askEach transport request slot pools shards).2.1),
        (askEach transport request slot pools shards).2.2) := by
  induction pools generalizing slot slots shards with
  | nil => simp [askEach]
  | cons pool pools ih =>
      simp only [askEach, dispatch_recorded, ih, List.length_cons, List.range'_succ,
        List.append_assoc, List.singleton_append]

variable (relay : Relay) (shards : σ)

-- Noting down the slots makes no other difference, and they are those of the root.
theorem relay_recorded (slots : List Nat) :
    relay.relay (recorded transport) request (slots, shards) =
      ((relay.relay transport request shards).1,
        (slots ++ relay.slots request, (relay.relay transport request shards).2.1),
        (relay.relay transport request shards).2.2) := by
  unfold Relay.relay Relay.slots
  cases request.parent relay.paths with
  | error error => simp
  | ok root =>
      by_cases hroot : root = allAccounts
      · simp only [hroot, ite_true, fanOut, askEach_recorded, relay.length_pools,
          ← List.range_eq_range']
        cases ShardReply.merge (askEach transport request 0 relay.pools shards).2.2 <;> rfl
      · simp only [hroot, ite_false, single, dispatch_recorded]

theorem asked_eq : relay.asked transport request shards = relay.slots request := by
  rw [asked, relay_recorded, List.nil_append]

end Asked

end Relay

section Growth

variable {apiPrefix root : String} {key : Key}

theorem Ledger.contains_reply {ledger : Ledger} {request : Http.Request}
    (h : (ledger.reply apiPrefix request).1.contains key = true) :
    ledger.contains key = true ∨ Method.ofName? request.method = some .post ∧
      (Paths.below apiPrefix).resolve request.target.path = some ⟨allAccounts, Action.none⟩ ∧
      ∃ name, request.target.query.get? Endpoint.nameParameter = some name ∧
        Key.rootOf name = key.root := by
  unfold reply at h
  split at h
  next => exact .inl h
  next body hbody =>
    split at h
    next => exact .inl h
    next method hmethod =>
      refine (contains_route h).imp_right fun ⟨hpost, hcreation, hname⟩ => ?_
      exact ⟨hpost ▸ hmethod, hcreation, hname⟩

-- A shard may have another prefix than the relay: what it creates is below the root that the
-- relay has found all the same.
theorem Ledger.root_of_contains_reply {paths : Paths} {request : RelayRequest} {ledger : Ledger}
    (hquery : request.query = request.target.query) (hparent : request.parent? paths = some root)
    (h : (ledger.reply apiPrefix request.toRequest).1.contains key = true) :
    ledger.contains key = true ∨ key.root = root := by
  refine (contains_reply h).imp_right fun ⟨hpost, hcreation, name, hname, hroot⟩ => ?_
  obtain ⟨method, hmethod, -, hcases⟩ := RelayRequest.parent?_cases hparent
  cases hpost.symm.trans hmethod
  rcases hcases with ⟨hget, _⟩ | ⟨-, -, other, hother, hparentRoot⟩ |
    ⟨hglobal, destination, hresolve, hroutable, -⟩
  · cases hget
  · rw [hquery, hname] at hother
    cases hother
    exact hroot.symm.trans hparentRoot
  · have hwrites : destination.action ∈ Action.writes := by
      simpa [RelayRequest.isRoutable] using hroutable
    exact absurd hcreation (Paths.resolve_ne_creation hresolve hglobal hwrites)

theorem Shard.root_of_contains_answer {paths : Paths} {request : RelayRequest} {shard : Shard}
    {ledger : Ledger} (connection : String) (hquery : request.query = request.target.query)
    (hparent : request.parent? paths = some root)
    (hledger : (shard.answer (request.forwarded connection)).1.ledger? = some ledger)
    (hkey : ledger.contains key = true) :
    (∃ before, shard.ledger? = some before ∧ before.contains key = true) ∨ key.root = root := by
  cases shard with
  | ledger service =>
      rw [Cluster.answer_forwarded] at hledger
      cases hledger
      exact (Ledger.root_of_contains_reply hquery hparent hkey).imp_left
        fun hbefore => ⟨service.ledger, rfl, hbefore⟩
  | fixed => cases hledger
  | echo => cases hledger
  | silent => cases hledger
  | absent => cases hledger

end Growth

-- Every account is in the shard of the slot of its root, unless its root stands for all of them.
def ShardTable.Places (table : ShardTable) (shards : List Shard) : Prop :=
  ∀ (slot : Nat) (shard : Shard) (ledger : Ledger), shards[slot]? = some shard →
    shard.ledger? = some ledger → ∀ key, ledger.contains key = true →
      key.root = allAccounts ∨ (table.slotFor key.root).val = slot

-- What is sent to a slot reaches its shard unchanged, or nothing does. Whatever reply there is
-- may be lost on the way back.
def Transport.Delivers (transport : Transport (List Shard)) : Prop :=
  ∀ slot request shards, (transport slot request shards).1 = shards ∨
    ∃ shard, shards[slot]? = some shard ∧
      (transport slot request shards).1 = shards.set slot (shard.answer request).1

theorem Cluster.delivers_transport (connected : Bool) : (transport connected).Delivers := by
  intro slot request shards
  unfold transport
  cases connected with
  | false => exact .inl rfl
  | true =>
      cases hshard : shards[slot]? with
      | none => exact .inl rfl
      | some shard => exact .inr ⟨shard, rfl, rfl⟩

namespace Relay

section Placed

variable {transport : Transport (List Shard)} {request : RelayRequest} {table : ShardTable}
  {paths : Paths} {root : String} {shards : List Shard}

theorem places_dispatch (hdelivers : transport.Delivers)
    (hquery : request.query = request.target.query) (hparent : request.parent? paths = some root)
    {slot : Nat} (hslot : root = allAccounts ∨ (table.slotFor root).val = slot)
    (pool : ConnectionPool) (hplaces : table.Places shards) :
    table.Places (dispatch transport request slot pool shards).2.1 := by
  have hafter : (dispatch transport request slot pool shards).2.1 =
      (transport slot (request.forwarded (pool.acquire.1.connectionHeader pool.acquire.2))
        shards).1 := by
    simp only [dispatch]
    split
    next hexchange => rw [hexchange]
    next hexchange => rw [hexchange]
  rw [hafter]
  rcases hdelivers slot
    (request.forwarded (pool.acquire.1.connectionHeader pool.acquire.2)) shards with
    hlost | ⟨shard, hshard, hreached⟩
  · rwa [hlost]
  · rw [hreached]
    intro place other ledger hother hledger key hkey
    by_cases hplace : place = slot
    · subst hplace
      rw [List.getElem?_set_self (List.getElem?_eq_some_iff.mp hshard).1] at hother
      cases hother
      rcases Shard.root_of_contains_answer _ hquery hparent hledger hkey with
        ⟨before, hbefore, hhad⟩ | rfl
      · exact hplaces place shard before hshard hbefore key hhad
      · exact hslot
    · rw [List.getElem?_set_ne (Ne.symm hplace)] at hother
      exact hplaces place other ledger hother hledger key hkey

theorem places_askEach (hdelivers : transport.Delivers)
    (hquery : request.query = request.target.query)
    (hparent : request.parent? paths = some allAccounts) (slot : Nat)
    (pools : List ConnectionPool) (hplaces : table.Places shards) :
    table.Places (askEach transport request slot pools shards).2.1 := by
  induction pools generalizing slot shards with
  | nil => exact hplaces
  | cons pool pools ih =>
      exact ih (slot + 1) (places_dispatch hdelivers hquery hparent (.inl rfl) pool hplaces)

-- A fan-out may create accounts, but only below the root that stands for all.
theorem places_relay (hdelivers : transport.Delivers)
    (hquery : request.query = request.target.query) (relay : Relay)
    (hplaces : relay.table.Places shards) :
    relay.table.Places (relay.relay transport request shards).2.1 := by
  unfold Relay.relay
  cases hparent : request.parent relay.paths with
  | error error => exact hplaces
  | ok root =>
      have hfound := RelayRequest.parent?_of_parent hparent
      by_cases hroot : root = allAccounts
      · subst hroot
        have hasked := places_askEach hdelivers hquery hfound 0 relay.pools hplaces
        simp only [ite_true, fanOut]
        cases ShardReply.merge (askEach transport request 0 relay.pools shards).2.2 <;>
          exact hasked
      · simp only [hroot, ite_false, single]
        exact places_dispatch hdelivers hquery hfound (.inr rfl) _ hplaces

-- Requests that come in one after another, and the network as each of them finds it.
def serve (relay : Relay) (shards : List Shard) :
    List (Transport (List Shard) × Http.Request) → Relay × List Shard
  | [] => (relay, shards)
  | (transport, request) :: requests =>
      let after := relay.relay transport (.ofHttp request) shards
      after.1.serve after.2.1 requests

theorem places_serve {requests : List (Transport (List Shard) × Http.Request)}
    (hdelivers : ∀ sent ∈ requests, sent.1.Delivers) (relay : Relay)
    (hplaces : relay.table.Places shards) :
    relay.table.Places (relay.serve shards requests).2 := by
  induction requests generalizing relay shards with
  | nil => exact hplaces
  | cons sent requests ih =>
      obtain ⟨transport, request⟩ := sent
      have hquery : (RelayRequest.ofHttp request).query =
          (RelayRequest.ofHttp request).target.query := rfl
      have hafter := places_relay (hdelivers (transport, request) (by simp)) hquery relay hplaces
      have htable := (relay_frame relay transport (.ofHttp request) shards).2
      rw [← htable] at hafter ⊢
      exact ih (fun sent hsent => hdelivers sent (List.mem_cons_of_mem _ hsent)) _ hafter

end Placed

-- A request that the relay hands on goes to the shard that owns the account it is about, and to
-- all shards if it is about all accounts or if the first segment of its account stands for them.
-- So no other account ever gets into a shard that does not own it.
theorem asks_owner_unless_placeholder (relay : Relay) :
    (∀ {σ : Type} (transport : Transport σ) (request : RelayRequest) (shards : σ) (root : String),
      request.parent relay.paths = .ok root →
        if request.IsOverall relay.paths then
          relay.asked transport request shards = List.range relay.table.size
        else
          ∃ name, request.account? relay.paths = some name ∧
            relay.asked transport request shards =
              if Key.rootOf name = allAccounts then List.range relay.table.size
              else [(relay.table.slotFor (Key.rootOf name)).val]) ∧
      ∀ (requests : List (Transport (List Shard) × Http.Request)) (shards : List Shard),
        (∀ sent ∈ requests, sent.1.Delivers) → relay.table.Places shards →
          relay.table.Places (relay.serve shards requests).2 := by
  refine ⟨fun transport request shards root haccepted => ?_,
    fun requests shards hdelivers hplaces => places_serve hdelivers relay hplaces⟩
  have hparent := RelayRequest.parent?_of_parent haccepted
  have hasked : relay.asked transport request shards =
      if root = allAccounts then List.range relay.table.size
      else [(relay.table.slotFor root).val] := by
    rw [asked_eq, slots, haccepted]
  split
  next hoverall => rw [hasked, if_pos (RelayRequest.eq_all_of_isOverall hparent hoverall)]
  next hoverall =>
    obtain ⟨name, hname, rfl⟩ := RelayRequest.exists_account_of_not_isOverall hparent hoverall
    exact ⟨name, hname, hasked⟩

def front : Cluster := .new .default Cluster.twoShards

def stray : Http.Request :=
  ⟨"POST", .parse "/v1/accounts?accountName=*:x&accountType=budget", [], .empty⟩

-- The creation of one account reaches both shards, and each of them then has it.
theorem asks_owner_unless_placeholder_created :
    ¬(RelayRequest.ofHttp stray).IsOverall front.relay.paths ∧
      front.relay.asked (Cluster.transport true) (.ofHttp stray) front.shards = [0, 1] ∧
      front.relay.table.Places
        (front.relay.serve front.shards [(Cluster.transport true, stray)]).2 ∧
      (front.relay.serve front.shards [(Cluster.transport true, stray)]).2.map Shard.keys? =
        [some [⟨"*"⟩, ⟨"*:x"⟩], some [⟨"*"⟩, ⟨"*:x"⟩]] := by
  obtain ⟨hasked, hplaced⟩ := asks_owner_unless_placeholder front.relay
  have hnot : ¬(RelayRequest.ofHttp stray).IsOverall front.relay.paths := by decide +kernel
  have haccepted : (RelayRequest.ofHttp stray).parent front.relay.paths = .ok "*" := by
    decide +kernel
  have hname : (RelayRequest.ofHttp stray).account? front.relay.paths = some "*:x" := by
    decide +kernel
  have hslots := hasked (Cluster.transport true) (.ofHttp stray) front.shards "*" haccepted
  have hempty : front.relay.table.Places front.shards := by
    intro slot shard ledger hshard hledger key hkey
    obtain ⟨_, _, rfl⟩ := List.mem_map.mp (List.mem_of_getElem? hshard)
    cases hledger
    cases hkey
  refine ⟨hnot, ?_, hplaced _ front.shards ?_ hempty, by decide +kernel⟩
  · rw [if_neg hnot, hname] at hslots
    obtain ⟨name, heq, hslots⟩ := hslots
    cases heq
    exact hslots
  · intro sent hsent
    rw [List.mem_singleton.mp hsent]
    exact Cluster.delivers_transport true

end Relay

end ShardedLedger
