import ShardedLedger.Proofs.Except
import ShardedLedger.Proofs.Ledger.Effect
import ShardedLedger.Proofs.Ledger.Locality
import ShardedLedger.Proofs.Routing.Paths
import ShardedLedger.Service.Http

namespace ShardedLedger

theorem Key.root_of_parse {text : String} {key : Key} (h : Key.parse text = .ok key) :
    key.root = Key.rootOf text := by
  rw [((Key.parse_eq_ok_iff text key).mp h).1]
  rfl

namespace RouteTable

variable {η : Type}

theorem foldl_bind (table : RouteTable η) (list : List ((Method × String) × η))
    (h : ((table.bindings ++ list).map (·.1)).Nodup) :
    list.foldl (fun table binding => table.bind binding.1.1 binding.1.2 binding.2) table =
      ⟨table.paths, table.bindings ++ list⟩ := by
  induction list generalizing table with
  | nil => simp
  | cons binding list ih =>
      have hfilter : table.bindings.filter (·.1 ≠ binding.1) = table.bindings := by
        refine List.filter_eq_self.mpr fun bound hbound => ?_
        rw [List.map_append, List.nodup_append] at h
        simpa using h.2.2 bound.1 (List.mem_map_of_mem hbound) binding.1 (by simp)
      have hbind : table.bind binding.1.1 binding.1.2 binding.2 =
          ⟨table.paths, table.bindings ++ [binding]⟩ := by
        unfold bind
        rw [show (binding.1.1, binding.1.2) = binding.1 from rfl, hfilter]
      rw [List.foldl_cons, hbind, ih _ (by simpa using h)]
      simp

end RouteTable

namespace Endpoint

theorem table_eq (apiPrefix : String) : table apiPrefix = ⟨.below apiPrefix, bindings⟩ :=
  RouteTable.foldl_bind (.empty apiPrefix) bindings
    (show (bindings.map (·.1)).Nodup by decide +kernel)

theorem handler?_table (apiPrefix : String) (method : Method) (action : String) :
    (table apiPrefix).handler? method action = bindings.lookup (method, action) := by
  rw [table_eq]
  rfl

open Ledger (IsLocal IsLocalQuery)

section Below

variable {root : String} {request : RouteRequest}

theorem root_of_key (hroot : Key.rootOf request.account = root) {key : Key}
    (h : request.key = .ok key) : key.root = root :=
  (Key.root_of_parse (mapError_eq_ok_iff.mp h)).trans hroot

theorem isLocal_answered {run : Ledger → Ledger.Outcome Account} (h : IsLocal root run) :
    IsLocal root fun ledger => answered (run ledger) :=
  h.map fun outcome => (failed outcome).map (·.text)

theorem isLocal_changed (hroot : Key.rootOf request.account = root)
    {operation : Ledger → Key → Pool → Ledger.Outcome Account}
    (h : ∀ key pool, key.root = root → IsLocal root fun ledger => operation ledger key pool) :
    IsLocal root fun ledger => changed operation ledger request := by
  cases hkey : request.key with
  | error error =>
      simp only [changed, hkey]
      exact .pure _
  | ok key =>
      cases hpool : request.pool with
      | error error =>
          simp only [changed, hkey, hpool]
          exact .pure _
      | ok pool =>
          simp only [changed, hkey, hpool]
          exact isLocal_answered (h key pool (root_of_key hroot hkey))

theorem isLocal_closed (hroot : Key.rootOf request.account = root) :
    IsLocal root fun ledger => closed ledger request := by
  cases hkey : request.key with
  | error error =>
      simp only [closed, hkey]
      exact .pure _
  | ok key =>
      simp only [closed, hkey]
      exact isLocal_answered (Ledger.isLocal_close (root_of_key hroot hkey))

-- A creation names its account in the query and none in the path.
theorem parse_of_creation {key : Key} {type : AccountType}
    (h : creation request = .ok (key, type)) :
    request.isForAll = true ∧
      ∃ name, request.query.get? nameParameter = some name ∧ Key.parse name = .ok key := by
  have hall : request.isForAll = true := by
    by_contra hall
    rw [Bool.not_eq_true] at hall
    simp only [creation, hall] at h
    cases h
  simp only [creation, hall, Bool.not_true, Bool.false_eq_true, ite_false] at h
  obtain ⟨name, hparameter, h⟩ := bind_eq_ok_iff.mp h
  obtain ⟨parsed, hparse, h⟩ := bind_eq_ok_iff.mp h
  obtain ⟨_, _, h⟩ := bind_eq_ok_iff.mp h
  obtain ⟨_, _, h⟩ := bind_eq_ok_iff.mp h
  cases h
  have hget : request.query.get? nameParameter = some name := by
    unfold RouteRequest.parameter at hparameter
    split at hparameter
    next h =>
      cases hparameter
      exact h
    next => cases hparameter
  exact ⟨hall, name, hget, mapError_eq_ok_iff.mp hparse⟩

theorem name_of_creation {key : Key} {type : AccountType} (h : creation request = .ok (key, type)) :
    request.isForAll = true ∧
      ∃ name, request.query.get? nameParameter = some name ∧ Key.rootOf name = key.root := by
  obtain ⟨hall, name, hget, hparse⟩ := parse_of_creation h
  exact ⟨hall, name, hget, (Key.root_of_parse hparse).symm⟩

-- A creation is below the root of the name in its query.
theorem root_of_creation
    (hname : ∀ name, request.query.get? nameParameter = some name → Key.rootOf name = root)
    {key : Key} {type : AccountType} (h : creation request = .ok (key, type)) :
    key.root = root := by
  obtain ⟨-, name, hget, hroot⟩ := name_of_creation h
  exact hroot.symm.trans (hname name hget)

theorem isLocal_created
    (hname : ∀ name, request.query.get? nameParameter = some name → Key.rootOf name = root) :
    IsLocal root fun ledger => created ledger request := by
  cases hcreation : creation request with
  | error error =>
      simp only [created, hcreation]
      exact .pure _
  | ok named =>
      simp only [created, hcreation]
      exact isLocal_answered (Ledger.isLocal_create (root_of_creation hname hcreation) named.2)

theorem isLocalQuery_account (hroot : Key.rootOf request.account = root)
    (hall : request.isForAll = false) :
    IsLocalQuery root fun ledger => account ledger request := by
  intro keep ledger hkeep
  cases hkey : request.key with
  | error error => simp [account, hall, hkey, bind, Except.bind]
  | ok key =>
      have hget := Ledger.isLocalQuery_get? (root_of_key hroot hkey) keep ledger hkeep
      simp only [account, hall, Bool.false_eq_true, ite_false, hkey, bind, Except.bind, hget]

theorem isLocalQuery_summaryText (hroot : Key.rootOf request.account = root)
    (hall : request.isForAll = false) :
    IsLocalQuery root fun ledger => summaryText ledger request := by
  intro keep ledger hkeep
  cases hkey : request.key with
  | error error => simp [summaryText, hall, hkey, refused, bind, Except.bind, Except.mapError]
  | ok key =>
      have hsummary := Ledger.isLocalQuery_summary (root_of_key hroot hkey) keep ledger hkeep
      simp only [summaryText, hall, Bool.false_eq_true, ite_false, hkey, refused, bind, Except.bind,
        Except.mapError, hsummary]

theorem isLocalQuery_childList (hroot : Key.rootOf request.account = root) :
    IsLocalQuery root fun ledger => childList ledger request := by
  intro keep ledger hkeep
  cases hkey : request.key with
  | error error => simp [childList, hkey, bind, Except.bind]
  | ok key =>
      have hchildren := Ledger.isLocalQuery_children (root_of_key hroot hkey) keep ledger hkeep
      simp only [childList, hkey, bind, Except.bind, hchildren]

theorem isLocalQuery_subtreeText (hroot : Key.rootOf request.account = root) :
    IsLocalQuery root fun ledger => subtreeText ledger request := by
  intro keep ledger hkeep
  cases hkey : request.key with
  | error error => simp [subtreeText, hkey, bind, Except.bind]
  | ok key =>
      have hsubtree := Ledger.isLocalQuery_subtree (root_of_key hroot hkey) keep ledger hkeep
      simp only [subtreeText, hkey, bind, Except.bind, hsubtree]

-- What is asked about one account is below the root of its name, and only a listing is not.
theorem isLocal_answer (request : RouteRequest) (hroot : Key.rootOf request.account = root)
    (hall : request.isForAll = false) {endpoint : Endpoint} (h : endpoint ≠ .activeAccounts) :
    IsLocal root fun ledger => endpoint.answer ledger request := by
  have hchange (change : Key → Pool → Account → Account × Option Overflow) :
      IsLocal root fun ledger => changed
        (fun ledger key pool => ledger.changeActive key (change key pool)) ledger request :=
    isLocal_changed hroot fun key pool hkey => Ledger.isLocal_changeActive hkey (change key pool)
  cases endpoint with
  | create =>
      have hcreation : creation request = .error (.notFound request.path) := by
        simp only [creation, hall]
        rfl
      simp only [answer, created, hcreation]
      exact .pure _
  | read => exact (IsLocal.read (isLocalQuery_account hroot hall)).map refused
  | activeAccounts => exact absurd rfl h
  | summary => exact .read (isLocalQuery_summaryText hroot hall)
  | children => exact (IsLocal.read (isLocalQuery_childList hroot)).map refused
  | subtree => exact (IsLocal.read (isLocalQuery_subtreeText hroot)).map refused
  | close => exact isLocal_closed hroot
  | setBudget => exact hchange fun _ pool account => account.setBudget pool
  | setBalance => exact hchange fun _ pool account => account.setBalance pool
  | reportSpend => exact hchange fun _ pool account => account.reportSpend pool
  | addAdjustment => exact hchange fun _ pool account => account.addAdjustment pool

end Below

section Growth

variable {ledger : Ledger} {request : RouteRequest} {key : Key}

theorem contains_changed {operation : Ledger → Key → Pool → Ledger.Outcome Account}
    (hkeeps : ∀ {named : Key} {pool : Pool},
      (operation ledger named pool).1.contains key = true → ledger.contains key = true)
    (h : (changed operation ledger request).1.contains key = true) :
    ledger.contains key = true := by
  unfold changed at h
  split at h
  next => exact h
  next => exact hkeeps h

-- Whatever is asked of a ledger, only a creation adds accounts to it.
theorem contains_answer {endpoint : Endpoint}
    (h : (endpoint.answer ledger request).1.contains key = true) :
    ledger.contains key = true ∨ endpoint = .create ∧ request.isForAll = true ∧
      ∃ name, request.query.get? nameParameter = some name ∧ Key.rootOf name = key.root := by
  cases endpoint with
  | create =>
      simp only [answer, created] at h
      split at h
      next => exact .inl h
      next named type hcreation =>
        obtain ⟨hall, name, hname, hroot⟩ := name_of_creation hcreation
        refine (Ledger.contains_create h).imp_right fun hbelow => ?_
        exact ⟨rfl, hall, name, hname, hroot.trans hbelow.symm⟩
  | read => exact .inl h
  | activeAccounts => exact .inl h
  | summary => exact .inl h
  | children => exact .inl h
  | subtree => exact .inl h
  | close =>
      simp only [answer, closed] at h
      split at h
      next => exact .inl h
      next => exact .inl (Ledger.contains_close h)
  | setBudget => exact .inl (contains_changed Ledger.contains_changeActive h)
  | setBalance => exact .inl (contains_changed Ledger.contains_changeActive h)
  | reportSpend => exact .inl (contains_changed Ledger.contains_changeActive h)
  | addAdjustment => exact .inl (contains_changed Ledger.contains_changeActive h)

-- What the paths of all accounts are bound to.
theorem lookup_create : bindings.lookup (.post, Action.none) = some .create := by decide

theorem lookup_read : bindings.lookup (.get, Action.none) = some .read := by decide

theorem lookup_activeAccounts :
    bindings.lookup (.get, Action.activeAccounts) = some .activeAccounts := by decide

theorem lookup_summary : bindings.lookup (.get, Action.summary) = some .summary := by decide

theorem eq_of_lookup_create {method : Method} {action : String}
    (h : bindings.lookup (method, action) = some .create) :
    method = .post ∧ action = Action.none := by
  have honly : ∀ binding ∈ bindings, binding.2 = .create → binding.1 = (.post, Action.none) := by
    decide
  obtain ⟨before, behind, hsplit, -⟩ := List.lookup_eq_some_iff.mp h
  exact Prod.mk.inj (honly ((method, action), .create) (by rw [hsplit]; simp) rfl)

end Growth

end Endpoint

namespace Ledger

theorem resolve_table {apiPrefix path : String} {method : Method} {destination : Destination}
    {endpoint : Endpoint} (hresolve : (Paths.below apiPrefix).resolve path = some destination)
    (hlookup : Endpoint.bindings.lookup (method, destination.action) = some endpoint) :
    (Endpoint.table apiPrefix).resolve method path = .ok (endpoint, destination.account) := by
  have hpaths : (Endpoint.table apiPrefix).paths = .below apiPrefix := by rw [Endpoint.table_eq]
  simp only [RouteTable.resolve, hpaths, hresolve, Endpoint.handler?_table, hlookup]

theorem route_of_resolve {apiPrefix path : String} {method : Method} {destination : Destination}
    {endpoint : Endpoint} (hresolve : (Paths.below apiPrefix).resolve path = some destination)
    (hlookup : Endpoint.bindings.lookup (method, destination.action) = some endpoint)
    (ledger : Ledger) (query headers : SortedMap String String) (body : String) :
    ledger.route (Endpoint.table apiPrefix) method path query headers body =
      ((endpoint.answer ledger ⟨path, query, headers, destination.account, body⟩).1,
        (endpoint.answer ledger ⟨path, query, headers, destination.account, body⟩).2.mapError
          (.map .handler)) := by
  unfold route
  rw [resolve_table hresolve hlookup]

-- A request leaves the ledger alone if nothing is bound to it.
theorem route_cases (ledger : Ledger) (apiPrefix : String) (method : Method) (path : String)
    (query headers : SortedMap String String) (body : String) :
    (ledger.route (Endpoint.table apiPrefix) method path query headers body).1 = ledger ∨
      ∃ destination endpoint, (Paths.below apiPrefix).resolve path = some destination ∧
        Endpoint.bindings.lookup (method, destination.action) = some endpoint := by
  unfold route
  split
  next => exact .inl rfl
  next endpoint account hresolve =>
    unfold RouteTable.resolve at hresolve
    split at hresolve
    next => cases hresolve
    next destination hdestination =>
      rw [Endpoint.handler?_table] at hresolve
      split at hresolve
      next bound hlookup =>
        rw [Endpoint.table_eq] at hdestination
        exact .inr ⟨destination, bound, hdestination, hlookup⟩
      next => cases hresolve

-- What a request must look like for an account to be there that was not there before.
theorem contains_route {ledger : Ledger} {apiPrefix path body : String} {method : Method}
    {query headers : SortedMap String String} {key : Key}
    (h : (ledger.route (Endpoint.table apiPrefix) method path query headers body).1.contains key =
      true) :
    ledger.contains key = true ∨
      method = .post ∧ (Paths.below apiPrefix).resolve path = some ⟨allAccounts, Action.none⟩ ∧
        ∃ name, query.get? Endpoint.nameParameter = some name ∧ Key.rootOf name = key.root := by
  rcases ledger.route_cases apiPrefix method path query headers body with
    hsame | ⟨⟨account, action⟩, endpoint, hresolve, hlookup⟩
  · rw [hsame] at h
    exact .inl h
  · rw [route_of_resolve hresolve hlookup] at h
    refine (Endpoint.contains_answer h).imp_right fun ⟨hcreate, hall, hname⟩ => ?_
    obtain ⟨hmethod, haction⟩ := Endpoint.eq_of_lookup_create (hcreate ▸ hlookup)
    have haccount : account = allAccounts := of_decide_eq_true hall
    subst haccount
    dsimp only at haction
    subst haction
    exact ⟨hmethod, hresolve, hname⟩

end Ledger

end ShardedLedger
