import ShardedLedger.Proofs.Relay.Merge
import ShardedLedger.Proofs.Service.Route
import ShardedLedger.Relay.Cluster

namespace ShardedLedger

-- What a shard replies to what came of a request; nothing after an overflow.
def ShardReply.ofRoute : Except (Failure RouteError) String → Option ShardReply
  | .ok body => some ⟨(Service.render (.ok body)).status, (Service.render (.ok body)).body⟩
  | .error (.refused error) => some ⟨error.render.status, error.render.body⟩
  | .error (.overflow _) => none

-- A reply depends on the ledger and on the request, but not on the headers of the request.
def Ledger.reply (apiPrefix : String) (request : Http.Request) (ledger : Ledger) :
    Ledger × Option ShardReply :=
  match request.body with
  | .binary bytes => (ledger, some ⟨400, .text (Service.unreadableBody bytes)⟩)
  | .text body =>
      match Method.ofName? request.method with
      | none => (ledger, some ⟨404, .empty⟩)
      | some method =>
          let routed := ledger.route (Endpoint.table apiPrefix) method request.target.path
            request.target.query .empty body
          (routed.1, ShardReply.ofRoute routed.2)

theorem ShardReply.ofRoute_ok {body : String} (h : body.isEmpty = false) :
    ofRoute (.ok body) = some ⟨200, .text body⟩ := by
  simp only [ofRoute, Service.render, h, Bool.false_eq_true, ite_false]
  rfl

theorem Ledger.route_headers (ledger : Ledger) (table : RouteTable Endpoint) (method : Method)
    (path : String) (query headers : SortedMap String String) (body : String) :
    ledger.route table method path query headers body =
      ledger.route table method path query .empty body := by
  unfold Ledger.route
  split
  next => rfl
  next endpoint _ _ => cases endpoint <;> rfl

theorem Shard.answer_ledger (service : Service) (request : Http.Request) :
    Shard.answer request (.ledger service) =
      (.ledger { service with
        ledger := (service.ledger.reply service.settings.apiPrefix request).1 },
        (service.ledger.reply service.settings.apiPrefix request).2) := by
  have hroute (method : Method) (body : String) :
      service.route method request.target.path request.target.query
        (Service.headerMap request.headers) body =
        ({ service with
          ledger := (service.ledger.route (Endpoint.table service.settings.apiPrefix) method
            request.target.path request.target.query .empty body).1 },
          (service.ledger.route (Endpoint.table service.settings.apiPrefix) method
            request.target.path request.target.query .empty body).2) := by
    unfold Service.route Service.table
    rw [Ledger.route_headers]
  cases hbody : request.body with
  | binary bytes =>
      simp only [answer, Service.respond, Ledger.reply, hbody]
      rfl
  | text body =>
      cases hmethod : Method.ofName? request.method with
      | none =>
          simp only [answer, Service.respond, Ledger.reply, hbody, hmethod]
          rfl
      | some method =>
          simp only [answer, Service.respond, Ledger.reply, hbody, hmethod, hroute]
          rcases service.ledger.route (Endpoint.table service.settings.apiPrefix) method
            request.target.path request.target.query .empty body with
            ⟨ledger, (error | overflow) | body⟩ <;> rfl

namespace Endpoint

-- The relay hands nothing on to a single shard that would list all accounts.
theorem lookup_of_isRoutable {method : Method} {action : String}
    (h : RelayRequest.isRoutable action method = true) :
    ∃ endpoint, bindings.lookup (method, action) = some endpoint ∧ endpoint ≠ .activeAccounts := by
  have hread : ∀ action ∈ Action.none :: Action.reads,
      (bindings.lookup (.get, action)).any (· ≠ .activeAccounts) = true := by decide
  have hwrite : ∀ action ∈ Action.writes,
      (bindings.lookup (.post, action)).any (· ≠ .activeAccounts) = true ∧
        (bindings.lookup (.put, action)).any (· ≠ .activeAccounts) = true := by decide
  have hany : (bindings.lookup (method, action)).any (· ≠ .activeAccounts) = true := by
    cases method with
    | get => exact hread action (by simpa [RelayRequest.isRoutable] using h)
    | post => exact (hwrite action (by simpa [RelayRequest.isRoutable] using h)).1
    | put => exact (hwrite action (by simpa [RelayRequest.isRoutable] using h)).2
  obtain ⟨endpoint, hendpoint, hne⟩ := (Option.any_eq_true _ _).mp hany
  exact ⟨endpoint, hendpoint, by simpa using hne⟩

end Endpoint

namespace RelayRequest

variable {paths : Paths} {request : RelayRequest} {root : String}

theorem parent?_of_parent (h : request.parent paths = .ok root) :
    request.parent? paths = some root := by
  unfold parent at h
  split at h
  next hparent => exact hparent.trans (congrArg some (Except.ok.inj h))
  next => cases h

-- What the relay must have found in a request to hand it on, and why it takes the root it takes.
theorem parent?_cases (h : request.parent? paths = some root) :
    ∃ method, Method.ofName? request.method = some method ∧ root ≠ "" ∧
      ((method = .get ∧ paths.isGlobal request.target.path = true ∧ root = allAccounts) ∨
        (method = .post ∧ request.target.path = paths.accounts ∧
          ∃ name, request.query.get? Endpoint.nameParameter = some name ∧
            Key.rootOf name = root) ∨
        (paths.isGlobal request.target.path = false ∧
          ∃ destination, paths.resolve request.target.path = some destination ∧
            isRoutable destination.action method = true ∧ destination.account ≠ allAccounts ∧
            Key.rootOf destination.account = root)) := by
  unfold parent? at h
  obtain ⟨method, hmethod, h⟩ := Option.bind_eq_some_iff.mp h
  refine ⟨method, hmethod, ?_⟩
  by_cases hglobal : paths.isGlobal request.target.path = true
  · rw [if_pos hglobal] at h
    cases method with
    | get =>
        obtain rfl := Option.some.inj h
        exact ⟨by decide, .inl ⟨rfl, hglobal, rfl⟩⟩
    | post =>
        unfold listingParent? at h
        by_cases hpath : request.target.path = paths.accounts
        · simp only [hpath, ite_true] at h
          obtain ⟨name, hname, h⟩ := Option.bind_eq_some_iff.mp h
          split at h
          next => cases h
          next hne =>
            obtain rfl := Option.some.inj h
            exact ⟨by simpa using hne, .inr (.inl ⟨rfl, hpath, name, hname, rfl⟩)⟩
        · simp [hpath] at h
    | put => cases h
  · rw [if_neg hglobal] at h
    obtain ⟨destination, hresolve, h⟩ := Option.bind_eq_some_iff.mp h
    simp only [accountParent?] at h
    split at h
    next hroutable =>
      obtain rfl := Option.some.inj h
      simp only [Bool.and_eq_true, Bool.not_eq_true', String.isEmpty_eq_false_iff,
        decide_eq_true_eq] at hroutable
      obtain ⟨⟨hroutable, hne⟩, hall⟩ := hroutable
      exact ⟨hne, .inr (.inr ⟨by simpa using hglobal, destination, hresolve, hroutable, hall, rfl⟩)⟩
    next => cases h

end RelayRequest

namespace Ledger

theorem isLocal_reply {apiPrefix root body : String} {request : RelayRequest}
    (hquery : request.query = request.target.query) (hbody : request.body = .text body)
    (hparent : request.parent? (.below apiPrefix) = some root) (hroot : root ≠ allAccounts) :
    IsLocal root (reply apiPrefix request.toRequest) := by
  obtain ⟨method, hmethod, -, hcases⟩ := RelayRequest.parent?_cases hparent
  have hroute : IsLocal root fun ledger => ledger.route (Endpoint.table apiPrefix) method
      request.target.path request.target.query .empty body := by
    rcases hcases with ⟨_, _, hall⟩ | ⟨rfl, hpath, name, hname, hnamed⟩ |
      ⟨_, destination, hresolve, hroutable, hne, hnamed⟩
    · exact absurd hall hroot
    · have hresolve := (Paths.below apiPrefix).resolve_accounts
      rw [← hpath] at hresolve
      simp only [route_of_resolve hresolve Endpoint.lookup_create]
      have hanswer : IsLocal root fun ledger => Endpoint.created ledger
          ⟨request.target.path, request.target.query, .empty, allAccounts, body⟩ := by
        refine Endpoint.isLocal_created fun other hother => ?_
        rw [← hquery, hname] at hother
        exact Option.some.inj hother ▸ hnamed
      exact hanswer.map _
    · obtain ⟨endpoint, hlookup, hendpoint⟩ := Endpoint.lookup_of_isRoutable hroutable
      simp only [route_of_resolve hresolve hlookup]
      have hanswer := Endpoint.isLocal_answer
        ⟨request.target.path, request.target.query, .empty, destination.account, body⟩ hnamed
        (by simpa [RouteRequest.isForAll] using hne) hendpoint
      exact hanswer.map _
  unfold reply
  simp only [hbody, hmethod]
  exact hroute.map ShardReply.ofRoute

section Listings

variable {apiPrefix body : String} {request : Http.Request} (ledger : Ledger)
  (hmethod : Method.ofName? request.method = some .get) (hbody : request.body = .text body)

include hmethod hbody

theorem reply_of_resolve {destination : Destination} {endpoint : Endpoint}
    (hresolve : (Paths.below apiPrefix).resolve request.target.path = some destination)
    (hlookup : Endpoint.bindings.lookup (.get, destination.action) = some endpoint) :
    ledger.reply apiPrefix request =
      ((endpoint.answer ledger
        ⟨request.target.path, request.target.query, .empty, destination.account, body⟩).1,
        ShardReply.ofRoute ((endpoint.answer ledger
          ⟨request.target.path, request.target.query, .empty, destination.account, body⟩).2.mapError
            (.map .handler))) := by
  unfold reply
  simp only [hbody, hmethod, route_of_resolve hresolve hlookup]

theorem reply_accounts (hpath : request.target.path = (Paths.below apiPrefix).accounts) :
    ledger.reply apiPrefix request = (ledger, some (.names (ledger.keys.map (·.text)))) := by
  have hresolve := (Paths.below apiPrefix).resolve_accounts
  rw [← hpath] at hresolve
  rw [reply_of_resolve ledger hmethod hbody hresolve Endpoint.lookup_read]
  simp only [Endpoint.answer, Endpoint.account, RouteRequest.isForAll, decide_true, ite_true]
  exact congrArg (ledger, ·) (ShardReply.ofRoute_ok (Json.isEmpty_print_arr _))

theorem reply_activeAccounts
    (hpath : request.target.path = (Paths.below apiPrefix).activeAccounts) :
    ledger.reply apiPrefix request = (ledger, some (.names (ledger.activeKeys.map (·.text)))) := by
  have hresolve := (Paths.below apiPrefix).resolve_activeAccounts
  rw [← hpath] at hresolve
  rw [reply_of_resolve ledger hmethod hbody hresolve Endpoint.lookup_activeAccounts]
  exact congrArg (ledger, ·) (ShardReply.ofRoute_ok (Json.isEmpty_print_arr _))

theorem reply_summary (hpath : request.target.path = (Paths.below apiPrefix).summary) :
    ledger.reply apiPrefix request =
      (ledger, ledger.globalSummary.toOption.map ShardReply.summaries) := by
  have hresolve := (Paths.below apiPrefix).resolve_summary
  rw [← hpath] at hresolve
  rw [reply_of_resolve ledger hmethod hbody hresolve Endpoint.lookup_summary]
  simp only [Endpoint.answer, Endpoint.summaryText, RouteRequest.isForAll, decide_true, ite_true]
  cases ledger.globalSummary with
  | error overflow => rfl
  | ok summaries =>
      exact congrArg (ledger, ·) (ShardReply.ofRoute_ok (Json.isEmpty_print_obj _))

-- What is asked about all accounts changes none.
theorem reply_fst_of_isGlobal
    (hglobal : (Paths.below apiPrefix).isGlobal request.target.path = true) :
    (ledger.reply apiPrefix request).1 = ledger := by
  rcases (Paths.isGlobal_iff _ _).mp hglobal with hpath | hpath | hpath
  · rw [reply_accounts ledger hmethod hbody hpath]
  · rw [reply_activeAccounts ledger hmethod hbody hpath]
  · rw [reply_summary ledger hmethod hbody hpath]

end Listings

end Ledger

end ShardedLedger
