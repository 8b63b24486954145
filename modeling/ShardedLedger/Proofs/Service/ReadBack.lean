import ShardedLedger.Proofs.Ledger.Answers
import ShardedLedger.Proofs.Service.Atomicity

namespace ShardedLedger

namespace Endpoint

section Stored

variable {ledger : Ledger} {request : RouteRequest} {endpoint : Endpoint} {text : String}

theorem answered_eq_ok_iff {outcome : Ledger.Outcome Account} :
    (answered outcome).2 = .ok text ↔ ∃ account, outcome.2 = .ok account ∧ account.text = text := by
  rcases outcome with ⟨after, failure | account⟩
  · exact iff_of_false (fun h => nomatch h) fun ⟨_, h, _⟩ => nomatch h
  · constructor
    · exact fun h => ⟨account, rfl, Except.ok.inj h⟩
    · rintro ⟨_, ⟨⟩, rfl⟩
      rfl

-- Who changes an account is answered with the record that stands under its name from then on.
theorem stored_of_writes (hwrites : endpoint.writes = true)
    (h : (endpoint.answer ledger request).2 = .ok text) :
    ∃ key account, named? request endpoint = some key.text ∧
      (endpoint.answer ledger request).1.get? key = some account ∧ account.text = text := by
  rcases performs_of_writes hwrites with ⟨error, -, hrefused⟩ | ⟨operation, -, -, hnamed, hanswer⟩
  · rw [hrefused] at h
    cases h
  · rw [hanswer] at h ⊢
    obtain ⟨account, hok, htext⟩ := answered_eq_ok_iff.mp h
    exact ⟨operation.key, account, hnamed, Ledger.get?_apply_of_ok hok, htext⟩

theorem answer_read {key : Key} {account : Account} (hkey : key.IsValid)
    (hrequest : request.account = key.text) (haccount : ledger.get? key = some account) :
    Endpoint.read.answer ledger request =
      (ledger, .ok (if key.text = allAccounts then keyList ledger.keys else account.text)) := by
  by_cases hall : key.text = allAccounts
  · have hlisting : request.isForAll = true := decide_eq_true (hrequest.trans hall)
    simp only [answer, Endpoint.account, hlisting, hall, ite_true]
    rfl
  · have hone : request.isForAll = false := decide_eq_false (hrequest ▸ hall)
    have hparse : request.key = .ok key := by
      rw [RouteRequest.key, hrequest, (Key.parse_eq_ok_iff key.text key).mpr ⟨rfl, hkey⟩]
      rfl
    simp only [answer, Endpoint.account, hone, hall, hparse, haccount, Bool.false_eq_true,
      ite_false, bind, Except.bind]
    rfl

-- A record opens with a brace and a list with a bracket.
theorem text_ne_keyList (account : Account) (keys : List Key) : account.text ≠ keyList keys := by
  intro h
  have hlist := congrArg String.toList h
  simp only [Account.text, Account.record, keyList, Json.strings, Json.print, Json.write,
    String.toList_ofList, List.cons_append, List.cons.injEq] at hlist
  exact absurd hlist.1 (by decide)

-- What is bound to the writing actions takes the account from the path.
theorem lookup_of_mem_writes {method : Method} {action : String}
    (hmethod : method = .post ∨ method = .put) (haction : action ∈ Action.writes) :
    ∃ endpoint, bindings.lookup (method, action) = some endpoint ∧ endpoint.writes = true ∧
      ∀ request, named? request endpoint = some request.account := by
  have hbound : ∀ action ∈ Action.writes, ∀ method ∈ [Method.post, Method.put],
      (bindings.lookup (method, action)).any
        (· ∈ [setBudget, setBalance, reportSpend, addAdjustment]) = true := by decide
  have hany := hbound action haction method (by simpa using hmethod)
  obtain ⟨endpoint, hlookup, hmem⟩ := (Option.any_eq_true _ _).mp hany
  refine ⟨endpoint, hlookup, ?_⟩
  simp only [List.mem_cons, List.not_mem_nil, or_false, decide_eq_true_eq] at hmem
  rcases hmem with rfl | rfl | rfl | rfl <;> exact ⟨rfl, fun _ => rfl⟩

end Stored

end Endpoint

namespace Ledger

-- The requests that write to an account: its creation and the writes of its pools.
def WritesTo (paths : Paths) (key : Key) (method : Method) (path : String)
    (query : SortedMap String String) : Prop :=
  (method = .post ∧ path = paths.accounts ∧
      query.get? Endpoint.nameParameter = some key.text) ∨
    (method = .post ∨ method = .put) ∧
      ∃ action ∈ Action.writes, path = paths.accounts ++ "/" ++ key.text ++ "/" ++ action

section ReadBack

variable {ledger after : Ledger} {apiPrefix path body text : String} {method : Method}
  {query headers : SortedMap String String} {key : Key}

theorem WritesTo.exists_endpoint (h : WritesTo (.below apiPrefix) key method path query)
    (hkey : key.IsValid) (headers : SortedMap String String) (body : String) :
    ∃ destination endpoint, (Paths.below apiPrefix).resolve path = some destination ∧
      Endpoint.bindings.lookup (method, destination.action) = some endpoint ∧
      endpoint.writes = true ∧
      Endpoint.named? ⟨path, query, headers, destination.account, body⟩ endpoint =
        some key.text := by
  rcases h with ⟨rfl, rfl, hname⟩ | ⟨hmethod, action, haction, rfl⟩
  · exact ⟨_, .create, (Paths.below apiPrefix).resolve_accounts, by decide, rfl, hname⟩
  · have hslash : ∀ action ∈ Action.writes, '/' ∉ action.toList := by decide
    obtain ⟨endpoint, hlookup, hwrites, hnamed⟩ := Endpoint.lookup_of_mem_writes hmethod haction
    exact ⟨_, endpoint, (Paths.below apiPrefix).resolve_action hkey.1 (hslash action haction),
      hlookup, hwrites, hnamed _⟩

theorem get?_of_writesTo (hkey : key.IsValid)
    (hwrites : WritesTo (.below apiPrefix) key method path query)
    (hroute : ledger.route (Endpoint.table apiPrefix) method path query headers body =
      (after, .ok text)) :
    ∃ account, after.get? key = some account ∧ account.text = text := by
  obtain ⟨destination, endpoint, hresolve, hlookup, hwrites, hnamed⟩ :=
    hwrites.exists_endpoint hkey headers body
  rw [route_of_resolve hresolve hlookup] at hroute
  obtain ⟨rfl, hanswer⟩ := Prod.mk.inj hroute
  obtain ⟨other, account, hother, haccount, htext⟩ :=
    Endpoint.stored_of_writes hwrites (mapError_eq_ok_iff.mp hanswer)
  rw [hnamed, Option.some.injEq] at hother
  have hsame : key = other := congrArg Key.mk hother
  exact ⟨account, hsame ▸ haccount, htext⟩

theorem route_account {account : Account} (hkey : key.IsValid)
    (haccount : ledger.get? key = some account) :
    ledger.route (Endpoint.table apiPrefix) .get
        ((Paths.below apiPrefix).accounts ++ "/" ++ key.text) query headers body =
      (ledger, .ok (if key.text = allAccounts then Endpoint.keyList ledger.keys
        else account.text)) := by
  have hresolve := (Paths.below apiPrefix).resolve_account hkey.1
  rw [route_of_resolve hresolve Endpoint.lookup_read, Endpoint.answer_read hkey rfl haccount]
  rfl

-- Who asks for an account right after a write to it gets the answer to the write once more. Only
-- the account whose name stands for all of them cannot be asked for: its path is that of the list.
theorem written_is_read_back_iff (hkey : key.IsValid)
    (hwrites : WritesTo (.below apiPrefix) key method path query)
    (hroute : ledger.route (Endpoint.table apiPrefix) method path query headers body =
      (after, .ok text)) (query' headers' : SortedMap String String) (body' : String) :
    ∃ answer, after.route (Endpoint.table apiPrefix) .get
        ((Paths.below apiPrefix).accounts ++ "/" ++ key.text) query' headers' body' =
          (after, .ok answer) ∧
      (answer = text ↔ key.text ≠ allAccounts) ∧
      (key.text = allAccounts → answer = Endpoint.keyList after.keys) := by
  obtain ⟨account, haccount, htext⟩ := get?_of_writesTo hkey hwrites hroute
  refine ⟨_, route_account hkey haccount, ?_⟩
  by_cases hall : key.text = allAccounts
  · rw [if_pos hall]
    refine ⟨iff_of_false (fun hsame => ?_) (not_not_intro hall), fun _ => rfl⟩
    exact Endpoint.text_ne_keyList account after.keys (htext.trans hsame.symm)
  · rw [if_neg hall]
    exact ⟨iff_of_true htext hall, fun h => absurd h hall⟩

-- The creation of an account on a shard that has none.
def posted (name : String) : Reply RouteError :=
  empty.route (Endpoint.table "/v1") .post "/v1/accounts" (naming name) .empty ""

def asksFor (name : String) : Reply RouteError :=
  (posted name).1.route (Endpoint.table "/v1") .get ("/v1/accounts/" ++ name) .empty .empty ""

-- An account of that name is created like any other, and then only a list can be had.
theorem written_is_read_back_placeholder :
    (asksFor "a:b").2 = (posted "a:b").2 ∧ (posted "*").2 = .ok (Account.new ⟨"*"⟩ .budget).text ∧
      (asksFor "*").2 = .ok "[\"*\"]" := by
  have hwrites (key : Key)
      (hname : (naming key.text).get? Endpoint.nameParameter = some key.text) :
      WritesTo (.below "/v1") key .post "/v1/accounts" (naming key.text) :=
    .inl ⟨rfl, by decide, hname⟩
  have hroute (key : Key) (hnew : (posted key.text).2 = .ok (Account.new key .budget).text) :
      posted key.text = ((posted key.text).1, .ok (Account.new key .budget).text) := by
    rw [← hnew]
  have hnew : (posted "a:b").2 = .ok (Account.new ⟨"a:b"⟩ .budget).text := by decide +kernel
  have hstarred : (posted "*").2 = .ok (Account.new ⟨"*"⟩ .budget).text := by decide +kernel
  obtain ⟨answer, hanswer, hsame, -⟩ :=
    written_is_read_back_iff (show (⟨"a:b"⟩ : Key).IsValid by decide)
      (hwrites ⟨"a:b"⟩ (by decide)) (hroute ⟨"a:b"⟩ hnew) .empty .empty ""
  obtain ⟨listed, hlisted, -, hlist⟩ :=
    written_is_read_back_iff (show (⟨"*"⟩ : Key).IsValid by decide)
      (hwrites ⟨"*"⟩ (by decide)) (hroute ⟨"*"⟩ hstarred) .empty .empty ""
  refine ⟨?_, hstarred, ?_⟩
  · rw [hnew, ← hsame.mpr (by decide)]
    exact congrArg Prod.snd hanswer
  · have hkeys : Endpoint.keyList (posted "*").1.keys = "[\"*\"]" := by decide +kernel
    rw [← hkeys, ← hlist rfl]
    exact congrArg Prod.snd hlisted

end ReadBack

end Ledger

end ShardedLedger
