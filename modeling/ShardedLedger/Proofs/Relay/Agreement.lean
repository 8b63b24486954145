import ShardedLedger.Proofs.Ledger.Answers
import ShardedLedger.Proofs.Relay.Shard
import ShardedLedger.Proofs.Service.Atomicity

namespace ShardedLedger

namespace Endpoint

-- Whatever comes of a request, all accounts that it speaks of are below one root. The records are
-- those of the ledger afterwards, where each stands under such a key. A summary speaks of none.
inductive Concerns (root : String) (after : Ledger) (request : RouteRequest) :
    Except (Failure HandlerError) String → Prop where
  | record {key : Key} {account : Account} (hkey : key.root = root)
      (haccount : after.get? key = some account) :
      Concerns root after request (.ok account.text)
  | names {list : List Key} (hlist : ∀ key ∈ list, key.root = root) :
      Concerns root after request (.ok (keyList list))
  | tree {entries : List (Key × Account)}
      (hentries : ∀ entry ∈ entries, entry.1.root = root ∧ after.get? entry.1 = some entry.2) :
      Concerns root after request (.ok (records entries).print)
  | sums (summary : Summary) : Concerns root after request (.ok summary.toJson.print)
  | unreadable {error : HandlerError} (h : Unreadable request error) :
      Concerns root after request (.error (.refused error))
  | refused {error : LedgerError} (hkeys : ∀ key ∈ error.keys, key.root = root) :
      Concerns root after request (.error (.refused (.ofLedgerError error)))
  | stopped (overflow : Overflow) : Concerns root after request (.error (.overflow overflow))

-- No account changes but below the root, and none but those below it are spoken of.
def StaysBelow (root : String) (endpoint : Endpoint) (request : RouteRequest) : Prop :=
  ∀ ledger : Ledger,
    (∀ key, (endpoint.answer ledger request).1.get? key ≠ ledger.get? key → key.root = root) ∧
      Concerns root (endpoint.answer ledger request).1 request (endpoint.answer ledger request).2

section Concerned

variable {root : String} {ledger : Ledger} {request : RouteRequest} {endpoint : Endpoint}

theorem concerns_answered {operation : Ledger.Operation} (hroot : operation.key.root = root) :
    Concerns root (operation.apply ledger).1 request (answered (operation.apply ledger)).2 := by
  rcases houtcome : operation.apply ledger with ⟨after, (error | overflow) | account⟩
  · exact .refused fun key hmem =>
      (Ledger.root_of_apply_refused (congrArg Prod.snd houtcome) key hmem).trans hroot
  · exact .stopped overflow
  · have haccount := Ledger.get?_apply_of_ok (congrArg Prod.snd houtcome)
    rw [houtcome] at haccount
    exact .record hroot haccount

theorem concerns_of_writes (hwrites : endpoint.writes = true)
    (hroot : ∀ name, named? request endpoint = some name → Key.rootOf name = root) :
    Concerns root (endpoint.answer ledger request).1 request
      (endpoint.answer ledger request).2 := by
  rcases performs_of_writes hwrites with ⟨error, hunreadable, hrefused⟩ |
    ⟨operation, -, -, hname, hanswer⟩
  · rw [hrefused]
    exact .unreadable hunreadable
  · rw [hanswer]
    exact concerns_answered (hroot _ hname)

theorem concerns_notFound {key : Key} (hkey : key.root = root) :
    Concerns root ledger request (.error (.refused (.ofLedgerError (.notFound key)))) :=
  .refused (by simpa [LedgerError.keys] using hkey)

-- What is asked about one account is looked up only if its name is a valid key.
theorem concerns_of_key (hroot : Key.rootOf request.account = root)
    {next : Key → Except (Failure HandlerError) String}
    (h : ∀ key, key.root = root → Concerns root ledger request (next key)) :
    Concerns root ledger request (refused request.key >>= next) := by
  cases hkey : request.key with
  | error error => exact .unreadable (unreadable_of_parse hkey)
  | ok key => exact h key (root_of_key hroot hkey)

theorem refused_bind {α β : Type} (first : Except HandlerError α)
    (next : α → Except HandlerError β) :
    refused (first >>= next) = refused first >>= fun value => refused (next value) := by
  cases first <;> rfl

theorem concerns_account (hroot : Key.rootOf request.account = root)
    (hall : request.isForAll = false) :
    Concerns root ledger request (refused (account ledger request)) := by
  simp only [account, hall, Bool.false_eq_true, ite_false, refused_bind]
  refine concerns_of_key hroot fun key hkey => ?_
  cases haccount : ledger.get? key with
  | none => exact concerns_notFound hkey
  | some account => exact .record hkey haccount

theorem concerns_summaryText (hroot : Key.rootOf request.account = root)
    (hall : request.isForAll = false) :
    Concerns root ledger request (summaryText ledger request) := by
  simp only [summaryText, hall, Bool.false_eq_true, ite_false]
  refine concerns_of_key hroot fun key hkey => ?_
  unfold Ledger.summary Ledger.subtree
  by_cases hthere : ledger.contains key = true
  · simp only [hthere, ite_true]
    cases Summary.ofAccounts ((ledger.subtreeEntries key).map (·.2)) with
    | error overflow => exact .stopped overflow
    | ok summary => exact .sums summary
  · simp only [hthere, Bool.false_eq_true, ite_false]
    exact concerns_notFound hkey

theorem concerns_childList (hroot : Key.rootOf request.account = root) :
    Concerns root ledger request (refused (childList ledger request)) := by
  simp only [childList, refused_bind]
  refine concerns_of_key hroot fun key hkey => ?_
  unfold Ledger.children
  by_cases hthere : ledger.contains key = true
  · simp only [hthere, ite_true]
    refine .names fun child hchild => ?_
    exact (Key.root_of_isChildOf (List.mem_filter.mp hchild).2).trans hkey
  · simp only [hthere, Bool.false_eq_true, ite_false]
    exact concerns_notFound hkey

theorem concerns_subtreeText (hroot : Key.rootOf request.account = root) :
    Concerns root ledger request (refused (subtreeText ledger request)) := by
  simp only [subtreeText, refused_bind]
  refine concerns_of_key hroot fun key hkey => ?_
  unfold Ledger.subtree
  by_cases hthere : ledger.contains key = true
  · simp only [hthere, ite_true]
    refine .tree fun entry hentry => ?_
    rw [Ledger.subtreeEntries_eq_filter] at hentry
    obtain ⟨hmem, hcontains⟩ := List.mem_filter.mp hentry
    exact ⟨(Key.root_of_contains hcontains).symm.trans hkey,
      (SortedMap.get?_eq_some_iff ledger.accounts entry.1 entry.2).mpr hmem⟩
  · simp only [hthere, Bool.false_eq_true, ite_false]
    exact concerns_notFound hkey

-- What is asked about one account of a root stays below that root.
theorem staysBelow_of_account (hroot : Key.rootOf request.account = root)
    (hall : request.isForAll = false) (hlisting : endpoint ≠ .activeAccounts)
    (hcreate : endpoint ≠ .create) : StaysBelow root endpoint request := by
  intro ledger
  refine ⟨fun key hchanged => ?_, ?_⟩
  · by_contra hother
    exact hchanged ((isLocal_answer request hroot hall hlisting).get?_eq hother)
  · have hwriting (hwrites : endpoint.writes = true)
        (hnames : named? request endpoint = some request.account) :
        Concerns root (endpoint.answer ledger request).1 request
          (endpoint.answer ledger request).2 :=
      concerns_of_writes hwrites fun name hname => by
        rw [hnames, Option.some.injEq] at hname
        exact hname ▸ hroot
    cases endpoint with
    | create => exact absurd rfl hcreate
    | activeAccounts => exact absurd rfl hlisting
    | read => exact concerns_account hroot hall
    | summary => exact concerns_summaryText hroot hall
    | children => exact concerns_childList hroot
    | subtree => exact concerns_subtreeText hroot
    | close => exact hwriting rfl rfl
    | setBudget => exact hwriting rfl rfl
    | setBalance => exact hwriting rfl rfl
    | reportSpend => exact hwriting rfl rfl
    | addAdjustment => exact hwriting rfl rfl

theorem staysBelow_of_creation
    (hroot : ∀ name, request.query.get? nameParameter = some name → Key.rootOf name = root) :
    StaysBelow root .create request := by
  intro ledger
  refine ⟨fun key hchanged => ?_, concerns_of_writes rfl hroot⟩
  by_contra hother
  exact hchanged ((isLocal_created hroot).get?_eq hother)

end Concerned

end Endpoint

namespace RelayRequest

-- The relay hands on a creation only for the account in the query.
theorem ne_create_of_isRoutable {method : Method} {action : String} {endpoint : Endpoint}
    (h : isRoutable action method = true)
    (hlookup : Endpoint.bindings.lookup (method, action) = some endpoint) :
    endpoint ≠ .create := by
  rintro rfl
  obtain ⟨rfl, rfl⟩ := Endpoint.eq_of_lookup_create hlookup
  exact absurd h (by decide)

-- What is asked about all accounts has a handler.
theorem resolve_of_isGlobal {apiPrefix path : String}
    (hglobal : (Paths.below apiPrefix).isGlobal path = true) :
    ∃ endpoint, (Endpoint.table apiPrefix).resolve .get path = .ok (endpoint, allAccounts) := by
  rcases (Paths.isGlobal_iff _ _).mp hglobal with rfl | rfl | rfl
  · exact ⟨.read, Ledger.resolve_table (Paths.resolve_accounts _) Endpoint.lookup_read⟩
  · exact ⟨.activeAccounts,
      Ledger.resolve_table (Paths.resolve_activeAccounts _) Endpoint.lookup_activeAccounts⟩
  · exact ⟨.summary, Ledger.resolve_table (Paths.resolve_summary _) Endpoint.lookup_summary⟩

-- What the relay accepts a shard below the same prefix has a handler for, and the two take the
-- same account from it. A creation is about the account in the query and the listings are about
-- all of them; everything else is about the account in the path, and stays below its root.
theorem shard_reads_alike {apiPrefix root : String} {request : RelayRequest}
    (haccepted : request.parent (.below apiPrefix) = .ok root) :
    ∃ method endpoint account, Method.ofName? request.method = some method ∧
      (Endpoint.table apiPrefix).resolve method request.target.path = .ok (endpoint, account) ∧
      if method = .get ∧ (Paths.below apiPrefix).isGlobal request.target.path = true then
        account = allAccounts ∧ root = allAccounts
      else
        (if method = .post ∧ request.target.path = (Paths.below apiPrefix).accounts then
          account = allAccounts ∧ endpoint = .create ∧
            ∃ name, request.query.get? Endpoint.nameParameter = some name ∧
              Key.rootOf name = root ∧ ∀ headers body key type,
                Endpoint.creation ⟨request.target.path, request.query, headers, account, body⟩ =
                  .ok (key, type) → key.text = name
        else account ≠ "" ∧ account ≠ allAccounts ∧ Key.rootOf account = root) ∧
        ∀ headers body, Endpoint.StaysBelow root endpoint
          ⟨request.target.path, request.query, headers, account, body⟩ := by
  obtain ⟨method, hmethod, hnonempty, hcases⟩ := parent?_cases (parent?_of_parent haccepted)
  rcases hcases with ⟨rfl, hglobal, hall⟩ | ⟨rfl, hpath, name, hname, hroot⟩ |
    ⟨hglobal, destination, hresolve, hroutable, hne, hroot⟩
  · obtain ⟨endpoint, hresolved⟩ := resolve_of_isGlobal hglobal
    refine ⟨.get, endpoint, allAccounts, hmethod, hresolved, ?_⟩
    rw [if_pos ⟨rfl, hglobal⟩]
    exact ⟨rfl, hall⟩
  · have hresolve := (Paths.below apiPrefix).resolve_accounts
    rw [← hpath] at hresolve
    refine ⟨.post, .create, allAccounts, hmethod,
      Ledger.resolve_table hresolve Endpoint.lookup_create, ?_⟩
    rw [if_neg (by simp), if_pos ⟨rfl, hpath⟩]
    refine ⟨⟨rfl, rfl, name, hname, hroot, fun headers body key type hcreation => ?_⟩,
      fun headers body => Endpoint.staysBelow_of_creation fun other hother => ?_⟩
    · obtain ⟨-, other, hother, hparse⟩ := Endpoint.parse_of_creation hcreation
      rw [← Option.some.inj (hname.symm.trans hother)] at hparse
      exact (Endpoint.key_of_parse hparse).2.symm
    · exact Option.some.inj (hname.symm.trans hother) ▸ hroot
  · obtain ⟨endpoint, hlookup, hlisting⟩ := Endpoint.lookup_of_isRoutable hroutable
    have hcreate := ne_create_of_isRoutable hroutable hlookup
    refine ⟨method, endpoint, destination.account, hmethod,
      Ledger.resolve_table hresolve hlookup, ?_⟩
    have haccount : destination.account ≠ "" := by
      intro hempty
      rw [hempty] at hroot
      exact hnonempty hroot.symm
    have hcollection : ¬(method = .post ∧
        request.target.path = (Paths.below apiPrefix).accounts) := by
      rintro ⟨-, hpath⟩
      rw [(Paths.isGlobal_iff _ _).mpr (.inl hpath)] at hglobal
      cases hglobal
    rw [if_neg (by simp [hglobal]), if_neg hcollection]
    exact ⟨⟨haccount, hne, hroot⟩, fun headers body =>
      Endpoint.staysBelow_of_account hroot (by simpa [RouteRequest.isForAll] using hne) hlisting
        hcreate⟩

-- A request that closes an account, though it only seems to read, and one that creates another.
def closing : RelayRequest := .ofHttp ⟨"GET", .parse "/v1/accounts/a:b/close", [], .empty⟩

def creating : RelayRequest :=
  .ofHttp ⟨"POST", .parse "/v1/accounts?accountName=c:d&accountType=budget", [], .empty⟩

theorem shard_reads_alike_changes :
    (∃ endpoint account,
      (Endpoint.table "/v1/").resolve .get "/v1/accounts/a:b/close" = .ok (endpoint, account) ∧
        account ≠ allAccounts ∧ Key.rootOf account = "a" ∧
        Endpoint.StaysBelow "a" endpoint
          ⟨closing.target.path, closing.query, .empty, account, ""⟩) ∧
      ∃ endpoint, (Endpoint.table "/v1/").resolve .post "/v1/accounts" =
          .ok (endpoint, allAccounts) ∧
        Endpoint.StaysBelow "c" endpoint
          ⟨creating.target.path, creating.query, .empty, allAccounts, ""⟩ := by
  have hclosing : closing.parent (.below "/v1/") = .ok "a" := by decide +kernel
  have hcreating : creating.parent (.below "/v1/") = .ok "c" := by decide +kernel
  have hget : Method.ofName? closing.method = some .get := by decide
  have hpost : Method.ofName? creating.method = some .post := by decide
  have hpath : closing.target.path = "/v1/accounts/a:b/close" := by decide +kernel
  have hlisting : creating.target.path = "/v1/accounts" := by decide +kernel
  have hglobal : (Paths.below "/v1/").isGlobal closing.target.path = false := by decide +kernel
  have hcollection : creating.target.path = (Paths.below "/v1/").accounts := by decide +kernel
  obtain ⟨_, endpoint, account, hmethod, hresolved, hread⟩ := shard_reads_alike hclosing
  obtain ⟨_, made, all, hmethod', hresolved', hread'⟩ := shard_reads_alike hcreating
  cases hget.symm.trans hmethod
  cases hpost.symm.trans hmethod'
  rw [if_neg (by simp [hglobal]), if_neg (by simp)] at hread
  rw [if_neg (by simp), if_pos ⟨rfl, hcollection⟩] at hread'
  obtain ⟨⟨-, hne, hroot⟩, hbelow⟩ := hread
  obtain ⟨⟨rfl, -, -⟩, hbelow'⟩ := hread'
  exact ⟨⟨endpoint, account, hpath ▸ hresolved, hne, hroot, hbelow .empty ""⟩,
    made, hlisting ▸ hresolved', hbelow' .empty ""⟩

end RelayRequest

end ShardedLedger
