import ShardedLedger.Proofs.Ledger.Refusal
import ShardedLedger.Proofs.Service.Route

namespace ShardedLedger

namespace Endpoint

section Answers

variable {ledger : Ledger} {request : RouteRequest}

-- What may change the ledger.
def writes : Endpoint → Bool
  | .create | .close | .setBudget | .setBalance | .reportSpend | .addAdjustment => true
  | .read | .activeAccounts | .summary | .children | .subtree => false

-- The account that a request is about: a creation names it in its query, the others in the path.
def named? (request : RouteRequest) : Endpoint → Option String
  | .create => request.query.get? nameParameter
  | _ => some request.account

-- The request comes to an operation on the account it names, and the answer is that of the
-- operation.
def Performs (ledger : Ledger) (request : RouteRequest) (endpoint : Endpoint)
    (operation : Ledger.Operation) : Prop :=
  (∀ key, operation ≠ .reactivate key) ∧ operation.key.IsValid ∧
    named? request endpoint = some operation.key.text ∧
    endpoint.answer ledger request = answered (operation.apply ledger)

theorem key_of_parse {text : String} {key : Key} (h : Key.parse text = .ok key) :
    key.IsValid ∧ text = key.text := by
  obtain ⟨rfl, hvalid⟩ := (Key.parse_eq_ok_iff text key).mp h
  exact ⟨hvalid, rfl⟩

-- What is wrong with a request that cannot be read. No account of the ledger comes into it.
inductive Unreadable (request : RouteRequest) : HandlerError → Prop where
  | path : Unreadable request (.notFound request.path)
  | parameter (name : String) :
      Unreadable request (.validation ("missing query parameter " ++ name))
  | key (text : String) : Unreadable request (.ofLedgerError (.invalidKey text))
  | type (name : String) : Unreadable request (.ofLedgerError (.unknownType name))
  | body (error : Json.Error) :
      Unreadable request (.validation ("invalid currency pool: " ++ error.message))

section Readings

variable {error : HandlerError} {text name : String}

theorem unreadable_of_parse
    (h : (Key.parse text).mapError HandlerError.ofLedgerError = .error error) :
    Unreadable request error := by
  unfold Key.parse at h
  split at h
  next => cases h
  next =>
    cases h
    exact .key text

theorem unreadable_of_parseType
    (h : (AccountType.parse name).mapError HandlerError.ofLedgerError = .error error) :
    Unreadable request error := by
  unfold AccountType.parse at h
  split at h
  next => cases h
  next =>
    cases h
    exact .type name

theorem unreadable_of_parameter (h : request.parameter name = .error error) :
    Unreadable request error := by
  unfold RouteRequest.parameter at h
  split at h
  next => cases h
  next =>
    cases h
    exact .parameter name

theorem unreadable_of_pool (h : request.pool = .error error) : Unreadable request error := by
  obtain ⟨cause, -, rfl⟩ := mapError_eq_error_iff.mp h
  exact .body cause

theorem unreadable_of_creation (h : creation request = .error error) :
    Unreadable request error := by
  by_cases hall : request.isForAll = true
  · simp only [creation, hall, Bool.not_true, Bool.false_eq_true, ite_false] at h
    rcases bind_eq_error_iff.mp h with hname | ⟨_, -, h⟩
    · exact unreadable_of_parameter hname
    rcases bind_eq_error_iff.mp h with hkey | ⟨_, -, h⟩
    · exact unreadable_of_parse hkey
    rcases bind_eq_error_iff.mp h with htype | ⟨_, -, h⟩
    · exact unreadable_of_parameter htype
    rcases bind_eq_error_iff.mp h with htype | ⟨_, -, h⟩
    · exact unreadable_of_parseType htype
    · cases h
  · rw [Bool.not_eq_true] at hall
    simp only [creation, hall] at h
    cases h
    exact .path

end Readings

-- The request is refused because it cannot be read.
def Refuses (ledger : Ledger) (request : RouteRequest) (endpoint : Endpoint) : Prop :=
  ∃ error, Unreadable request error ∧
    endpoint.answer ledger request = (ledger, .error (.refused error))

-- A request that can be read comes to an operation.
theorem performs_changed {endpoint : Endpoint} (operation : Key → Pool → Ledger.Operation)
    (hanswer : endpoint.answer ledger request =
      changed (fun ledger key pool => (operation key pool).apply ledger) ledger request)
    (hnamed : named? request endpoint = some request.account)
    (hkey : ∀ key pool, (operation key pool).key = key)
    (hoperation : ∀ key pool other, operation key pool ≠ .reactivate other) :
    Refuses ledger request endpoint ∨
      ∃ operation, Performs ledger request endpoint operation := by
  cases hparsed : (do return (← request.key, ← request.pool) :
      Except HandlerError (Key × Pool)) with
  | error error =>
      refine .inl ⟨error, ?_, by simp only [hanswer, changed, hparsed]⟩
      rcases bind_eq_error_iff.mp hparsed with hfailed | ⟨_, -, hrest⟩
      · exact unreadable_of_parse hfailed
      rcases bind_eq_error_iff.mp hrest with hfailed | ⟨_, -, hpair⟩
      · exact unreadable_of_pool hfailed
      · cases hpair
  | ok named =>
      obtain ⟨key, pool⟩ := named
      obtain ⟨parsed, hparse, hrest⟩ := bind_eq_ok_iff.mp hparsed
      obtain ⟨_, _, hpair⟩ := bind_eq_ok_iff.mp hrest
      cases hpair
      obtain ⟨hvalid, htext⟩ := key_of_parse (mapError_eq_ok_iff.mp hparse)
      refine .inr ⟨operation key pool, hoperation key pool, (hkey key pool).symm ▸ hvalid, ?_, ?_⟩
      · rw [hnamed, hkey, htext]
      · simp only [hanswer, changed, hparsed]

theorem performs_created :
    Refuses ledger request .create ∨ ∃ operation, Performs ledger request .create operation := by
  cases hcreation : creation request with
  | error error =>
      exact .inl ⟨error, unreadable_of_creation hcreation, by
        simp only [answer, created, hcreation]⟩
  | ok named =>
      obtain ⟨key, type⟩ := named
      obtain ⟨-, name, hname, hparse⟩ := parse_of_creation hcreation
      obtain ⟨hvalid, rfl⟩ := key_of_parse hparse
      refine .inr ⟨.create key type, (fun _ h => by cases h), hvalid, hname, ?_⟩
      simp only [answer, created, hcreation, Ledger.Operation.apply]

theorem performs_closed :
    Refuses ledger request .close ∨ ∃ operation, Performs ledger request .close operation := by
  cases hparse : request.key with
  | error error =>
      exact .inl ⟨error, unreadable_of_parse hparse, by simp only [answer, closed, hparse]⟩
  | ok key =>
      obtain ⟨hvalid, htext⟩ := key_of_parse (mapError_eq_ok_iff.mp hparse)
      refine .inr ⟨.close key, (fun _ h => by cases h), hvalid, congrArg some htext, ?_⟩
      simp only [answer, closed, hparse, Ledger.Operation.apply]

-- Whatever may change the ledger does so by one operation.
theorem performs_of_writes {endpoint : Endpoint} (h : endpoint.writes = true) :
    Refuses ledger request endpoint ∨
      ∃ operation, Performs ledger request endpoint operation := by
  cases endpoint with
  | create => exact performs_created
  | close => exact performs_closed
  | setBudget =>
      exact performs_changed .setBudget rfl rfl (fun _ _ => rfl) fun _ _ _ => nofun
  | setBalance =>
      exact performs_changed .setBalance rfl rfl (fun _ _ => rfl) fun _ _ _ => nofun
  | reportSpend =>
      exact performs_changed .reportSpend rfl rfl (fun _ _ => rfl) fun _ _ _ => nofun
  | addAdjustment =>
      exact performs_changed .addAdjustment rfl rfl (fun _ _ => rfl) fun _ _ _ => nofun
  | read => cases h
  | activeAccounts => cases h
  | summary => cases h
  | children => cases h
  | subtree => cases h

theorem answer_fst_of_reads {endpoint : Endpoint} (h : endpoint.writes = false) (ledger : Ledger)
    (request : RouteRequest) : (endpoint.answer ledger request).1 = ledger := by
  cases endpoint <;> first | rfl | cases h

theorem answer_cases (ledger : Ledger) (request : RouteRequest) (endpoint : Endpoint) :
    (endpoint.answer ledger request).1 = ledger ∨
      ∃ operation, Performs ledger request endpoint operation := by
  cases hwrites : endpoint.writes with
  | true =>
      refine (performs_of_writes hwrites).imp_left fun ⟨_, _, hrefused⟩ => ?_
      rw [hrefused]
  | false => exact .inl (answer_fst_of_reads hwrites ledger request)

section Performed

variable {endpoint : Endpoint} {operation : Ledger.Operation}

theorem answered_fst (outcome : Ledger.Outcome Account) : (answered outcome).1 = outcome.1 := rfl

theorem completes_of_answered {outcome : Ledger.Outcome Account}
    (hfits : ∀ overflow, (answered outcome).2 ≠ .error (.overflow overflow)) :
    outcome.Completes := by
  intro overflow h
  refine hfits overflow ?_
  rw [answered, h]
  rfl

theorem Performs.fst_of_not_ok (h : Performs ledger request endpoint operation)
    (hfits : ∀ overflow, (endpoint.answer ledger request).2 ≠ .error (.overflow overflow))
    (hnot : ∀ text, (endpoint.answer ledger request).2 ≠ .ok text) :
    (endpoint.answer ledger request).1 = ledger := by
  obtain ⟨hoperation, -, -, hanswer⟩ := h
  rw [hanswer] at hfits hnot ⊢
  cases houtcome : (operation.apply ledger).2 with
  | ok account =>
      refine absurd ?_ (hnot account.text)
      rw [answered, houtcome]
      rfl
  | error failure =>
      cases failure with
      | refused error => exact Ledger.apply_fst_of_refused hoperation houtcome
      | overflow overflow => exact absurd houtcome (completes_of_answered hfits overflow)

-- Another account than those below the root of the name is left alone, and none gets lost.
theorem Performs.get?_ne (h : Performs ledger request endpoint operation)
    (hfits : ∀ overflow, (endpoint.answer ledger request).2 ≠ .error (.overflow overflow))
    {key : Key} (hne : (endpoint.answer ledger request).1.get? key ≠ ledger.get? key) :
    (endpoint.answer ledger request).1.contains key = true ∧
      ∃ name, named? request endpoint = some name ∧ key.root = Key.rootOf name := by
  obtain ⟨-, hvalid, hnamed, hanswer⟩ := h
  rw [hanswer] at hfits hne ⊢
  rw [answered_fst] at hne ⊢
  refine ⟨?_, _, hnamed, ?_⟩
  · have hext := Ledger.apply_extends hvalid (completes_of_answered hfits)
    by_contra hgone
    rw [Ledger.contains_iff, not_exists] at hgone
    have hnone := Option.eq_none_iff_forall_ne_some.mpr hgone
    cases hold : ledger.get? key with
    | none => exact hne (hnone.trans hold.symm)
    | some account =>
        obtain ⟨new, hnew, -⟩ := hext.kept key account hold
        exact hgone new hnew
  · by_contra hroot
    exact hne ((Ledger.isLocal_apply operation).get?_eq hroot)

end Performed

end Answers

-- A GET is bound to what only reads, but for the closing of an account.
theorem answer_fst_of_get {action : String} {endpoint : Endpoint}
    (hlookup : bindings.lookup (.get, action) = some endpoint) (hclose : action ≠ Action.close)
    (ledger : Ledger) (request : RouteRequest) :
    (endpoint.answer ledger request).1 = ledger := by
  have honly : ∀ binding ∈ bindings, binding.1.1 = .get → binding.1.2 ≠ Action.close →
      binding.2.writes = false := by decide
  obtain ⟨before, behind, hsplit, -⟩ := List.lookup_eq_some_iff.mp hlookup
  have hreads : endpoint.writes = false :=
    honly ((.get, action), endpoint) (by rw [hsplit]; simp) rfl hclose
  exact answer_fst_of_reads hreads ledger request

end Endpoint

namespace Ledger

variable {ledger : Ledger} {apiPrefix path body : String} {method : Method}
  {query headers : SortedMap String String}

-- The account that a request names, if its path leads anywhere.
def named? (apiPrefix : String) (method : Method) (path : String)
    (query : SortedMap String String) : Option String :=
  ((Paths.below apiPrefix).resolve path).bind fun destination =>
    if method = .post ∧ destination.action = Action.none then
      query.get? Endpoint.nameParameter
    else some destination.account

theorem named?_of_lookup (headers : SortedMap String String) (body : String)
    {destination : Destination} {endpoint : Endpoint}
    (hresolve : (Paths.below apiPrefix).resolve path = some destination)
    (hlookup : Endpoint.bindings.lookup (method, destination.action) = some endpoint) :
    named? apiPrefix method path query =
      Endpoint.named? ⟨path, query, headers, destination.account, body⟩ endpoint := by
  rw [named?, hresolve, Option.bind_some]
  by_cases hcreate : endpoint = .create
  · subst hcreate
    rw [if_pos (Endpoint.eq_of_lookup_create hlookup)]
    rfl
  · have hnot : ¬(method = .post ∧ destination.action = Action.none) := by
      rintro ⟨rfl, haction⟩
      rw [haction, Endpoint.lookup_create] at hlookup
      exact hcreate (Option.some.inj hlookup).symm
    rw [if_neg hnot]
    cases endpoint <;> first | rfl | exact absurd rfl hcreate

-- A request is answered, and then changes nothing but accounts below the root of the one that it
-- names, or it changes nothing at all. Of all GETs only the one that closes an account changes any.
theorem request_all_or_nothing {ledger after : Ledger} {apiPrefix path body : String}
    {method : Method} {query headers : SortedMap String String}
    {outcome : Except (Failure RouteError) String}
    (hroute : ledger.route (Endpoint.table apiPrefix) method path query headers body =
      (after, outcome))
    (hfits : ∀ overflow, outcome ≠ .error (.overflow overflow)) :
    ((∀ text, outcome ≠ .ok text) → after = ledger) ∧
    (method = .get →
      (∀ destination, (Paths.below apiPrefix).resolve path = some destination →
        destination.action ≠ Action.close) → after = ledger) ∧
    ∀ key, after.get? key ≠ ledger.get? key → after.contains key = true ∧
      ∃ name, named? apiPrefix method path query = some name ∧ key.root = Key.rootOf name := by
  rcases ledger.route_cases apiPrefix method path query headers body with
    hsame | ⟨destination, endpoint, hresolve, hlookup⟩
  · rw [hroute] at hsame
    exact ⟨fun _ => hsame, fun _ _ => hsame, fun key hne => absurd (congrArg (get? · key) hsame) hne⟩
  · rw [route_of_resolve hresolve hlookup] at hroute
    rw [named?_of_lookup headers body hresolve hlookup]
    generalize RouteRequest.mk path query headers destination.account body = request at hroute ⊢
    obtain ⟨rfl, rfl⟩ := Prod.mk.inj hroute
    have hanswers : ∀ overflow,
        (endpoint.answer ledger request).2 ≠ .error (.overflow overflow) := fun overflow h =>
      hfits overflow (by rw [h]; rfl)
    rcases Endpoint.answer_cases ledger request endpoint with hsame | ⟨operation, hperforms⟩
    · exact ⟨fun _ => hsame, fun _ _ => hsame, fun key hne => absurd (congrArg (get? · key) hsame) hne⟩
    · refine ⟨fun hnot => ?_, ?_, fun key hne => hperforms.get?_ne hanswers hne⟩
      · exact hperforms.fst_of_not_ok hanswers fun text h => hnot text (by rw [h]; rfl)
      · rintro rfl hclose
        exact Endpoint.answer_fst_of_get hlookup (hclose destination hresolve) ledger request

-- A spend account below a closed one, and what a client asks for by name.
def shut : Ledger :=
  let created := (empty.create ⟨"a:b"⟩ .spend).1
  (created.close ⟨"a"⟩).1

def naming (name : String) : SortedMap String String :=
  .ofList [("accountName", name), ("accountType", "budget")]

def asked (name : String) : Reply RouteError :=
  shut.route (Endpoint.table "/v1") .post "/v1/accounts" (naming name) .empty ""

-- Nothing may be created below the spend account, so what is above it stays closed. Elsewhere a
-- creation brings along what is missing above it.
theorem request_all_or_nothing_created :
    (asked "a:b:c").1 = shut ∧ (asked "d:e").1.contains ⟨"d"⟩ = true ∧
      ∃ name, named? "/v1" .post "/v1/accounts" (naming "d:e") = some name ∧
        (⟨"d"⟩ : Key).root = Key.rootOf name := by
  have hroute (name : String) : shut.route (Endpoint.table "/v1") .post "/v1/accounts"
      (naming name) .empty "" = ((asked name).1, (asked name).2) := rfl
  have hrefused : (asked "a:b:c").2 = .error (.refused (.handler (.validation
      (LedgerError.underSpend ⟨"a:b"⟩ ⟨"a:b:c"⟩).message))) := by decide +kernel
  have hmade : (asked "d:e").2 = .ok (Account.new ⟨"d:e"⟩ .budget).text := by decide +kernel
  have hnew : (asked "d:e").1.get? ⟨"d"⟩ ≠ shut.get? ⟨"d"⟩ := by decide +kernel
  obtain ⟨hkept, -, -⟩ := request_all_or_nothing (hroute "a:b:c") (by rw [hrefused]; nofun)
  obtain ⟨-, -, hlocal⟩ := request_all_or_nothing (hroute "d:e") (by rw [hmade]; nofun)
  exact ⟨hkept (by rw [hrefused]; nofun), hlocal ⟨"d"⟩ hnew⟩

end Ledger

end ShardedLedger
